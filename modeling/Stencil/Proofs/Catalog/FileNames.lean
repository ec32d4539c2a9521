import Stencil.Proofs.Catalog.Directory
import Stencil.Proofs.Path.TemplateName

/-!
# The names that loading a directory makes

Loading a directory looks at the files below it that have the extension. The name of the template
of such a file is the path of the file below the directory, without the dot and the extension. As
the extension is known, the path can be read off the name, and no two files have one name. So a load
with success publishes as many names as it counts, and no file takes the name of another one.

Each of these names has the template of its own file, with the exception that the loader makes for
what is published before: a template with the digest of the file stays. It is that of the file as
long as the digests tell the sources from each other.

## Main definitions

* `Stencil.FileTree.Considers`: the files of a tree that loading looks at.
* `Stencil.FileTree.readableFiles`: those of them that hold text and can be read.

## Main results

* `Stencil.FileTree.mem_readableFiles_iff`: which files these are.
* `Stencil.FileTree.nodup_templateName`: their template names are all different.
* `Stencil.Catalog.offers_eq_of_loadDirectory`: they are what a load with success is offered.
* `Stencil.Catalog.loadDirectory_publishes_distinct_names`: the names of the files.
-/

namespace Stencil

namespace FileTree

/-! ### The files that loading looks at -/

/-- Loading the directory looks at the file: it lies in the tree, and its path has the extension. -/
def Considers (directory extension : String) (t : FileTree) (names : List String)
    (content : Content) : Prop :=
  t.at? names = some (file content) ∧
    Path.extension? (pathBelow directory names) = some extension

/-- The template files of a directory whose paths are not too long to be read. -/
def readableFiles (directory extension : String) (t : FileTree) : List (List String × String) :=
  (t.textFiles extension).filter fun f => !Path.isTooLong (pathBelow directory f.1)

variable {entries : List (String × FileTree)} {directory extension text : String}
  {names : List String} {content : Content}

section

variable (hproper : (FileTree.directory entries).IsProper)

include hproper

theorem considers_iff :
    (FileTree.directory entries).Considers directory extension names content ↔
      (FileTree.directory entries).at? names = some (file content) ∧
        lastExtension? names = some extension := by
  refine and_congr_right fun hlies => ?_
  rw [extension?_pathBelow (hproper.isOrdinary_of_at? hlies) (ne_nil_of_at?_directory hlies)]

/-- A file that loading looks at has the name that its names make. -/
theorem templateName?_of_considers
    (h : (FileTree.directory entries).Considers directory extension names content) :
    Path.templateName? directory (pathBelow directory names) = some (templateName names) :=
  templateName?_pathBelow (hproper.isOrdinary_of_at? h.1) directory

/-- Among the files that loading looks at, the name of a template determines its file. -/
theorem eq_of_considers {names' : List String} {content' : Content}
    (h : (FileTree.directory entries).Considers directory extension names content)
    (h' : (FileTree.directory entries).Considers directory extension names' content')
    (hplain : Path.HasPlainStem names) (hplain' : Path.HasPlainStem names')
    (heq : templateName names = templateName names') : names = names' :=
  eq_of_templateName_eq (hproper.isOrdinary_of_at? h.1) (hproper.isOrdinary_of_at? h'.1)
    ((considers_iff hproper).1 h).2 ((considers_iff hproper).1 h').2 hplain hplain' heq

/-- What is read are the files that loading looks at, as far as they hold text and their paths are
not too long. -/
theorem mem_readableFiles_iff :
    (names, text) ∈ (FileTree.directory entries).readableFiles directory extension ↔
      ∃ bytes, (FileTree.directory entries).Considers directory extension names (.ok bytes) ∧
        String.fromUTF8? bytes = some text ∧
        Path.isTooLong (pathBelow directory names) = false := by
  rw [readableFiles, List.mem_filter, mem_textFiles_iff hproper, Bool.not_eq_true']
  simp only [considers_iff hproper]
  constructor
  · rintro ⟨⟨hextension, bytes, hlies, htext⟩, hshort⟩
    exact ⟨bytes, ⟨hlies, hextension⟩, htext, hshort⟩
  · rintro ⟨bytes, ⟨hlies, hextension⟩, htext, hshort⟩
    exact ⟨⟨hextension, bytes, hlies, htext⟩, hshort⟩

end

/-! ### What is offered to a catalog -/

/-- Of a file that is offered, the source can be had if the path is not too long. -/
theorem templateSource?_bind_asset? {f : List String × Content}
    (hordinary : ∀ name ∈ f.1, Path.IsOrdinary name) (hnames : f.1 ≠ []) :
    (templateSource? directory extension f).bind asset? =
      ((textFile? extension f).filter fun g => !Path.isTooLong (pathBelow directory g.1)).map
        entry := by
  obtain ⟨names, content⟩ := f
  rw [templateSource?, textFile?, extension?_pathBelow hordinary hnames,
    templateName?_pathBelow hordinary]
  split
  · -- A file that cannot be read, for its path or by itself, is passed over, or offered as a fault.
    rw [Option.bind_some, source?]
    cases hlong : Path.isTooLong (pathBelow directory names) with
    | true =>
      rw [if_pos rfl]
      cases content.text <;> split <;> simp [asset?, Except.toOption, hlong]
    | false =>
      rw [if_neg (by simp)]
      cases content.text with
      | ok text => simp [asset?, Except.toOption, hlong, entry]
      | error fault => cases fault <;> rfl
  · rfl

/-- What can be had of the offers of a directory are the files that can be read. -/
theorem filterMap_asset?_templateSources (hproper : (FileTree.directory entries).IsProper) :
    ((FileTree.directory entries).files.templateSources directory extension).filterMap asset? =
      ((FileTree.directory entries).readableFiles directory extension).map entry := by
  rw [Listing.templateSources, readableFiles, textFiles, List.filter_filterMap,
    List.filterMap_filterMap, List.map_filterMap]
  refine List.filterMap_congr fun f hf => ?_
  have hlies := hproper.mem_files_iff.1 hf
  exact templateSource?_bind_asset? (hproper.isOrdinary_of_at? hlies)
    (ne_nil_of_at?_directory hlies)

/-! ### The names of the files -/

theorem keys_entries (files : List (List String × String)) :
    Dictionary.keys (files.map entry) = files.map fun f => templateName f.1 := by
  rw [Dictionary.keys, List.map_map]
  rfl

/-- The files that can be read have different template names if none of them has the stem `.`. -/
theorem nodup_templateName (hproper : (FileTree.directory entries).IsProper)
    (hplain : ∀ f ∈ (FileTree.directory entries).readableFiles directory extension,
      Path.HasPlainStem f.1) :
    (((FileTree.directory entries).readableFiles directory extension).map fun f =>
      templateName f.1).Nodup := by
  have hordered : ((FileTree.directory entries).readableFiles directory extension).Pairwise
      fun f g => f.1 < g.1 :=
    (pairwise_textFiles extension _).filter _
  rw [List.Nodup, List.pairwise_map]
  refine hordered.imp_of_mem ?_
  rintro ⟨names, text⟩ ⟨names', text'⟩ hf hg hlt heq
  obtain ⟨bytes, hconsiders, -, -⟩ := (mem_readableFiles_iff hproper).1 hf
  obtain ⟨bytes', hconsiders', -, -⟩ := (mem_readableFiles_iff hproper).1 hg
  have hnames : names = names' :=
    eq_of_considers hproper hconsiders hconsiders' (hplain _ hf) (hplain _ hg) heq
  exact List.lt_irrefl names' (hnames ▸ hlt)

end FileTree

namespace Catalog

variable {disk : Disk} {directory extension : String} {tree : FileTree} {r : Catalog}

/-! ### Loading -/

/-- A directory that is loaded with success offers the files that can be read, each under the name
of its template. -/
theorem offers_eq_of_loadDirectory (htree : disk.directory? directory = some tree)
    (hwalk : FileTree.IsWalk disk.walk) (hproper : tree.IsProper) {n : Nat}
    (h : (r.loadDirectory disk directory extension).2 = .ok n) :
    disk.offers directory extension =
      assetOffers ((tree.readableFiles directory extension).map FileTree.entry) := by
  obtain ⟨entries, rfl⟩ := Disk.eq_directory_of_directory? htree
  rw [loadDirectory_eq_insertEach] at h
  obtain ⟨assets, hassets, -⟩ := exists_eq_assetOffers_of_insertEach h
  have hoffers := Disk.offers_eq_templateSources htree hwalk hproper extension
  rw [hassets, ← FileTree.filterMap_asset?_templateSources hproper, ← hoffers, hassets,
    filterMap_asset?_assetOffers]

/-- **The names of the files of a directory.** For a file that loading looks at, what lies below the
directory on its path are the names that lead to it, and the name of its template, with the dot and
the extension behind it, is these names with slashes between them. So no two such files have one
template name. The stem `.` is excepted.

A load with success in which there is no such stem counts the files that can be read. Their template
names are all different, and each of them receives the text of its own file, whatever was published
before; as long as the digests tell the sources of the run from each other, each of them holds the
template of its own file. -/
theorem loadDirectory_publishes_distinct_names (disk : Disk) (hwalk : FileTree.IsWalk disk.walk)
    (directory extension : String) (tree : FileTree)
    (htree : disk.directory? directory = some tree) (hproper : tree.IsProper) :
    (∀ names content, tree.Considers directory extension names content →
      Path.HasPlainStem names →
        Path.below? directory (FileTree.pathBelow directory names) = some (names.map .normal) ∧
        ∃ name, Path.templateName? directory (FileTree.pathBelow directory names) = some name ∧
          name ++ "." ++ extension = String.intercalate "/" names) ∧
    (∀ names content names' content', tree.Considers directory extension names content →
      tree.Considers directory extension names' content' →
      Path.HasPlainStem names → Path.HasPlainStem names' → names ≠ names' →
        Path.templateName? directory (FileTree.pathBelow directory names) ≠
          Path.templateName? directory (FileTree.pathBelow directory names')) ∧
    let files := tree.readableFiles directory extension
    (∀ names text, (names, text) ∈ files ↔
      ∃ bytes, tree.Considers directory extension names (.ok bytes) ∧
        String.fromUTF8? bytes = some text ∧
        Path.isTooLong (FileTree.pathBelow directory names) = false) ∧
    ((∀ f ∈ files, Path.HasPlainStem f.1) →
      ∀ (r : Catalog) n, (r.loadDirectory disk directory extension).2 = .ok n →
        let result := (r.loadDirectory disk directory extension).1
        files.length = n ∧ (files.map fun f => FileTree.templateName f.1).Nodup ∧
        (∀ f ∈ files, Path.templateName? directory (FileTree.pathBelow directory f.1) =
            some (FileTree.templateName f.1) ∧
          r.Receives (FileTree.templateName f.1) f.2 result) ∧
        ∀ ops, r = run ops →
          Text.Distinguishes (attempted (ops ++ [.loadDirectory disk directory extension])) →
            ∀ f ∈ files, result.Holds (FileTree.templateName f.1) f.2) := by
  obtain ⟨entries, rfl⟩ := Disk.eq_directory_of_directory? htree
  refine ⟨fun names content h hplain => ?_, fun names content names' content' h h' hplain hplain'
    hne heq => ?_, fun names text => FileTree.mem_readableFiles_iff hproper,
    fun hplain r n hok => ?_⟩
  · have hordinary := hproper.isOrdinary_of_at? h.1
    exact ⟨Path.below?_eq_some_iff.2 (FileTree.components_pathBelow hordinary directory), _,
      FileTree.templateName?_of_considers hproper h,
      FileTree.templateName_append ((FileTree.considers_iff hproper).1 h).2 hplain⟩
  · rw [FileTree.templateName?_of_considers hproper h,
      FileTree.templateName?_of_considers hproper h'] at heq
    exact hne (FileTree.eq_of_considers hproper h h' hplain hplain' (Option.some.inj heq))
  · have hoffers := offers_eq_of_loadDirectory htree hwalk hproper hok
    have hnames := FileTree.nodup_templateName hproper hplain
    rw [← FileTree.keys_entries] at hnames
    rw [loadDirectory_eq_insertEach, hoffers] at hok ⊢
    have hlength := length_eq_of_insertEach hok
    rw [assetOffers, List.length_map, List.length_map] at hlength
    refine ⟨hlength, FileTree.keys_entries _ ▸ hnames, fun f hf => ⟨?_, ?_⟩, ?_⟩
    · obtain ⟨bytes, hconsiders, -, -⟩ := (FileTree.mem_readableFiles_iff hproper).1 hf
      exact FileTree.templateName?_of_considers hproper hconsiders
    · exact receives_of_insertEach hnames hok _ (List.mem_map_of_mem hf)
    · rintro ops rfl hdigest f hf
      have hapart := tellsApart_of_run hdigest
      rw [Operation.attempts, Operation.offers, hoffers] at hapart
      exact hapart.holds_of_insertEach hnames hok _ (List.mem_map_of_mem hf)

/-- A directory, spelled with a detour, with dots in the names of its files and of a directory. -/
theorem loadDirectory_publishes_distinct_names_with_dots :
    let tree : FileTree := .directory [("a..html", .ofText "1"),
      ("a.html", .directory [(".b.html", .ofText "2"), ("b.x.html", .ofText "3")]),
      ("b.txt", .ofText "<%")]
    let disk : Disk := (FileTree.directory [("t", tree)]).disk
    let dir := "./t/../t//"
    let ops : List Operation := [.insert "a." "old", .insert "c" "C"]
    let result := (run ops).loadDirectory disk dir "html"
    disk.directory? dir = some tree ∧ FileTree.IsWalk disk.walk ∧ tree.IsProper ∧
      tree.Considers dir "html" ["a.html", ".b.html"] (.ok "2".toUTF8) ∧
      tree.Considers dir "html" ["a..html"] (.ok "1".toUTF8) ∧
      Path.templateName? dir (FileTree.pathBelow dir ["a.html", ".b.html"]) = some "a.html/.b" ∧
      Path.templateName? dir (FileTree.pathBelow dir ["a.html", ".b.html"]) ≠
        Path.templateName? dir (FileTree.pathBelow dir ["a..html"]) ∧
      tree.readableFiles dir "html" =
        [(["a..html"], "1"), (["a.html", ".b.html"], "2"), (["a.html", "b.x.html"], "3")] ∧
      (∀ f ∈ tree.readableFiles dir "html", Path.HasPlainStem f.1) ∧ result.2 = .ok 3 ∧
      (run ops).Receives "a." "1" result.1 ∧
      Text.Distinguishes (attempted (ops ++ [.loadDirectory disk dir "html"])) ∧
      result.1.Holds "a.html/.b" "2" := by
  intro tree disk dir ops result
  have htree : disk.directory? "./t/../t//" = some tree := by rfl
  have hproper : tree.IsProper := by decide +kernel
  have hhidden : tree.Considers dir "html" ["a.html", ".b.html"] (.ok "2".toUTF8) :=
    ⟨by rfl, by decide +kernel⟩
  have hdotted : tree.Considers dir "html" ["a..html"] (.ok "1".toUTF8) :=
    ⟨by rfl, by decide +kernel⟩
  have hfiles : tree.readableFiles dir "html" =
      [(["a..html"], "1"), (["a.html", ".b.html"], "2"), (["a.html", "b.x.html"], "3")] := by
    decide +kernel
  have hplain : ∀ f ∈ tree.readableFiles dir "html", Path.HasPlainStem f.1 := by decide +kernel
  have hok : result.2 = .ok 3 := by decide +kernel
  have hdigest : Text.Distinguishes (attempted (ops ++ [.loadDirectory disk dir "html"])) := by
    decide +kernel
  have hwalk : FileTree.IsWalk disk.walk := FileTree.isWalk_files
  obtain ⟨-, hdistinct, -, hload⟩ :=
    loadDirectory_publishes_distinct_names disk hwalk dir "html" tree htree hproper
  obtain ⟨-, -, hreceives, hholds⟩ := hload hplain (run ops) 3 hok
  have hmem (f : List String × String)
      (hf : f ∈ [(["a..html"], "1"), (["a.html", ".b.html"], "2"), (["a.html", "b.x.html"], "3")]) :
      f ∈ tree.readableFiles dir "html" :=
    hfiles ▸ hf
  exact ⟨htree, hwalk, hproper, hhidden, hdotted, by decide +kernel,
    hdistinct _ _ _ _ hhidden hdotted (by decide +kernel) (by decide +kernel) (by decide),
    hfiles, hplain, hok, (hreceives (["a..html"], "1") (hmem _ (by decide))).2, hdigest,
    hholds ops rfl hdigest (["a.html", ".b.html"], "2") (hmem _ (by decide))⟩

/-- Two sources have one digest. When the first one is published under the name of a file with the
second one, the load of a directory with this file and another one counts both, but the name keeps
the template of the first source. -/
theorem loadDirectory_counts_file_of_same_digest :
    let tree : FileTree := .directory [("b.html", .ofText "B"),
      ("d", .directory [("a.html", .ofText "JTMGiBLRmPc")])]
    let disk : Disk := (FileTree.directory [("t", tree)]).disk
    let result := (run [.insert "d/a" "hWJoSS3VaXc"]).loadDirectory disk "t" "html"
    disk.directory? "t" = some tree ∧ tree.IsProper ∧
      tree.readableFiles "t" "html" = [(["b.html"], "B"), (["d", "a.html"], "JTMGiBLRmPc")] ∧
      (∀ f ∈ tree.readableFiles "t" "html", Path.HasPlainStem f.1) ∧ result.2 = .ok 2 ∧
      Path.templateName? "t" (FileTree.pathBelow "t" ["d", "a.html"]) = some "d/a" ∧
      ¬ result.1.Holds "d/a" "JTMGiBLRmPc" := by
  intro tree disk result
  have hitems : Item.ofSource "JTMGiBLRmPc" = .ok [.text "JTMGiBLRmPc"] := by decide +kernel
  exact ⟨by rfl, by decide +kernel, by decide +kernel, by decide +kernel, by decide +kernel,
    by decide +kernel, not_holds_of_render_ne hitems none (by decide +kernel)⟩

end Catalog

end Stencil
