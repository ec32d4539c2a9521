import Stencil.Proofs.Catalog.Loading
import Stencil.Proofs.FileTree.Walk

/-!
# Loading a directory

The template files of a directory are the files at any depth that have the extension and whose
content is text, in the order of the walk: depth first, the entries of each directory in ascending
order of their names. Loading the directory publishes them one after the other, each under the path
that leads to it, without the extension, and stops at the first one that is malformed. A path that
is no directory is a fault before anything is loaded.

A file is not read again when the template of its name has the digest of the content. So what is
loaded is what is in the files as long as these are told apart from the other sources of their
names; two sources with one digest, of which the second one stands in a file, show that this cannot
be left out.

## Main definitions

* `Stencil.FileTree.textFiles`: the template files of a tree, with their texts.
* `Stencil.FileTree.IsReadable`: a tree whose files can all be read.

## Main results

* `Stencil.FileTree.mem_textFiles_iff`, `Stencil.FileTree.pairwise_textFiles`: which files these
  are, and their order.
* `Stencil.FileTree.templateSources_eq`: they are what a directory offers to a catalog.
* `Stencil.Catalog.loadDirectory_publishes_textFiles`: loading a directory.
-/

namespace Stencil

/-! ### The template files of a tree -/

/-- A file that can be read has the text that its bytes make, if they make one. -/
theorem Content.text_eq_ok_iff {content : Content} {text : String} :
    content.text = .ok text ↔
      ∃ bytes, content = .ok bytes ∧ String.fromUTF8? bytes = some text := by
  obtain _ | bytes := content
  · exact iff_of_false nofun nofun
  · simp only [Content.text, Except.ok.injEq, exists_eq_left']
    cases String.fromUTF8? bytes <;> simp

namespace FileTree

/-- The text of a file, if the file has the extension and its content is text. -/
def textFile? (extension : String) (file : List String × Content) :
    Option (List String × String) :=
  if lastExtension? file.1 = some extension then
    file.2.text.toOption.map fun text => (file.1, text)
  else none

/-- The files of a tree that have the extension and whose content is text, in the order of the
walk. -/
def textFiles (extension : String) (t : FileTree) : List (List String × String) :=
  t.files.filterMap (textFile? extension)

/-- The source in a template file, under the name of the template. -/
def entry (file : List String × String) : String × String :=
  (templateName file.1, file.2)

/-- All files of the tree can be read, and none has a path that is too long for that. -/
def IsReadable (directory : String) (t : FileTree) : Prop :=
  ∀ f ∈ t.files, f.2.isOk = true ∧ Path.isTooLong (pathBelow directory f.1) = false

instance (directory : String) (t : FileTree) : Decidable (t.IsReadable directory) :=
  inferInstanceAs (Decidable (∀ f ∈ t.files, _))

variable {t : FileTree} {extension directory text : String} {names : List String}

theorem textFile?_eq_some_iff {f : List String × Content} :
    textFile? extension f = some (names, text) ↔
      f.1 = names ∧ lastExtension? names = some extension ∧ f.2.text = .ok text := by
  rw [textFile?]
  split
  · rename_i hextension
    simp only [Option.map_eq_some_iff, toOption_eq_some_iff]
    constructor
    · rintro ⟨s, hs, heq⟩
      cases heq
      exact ⟨rfl, hextension, hs⟩
    · rintro ⟨rfl, -, hs⟩
      exact ⟨text, hs, rfl⟩
  · rename_i hextension
    refine iff_of_false nofun ?_
    rintro ⟨rfl, h, -⟩
    exact hextension h

/-- The template files are the files at any depth that have the extension and hold text. -/
theorem mem_textFiles_iff (h : t.IsProper) :
    (names, text) ∈ t.textFiles extension ↔
      lastExtension? names = some extension ∧
        ∃ bytes, t.at? names = some (file (.ok bytes)) ∧ String.fromUTF8? bytes = some text := by
  simp only [textFiles, List.mem_filterMap, Prod.exists, textFile?_eq_some_iff]
  constructor
  · rintro ⟨names, content, hmem, rfl, hextension, htext⟩
    obtain ⟨bytes, rfl, hbytes⟩ := Content.text_eq_ok_iff.1 htext
    exact ⟨hextension, bytes, h.mem_files_iff.1 hmem, hbytes⟩
  · rintro ⟨hextension, bytes, hbytes, htext⟩
    exact ⟨names, .ok bytes, h.mem_files_iff.2 hbytes, rfl, hextension,
      Content.text_eq_ok_iff.2 ⟨bytes, rfl, htext⟩⟩

/-- The template files are in ascending lexicographic order of the names that lead to them. -/
theorem pairwise_textFiles (extension : String) (t : FileTree) :
    (t.textFiles extension).Pairwise fun f g => f.1 < g.1 := by
  rw [textFiles, List.pairwise_filterMap]
  refine t.pairwise_files.imp ?_
  rintro f g hlt ⟨names, text⟩ hf ⟨names', text'⟩ hg
  obtain ⟨rfl, -, -⟩ := textFile?_eq_some_iff.1 hf
  obtain ⟨rfl, -, -⟩ := textFile?_eq_some_iff.1 hg
  exact hlt

/-- A file of a directory that can be read is offered to a catalog when it is a template file, under
the name of the template. -/
theorem templateSource?_eq {f : List String × Content}
    (hordinary : ∀ name ∈ f.1, Path.IsOrdinary name) (hnames : f.1 ≠ []) (hread : f.2.isOk = true)
    (hshort : Path.isTooLong (pathBelow directory f.1) = false) :
    templateSource? directory extension f =
      (textFile? extension f).map fun g => (templateName g.1, .ok g.2) := by
  rw [templateSource?, textFile?, extension?_pathBelow hordinary hnames,
    templateName?_pathBelow hordinary]
  split
  · rw [Option.bind_some, source?, hshort]
    obtain ⟨names, content⟩ := f
    obtain ⟨fault⟩ | ⟨bytes⟩ := content
    · cases hread
    · simp only [Content.text]
      cases String.fromUTF8? bytes <;> rfl
  · rfl

/-- A directory offers its template files, in the order of the walk. -/
theorem templateSources_eq {entries : List (String × FileTree)}
    (h : (FileTree.directory entries).IsProper)
    (hread : (FileTree.directory entries).IsReadable directory) :
    (FileTree.directory entries).files.templateSources directory extension =
      assetOffers (((FileTree.directory entries).textFiles extension).map entry) := by
  rw [Listing.templateSources, textFiles, assetOffers, List.map_map, List.map_filterMap]
  refine List.filterMap_congr fun f hf => ?_
  have hlies := h.mem_files_iff.1 hf
  obtain ⟨hok, hshort⟩ := hread f hf
  exact templateSource?_eq (h.isOrdinary_of_at? hlies) (ne_nil_of_at?_directory hlies) hok hshort

end FileTree

/-! ### Loading -/

theorem Disk.eq_directory_of_directory? {disk : Disk} {path : String} {tree : FileTree}
    (h : disk.directory? path = some tree) : ∃ entries, tree = .directory entries := by
  rw [directory?] at h
  split at h
  · exact ⟨_, (Option.some.inj h).symm⟩
  · cases h

/-- A directory offers its files, in whatever way it is walked through. -/
theorem Disk.offers_eq_templateSources {disk : Disk} {directory : String} {tree : FileTree}
    (htree : disk.directory? directory = some tree) (hwalk : FileTree.IsWalk disk.walk)
    (hproper : tree.IsProper) (extension : String) :
    disk.offers directory extension = tree.files.templateSources directory extension := by
  rw [offers, htree]
  exact congrArg _ (hwalk.eq_files hproper)

namespace Catalog

/-- **Loading a directory.** A path that is no directory is a fault, and nothing is changed. In a
directory the template files are the files at any depth that have the extension and hold text, in
ascending lexicographic order of the names that lead to them, and the loader names each of them by
these names. As long as no file is mistaken for the template that is published under its name, nor
for another file of this name, the files are all published and counted if none of them is malformed.
Otherwise the first malformed file decides: its fault is the answer, the files before it are
published, and nothing else is changed. -/
theorem loadDirectory_publishes_textFiles (r : Catalog) (disk : Disk)
    (directory extension : String) :
    (disk.directory? directory = none →
      r.loadDirectory disk directory extension = (r, .error (.directoryNotFound directory))) ∧
    (FileTree.IsWalk disk.walk → ∀ tree, disk.directory? directory = some tree → tree.IsProper →
      tree.IsReadable directory →
        let files := tree.textFiles extension
        (∀ names text, (names, text) ∈ files ↔ FileTree.lastExtension? names = some extension ∧
          ∃ bytes, tree.at? names = some (.file (.ok bytes)) ∧
            String.fromUTF8? bytes = some text) ∧
        (files.Pairwise fun f g => f.1 < g.1) ∧
        (∀ f ∈ files, Path.templateName? directory (FileTree.pathBelow directory f.1) =
          some (FileTree.templateName f.1)) ∧
        (r.TellsApart (attempts (assetOffers (files.map FileTree.entry))) →
          (Faultless (files.map FileTree.entry) →
            r.Loads (files.map FileTree.entry) (.ok files.length)
              (r.loadDirectory disk directory extension)) ∧
          ∀ before file behind fault, files = before ++ file :: behind →
            Faultless (before.map FileTree.entry) → Body.ofSource file.2 = .error fault →
              r.Loads (before.map FileTree.entry)
                (.error (fault.inTemplate (FileTree.templateName file.1)))
                (r.loadDirectory disk directory extension))) := by
  refine ⟨fun hdirectory => by rw [loadDirectory, hdirectory], ?_⟩
  intro hwalk tree htree hproper hread files
  have hmem (names : List String) (text : String) :
      (names, text) ∈ files ↔ FileTree.lastExtension? names = some extension ∧
        ∃ bytes, tree.at? names = some (.file (.ok bytes)) ∧
          String.fromUTF8? bytes = some text :=
    FileTree.mem_textFiles_iff hproper
  have hname (f : List String × String) (hf : f ∈ files) :
      Path.templateName? directory (FileTree.pathBelow directory f.1) =
        some (FileTree.templateName f.1) := by
    obtain ⟨-, bytes, hbytes, -⟩ := (hmem f.1 f.2).1 hf
    exact FileTree.templateName?_pathBelow (hproper.isOrdinary_of_at? hbytes) directory
  refine ⟨hmem, FileTree.pairwise_textFiles extension tree, hname, fun hapart => ?_⟩
  obtain ⟨entries, rfl⟩ := Disk.eq_directory_of_directory? htree
  have hoffers : disk.offers directory extension = assetOffers (files.map FileTree.entry) :=
    (Disk.offers_eq_templateSources htree hwalk hproper extension).trans
      (FileTree.templateSources_eq hproper hread)
  rw [loadDirectory_eq_insertEach, hoffers]
  constructor
  · intro hfaultless
    rw [attempts_of_faultless hfaultless] at hapart
    simpa using hapart.insertEach_of_faultless hfaultless
  · intro before file behind fault hfiles hfaultless hfault
    rw [hfiles, List.map_append, assetOffers_append] at hapart ⊢
    exact hapart.insertEach_of_fault hfaultless (reading_ok_eq_error_iff.2 ⟨fault, hfault, rfl⟩)

/-- A directory with a directory that is named like a template file, a file that holds no text, a
file of another extension and a malformed file, over a template that the last file would replace.
This template has the digest of the first file, but another name. -/
theorem loadDirectory_publishes_textFiles_before_malformed :
    let tree : FileTree := .directory [("a.html", .ofText "JTMGiBLRmPc"),
      ("b.html", .directory [("c.d.html", .ofText "<%= x %>"), ("n.txt", .ofText "<%")]),
      ("e.html", .file (.ok ⟨#[255]⟩)), ("f.html", .ofText s!"<% {closeBrace} %>"),
      ("z.html", .ofText "Z")]
    let disk : Disk := (FileTree.directory [("t", tree)]).disk
    let r := run [.insert "z" "hWJoSS3VaXc", .insert "a" "old"]
    disk.directory? "t" = some tree ∧ FileTree.IsWalk disk.walk ∧ tree.IsProper ∧
      tree.IsReadable "t" ∧
      tree.textFiles "html" = [(["a.html"], "JTMGiBLRmPc"), (["b.html", "c.d.html"], "<%= x %>"),
        (["f.html"], s!"<% {closeBrace} %>"), (["z.html"], "Z")] ∧
      r.TellsApart (attempts (assetOffers ((tree.textFiles "html").map FileTree.entry))) ∧
      Text.digest "hWJoSS3VaXc" = Text.digest "JTMGiBLRmPc" ∧
      r.Loads [("a", "JTMGiBLRmPc"), ("b.html/c.d", "<%= x %>")]
        (.error (Fault.inTemplate (.brackets .strayClose) "f"))
        (r.loadDirectory disk "t" "html") ∧
      r.Loads [("c.d", "<%= x %>")] (.ok 1) (r.loadDirectory disk "t/b.html" "html") ∧
      disk.directory? "t/a.html" = none ∧
      r.loadDirectory disk "t/a.html" "html" = (r, .error (.directoryNotFound "t/a.html")) := by
  intro tree disk r
  have htree : disk.directory? "t" = some tree := by rfl
  have hproper : tree.IsProper := by decide +kernel
  have hread : tree.IsReadable "t" := by decide +kernel
  have hfiles : tree.textFiles "html" = [(["a.html"], "JTMGiBLRmPc"),
      (["b.html", "c.d.html"], "<%= x %>"), (["f.html"], s!"<% {closeBrace} %>"),
      (["z.html"], "Z")] := by
    decide +kernel
  have hapart : r.TellsApart
      (attempts (assetOffers ((tree.textFiles "html").map FileTree.entry))) :=
    tellsApart_of_digest_ne (by decide +kernel) (by decide +kernel)
  have hmissing : disk.directory? "t/a.html" = none := by rfl
  obtain ⟨-, -, -, hload⟩ := (loadDirectory_publishes_textFiles r disk "t" "html").2
    FileTree.isWalk_files tree htree hproper hread
  obtain ⟨-, -, -, hload'⟩ := (loadDirectory_publishes_textFiles r disk "t/b.html" "html").2
    FileTree.isWalk_files _ rfl (by decide +kernel) (by decide +kernel)
  refine ⟨htree, FileTree.isWalk_files, hproper, hread, hfiles, hapart, by decide +kernel, ?_,
    (hload' (tellsApart_of_digest_ne (by decide +kernel) (by decide +kernel))).1
      (by decide +kernel), hmissing, ?_⟩
  · exact (hload hapart).2 [(["a.html"], "JTMGiBLRmPc"), (["b.html", "c.d.html"], "<%= x %>")]
      (["f.html"], s!"<% {closeBrace} %>") [(["z.html"], "Z")] _ hfiles (by decide +kernel)
      Body.ofSource_stray_close
  · exact (loadDirectory_publishes_textFiles r disk "t/a.html" "html").1 hmissing

/-- Two sources have one digest. When the first one is published under the name of a file with the
second one, loading the file counts it and keeps the template of the first one. -/
theorem loadDirectory_keeps_template_of_same_digest :
    let tree : FileTree := .directory [("a.html", .ofText "JTMGiBLRmPc")]
    let disk : Disk := (FileTree.directory [("t", tree)]).disk
    let result := (run [.insert "a" "hWJoSS3VaXc"]).loadDirectory disk "t" "html"
    disk.directory? "t" = some tree ∧ tree.IsProper ∧ tree.IsReadable "t" ∧
      tree.textFiles "html" = [(["a.html"], "JTMGiBLRmPc")] ∧ Faultless [("a", "JTMGiBLRmPc")] ∧
      result.2 = .ok 1 ∧ ¬ result.1.Holds "a" "JTMGiBLRmPc" := by
  intro tree disk result
  have hitems : Item.ofSource "JTMGiBLRmPc" = .ok [.text "JTMGiBLRmPc"] := by decide +kernel
  exact ⟨rfl, by decide +kernel, by decide +kernel, by decide +kernel, by decide +kernel,
    by decide +kernel, not_holds_of_render_ne hitems none (by decide +kernel)⟩

end Catalog

end Stencil
