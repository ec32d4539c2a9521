import Stencil.CommandLine
import Stencil.Proofs.Catalog.Configuration
import Stencil.Proofs.Catalog.Faults
import Stencil.Proofs.Catalog.FileNames

/-!
# Stages of the command line

A run of the command has four stages: the templates of the directory are loaded, the context file is
read as text, its text is read as a document, and the page is rendered. It is all or nothing. When
all stages succeed, the standard output is the output of the page. Otherwise it is empty, and the
first stage that fails is reported with its own fault. What is logged on the way does not count.

How arguments and documents are read and how a report is laid out is left open, and taken from an
interface. Of a walk through a directory only what it lists is used, and in which order.

So a malformed file in the directory is reported whatever the name of the page, the context and the
layout are. There is one exception, the one that loading makes for a text with the digest of what is
published under the name of its template: an earlier file of the same directory may have that name,
if the stem of one of them is `.`, and a text with that digest.

## Main definitions

* `Stencil.FileTree.IsShadowed`: the files that loading may pass over.
* `Stencil.CommandLine.HasContext`, `Stencil.CommandLine.Renders`, `Stencil.CommandLine.StopsWith`:
  a context, the stages when all of them succeed, and the first one that fails.

## Main results

* `Stencil.Catalog.exists_loadDirectory_eq_error`: a malformed file ends the loading.
* `Stencil.CommandLine.renders_or_stopsWith`: all stages succeed, or there is a first one that
  fails.
* `Stencil.CommandLine.runWith_all_or_nothing`: what a run writes.
-/

namespace Stencil

/-! ### A malformed file ends the loading -/

namespace Catalog

variable {offers front back : List (String × Source)} {name text : String} {cause : Fault}

/-- What a load into the empty catalog publishes comes from one of its sources. -/
theorem exists_mem_of_get?_insertEach {p : Published}
    (h : (empty.insertEach offers).1.get? name = some p) :
    ∃ source, (name, .ok source) ∈ offers ∧ p.template.digest = Text.digest source := by
  have hkeep : ∀ (r : Catalog) other source q, (other, .ok source) ∈ offers →
      r.insert other source = .ok q →
      (∀ name p, r.get? name = some p →
        ∃ source, (name, .ok source) ∈ offers ∧ p.template.digest = Text.digest source) →
      ∀ name p, q.1.get? name = some p →
        ∃ source, (name, .ok source) ∈ offers ∧ p.template.digest = Text.digest source := by
    intro r other source q hmem hinsert hr name p hp
    by_cases hname : name = other
    · obtain ⟨hget, hdigest⟩ := get?_insert_self hinsert
      rw [← hname, hp] at hget
      cases hget
      exact ⟨source, hname ▸ hmem, hdigest⟩
    · rw [get?_insert_of_ne hinsert hname] at hp
      exact hr name p hp
  exact insertEach_invariant hkeep (by rintro name p ⟨⟩) name p h

/-- A malformed source is not accepted, unless an earlier one of its name has its digest. -/
theorem not_acceptsEach_empty (hmalformed : Body.ofSource text = .error cause)
    (hfresh : ∀ source, (name, .ok source) ∈ front → Text.digest source ≠ Text.digest text) :
    ¬ empty.AcceptsEach (front ++ (name, .ok text) :: back) := by
  intro haccepts
  obtain ⟨source, hsource, hread | ⟨p, hp, hdigest⟩⟩ := haccepts front (name, .ok text) back rfl
  · cases hsource
    obtain ⟨ns, hns⟩ := hread
    rw [hmalformed] at hns
    cases hns
  · cases hsource
    obtain ⟨earlier, hmem, hearlier⟩ := exists_mem_of_get?_insertEach hp
    exact hfresh earlier hmem (hearlier.symm.trans hdigest)

end Catalog

namespace FileTree

/-- An earlier file has the same template name, and a text with the same digest. -/
def IsShadowed (before : List (List String × String)) (file : List String × String) : Prop :=
  ∃ g ∈ before, templateName g.1 = templateName file.1 ∧ Text.digest g.2 = Text.digest file.2

instance (before : List (List String × String)) (file : List String × String) :
    Decidable (IsShadowed before file) :=
  inferInstanceAs (Decidable (∃ g ∈ before, _ ∧ _))

variable {entries : List (String × FileTree)} {directory extension : String}
  {before behind : List (List String × String)} {file : List String × String}

/-- Where no file has the stem `.`, none is shadowed. -/
theorem not_isShadowed (hproper : (FileTree.directory entries).IsProper)
    (hplain : ∀ f ∈ (FileTree.directory entries).readableFiles directory extension,
      Path.HasPlainStem f.1)
    (hfiles : (FileTree.directory entries).readableFiles directory extension =
      before ++ file :: behind) : ¬ IsShadowed before file := by
  rintro ⟨g, hg, hname, -⟩
  have hnodup := nodup_templateName hproper hplain
  rw [hfiles, List.map_append, List.map_cons] at hnodup
  exact (List.nodup_append.1 hnodup).2.2 _ (List.mem_map_of_mem hg) _ List.mem_cons_self hname

/-- A file that can be read is offered behind the files in front of it. -/
theorem exists_templateSources_eq (hproper : (FileTree.directory entries).IsProper)
    (hfiles : (FileTree.directory entries).readableFiles directory extension =
      before ++ file :: behind) :
    ∃ front back, (FileTree.directory entries).files.templateSources directory extension =
        front ++ (templateName file.1, .ok file.2) :: back ∧
      ∀ name source, (name, .ok source) ∈ front → (name, source) ∈ before.map entry := by
  have hassets :
      ((FileTree.directory entries).files.templateSources directory extension).filterMap asset? =
        before.map entry ++ entry file :: behind.map entry := by
    rw [filterMap_asset?_templateSources hproper, hfiles, List.map_append, List.map_cons]
  obtain ⟨front, rest, hsources, hfront, hrest⟩ := List.filterMap_eq_append_iff.1 hassets
  obtain ⟨skipped, offer, back, rfl, hskipped, hoffer, -⟩ := List.filterMap_eq_cons_iff.1 hrest
  obtain rfl := asset?_eq_some_iff.1 hoffer
  refine ⟨front ++ skipped, back, by rw [hsources, List.append_assoc], fun name source hmem => ?_⟩
  rcases List.mem_append.1 hmem with hmem | hmem
  · rw [← hfront]
    exact List.mem_filterMap.2 ⟨_, hmem, asset?_eq_some_iff.2 rfl⟩
  · have hnone := hskipped _ hmem
    rw [asset?_eq_some_iff.2 rfl] at hnone
    cases hnone

end FileTree

namespace Catalog

variable {disk : Disk} {directory extension : String} {tree : FileTree} {cause : Fault}
  {before behind : List (List String × String)} {file : List String × String}

/-- A malformed file ends the loading of its directory into the empty catalog, unless it is shadowed
by an earlier one. The fault is that of the first source that is not accepted. -/
theorem exists_loadDirectory_eq_error (htree : disk.directory? directory = some tree)
    (hwalk : FileTree.IsWalk disk.walk) (hproper : tree.IsProper)
    (hfiles : tree.readableFiles directory extension = before ++ file :: behind)
    (hmalformed : Body.ofSource file.2 = .error cause)
    (hfresh : ¬ FileTree.IsShadowed before file) :
    ∃ fault, (empty.loadDirectory disk directory extension).2 = .error fault ∧
      ∃ front offer back,
        tree.files.templateSources directory extension = front ++ offer :: back ∧
        empty.AcceptsEach front ∧ reading offer = .error fault := by
  obtain ⟨entries, rfl⟩ := Disk.eq_directory_of_directory? htree
  have hload : empty.loadDirectory disk directory extension = empty.insertEach
      ((FileTree.directory entries).files.templateSources directory extension) := by
    rw [loadDirectory_eq_insertEach, Disk.offers_eq_templateSources htree hwalk hproper]
  obtain ⟨front, back, hsources, hearlier⟩ := FileTree.exists_templateSources_eq hproper hfiles
  have hrefused : ¬ empty.AcceptsEach
      ((FileTree.directory entries).files.templateSources directory extension) := by
    rw [hsources]
    refine not_acceptsEach_empty hmalformed fun source hmem hdigest => hfresh ?_
    obtain ⟨g, hg, hentry⟩ := List.mem_map.1 (hearlier _ source hmem)
    obtain ⟨hname, rfl⟩ := Prod.mk.inj hentry
    exact ⟨g, hg, hname, hdigest⟩
  rw [← exists_insertEach_eq_ok_iff, ← exists_eq_error_iff] at hrefused
  obtain ⟨fault, hfault⟩ := hrefused
  exact ⟨fault, by rw [hload, hfault], insertEach_eq_error hfault⟩

end Catalog

namespace CommandLine

/-! ### Stages -/

/-- A context file leads to a context: there is none without a file, and otherwise it is what the
text of the file means. -/
inductive HasContext (on : Interface) (disk : Disk) : Option String → Option Datum → Prop
  | absent : HasContext on disk none none
  | document {path document : String} {d : Datum} (htext : disk.readText path = .ok document)
      (hread : on.readDocument document = .ok d) : HasContext on disk (some path) (some d)

/-- All stages succeed: the templates of the directory are loaded, the context file leads to a
context, and the page has an output. -/
inductive Renders (on : Interface) (disk : Disk) (request : Request) : String → Prop
  | intro {catalog : Catalog} {count : Nat} {context : Option Datum} {output : String}
      (hload : Catalog.empty.loadDirectory disk request.directory "html" = (catalog, .ok count))
      (hcontext : HasContext on disk request.contextFile context)
      (hpage : catalog.render request.name context request.layout = .ok output) :
      Renders on disk request output

/-- A stage fails after those before it have succeeded, and its fault is reported. The stages behind
it do not count. -/
inductive StopsWith (on : Interface) (disk : Disk) (request : Request) : Report → Prop
  /-- The templates cannot be loaded. -/
  | templates {catalog : Catalog} {fault : Fault}
      (hload : Catalog.empty.loadDirectory disk request.directory "html" =
        (catalog, .error fault)) :
      StopsWith on disk request
        (faultReport ("failed to load templates from " ++ request.directory) fault)
  /-- The context file cannot be read as text. -/
  | contextText {catalog : Catalog} {count : Nat} {path : String} {fault : DiskFault}
      (hload : Catalog.empty.loadDirectory disk request.directory "html" = (catalog, .ok count))
      (hpath : request.contextFile = some path) (htext : disk.readText path = .error fault) :
      StopsWith on disk request ⟨"failed to read " ++ path, [fault.message]⟩
  /-- The text of the context file is no document. -/
  | contextDocument {catalog : Catalog} {count : Nat} {path document reason : String}
      (hload : Catalog.empty.loadDirectory disk request.directory "html" = (catalog, .ok count))
      (hpath : request.contextFile = some path) (htext : disk.readText path = .ok document)
      (hread : on.readDocument document = .error reason) :
      StopsWith on disk request ⟨"invalid JSON in " ++ path, [reason]⟩
  /-- The page has no output. -/
  | page {catalog : Catalog} {count : Nat} {context : Option Datum} {fault : Fault}
      (hload : Catalog.empty.loadDirectory disk request.directory "html" = (catalog, .ok count))
      (hcontext : HasContext on disk request.contextFile context)
      (hpage : catalog.render request.name context request.layout = .error fault) :
      StopsWith on disk request (faultReport ("failed to render " ++ request.name) fault)

variable {on : Interface} {disk : Disk} {request : Request} {output directory : String}
  {report : Report} {catalog : Catalog} {fault : Fault} {contextFile : Option String}
  {context : Option Datum}

/-- The settings of the command name its directory, and nothing else. -/
theorem configure_eq_loadDirectory (disk : Disk) (directory : String) :
    Catalog.empty.configure disk (Settings.default.withDirectory directory) =
      Catalog.empty.loadDirectory disk directory "html" := by
  have hoffers : (Settings.default.withDirectory directory).offers disk =
      disk.offers directory "html" := rfl
  rw [Catalog.configure_eq_insertEach, Catalog.loadDirectory_eq_insertEach, hoffers]
  split
  · rename_i fault hfault
    exact Prod.ext rfl hfault.symm
  · rename_i count hcount
    exact Prod.ext rfl hcount.symm

theorem loadTemplates_of_ok {count : Nat}
    (h : Catalog.empty.loadDirectory disk directory "html" = (catalog, .ok count)) :
    loadTemplates disk directory = .ok catalog := by
  rw [loadTemplates, configure_eq_loadDirectory, h]

theorem loadTemplates_of_error
    (h : Catalog.empty.loadDirectory disk directory "html" = (catalog, .error fault)) :
    loadTemplates disk directory =
      .error (faultReport ("failed to load templates from " ++ directory) fault) := by
  rw [loadTemplates, configure_eq_loadDirectory, h]

/-- A context file that leads to a context is read. -/
theorem HasContext.mapM_eq (h : HasContext on disk contextFile context) :
    contextFile.mapM (readContext on disk) = .ok context := by
  cases h with
  | absent => rfl
  | document htext hread =>
    rw [Option.mapM_some, readContext, htext]
    simp only [hread]
    rfl

/-- When all stages succeed, the output of the page is that of the request. -/
theorem Renders.render_eq (h : Renders on disk request output) :
    render on disk request = .ok output := by
  obtain ⟨hload, hcontext, hpage⟩ := h
  rw [render, loadTemplates_of_ok hload, hcontext.mapM_eq]
  show (Catalog.render _ _ _ _).mapError _ = _
  rw [hpage]
  rfl

/-- The first stage that fails decides the outcome of the request. -/
theorem StopsWith.render_eq (h : StopsWith on disk request report) :
    render on disk request = .error report := by
  cases h with
  | templates hload =>
    rw [render, loadTemplates_of_error hload]
    rfl
  | contextText hload hpath htext =>
    rw [render, loadTemplates_of_ok hload, hpath, Option.mapM_some, readContext, htext]
    rfl
  | contextDocument hload hpath htext hread =>
    rw [render, loadTemplates_of_ok hload, hpath, Option.mapM_some, readContext, htext]
    simp only [hread]
    rfl
  | page hload hcontext hpage =>
    rw [render, loadTemplates_of_ok hload, hcontext.mapM_eq]
    show (Catalog.render _ _ _ _).mapError _ = _
    rw [hpage]
    rfl

/-- All stages succeed, or there is a first one that fails. -/
theorem renders_or_stopsWith (on : Interface) (disk : Disk) (request : Request) :
    (∃ output, Renders on disk request output) ∨
      ∃ report, StopsWith on disk request report := by
  obtain ⟨catalog, answer, hload⟩ : ∃ catalog answer,
      Catalog.empty.loadDirectory disk request.directory "html" = (catalog, answer) := ⟨_, _, rfl⟩
  cases answer with
  | error fault => exact .inr ⟨_, .templates hload⟩
  | ok count =>
    have hpage : ∀ context, HasContext on disk request.contextFile context →
        (∃ output, Renders on disk request output) ∨
          ∃ report, StopsWith on disk request report := by
      intro context hcontext
      cases hrender : catalog.render request.name context request.layout with
      | ok output => exact .inl ⟨output, .intro hload hcontext hrender⟩
      | error fault => exact .inr ⟨_, .page hload hcontext hrender⟩
    cases hpath : request.contextFile with
    | none => exact hpage none (hpath ▸ .absent)
    | some path =>
      cases htext : disk.readText path with
      | error fault => exact .inr ⟨_, .contextText hload hpath htext⟩
      | ok document =>
        cases hread : on.readDocument document with
        | error reason => exact .inr ⟨_, .contextDocument hload hpath htext hread⟩
        | ok d => exact hpage (some d) (hpath ▸ .document htext hread)

/-! ### What a run writes -/

variable {args : List String}

theorem runWith_of_parse (hargs : on.parse args = .ok request) :
    runWith on disk args = answer on disk request := by
  rw [runWith, hargs]

/-- **The command is all or nothing.** For arguments that make a request, the exit code is 0 exactly
when all stages succeed, and then the standard output is the output of the page and there is no
report. Otherwise there is a first stage that fails; the exit code is 1, the standard output is
empty, and the report is that of this stage.

A file below the directory that is malformed makes this stage the loading of the templates, whatever
else fails: the report is that of the first source that is not accepted. Shadowed files are
excepted. There are none where no file has the stem `.`. -/
theorem runWith_all_or_nothing (on : Interface) (disk : Disk)
    (hargs : on.parse args = .ok request) :
    ((runWith on disk args).exitCode = 0 ↔ ∃ output, Renders on disk request output) ∧
    (∀ output, Renders on disk request output →
      runWith on disk args = ⟨0, output, ""⟩) ∧
    ((runWith on disk args).exitCode ≠ 0 →
      ∃ report, StopsWith on disk request report ∧
        runWith on disk args = ⟨1, "", on.reportText report⟩) ∧
    (∀ report, StopsWith on disk request report →
      runWith on disk args = ⟨1, "", on.reportText report⟩) ∧
    (FileTree.IsWalk disk.walk → ∀ tree, disk.directory? request.directory = some tree →
      tree.IsProper →
        let files := tree.readableFiles request.directory "html"
        (∀ before file behind cause, files = before ++ file :: behind →
          Body.ofSource file.2 = .error cause → ¬ FileTree.IsShadowed before file →
            ∃ fault front offer back,
              runWith on disk args = ⟨1, "", on.reportText (faultReport
                ("failed to load templates from " ++ request.directory) fault)⟩ ∧
              tree.files.templateSources request.directory "html" = front ++ offer :: back ∧
              Catalog.empty.AcceptsEach front ∧ reading offer = .error fault) ∧
        ((∀ f ∈ files, Path.HasPlainStem f.1) →
          ∀ before file behind, files = before ++ file :: behind →
            ¬ FileTree.IsShadowed before file)) := by
  have hsuccess : ∀ output, Renders on disk request output →
      runWith on disk args = ⟨0, output, ""⟩ := by
    intro output h
    rw [runWith_of_parse hargs, answer, h.render_eq]
  have hfailure : ∀ report, StopsWith on disk request report →
      runWith on disk args = ⟨1, "", on.reportText report⟩ := by
    intro report h
    rw [runWith_of_parse hargs, answer, h.render_eq]
  refine ⟨⟨fun hexit => ?_, ?_⟩, hsuccess, fun hexit => ?_, hfailure,
    fun hwalk tree htree hproper => ⟨fun before file behind cause hfiles hmalformed hfresh => ?_, fun hplain before file behind
      hfiles => ?_⟩⟩
  · rcases renders_or_stopsWith on disk request with hrenders | ⟨report, hstops⟩
    · exact hrenders
    · rw [hfailure report hstops] at hexit
      cases hexit
  · rintro ⟨output, hrenders⟩
    rw [hsuccess output hrenders]
  · rcases renders_or_stopsWith on disk request with ⟨output, hrenders⟩ | ⟨report, hstops⟩
    · rw [hsuccess output hrenders] at hexit
      exact absurd rfl hexit
    · exact ⟨report, hstops, hfailure report hstops⟩
  · obtain ⟨fault, hfault, front, offer, back, hsources, haccepts, hreading⟩ :=
      Catalog.exists_loadDirectory_eq_error htree hwalk hproper hfiles hmalformed hfresh
    exact ⟨fault, front, offer, back, hfailure _ (.templates (Prod.ext rfl hfault)), hsources,
      haccepts, hreading⟩
  · obtain ⟨entries, rfl⟩ := Disk.eq_directory_of_directory? htree
    exact FileTree.not_isShadowed hproper hplain hfiles

/-- A malformed file, when the context file is missing; a context that is no document, when there is
no such page; and a page with its context. -/
theorem runWith_all_or_nothing_of_three :
    let tree : FileTree := .directory [("a.html", .ofText "A"), ("b.html", .ofText "<%")]
    let document := s!"{openBrace}\"x\": \"1\"{closeBrace}"
    let disk : Disk := (FileTree.directory [("t", tree),
      ("u", .directory [("p.html", .ofText "<%= x %>")]),
      ("c.json", .ofText document), ("d.json", .ofText openBrace)]).disk
    FileTree.IsWalk disk.walk ∧ disk.directory? "t" = some tree ∧ tree.IsProper ∧
      tree.readableFiles "t" "html" = [(["a.html"], "A"), (["b.html"], "<%")] ∧
      standard.parse ["t", "a", "e.json"] = .ok ⟨"t", "a", some "e.json", none⟩ ∧
      (∃ fault, runWith standard disk ["t", "a", "e.json"] =
        ⟨1, "", standard.reportText
          (faultReport ("failed to load templates from " ++ "t") fault)⟩) ∧
      standard.parse ["u", "q", "d.json"] = .ok ⟨"u", "q", some "d.json", none⟩ ∧
      runWith standard disk ["u", "q", "d.json"] = ⟨1, "", standard.reportText
        ⟨"invalid JSON in " ++ "d.json", [invalidDocumentReason]⟩⟩ ∧
      standard.parse ["u", "p", "c.json"] = .ok ⟨"u", "p", some "c.json", none⟩ ∧
      runWith standard disk ["u", "p", "c.json"] = ⟨0, "1", ""⟩ := by
  intro tree document disk
  have hwalk : FileTree.IsWalk disk.walk := FileTree.isWalk_files
  have htree : disk.directory? "t" = some tree := by rfl
  have hproper : tree.IsProper := by decide +kernel
  have hfiles : tree.readableFiles "t" "html" = [(["a.html"], "A"), (["b.html"], "<%")] := by
    decide +kernel
  have hmalformed : Body.ofSource "<%" = .error .unclosedTag :=
    Body.ofSource_of_items_error (by decide +kernel)
  have hfirst : standard.parse ["t", "a", "e.json"] = .ok ⟨"t", "a", some "e.json", none⟩ := by
    decide +kernel
  have hsecond : standard.parse ["u", "q", "d.json"] = .ok ⟨"u", "q", some "d.json", none⟩ := by
    decide +kernel
  have hthird : standard.parse ["u", "p", "c.json"] = .ok ⟨"u", "p", some "c.json", none⟩ := by
    decide +kernel
  have hload : (Catalog.empty.loadDirectory disk "u" "html").2 = .ok 1 := by decide +kernel
  obtain ⟨-, -, -, -, hdirectory⟩ := runWith_all_or_nothing standard disk hfirst
  obtain ⟨fault, -, -, -, hmalformedRun, -⟩ := (hdirectory hwalk tree htree hproper).1
    [(["a.html"], "A")] (["b.html"], "<%") [] .unclosedTag hfiles hmalformed (by decide +kernel)
  have hbroken : disk.readText "d.json" = .ok openBrace := by decide +kernel
  have hstops : StopsWith standard disk ⟨"u", "q", some "d.json", none⟩
      ⟨"invalid JSON in " ++ "d.json", [invalidDocumentReason]⟩ :=
    .contextDocument (Prod.ext rfl hload) rfl hbroken (by rfl)
  have htext : disk.readText "c.json" = .ok document := by decide +kernel
  have hcharacters : document.toList = ['{', '"', 'x', '"', ':', ' ', '"', '1', '"', '}'] := by
    decide +kernel
  have hread : standard.readDocument document =
      .ok (.map [.key (.str "x"), .value (.str "1")]) := by
    show readJson document = _
    rw [readJson, Json.parse?, hcharacters]
    rfl
  have hrenders : Renders standard disk ⟨"u", "p", some "c.json", none⟩ "1" :=
    .intro (Prod.ext rfl hload) (.document htext hread) (by decide +kernel)
  exact ⟨hwalk, htree, hproper, hfiles, hfirst, ⟨fault, hmalformedRun⟩, hsecond,
    (runWith_all_or_nothing standard disk hsecond).2.2.2.1 _ hstops, hthird,
    (runWith_all_or_nothing standard disk hthird).2.1 _ hrenders⟩

/-- Two texts have one digest, and the files that hold them have one template name, since the stem
of one of them is `.`. The second one is malformed, but it is passed over. -/
theorem runWith_passes_over_malformed_of_same_digest :
    let tree : FileTree := .directory
      [("...html", .ofText "ok6-Dt70CIXBd"), ("..html", .ofText "<%R67w1ILlRlo")]
    let disk : Disk := (FileTree.directory [("t", tree)]).disk
    standard.parse ["t", ".."] = .ok ⟨"t", "..", none, none⟩ ∧ disk.directory? "t" = some tree ∧
      tree.IsProper ∧ (["..html"], "<%R67w1ILlRlo") ∈ tree.readableFiles "t" "html" ∧
      Body.ofSource "<%R67w1ILlRlo" = .error .unclosedTag ∧
      runWith standard disk ["t", ".."] = ⟨0, "ok6-Dt70CIXBd", ""⟩ := by
  intro tree disk
  have hmalformed : Body.ofSource "<%R67w1ILlRlo" = .error .unclosedTag :=
    Body.ofSource_of_items_error (by decide +kernel)
  exact ⟨by decide +kernel, by rfl, by decide +kernel, by decide +kernel, hmalformed,
    by decide +kernel⟩

end CommandLine

end Stencil
