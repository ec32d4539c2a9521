import Stencil.Proofs.Catalog.Directory

/-!
# Configuring a catalog

Configuring loads assets, then the template files of a directory, and sets the default layout when
both are loaded. Without a fault every asset and every file is counted, one that is unchanged or
whose name comes back too, and the last source of a name stands. A fault ends the configuring where
it occurs: the sources before it stay published, in the assets the directory is not read, and the
default layout stays what it was.

As for a directory, a source with the digest of the published one is taken for this one, so no
source may be mistaken for another one of its name.

## Main definitions

* `Stencil.Settings.fileOffers`: the sources in the template files that settings name.

## Main results

* `Stencil.Catalog.configure_of_ok`, `Stencil.Catalog.configure_of_error`: configuring, by what
  loading the sources gives.
* `Stencil.Catalog.configure_eq_of_assets_error`: a fault in the assets keeps the disk out.
* `Stencil.Catalog.configure_publishes_up_to_fault`: what configuring and what loading assets leave
  behind.
-/

namespace Stencil

/-! ### The files that settings name -/

/-- The sources in the template files that settings name. A directory that is missing is a fault in
their place. -/
def Settings.fileOffers (s : Settings) (disk : Disk) : List (String × Source) :=
  (s.directory.map fun directory => disk.offers directory s.extension).getD []

section

variable {s : Settings} {disk : Disk} {directory : String}

theorem Settings.offers_eq_append (s : Settings) (disk : Disk) :
    s.offers disk = assetOffers (s.assets.getD []) ++ s.fileOffers disk := rfl

theorem Settings.fileOffers_of_none (h : s.directory = none) : s.fileOffers disk = [] := by
  rw [fileOffers, h]
  rfl

theorem Settings.fileOffers_of_some (h : s.directory = some directory) :
    s.fileOffers disk = disk.offers directory s.extension := by
  rw [fileOffers, h]
  rfl

theorem Settings.fileOffers_of_missing (h : s.directory = some directory)
    (hmissing : disk.directory? directory = none) :
    s.fileOffers disk = [(directory, .error (.directoryNotFound directory))] := by
  rw [fileOffers_of_some h, Disk.offers, hmissing]

/-- The files that settings name are the template files of their directory. -/
theorem Settings.fileOffers_eq_textFiles (h : s.directory = some directory) {tree : FileTree}
    (htree : disk.directory? directory = some tree) (hwalk : FileTree.IsWalk disk.walk)
    (hproper : tree.IsProper) (hread : tree.IsReadable directory) :
    s.fileOffers disk = assetOffers ((tree.textFiles s.extension).map FileTree.entry) := by
  obtain ⟨entries, rfl⟩ := Disk.eq_directory_of_directory? htree
  rw [fileOffers_of_some h, Disk.offers_eq_templateSources htree hwalk hproper]
  exact FileTree.templateSources_eq hproper hread

end

namespace Catalog

variable {r r' : Catalog} {disk : Disk} {settings : Settings} {fault : Fault}
  {entries : List (String × String)} {answer : Except Fault Nat}

/-! ### The default layout -/

theorem get?_setLayout? (r : Catalog) (layout : Option String) (name : String) :
    (r.setLayout? layout).get? name = r.get? name := by
  cases layout <;> rfl

theorem defaultLayout_setLayout? (r : Catalog) (layout : Option String) :
    (r.setLayout? layout).defaultLayout = layout.or r.defaultLayout := by
  cases layout <;> rfl

/-- Setting the default layout leaves the templates alone. -/
theorem Overwrites.setLayout? (h : r.Overwrites entries r') (layout : Option String) :
    r.Overwrites entries (r'.setLayout? layout) where
  holds hlast := (h.holds hlast).of_get?_eq (get?_setLayout? r' layout _)
  untouched hname := (get?_setLayout? r' layout _).trans (h.untouched hname)

/-! ### Stages of configuring -/

/-- Loading leaves the default layout alone. -/
theorem defaultLayout_insertEach (r : Catalog) (offers : List (String × Source)) :
    (r.insertEach offers).1.defaultLayout = r.defaultLayout :=
  insertEach_invariant (P := fun r' => r'.defaultLayout = r.defaultLayout)
    (fun _ _ _ _ _ hinsert h => (defaultLayout_insert hinsert).trans h) rfl

theorem configure_of_ok {n : Nat} (h : (r.insertEach (settings.offers disk)).2 = .ok n) :
    r.configure disk settings =
      ((r.insertEach (settings.offers disk)).1.setLayout? settings.layout, .ok n) := by
  rw [configure_eq_insertEach, h]

/-- With a fault, configuring is loading: the default layout is not set. -/
theorem configure_of_error (h : (r.insertEach (settings.offers disk)).2 = .error fault) :
    r.configure disk settings = r.insertEach (settings.offers disk) := by
  rw [configure_eq_insertEach, h]
  exact Prod.ext rfl h.symm

/-- Configuring succeeds when loading does, with the same number of sources. -/
theorem insertEach_of_configure_eq_ok {n : Nat} (h : (r.configure disk settings).2 = .ok n) :
    (r.insertEach (settings.offers disk)).2 = .ok n := by
  cases hload : (r.insertEach (settings.offers disk)).2 with
  | error fault => rw [configure_of_error hload, hload] at h; cases h
  | ok k => rwa [configure_of_ok hload] at h

/-- When configuring ends with a fault, the default layout is what it was. -/
theorem defaultLayout_configure (h : (r.configure disk settings).2 = .error fault) :
    (r.configure disk settings).1.defaultLayout = r.defaultLayout := by
  cases hload : (r.insertEach (settings.offers disk)).2 with
  | error e => rw [configure_of_error hload, defaultLayout_insertEach]
  | ok n => rw [configure_of_ok hload] at h; cases h

theorem Loads.configure (h : r.Loads entries (.error fault) (r.insertEach (settings.offers disk))) :
    r.Loads entries (.error fault) (r.configure disk settings) := by
  rw [configure_of_error h.answer_eq]
  exact h

/-- With a fault in the assets, configuring is loading the assets: the directory is not read. -/
theorem configure_eq_of_assets_error (h : (r.insertAll (settings.assets.getD [])).2 = .error fault)
    (disk : Disk) : r.configure disk settings = r.insertAll (settings.assets.getD []) := by
  rw [configure]
  generalize r.insertAll (settings.assets.getD []) = loaded at h ⊢
  obtain ⟨r', answer⟩ := loaded
  cases h
  rfl

/-! ### Where the first fault is -/

section

variable {files before : List (String × String)} {name source : String}

/-- Without a fault, assets and files are all published and counted, and the default layout is
set. -/
theorem TellsApart.configure_of_faultless (h : r.TellsApart (attempts (settings.offers disk)))
    (hassets : Faultless (settings.assets.getD []))
    (hfiles : settings.fileOffers disk = assetOffers files) (hread : Faultless files) :
    (r.configure disk settings).2 = .ok ((settings.assets.getD []).length + files.length) ∧
      r.Overwrites (settings.assets.getD [] ++ files) (r.configure disk settings).1 ∧
      (r.configure disk settings).1.defaultLayout = settings.layout.or r.defaultLayout := by
  have hall : Faultless (settings.assets.getD [] ++ files) :=
    faultless_append_iff.2 ⟨hassets, hread⟩
  have heq : settings.offers disk = assetOffers (settings.assets.getD [] ++ files) := by
    rw [Settings.offers_eq_append, hfiles, assetOffers_append]
  rw [heq, attempts_of_faultless hall] at h
  have hload := h.insertEach_of_faultless hall
  rw [← heq] at hload
  rw [configure_of_ok hload.answer_eq]
  refine ⟨?_, hload.overwrites.setLayout? settings.layout, ?_⟩
  · rw [List.length_append]
  · rw [defaultLayout_setLayout?, hload.defaultLayout_eq]

/-- Configuring succeeds without a fault only. -/
theorem TellsApart.faultless_of_configure_eq_ok
    (h : r.TellsApart (attempts (settings.offers disk))) {n : Nat}
    (hok : (r.configure disk settings).2 = .ok n) :
    Faultless (settings.assets.getD []) ∧
      ∃ files, settings.fileOffers disk = assetOffers files ∧ Faultless files := by
  obtain ⟨entries, heq, hread⟩ :=
    h.exists_faultless_of_insertEach (insertEach_of_configure_eq_ok hok)
  obtain ⟨assets, files, rfl, hassets, hfiles⟩ := List.map_eq_append_iff.1 heq.symm
  obtain rfl := assetOffers_injective hassets
  obtain ⟨hassets, hread⟩ := faultless_append_iff.1 hread
  exact ⟨hassets, files, hfiles.symm, hread⟩

/-- A malformed asset ends the loading of assets. -/
theorem TellsApart.insertAll_of_malformed {behind : List (String × String)}
    {rest : List (String × Source)} {cause : Fault}
    (h : r.TellsApart (attempts (assetOffers before ++ (name, .ok source) :: rest)))
    (hread : Faultless before) (hcause : Body.ofSource source = .error cause) :
    r.Loads before (.error (cause.inTemplate name))
      (r.insertAll (before ++ (name, source) :: behind)) := by
  -- What stands behind the malformed asset is not attempted.
  have hattempts (rest : List (String × Source)) :
      attempts (assetOffers before ++ (name, .ok source) :: rest) = before ++ [(name, source)] := by
    rw [attempts_append hread, attempts_cons_of_error hcause]
  rw [hattempts, ← hattempts (assetOffers behind)] at h
  rw [insertAll_eq_insertEach, assetOffers_append]
  exact h.insertEach_of_fault hread (reading_ok_eq_error_iff.2 ⟨cause, hcause, rfl⟩)

/-- A malformed asset ends the configuring. The directory is not read. -/
theorem TellsApart.configure_of_malformed {behind : List (String × String)} {cause : Fault}
    (h : r.TellsApart (attempts (settings.offers disk)))
    (hassets : settings.assets.getD [] = before ++ (name, source) :: behind)
    (hread : Faultless before) (hcause : Body.ofSource source = .error cause) :
    r.Loads before (.error (cause.inTemplate name)) (r.configure disk settings) ∧
      ∀ disk', r.configure disk' settings = r.configure disk settings := by
  rw [Settings.offers_eq_append, hassets, assetOffers_append, List.append_assoc] at h
  have hload : r.Loads before (.error (cause.inTemplate name))
      (r.insertAll (settings.assets.getD [])) :=
    hassets ▸ h.insertAll_of_malformed hread hcause
  have hconfigure := configure_eq_of_assets_error hload.answer_eq
  refine ⟨(hconfigure disk).symm ▸ hload, fun disk' => ?_⟩
  exact (hconfigure disk').trans (hconfigure disk).symm

/-- A file with a fault ends the configuring behind the assets and the files before it. -/
theorem TellsApart.configure_of_fault {offer : String × Source} {behind : List (String × Source)}
    (h : r.TellsApart (attempts (settings.offers disk)))
    (hassets : Faultless (settings.assets.getD []))
    (hfiles : settings.fileOffers disk = assetOffers before ++ offer :: behind)
    (hread : Faultless before) (hfault : reading offer = .error fault) :
    r.Loads (settings.assets.getD [] ++ before) (.error fault) (r.configure disk settings) := by
  have heq : settings.offers disk =
      assetOffers (settings.assets.getD [] ++ before) ++ offer :: behind := by
    rw [Settings.offers_eq_append, hfiles, assetOffers_append, List.append_assoc]
  rw [heq] at h
  have hload := h.insertEach_of_fault (faultless_append_iff.2 ⟨hassets, hread⟩) hfault
  rw [← heq] at hload
  exact hload.configure

end

/-! ### What is left behind -/

/-- **Configuring is fail-fast.** As long as no source is mistaken for the template that is
published under its name, nor for another source of this name, loading assets publishes and counts
all of them, or publishes those before the first malformed one. Configuring goes on with the
template files of the directory. When nothing has a fault, the answer is the number of assets and
files, the last source of a name stands, and the default layout is the one of the settings, if they
give one. A malformed asset keeps the directory from being read, and the assets before it are
published; a missing directory leaves all assets, and a file with a fault all assets and the files
before it. Whenever there is a fault the default layout is unchanged. -/
theorem configure_publishes_up_to_fault (r : Catalog) :
    (∀ assets, r.TellsApart (attempts (assetOffers assets)) →
      (Faultless assets → r.Loads assets (.ok assets.length) (r.insertAll assets)) ∧
      ∀ before name source behind cause, assets = before ++ (name, source) :: behind →
        Faultless before → Body.ofSource source = .error cause →
          r.Loads before (.error (cause.inTemplate name)) (r.insertAll assets)) ∧
    ∀ disk settings,
      let assets := settings.assets.getD []
      let result := r.configure disk settings
      (settings.directory = none → settings.fileOffers disk = []) ∧
      (FileTree.IsWalk disk.walk → ∀ directory tree, settings.directory = some directory →
        disk.directory? directory = some tree → tree.IsProper → tree.IsReadable directory →
          settings.fileOffers disk =
            assetOffers ((tree.textFiles settings.extension).map FileTree.entry)) ∧
      (r.TellsApart (attempts (settings.offers disk)) →
        (∀ n, result.2 = .ok n → Faultless assets ∧
          ∃ files, settings.fileOffers disk = assetOffers files ∧ Faultless files) ∧
        (∀ files, Faultless assets → settings.fileOffers disk = assetOffers files →
          Faultless files → result.2 = .ok (assets.length + files.length) ∧
            r.Overwrites (assets ++ files) result.1 ∧
            result.1.defaultLayout = settings.layout.or r.defaultLayout) ∧
        (∀ before name source behind cause, assets = before ++ (name, source) :: behind →
          Faultless before → Body.ofSource source = .error cause →
            r.Loads before (.error (cause.inTemplate name)) result ∧
            ∀ disk', r.configure disk' settings = result) ∧
        (∀ directory, Faultless assets → settings.directory = some directory →
          disk.directory? directory = none →
            r.Loads assets (.error (.directoryNotFound directory)) result) ∧
        (∀ before offer behind fault, Faultless assets →
          settings.fileOffers disk = assetOffers before ++ offer :: behind → Faultless before →
            reading offer = .error fault →
              r.Loads (assets ++ before) (.error fault) result)) ∧
      ∀ fault, result.2 = .error fault → result.1.defaultLayout = r.defaultLayout := by
  constructor
  · intro assets hapart
    constructor
    · intro hread
      rw [attempts_of_faultless hread] at hapart
      exact hapart.insertEach_of_faultless hread
    · rintro before name source behind cause rfl hread hcause
      rw [assetOffers_append] at hapart
      exact hapart.insertAll_of_malformed hread hcause
  · intro disk settings assets result
    refine ⟨Settings.fileOffers_of_none, ?_, fun hapart => ?_, fun fault hfault => ?_⟩
    · intro hwalk directory tree hdirectory htree hproper hread
      exact Settings.fileOffers_eq_textFiles hdirectory htree hwalk hproper hread
    · refine ⟨?_, ?_, ?_, ?_, ?_⟩
      · intro n hok
        exact hapart.faultless_of_configure_eq_ok hok
      · intro files hassets hfiles hread
        exact hapart.configure_of_faultless hassets hfiles hread
      · intro before name source behind cause hassets hread hcause
        exact hapart.configure_of_malformed hassets hread hcause
      · intro directory hassets hdirectory hmissing
        have hload : r.Loads (assets ++ []) (.error (.directoryNotFound directory)) result :=
          hapart.configure_of_fault hassets
            (Settings.fileOffers_of_missing hdirectory hmissing) faultless_nil rfl
        rwa [List.append_nil] at hload
      · intro before offer behind fault hassets hfiles hread hfault
        exact hapart.configure_of_fault hassets hfiles hread hfault
    · exact defaultLayout_configure hfault

/-- Assets with a name that comes back, an asset that is unchanged, and a file in place of an asset;
then the same assets in front of a missing directory and of a malformed file, and with a malformed
asset among them. -/
theorem configure_publishes_up_to_fault_of_three_stages :
    let disk := (FileTree.directory [
      ("t", .directory [("a.html", .ofText "A"), ("c.html", .ofText "C")]),
      ("u", .directory [("a.html", .ofText "A"), ("b.html", .ofText s!"<% {closeBrace} %>"),
        ("c.html", .ofText "C")])]).disk
    let assets := [("a", "1"), ("b", "B"), ("a", "2")]
    let settings := (Settings.default.withAssets assets).withLayout "b"
    let broken :=
      Settings.default.withAssets [("a", "1"), ("b", s!"<% {closeBrace} %>"), ("a", "2")]
    let fault := Fault.inTemplate (.brackets .strayClose) "b"
    let r := run [.insert "b" "B", .setDefaultLayout (some "old")]
    FileTree.IsWalk disk.walk ∧
      r.TellsApart (attempts ((settings.withDirectory "t").offers disk)) ∧
      (r.configure disk (settings.withDirectory "t")).2 = .ok 5 ∧
      r.Overwrites (assets ++ [("a", "A"), ("c", "C")])
        (r.configure disk (settings.withDirectory "t")).1 ∧
      (r.configure disk (settings.withDirectory "t")).1.defaultLayout = some "b" ∧
      r.Loads assets (.error (.directoryNotFound "s"))
        (r.configure disk (settings.withDirectory "s")) ∧
      r.Loads (assets ++ [("a", "A")]) (.error fault)
        (r.configure disk (settings.withDirectory "u")) ∧
      r.Loads [("a", "1")] (.error fault) (r.configure disk (broken.withDirectory "t")) ∧
      r.Loads [("a", "1")] (.error fault) (r.insertAll (broken.assets.getD [])) := by
  intro disk assets settings broken fault r
  have hassets : Faultless assets := by decide +kernel
  have hwalk : FileTree.IsWalk disk.walk := FileTree.isWalk_files
  have hapart : r.TellsApart (attempts ((settings.withDirectory "t").offers disk)) :=
    @tellsApart_of_run _ (.configure disk (settings.withDirectory "t")) (by decide +kernel)
  obtain ⟨hinsertAll, hconfigure⟩ := configure_publishes_up_to_fault r
  obtain ⟨-, hfiles, hload, -⟩ := hconfigure disk (settings.withDirectory "t")
  obtain ⟨-, -, hmissing, -⟩ := hconfigure disk (settings.withDirectory "s")
  obtain ⟨-, hfound, hfault, -⟩ := hconfigure disk (settings.withDirectory "u")
  obtain ⟨-, -, hbroken, -⟩ := hconfigure disk (broken.withDirectory "t")
  have hopen : (settings.withDirectory "t").fileOffers disk =
      assetOffers [("a", "A"), ("c", "C")] :=
    (hfiles hwalk "t" _ rfl rfl (by decide +kernel) (by decide +kernel)).trans
      (congrArg assetOffers (by decide +kernel))
  have hopen' : (settings.withDirectory "u").fileOffers disk =
      assetOffers [("a", "A")] ++ ("b", .ok s!"<% {closeBrace} %>") :: assetOffers [("c", "C")] :=
    (hfound hwalk "u" _ rfl rfl (by decide +kernel) (by decide +kernel)).trans
      (congrArg assetOffers (show _ = [("a", "A"), ("b", s!"<% {closeBrace} %>"), ("c", "C")] by
        decide +kernel))
  obtain ⟨-, hload, -⟩ := hload hapart
  obtain ⟨-, -, -, hmissing, -⟩ := hmissing
    (@tellsApart_of_run _ (.configure disk (settings.withDirectory "s")) (by decide +kernel))
  obtain ⟨-, -, -, -, hfault⟩ := hfault
    (@tellsApart_of_run _ (.configure disk (settings.withDirectory "u")) (by decide +kernel))
  obtain ⟨-, -, hbroken, -⟩ := hbroken
    (@tellsApart_of_run _ (.configure disk (broken.withDirectory "t")) (by decide +kernel))
  obtain ⟨hanswer, hoverwrites, hlayout⟩ := hload _ hassets hopen (by decide +kernel)
  refine ⟨hwalk, hapart, hanswer, hoverwrites, hlayout, hmissing "s" hassets rfl rfl, ?_, ?_, ?_⟩
  · exact hfault [("a", "A")] _ _ _ hassets hopen' (by decide +kernel)
      (reading_ok_eq_error_iff.2 ⟨_, Body.ofSource_stray_close, rfl⟩)
  · exact (hbroken [("a", "1")] "b" _ [("a", "2")] _ rfl (by decide +kernel)
      Body.ofSource_stray_close).1
  · have hapart' : r.TellsApart (attempts (assetOffers (broken.assets.getD []))) :=
      @tellsApart_of_run _ (.insertAll (broken.assets.getD [])) (by decide +kernel)
    exact (hinsertAll _ hapart').2 [("a", "1")] "b" _ [("a", "2")] _ rfl (by decide +kernel)
      Body.ofSource_stray_close

/-- Two sources have one digest. When the first one is published under the name of an asset with the
second one, configuring counts the asset and keeps the template of the first one. -/
theorem configure_keeps_template_of_same_digest :
    let settings := Settings.default.withAssets [("a", "JTMGiBLRmPc")]
    let result := (run [.insert "a" "hWJoSS3VaXc"]).configure (FileTree.directory []).disk settings
    Faultless [("a", "JTMGiBLRmPc")] ∧ result.2 = .ok 1 ∧ ¬ result.1.Holds "a" "JTMGiBLRmPc" := by
  intro settings result
  have hitems : Item.ofSource "JTMGiBLRmPc" = .ok [.text "JTMGiBLRmPc"] := by decide +kernel
  exact ⟨by decide +kernel, by decide +kernel,
    not_holds_of_render_ne hitems none (by decide +kernel)⟩

end Catalog

end Stencil
