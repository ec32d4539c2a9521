import Stencil.Proofs.Catalog.Loading
import Stencil.Proofs.Phase

/-!
# The faults of a catalog

A load stops at the first source that is not accepted. Accepted is a source that can be read, and
also one with the digest of the template that is published under its name at that moment, since it
is not read again. So the fault of a load is that of a source, and all sources in front of it are
accepted. As long as the digests tell the sources from each other this is the first malformed
source; a malformed source with the digest of the template of its name is passed over.

## Main definitions

* `Stencil.Catalog.Accepts`: the sources that a load goes past.

## Main results

* `Stencil.Catalog.exists_insertEach_eq_ok_iff`, `Stencil.Catalog.insertEach_eq_error`: the loads
  that succeed, and the source at which a load stops.
* `Stencil.Catalog.exists_fault_of_run`: after a run it is the first one with a fault, as long as
  the digests tell the sources from each other.
* `Stencil.Catalog.phase_of_eq_error`: the faults of every phase.
-/

namespace Stencil

namespace Catalog

variable {r : Catalog} {fault : Fault}

/-! ### The source at which a load stops -/

/-- A catalog goes past a source that can be read, or that has the digest of the template under its
name. -/
def Accepts (r : Catalog) (offer : String × Source) : Prop :=
  ∃ source, offer.2 = .ok source ∧
    ((∃ ns, Body.ofSource source = .ok ns) ∨
      ∃ p, r.get? offer.1 = some p ∧ p.template.digest = Text.digest source)

/-- All of the sources are accepted, each by the catalog that the ones before it leave. -/
def AcceptsEach (r : Catalog) (offers : List (String × Source)) : Prop :=
  ∀ front offer back, offers = front ++ offer :: back → (r.insertEach front).1.Accepts offer

/-- A catalog goes past the sources that it can insert. -/
theorem accepts_iff_exists_bind_insert {name : String} {source : Source} :
    r.Accepts (name, source) ↔ ∃ q, source.bind (r.insert name) = .ok q := by
  constructor
  · rintro ⟨text, rfl, haccepts⟩
    show ∃ q, r.insert name text = .ok q
    rw [insert]
    cases hcurrent : r.current? name (Text.digest text) with
    | some p => exact ⟨(r, p), rfl⟩
    | none =>
      rcases haccepts with ⟨ns, hns⟩ | ⟨p, hp, hdigest⟩
      · exact ⟨_, by rw [Template.ofSource_of_ok hns]; rfl⟩
      · rw [current?, hp, Option.filter_some, if_pos (by simpa using hdigest)] at hcurrent
        cases hcurrent
  · rintro ⟨q, hq⟩
    cases source with
    | error fault => cases hq
    | ok text =>
      rcases insert_eq_ok_cases hq with ⟨-, hget, hdigest⟩ | ⟨t, ht, -⟩
      · exact ⟨text, rfl, .inr ⟨q.2, hget, hdigest⟩⟩
      · obtain ⟨ns, hns, -⟩ := Template.ofSource_eq_ok_iff.1 ht
        exact ⟨text, rfl, .inl ⟨ns, hns⟩⟩

theorem acceptsEach_nil (r : Catalog) : r.AcceptsEach [] := by
  simp [AcceptsEach]

/-- Behind a source that is inserted, the others have to be accepted. -/
theorem acceptsEach_cons_iff {name : String} {source : Source} {q : Catalog × Published}
    (hs : source.bind (r.insert name) = .ok q) {offers : List (String × Source)} :
    r.AcceptsEach ((name, source) :: offers) ↔ q.1.AcceptsEach offers := by
  constructor
  · rintro haccepts front offer back rfl
    have hoffer := haccepts ((name, source) :: front) offer back rfl
    rwa [insertEach_cons_of_ok hs] at hoffer
  · intro haccepts front offer back heq
    cases front with
    | nil =>
      cases heq
      exact accepts_iff_exists_bind_insert.2 ⟨q, hs⟩
    | cons first front =>
      cases heq
      rw [insertEach_cons_of_ok hs]
      exact haccepts front offer back rfl

/-- A load succeeds exactly when every source is accepted. -/
theorem exists_insertEach_eq_ok_iff {offers : List (String × Source)} :
    (∃ n, (r.insertEach offers).2 = .ok n) ↔ r.AcceptsEach offers := by
  induction offers generalizing r with
  | nil => exact iff_of_true ⟨0, rfl⟩ r.acceptsEach_nil
  | cons offer offers ih =>
    obtain ⟨name, source⟩ := offer
    cases hs : source.bind (r.insert name) with
    | error e =>
      rw [insertEach_cons_of_error hs]
      refine iff_of_false ?_ fun haccepts => ?_
      · rintro ⟨n, ⟨⟩⟩
      · have hoffer : r.Accepts (name, source) := haccepts [] (name, source) offers rfl
        obtain ⟨q, hq⟩ := accepts_iff_exists_bind_insert.1 hoffer
        rw [hs] at hq
        cases hq
    | ok q =>
      rw [insertEach_cons_of_ok hs, acceptsEach_cons_iff hs, ← ih]
      exact exists_map_eq_ok_iff

/-- A load stops at the first source that is not accepted, with the fault of this source. -/
theorem insertEach_eq_error {offers : List (String × Source)}
    (h : (r.insertEach offers).2 = .error fault) :
    ∃ before offer behind, offers = before ++ offer :: behind ∧ r.AcceptsEach before ∧
      reading offer = .error fault := by
  induction offers generalizing r with
  | nil => cases h
  | cons offer offers ih =>
    obtain ⟨name, source⟩ := offer
    cases hs : source.bind (r.insert name) with
    | error e =>
      rw [insertEach_cons_of_error hs] at h
      cases h
      refine ⟨[], (name, source), offers, rfl, r.acceptsEach_nil, ?_⟩
      cases source with
      | error f =>
        cases hs
        rfl
      | ok source => exact insert_eq_error hs
    | ok q =>
      rw [insertEach_cons_of_ok hs] at h
      obtain ⟨before, offer, behind, rfl, haccepts, hfault⟩ := ih (map_eq_error_iff.1 h)
      exact ⟨(name, source) :: before, offer, behind, rfl, (acceptsEach_cons_iff hs).2 haccepts,
        hfault⟩

/-! ### The faults of loading -/

/-- The fault is that of a malformed source, and the sources in front of it are accepted. -/
def StopsAt (r : Catalog) (offers : List (String × Source)) (fault : Fault) : Prop :=
  ∃ before name source behind, offers = before ++ (name, .ok source) :: behind ∧
    r.AcceptsEach before ∧ Template.ofSource name source = .error fault

/-- The fault is that of the first malformed source. -/
def IsFirstFault (offers : List (String × Source)) (fault : Fault) : Prop :=
  ∃ before name source behind, offers = assetOffers before ++ (name, .ok source) :: behind ∧
    Faultless before ∧ Template.ofSource name source = .error fault

theorem phase_of_source?_eq_error {directory path : String} {content : Content}
    (h : FileTree.source? directory path content = some (.error fault)) : fault.phase = .disk := by
  rw [FileTree.source?] at h
  split at h
  · split at h
    · cases h
    · cases h
      rfl
  · split at h
    · cases h
    · cases h
    · cases h
      rfl

/-- An offer that is no source is a fault of the disk. -/
theorem phase_of_mem_offers {disk : Disk} {directory extension name : String}
    (h : (name, .error fault) ∈ disk.offers directory extension) : fault.phase = .disk := by
  rw [Disk.offers] at h
  cases hdirectory : disk.directory? directory with
  | none =>
    rw [hdirectory] at h
    cases List.mem_singleton.1 h
    rfl
  | some tree =>
    rw [hdirectory] at h
    obtain ⟨file, -, hfile⟩ := List.mem_filterMap.1 h
    rw [FileTree.templateSource?] at hfile
    split at hfile
    · obtain ⟨template, -, hsource⟩ := Option.bind_eq_some_iff.1 hfile
      obtain ⟨source, hsource, heq⟩ := Option.map_eq_some_iff.1 hsource
      cases heq
      exact phase_of_source?_eq_error hsource
    · cases hfile

variable {offer : String × Source}

/-- An asset with a fault is malformed. -/
theorem source_of_mem_assetOffers {assets : List (String × String)} (h : offer ∈ assetOffers assets)
    (hfault : reading offer = .error fault) :
    ∃ name source, offer = (name, .ok source) ∧ Template.ofSource name source = .error fault := by
  obtain ⟨asset, -, rfl⟩ := List.mem_map.1 h
  exact ⟨asset.1, asset.2, rfl, hfault⟩

/-- What a directory offers with a fault is a fault of the disk or malformed. -/
theorem source_of_mem_offers {disk : Disk} {directory extension : String}
    (h : offer ∈ disk.offers directory extension) (hfault : reading offer = .error fault) :
    fault.phase = .disk ∨
      ∃ name source, offer = (name, .ok source) ∧ Template.ofSource name source = .error fault := by
  obtain ⟨name, source⟩ := offer
  cases source with
  | error f =>
    cases hfault
    exact .inl (phase_of_mem_offers h)
  | ok source => exact .inr ⟨name, source, rfl, hfault⟩

theorem stopsAt_of_insertAll {assets : List (String × String)}
    (h : (r.insertAll assets).2 = .error fault) : r.StopsAt (assetOffers assets) fault := by
  obtain ⟨before, offer, behind, hoffers, haccepts, hfault⟩ := insertEach_eq_error h
  have hmem : offer ∈ before ++ offer :: behind := List.mem_append_cons_self
  rw [← hoffers] at hmem
  obtain ⟨name, source, rfl, hread⟩ := source_of_mem_assetOffers hmem hfault
  exact ⟨before, name, source, behind, hoffers, haccepts, hread⟩

theorem stopsAt_of_loadDirectory {disk : Disk} {directory extension : String}
    (h : (r.loadDirectory disk directory extension).2 = .error fault) :
    fault.phase = .disk ∨ r.StopsAt (disk.offers directory extension) fault := by
  rw [loadDirectory_eq_insertEach] at h
  obtain ⟨before, offer, behind, hoffers, haccepts, hfault⟩ := insertEach_eq_error h
  have hmem : offer ∈ before ++ offer :: behind := List.mem_append_cons_self
  rw [← hoffers] at hmem
  refine (source_of_mem_offers hmem hfault).imp_right ?_
  rintro ⟨name, source, rfl, hread⟩
  exact ⟨before, name, source, behind, hoffers, haccepts, hread⟩

/-! ### Loading after a run -/

/-- As long as the digests tell the sources of a run from each other, its last operation stops at
the first of its sources with a fault. -/
theorem exists_fault_of_run {ops : List Operation} {op : Operation}
    (hdigest : Text.Distinguishes (attempted (ops ++ [op])))
    (h : ((run ops).insertEach op.offers).2 = .error fault) :
    ∃ before offer behind, op.offers = assetOffers before ++ offer :: behind ∧ Faultless before ∧
      offer ∈ op.offers ∧ reading offer = .error fault := by
  have hapart := tellsApart_of_run hdigest
  rcases faultless_or_exists_fault op.offers with
    ⟨entries, hoffers, hread⟩ | ⟨before, offer, behind, f, hoffers, hread, hf⟩
  · rw [Operation.attempts, hoffers, attempts_of_faultless hread] at hapart
    have hload := hapart.insertEach_of_faultless hread
    rw [hoffers, hload.answer_eq] at h
    cases h
  · rw [Operation.attempts, hoffers] at hapart
    have hload := hapart.insertEach_of_fault hread hf
    rw [hoffers, hload.answer_eq] at h
    cases h
    exact ⟨before, offer, behind, hoffers, hread, hoffers ▸ List.mem_append_cons_self, hf⟩

theorem isFirstFault_of_insertAll {ops : List Operation} {assets : List (String × String)}
    (hdigest : Text.Distinguishes (attempted (ops ++ [.insertAll assets])))
    (h : ((run ops).insertAll assets).2 = .error fault) :
    IsFirstFault (assetOffers assets) fault := by
  obtain ⟨before, offer, behind, hoffers, hread, hmem, hfault⟩ := exists_fault_of_run hdigest h
  obtain ⟨name, source, rfl, hsource⟩ := source_of_mem_assetOffers hmem hfault
  exact ⟨before, name, source, behind, hoffers, hread, hsource⟩

theorem isFirstFault_of_loadDirectory {ops : List Operation} {disk : Disk}
    {directory extension : String}
    (hdigest : Text.Distinguishes (attempted (ops ++ [.loadDirectory disk directory extension])))
    (h : ((run ops).loadDirectory disk directory extension).2 = .error fault) :
    fault.phase = .disk ∨ IsFirstFault (disk.offers directory extension) fault := by
  rw [loadDirectory_eq_insertEach] at h
  obtain ⟨before, offer, behind, hoffers, hread, hmem, hfault⟩ := exists_fault_of_run hdigest h
  refine (source_of_mem_offers hmem hfault).imp_right ?_
  rintro ⟨name, source, rfl, hsource⟩
  exact ⟨before, name, source, behind, hoffers, hread, hsource⟩

/-! ### All phases -/

/-- **Faults belong to their phase.** Reading a source has faults of parsing only. Reading a named
template, and inserting it into a catalog, has the fault of the source, wrapped once by this name.
Loading assets has the fault of a malformed asset such that each asset before it is accepted: it can
be read, or has the digest of the template then published under its name. Loading a directory has a
fault of the disk or in the same way the fault of a malformed file. As long as the digests tell the
sources of a run from each other, this is the first malformed asset or file. Evaluating a body,
rendering a template and rendering a page have faults of the context or of rendering only, and a
page can also be missing, or its layout; for a value instead of a context only those of rendering
are left. -/
theorem phase_of_eq_error :
    (∀ source fault, Body.ofSource source = .error fault → fault.phase = .parsing) ∧
    (∀ name source fault, Template.ofSource name source = .error fault →
      ∃ cause, Body.ofSource source = .error cause ∧ fault = .template name cause ∧
        cause.phase = .parsing ∧ fault.rootCause = cause) ∧
    (∀ (r : Catalog) name source fault, r.insert name source = .error fault →
      Template.ofSource name source = .error fault) ∧
    (∀ (r : Catalog) assets fault, (r.insertAll assets).2 = .error fault →
      r.StopsAt (assetOffers assets) fault) ∧
    (∀ (r : Catalog) disk directory extension fault,
      (r.loadDirectory disk directory extension).2 = .error fault →
        fault.phase = .disk ∨ r.StopsAt (disk.offers directory extension) fault) ∧
    (∀ ops assets fault, Text.Distinguishes (attempted (ops ++ [.insertAll assets])) →
      ((run ops).insertAll assets).2 = .error fault → IsFirstFault (assetOffers assets) fault) ∧
    (∀ ops disk directory extension fault,
      Text.Distinguishes (attempted (ops ++ [.loadDirectory disk directory extension])) →
        ((run ops).loadDirectory disk directory extension).2 = .error fault →
          fault.phase = .disk ∨ IsFirstFault (disk.offers directory extension) fault) ∧
    (∀ (ns : Body) context fault, ns.evaluate context = .error fault →
      fault.phase = .context ∨ fault.phase = .rendering) ∧
    (∀ (t : Template) context fault, t.render context = .error fault →
      fault.phase = .context ∨ fault.phase = .rendering) ∧
    (∀ (t : Template) root fault, t.renderValue root = .error fault → fault.phase = .rendering) ∧
    (∀ (r : Catalog) name context layout fault, r.render name context layout = .error fault →
      r.IsMissing name fault ∨ (∃ l, layout = some l ∧ r.IsMissing l fault) ∨
        fault.phase = .context ∨ fault.phase = .rendering) ∧
    ∀ (r : Catalog) name context fault, r.renderDefault name context = .error fault →
      r.IsMissing name fault ∨ (∃ l, r.defaultLayout = some l ∧ r.IsMissing l fault) ∨
        fault.phase = .context ∨ fault.phase = .rendering := by
  refine ⟨Body.failsOnly_ofSource, fun name source fault => Template.ofSource_eq_error_cases,
    fun r name source fault => insert_eq_error, fun r assets fault => stopsAt_of_insertAll,
    fun r disk directory extension fault => stopsAt_of_loadDirectory,
    fun ops assets fault => isFirstFault_of_insertAll,
    fun ops disk directory extension fault => isFirstFault_of_loadDirectory,
    Body.failsOnly_evaluate, Template.failsOnly_render, ?_, failsOnly_render, ?_⟩
  · exact fun t root => Body.failsOnly_render t.body (.ofRoot root)
  · exact fun r name context => r.failsOnly_render name context r.defaultLayout

/-- A tag that is not closed, under a name; assets of which the first one is published already and
the second one is malformed; a directory with a malformed file behind a good one, and a directory
that is missing; a page with a condition that is no boolean, and a page in a missing layout. -/
theorem phase_of_eq_error_of_stages :
    let disk := (FileTree.directory [("t", .directory [("a.html", .ofText "A"),
      ("b.html", .ofText s!"<% {closeBrace} %>"), ("c.html", .ofText "<%")])]).disk
    let assets := [("p", "P"), ("b", s!"<% {closeBrace} %>"), ("c", "<%")]
    let r := run [.insert "p" "P", .insert "q" s!"<% if x {openBrace} %><% {closeBrace} %>"]
    let fault := Fault.template "b" (.brackets .strayClose)
    let context : Option Datum := some (.record [("x", .unit)])
    (∃ cause, Template.ofSource "n" "<%" = .error (.template "n" cause) ∧
      cause.phase = .parsing) ∧
    (r.insertAll assets).2 = .error fault ∧ IsFirstFault (assetOffers assets) fault ∧
    (r.loadDirectory disk "t" "html").2 = .error fault ∧
    IsFirstFault (disk.offers "t" "html") fault ∧
    (r.loadDirectory disk "s" "html").2 = .error (.directoryNotFound "s") ∧
    r.render "q" context none = .error (.typeMismatch "x" .null) ∧
    r.render "p" context (some "l") = .error (.templateNotFound "l") ∧
    r.IsMissing "l" (.templateNotFound "l") := by
  intro disk assets r fault context
  obtain ⟨-, hnamed, -, -, -, hassets, hfiles, -, -, -, hpage, -⟩ := phase_of_eq_error
  have hunclosed : Body.ofSource "<%" = .error .unclosedTag :=
    Body.ofSource_of_items_error (by decide +kernel)
  have hsource := Template.ofSource_of_error hunclosed "n"
  obtain ⟨cause, -, hcause, hphase, -⟩ := hnamed "n" "<%" _ hsource
  have hinsert : (r.insertAll assets).2 = .error fault := by decide +kernel
  have hload : (r.loadDirectory disk "t" "html").2 = .error fault := by decide +kernel
  have hlayout : r.render "p" context (some "l") = .error (.templateNotFound "l") := by
    decide +kernel
  have hmissing : r.IsMissing "l" (.templateNotFound "l") := by
    rcases hpage _ _ _ _ _ hlayout with ⟨-, hname⟩ | ⟨l, hl, hmissing⟩ | hphase | hphase
    · exact absurd hname (by decide)
    · cases hl
      exact hmissing
    · exact absurd hphase (by decide)
    · exact absurd hphase (by decide)
  exact ⟨⟨cause, hcause ▸ hsource, hphase⟩, hinsert, hassets _ _ _ (by decide +kernel) hinsert,
    hload, (hfiles _ _ _ _ _ (by decide +kernel) hload).resolve_left (by decide),
    by decide +kernel, by decide +kernel, hlayout, hmissing⟩

/-- Two sources have one digest. When the first one is published under the name of an asset with the
second one, which is malformed, loading goes past this asset, and the fault is that of the next
malformed one. -/
theorem insertAll_passes_over_malformed_of_same_digest :
    let r := run [.insert "a" "ok6-Dt70CIXBd"]
    let assets := [("a", "<%R67w1ILlRlo"), ("b", s!"<% {closeBrace} %>")]
    (r.insertAll assets).2 = .error (.template "b" (.brackets .strayClose)) ∧
      Body.ofSource "<%R67w1ILlRlo" = .error .unclosedTag ∧
      ¬ IsFirstFault (assetOffers assets) (.template "b" (.brackets .strayClose)) := by
  intro r assets
  have hmalformed : Body.ofSource "<%R67w1ILlRlo" = .error .unclosedTag :=
    Body.ofSource_of_items_error (by decide +kernel)
  refine ⟨by decide +kernel, hmalformed, ?_⟩
  rintro ⟨before, name, source, behind, hoffers, hread, hfault⟩
  cases before with
  | nil =>
    cases (List.cons.inj hoffers).1
    rw [Template.ofSource_of_error hmalformed] at hfault
    exact absurd (Except.error.inj hfault) (by decide)
  | cons first before =>
    obtain ⟨other, s⟩ := first
    cases (List.cons.inj hoffers).1
    obtain ⟨⟨ns, hns⟩, -⟩ := faultless_cons_iff.1 hread
    rw [hmalformed] at hns
    cases hns

end Catalog

end Stencil
