import Stencil.Proofs.Catalog.Configuration
import Stencil.Proofs.Catalog.Names

/-!
# Loading the same sources again

A source with the digest of the template that is published under its name is not read again, and
leaves the template in place. So sources that are all up to date in this sense are loaded without
any change. After a load with success they are up to date, unless a name has had two different
sources: then only the last one of them is. So configuring a second time with the same settings and
the same files changes nothing, down to the stamps of the templates, and this holds also where
digests collide: what counts is that they are equal.

Where a name has two different sources, each of them takes the place of the other once more in the
second run, and in the end the name has the template of the last one, under another stamp. Here the
digests have to tell the sources from each other: a malformed source that is passed over in the
first run, for the digest of a published template, could be read in the second one.

## Main definitions

* `Stencil.Consistent`: entries in which no name has two values.
* `Stencil.Catalog.UpToDate`: sources with the digests of the templates under their names.

## Main results

* `Stencil.Catalog.upToDate_insertEach`, `Stencil.Catalog.UpToDate.insertEach_eq`: sources are up to
  date after they are loaded, and then loading them changes nothing.
* `Stencil.Catalog.Overwrites.template_eq`: overwriting a second time.
* `Stencil.Catalog.configure_again`: configuring a second time.
-/

namespace Stencil

/-- No name has two values. -/
def Consistent {α : Type} (entries : List (String × α)) : Prop :=
  ∀ e ∈ entries, ∀ f ∈ entries, e.1 = f.1 → e.2 = f.2

instance {α : Type} [DecidableEq α] (entries : List (String × α)) :
    Decidable (Consistent entries) :=
  inferInstanceAs (Decidable (∀ e ∈ entries, ∀ f ∈ entries, e.1 = f.1 → e.2 = f.2))

section

variable {entries : List (String × String)}

theorem Consistent.of_cons {e : String × String} (h : Consistent (e :: entries)) :
    Consistent entries :=
  fun f hf g hg => h f (List.mem_cons_of_mem e hf) g (List.mem_cons_of_mem e hg)

theorem consistent_assetOffers_iff : Consistent (assetOffers entries) ↔ Consistent entries := by
  simp only [Consistent, assetOffers, List.forall_mem_map, Except.ok.injEq]

end

namespace Catalog

variable {r r₁ r₂ : Catalog} {name source : String} {entries : List (String × String)}

/-! ### Sources that are up to date -/

/-- Every source has the digest of the template that is published under its name. -/
def UpToDate (r : Catalog) (entries : List (String × String)) : Prop :=
  ∀ e ∈ entries, ∃ p, r.get? e.1 = some p ∧ p.template.digest = Text.digest e.2

/-- A source with the digest of the template that is published under its name is not read again. -/
theorem insert_of_digest_eq {p : Published} (hp : r.get? name = some p)
    (hdigest : p.template.digest = Text.digest source) : r.insert name source = .ok (r, p) := by
  have hcurrent : r.current? name (Text.digest source) = some p := by
    rw [current?, hp, Option.filter_some, if_pos (by simpa using hdigest)]
  rw [insert, hcurrent]

/-- Loading sources that are up to date changes nothing. -/
theorem UpToDate.insertEach_eq (h : r.UpToDate entries) :
    r.insertEach (assetOffers entries) = (r, .ok entries.length) := by
  induction entries with
  | nil => rfl
  | cons e entries ih =>
    obtain ⟨⟨p, hp, hdigest⟩, h⟩ := List.forall_mem_cons.1 h
    have hbind : (.ok e.2 : Source).bind (r.insert e.1) = .ok (r, p) :=
      insert_of_digest_eq hp hdigest
    rw [assetOffers_cons, insertEach_cons_of_ok hbind, ih h]
    rfl

/-- Sources that are loaded are up to date then, if no name has two of them. -/
theorem upToDate_insertEach (hentries : Consistent entries) {n : Nat}
    (h : (r.insertEach (assetOffers entries)).2 = .ok n) :
    (r.insertEach (assetOffers entries)).1.UpToDate entries := by
  induction entries generalizing r n with
  | nil => simp [UpToDate]
  | cons e entries ih =>
    obtain ⟨name, source⟩ := e
    rw [assetOffers_cons] at h ⊢
    obtain ⟨_, _, q, k, heq, hinsert, hk, -, hafter⟩ := exists_insert_of_insertEach_cons h
    cases heq
    have hrest := ih hentries.of_cons hk
    rw [hafter]
    refine List.forall_mem_cons.2 ⟨?_, hrest⟩
    by_cases hname : name ∈ Dictionary.keys entries
    · -- The source comes back under its name, which has no other.
      obtain ⟨f, hf, rfl⟩ := List.mem_map.1 hname
      have hsource : f.2 = source :=
        hentries f (List.mem_cons_of_mem _ hf) (f.1, source) List.mem_cons_self rfl
      rw [← hsource]
      exact hrest f hf
    · obtain ⟨hget, hdigest⟩ := get?_insert_self hinsert
      rw [← keys_assetOffers] at hname
      exact ⟨q.2, (get?_insertEach_of_notMem hname).trans hget, hdigest⟩

/-! ### Overwriting again -/

/-- A catalog that is overwritten by the same sources again has the templates that it had. -/
theorem Overwrites.template_eq (h₁ : r.Overwrites entries r₁) (h₂ : r₁.Overwrites entries r₂)
    (name : String) :
    (r₂.get? name).map (·.template) = (r₁.get? name).map (·.template) := by
  cases hlast : Dictionary.find? name entries.reverse with
  | some source =>
    obtain ⟨p₁, hp₁, hread₁⟩ := h₁.holds hlast
    obtain ⟨p₂, hp₂, hread₂⟩ := h₂.holds hlast
    rw [hp₁, hp₂, Option.map_some, Option.map_some, Except.ok.inj (hread₁.symm.trans hread₂)]
  | none =>
    have hname : name ∉ Dictionary.keys entries := fun hmem =>
      Dictionary.find?_eq_none_iff.1 hlast (Dictionary.mem_keys_reverse.2 hmem)
    rw [h₂.untouched hname]

/-- Catalogs in ascending order with the same templates list the same names. -/
theorem names_eq_of_template_eq (h₁ : Dictionary.Ascending r₁.templates)
    (h₂ : Dictionary.Ascending r₂.templates)
    (h : ∀ name, (r₂.get? name).map (·.template) = (r₁.get? name).map (·.template)) :
    r₂.names = r₁.names := by
  refine h₂.keys_eq h₁ fun name => ?_
  rw [← Dictionary.find?_isSome_iff, ← Dictionary.find?_isSome_iff]
  have hname := congrArg Option.isSome (h name)
  rw [Option.isSome_map, Option.isSome_map] at hname
  exact Bool.eq_iff_iff.1 hname

/-! ### Configuring again -/

/-- **Configuring a second time.** When configuring succeeds with settings and files that do not
give two different sources to one name, then configuring again with the same settings and files
succeeds with the same number of sources and changes nothing: the catalog, with its names, its
default layout and every template under its stamp, is the same. As long as the digests tell the
sources of a run from each other, the second time succeeds in any case, with the same number of
sources; there are the same names and the same default layout, and every name has the same template,
if not the same stamp. -/
theorem configure_again (disk : Disk) (settings : Settings) :
    (∀ (r r₁ : Catalog) n, Consistent (settings.offers disk) →
      r.configure disk settings = (r₁, .ok n) → r₁.configure disk settings = (r₁, .ok n)) ∧
    ∀ ops r₁ n, Text.Distinguishes (attempted (ops ++ [.configure disk settings])) →
      (run ops).configure disk settings = (r₁, .ok n) →
        ∃ r₂, r₁.configure disk settings = (r₂, .ok n) ∧ r₂.names = r₁.names ∧
          r₂.defaultLayout = r₁.defaultLayout ∧
          ∀ name, (r₂.get? name).map (·.template) = (r₁.get? name).map (·.template) := by
  constructor
  · intro r r₁ n hentries h
    have hload := insertEach_of_configure_eq_ok (congrArg Prod.snd h)
    rw [configure_of_ok hload] at h
    obtain ⟨entries, hoffers, rfl⟩ := exists_eq_assetOffers_of_insertEach hload
    rw [hoffers] at hload hentries h
    obtain rfl : (r.insertEach (assetOffers entries)).1.setLayout? settings.layout = r₁ :=
      congrArg Prod.fst h
    have hentries := upToDate_insertEach (consistent_assetOffers_iff.1 hentries) hload
    generalize (r.insertEach (assetOffers entries)).1 = r' at hentries ⊢
    have hupToDate : (r'.setLayout? settings.layout).UpToDate entries := fun e he => by
      rw [get?_setLayout?]
      exact hentries e he
    have hagain := hupToDate.insertEach_eq
    rw [← hoffers] at hagain
    rw [configure_of_ok (congrArg Prod.snd hagain), hagain]
    cases settings.layout <;> rfl
  · intro ops r₁ n hdigest h
    have hapart : (run ops).TellsApart (attempts (settings.offers disk)) :=
      tellsApart_of_run hdigest
    have hrun : run (ops ++ [.configure disk settings]) = r₁ := by
      rw [run_append]
      exact congrArg Prod.fst h
    obtain ⟨hpublishes₁, hwithin₁⟩ := publishes_run hdigest (List.Subset.refl _)
    rw [hrun] at hpublishes₁
    have hapart₁ : r₁.TellsApart (attempts (settings.offers disk)) :=
      hpublishes₁.tellsApart hwithin₁ hdigest fun e he =>
        mem_attempted_iff.2 ⟨.configure disk settings, by simp, e, he, rfl⟩
    obtain ⟨hassets, files, hfiles, hread⟩ :=
      hapart.faultless_of_configure_eq_ok (congrArg Prod.snd h)
    obtain ⟨hanswer, hoverwrites, hlayout⟩ := hapart.configure_of_faultless hassets hfiles hread
    obtain ⟨hanswer₂, hoverwrites₂, hlayout₂⟩ :=
      hapart₁.configure_of_faultless hassets hfiles hread
    rw [h] at hanswer hoverwrites hlayout
    have htemplate := hoverwrites.template_eq hoverwrites₂
    have hascending : Dictionary.Ascending r₁.templates := hrun ▸ ascending_run _
    refine ⟨_, Prod.ext rfl (hanswer₂.trans hanswer.symm), ?_, ?_, htemplate⟩
    · exact names_eq_of_template_eq hascending
        (ascending_apply hascending (.configure disk settings)) htemplate
    · rw [hlayout₂, hlayout]
      cases settings.layout <;> rfl

/-- Settings with an asset that comes back and a file, twice; and settings with an asset and a file
of one name, which are published anew the second time. -/
theorem configure_again_of_file_over_asset :
    let disk := (FileTree.directory [("t", .directory [("a.html", .ofText "A")])]).disk
    let settings :=
      ((Settings.default.withAssets [("b", "B"), ("b", "B")]).withDirectory "t").withLayout "b"
    let changing := (Settings.default.withAssets [("a", "1"), ("b", "B")]).withDirectory "t"
    let ops : List Operation := [.insert "a" "old", .setDefaultLayout (some "old")]
    let once := ((run ops).configure disk settings).1
    let changed := ((run ops).configure disk changing).1
    let twice := (changed.configure disk changing).1
    Consistent (settings.offers disk) ∧ (run ops).configure disk settings = (once, .ok 3) ∧
      once.configure disk settings = (once, .ok 3) ∧ ¬ Consistent (changing.offers disk) ∧
      Text.Distinguishes (attempted (ops ++ [.configure disk changing])) ∧
      changed.configure disk changing = (twice, .ok 3) ∧ twice.names = changed.names ∧
      (twice.get? "a").map (·.template) = (changed.get? "a").map (·.template) ∧
      (twice.get? "a").map (·.stamp) ≠ (changed.get? "a").map (·.stamp) := by
  intro disk settings changing ops once changed twice
  have hentries : Consistent (settings.offers disk) := by decide +kernel
  have honce : (run ops).configure disk settings = (once, .ok 3) :=
    Prod.ext rfl (by decide +kernel)
  have hchanged : (run ops).configure disk changing = (changed, .ok 3) :=
    Prod.ext rfl (by decide +kernel)
  have hdigest : Text.Distinguishes (attempted (ops ++ [.configure disk changing])) := by
    decide +kernel
  obtain ⟨r₂, hagain, hnames, -, htemplate⟩ :=
    (configure_again disk changing).2 ops changed 3 hdigest hchanged
  obtain rfl : twice = r₂ := congrArg Prod.fst hagain
  exact ⟨hentries, honce, (configure_again disk settings).1 _ once 3 hentries honce,
    by decide +kernel, hdigest, hagain, hnames, htemplate "a", by decide +kernel⟩

end Catalog

end Stencil
