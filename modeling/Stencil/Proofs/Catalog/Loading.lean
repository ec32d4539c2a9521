import Mathlib.Data.List.Basic
import Stencil.Proofs.Catalog.Sources
import Stencil.Proofs.Dictionary
import Stencil.Proofs.Fallible

/-!
# What loading leaves behind

Loading takes a list of sources by name. When none of them has a fault, all are counted, and the
catalog is overwritten by them in turn: a name has the template of its last source, and a name
without a source keeps the template that it has. When one of them has a fault, the first such source
decides: its fault is the answer, the sources before it are published as if they had been all, and
neither this source nor those behind it leave a trace.

A source with the digest of what is published under its name is not read again. So the sources of a
load must not be mistaken for others of their names.

## Main definitions

* `Stencil.reading`: the template of an offered source.
* `Stencil.Faultless`: sources that can be read.
* `Stencil.Catalog.Receives`: what a load does to the name of one of its sources.
* `Stencil.Catalog.Overwrites`: a catalog overwritten by the templates of some sources.
* `Stencil.Catalog.Loads`: a load, by its answer and by the sources that it publishes.
* `Stencil.Catalog.TellsApart`: sources that are not mistaken for others of their names.

## Main results

* `Stencil.faultless_or_exists_fault`: the first source with a fault.
* `Stencil.Catalog.insert_eq_ok_cases`: what inserting a source can do.
* `Stencil.Catalog.insertEach_invariant`, `Stencil.Catalog.exists_insert_of_insertEach_cons`: a load
  by its insertions.
* `Stencil.Catalog.receives_of_insertEach`: a load of sources with a name each.
* `Stencil.Catalog.TellsApart.insertEach_of_faultless`,
  `Stencil.Catalog.TellsApart.insertEach_of_fault`: loading without a fault, and up to the first
  one.
* `Stencil.Catalog.tellsApart_of_run`: loading after a run.
-/

namespace Stencil

/-! ### Sources that can be read -/

/-- The template of an offered source, or the fault of reading it. -/
def reading (offer : String × Source) : Except Fault Template :=
  offer.2.bind (Template.ofSource offer.1)

/-- Sources by name, all of which can be read. -/
def Faultless (entries : List (String × String)) : Prop :=
  ∀ e ∈ entries, ∃ ns, Body.ofSource e.2 = .ok ns

instance (entries : List (String × String)) : Decidable (Faultless entries) :=
  decidable_of_iff (∀ e ∈ entries, (Body.ofSource e.2).isOk = true) (by
    refine forall_congr' fun e => imp_congr_right fun _ => ?_
    cases Body.ofSource e.2 <;> simp [Except.isOk, Except.toBool])

section

variable {entries rest : List (String × String)} {name source : String} {fault : Fault}

theorem faultless_nil : Faultless [] := by
  simp [Faultless]

theorem faultless_cons_iff :
    Faultless ((name, source) :: entries) ↔
      (∃ ns, Body.ofSource source = .ok ns) ∧ Faultless entries :=
  List.forall_mem_cons

theorem faultless_append_iff : Faultless (entries ++ rest) ↔ Faultless entries ∧ Faultless rest :=
  List.forall_mem_append

theorem assetOffers_cons (name source : String) (entries : List (String × String)) :
    assetOffers ((name, source) :: entries) = (name, .ok source) :: assetOffers entries :=
  rfl

theorem assetOffers_append (entries rest : List (String × String)) :
    assetOffers (entries ++ rest) = assetOffers entries ++ assetOffers rest :=
  List.map_append

/-- The source in an offer, if it could be had. -/
def asset? (offer : String × Source) : Option (String × String) :=
  offer.2.toOption.map fun source => (offer.1, source)

theorem asset?_eq_some_iff {offer : String × Source} :
    asset? offer = some (name, source) ↔ offer = (name, .ok source) := by
  obtain ⟨other, _ | text⟩ := offer
  · exact iff_of_false (by rintro ⟨⟩) (by rintro ⟨⟩)
  · simp [asset?, Except.toOption]

theorem filterMap_asset?_assetOffers (entries : List (String × String)) :
    (assetOffers entries).filterMap asset? = entries := by
  rw [assetOffers, List.filterMap_map]
  exact List.filterMap_some

theorem assetOffers_injective : Function.Injective assetOffers :=
  Function.LeftInverse.injective filterMap_asset?_assetOffers

/-- An offered source has a fault when it cannot be had, or when it is malformed. -/
theorem reading_ok_eq_error_iff :
    reading (name, .ok source) = .error fault ↔
      ∃ cause, Body.ofSource source = .error cause ∧ fault = cause.inTemplate name := by
  show Template.ofSource name source = .error fault ↔ _
  cases h : Body.ofSource source with
  | ok ns => simp [Template.ofSource_of_ok h]
  | error cause => simp [Template.ofSource_of_error h, eq_comm]

/-- Offered sources are without a fault, or there is a first one that has a fault. -/
theorem faultless_or_exists_fault (offers : List (String × Source)) :
    (∃ entries, offers = assetOffers entries ∧ Faultless entries) ∨
      ∃ entries offer behind fault, offers = assetOffers entries ++ offer :: behind ∧
        Faultless entries ∧ reading offer = .error fault := by
  induction offers with
  | nil => exact Or.inl ⟨[], rfl, faultless_nil⟩
  | cons offer offers ih =>
    cases hread : reading offer with
    | error fault => exact Or.inr ⟨[], offer, offers, fault, rfl, faultless_nil, hread⟩
    | ok t =>
      obtain ⟨name, _ | source⟩ := offer
      · cases hread
      obtain ⟨ns, hns, -⟩ := Template.ofSource_eq_ok_iff.1 hread
      have hcons {entries : List (String × String)} (h : Faultless entries) :
          Faultless ((name, source) :: entries) :=
        faultless_cons_iff.2 ⟨⟨ns, hns⟩, h⟩
      rcases ih with ⟨entries, rfl, h⟩ | ⟨entries, offer, behind, fault, rfl, h, hfault⟩
      · exact Or.inl ⟨(name, source) :: entries, rfl, hcons h⟩
      · exact Or.inr ⟨(name, source) :: entries, offer, behind, fault, rfl, hcons h, hfault⟩

/-- Sources without a fault are all attempted, and then those behind them. -/
theorem attempts_append (h : Faultless entries) (offers : List (String × Source)) :
    attempts (assetOffers entries ++ offers) = entries ++ attempts offers := by
  induction entries with
  | nil => rfl
  | cons e entries ih =>
    obtain ⟨⟨ns, hns⟩, h⟩ := faultless_cons_iff.1 h
    rw [List.cons_append, ← ih h]
    exact attempts_cons_of_ok hns e.1 _

theorem attempts_of_faultless (h : Faultless entries) :
    attempts (assetOffers entries) = entries := by
  simpa [attempts] using attempts_append h []

end

/-- A brace that closes nothing is a fault of its source. -/
theorem Body.ofSource_stray_close :
    Body.ofSource s!"<% {closeBrace} %>" = .error (.brackets .strayClose) := by
  have hitems : Item.ofSource s!"<% {closeBrace} %>" = .ok [.token .rightBrace] := by decide +kernel
  exact ofSource_of_items hitems

namespace Catalog

variable {r r₁ r' : Catalog} {m : Sources} {name source : String} {fault : Fault}
  {entries : List (String × String)}

/-! ### One source -/

/-- Inserting a source keeps the template of a source with the same digest, or publishes the
template of this source. -/
theorem insert_eq_ok_cases {q : Catalog × Published} (h : r.insert name source = .ok q) :
    (q.1 = r ∧ r.get? name = some q.2 ∧ q.2.template.digest = Text.digest source) ∨
      ∃ t, Template.ofSource name source = .ok t ∧ q = r.publish t := by
  rw [insert] at h
  cases hcurrent : r.current? name (Text.digest source) with
  | some p =>
    rw [hcurrent] at h
    cases h
    obtain ⟨hget, hdigest⟩ := Option.filter_eq_some_iff.1 hcurrent
    exact Or.inl ⟨rfl, hget, by simpa using hdigest⟩
  | none =>
    rw [hcurrent] at h
    cases hread : Template.ofSource name source with
    | error fault => rw [hread] at h; cases h
    | ok t =>
      rw [hread] at h
      exact Or.inr ⟨t, rfl, (Except.ok.inj h).symm⟩

/-- What inserting a source answers with is published under its name, and has the digest of the
source. -/
theorem get?_insert_self {q : Catalog × Published} (h : r.insert name source = .ok q) :
    q.1.get? name = some q.2 ∧ q.2.template.digest = Text.digest source := by
  rcases insert_eq_ok_cases h with ⟨heq, hget, hdigest⟩ | ⟨t, ht, rfl⟩
  · rw [heq]
    exact ⟨hget, hdigest⟩
  · obtain ⟨ns, -, rfl⟩ := Template.ofSource_eq_ok_iff.1 ht
    exact ⟨by rw [get?_publish, if_pos rfl], rfl⟩

/-- Inserting a source leaves the other names alone. -/
theorem get?_insert_of_ne {q : Catalog × Published} (h : r.insert name source = .ok q)
    {other : String} (hne : other ≠ name) : q.1.get? other = r.get? other := by
  rcases insert_eq_ok_cases h with ⟨heq, -, -⟩ | ⟨t, ht, rfl⟩
  · rw [heq]
  · obtain ⟨ns, -, rfl⟩ := Template.ofSource_eq_ok_iff.1 ht
    rw [get?_publish, if_neg hne.symm]

theorem defaultLayout_insert {q : Catalog × Published} (h : r.insert name source = .ok q) :
    q.1.defaultLayout = r.defaultLayout := by
  rcases insert_eq_ok_cases h with ⟨heq, -, -⟩ | ⟨t, -, rfl⟩
  · rw [heq]
  · rfl

theorem Holds.of_get?_eq (h : r.Holds name source) (heq : r'.get? name = r.get? name) :
    r'.Holds name source := by
  obtain ⟨p, hp, ht⟩ := h
  exact ⟨p, heq.trans hp, ht⟩

/-- The template of a source is rendered as what is read from this source. -/
theorem Holds.render_eq (h : r.Holds name source) {ns : Body} (hns : Body.ofSource source = .ok ns)
    (context : Option Datum) : r.render name context none = ns.evaluate context := by
  obtain ⟨p, hp, ht⟩ := h
  rw [render_none_of_eq_some hp, Except.ok.inj (ht.symm.trans (Template.ofSource_of_ok hns name))]

/-- A name that is rendered otherwise than a source does not hold the template of this source. -/
theorem not_holds_of_render_ne {items : List Item} (hitems : Item.ofSource source = .ok items)
    (context : Option Datum)
    (hne : r.render name context none ≠ (Body.ofItems items).bind (·.evaluate context)) :
    ¬ r.Holds name source := by
  intro h
  have ⟨p, _, hread⟩ := h
  obtain ⟨ns, hns, -⟩ := Template.ofSource_eq_ok_iff.1 hread
  refine hne ?_
  rw [h.render_eq hns, ← Body.ofSource_of_items hitems, hns]
  rfl

/-- A name holds the template of a source, or it keeps the template that it had, because that has
the digest of the source. -/
def Receives (r : Catalog) (name source : String) (r' : Catalog) : Prop :=
  r'.Holds name source ∨
    ∃ p, r.get? name = some p ∧ p.template.digest = Text.digest source ∧ r'.get? name = some p

theorem receives_insert {q : Catalog × Published} (h : r.insert name source = .ok q) :
    r.Receives name source q.1 := by
  rcases insert_eq_ok_cases h with ⟨heq, hget, hdigest⟩ | ⟨t, ht, rfl⟩
  · exact Or.inr ⟨q.2, hget, hdigest, heq ▸ hget⟩
  · obtain ⟨ns, -, rfl⟩ := Template.ofSource_eq_ok_iff.1 ht
    exact Or.inl ⟨(r.publish _).2, by rw [get?_publish, if_pos rfl], ht⟩

/-- What happens before and after, but not to the name, does not count. -/
theorem Receives.of_get?_eq (h : r₁.Receives name source r') {r₂ : Catalog}
    (hbefore : r₁.get? name = r.get? name) (hafter : r₂.get? name = r'.get? name) :
    r.Receives name source r₂ := by
  rcases h with hholds | ⟨p, hp, hdigest, hp'⟩
  · exact Or.inl (hholds.of_get?_eq hafter)
  · exact Or.inr ⟨p, hbefore.symm.trans hp, hdigest, hafter.trans hp'⟩

/-! ### Overwriting -/

/-- A catalog that is overwritten by the templates of some sources, one after the other. -/
structure Overwrites (r : Catalog) (entries : List (String × String)) (r' : Catalog) : Prop where
  /-- A name has the template of its last source. -/
  holds {name source : String} :
    Dictionary.find? name entries.reverse = some source → r'.Holds name source
  /-- A name without a source keeps what is published under it. -/
  untouched {name : String} : name ∉ Dictionary.keys entries → r'.get? name = r.get? name

theorem overwrites_nil (r : Catalog) : r.Overwrites [] r where
  holds := by simp
  untouched _ := rfl

/-- Overwriting by one more source in front. -/
theorem Overwrites.cons (h : r₁.Overwrites entries r') (hholds : r₁.Holds name source)
    (hothers : ∀ other, other ≠ name → r₁.get? other = r.get? other) :
    r.Overwrites ((name, source) :: entries) r' where
  holds {other s} hlast := by
    rw [List.reverse_cons, Dictionary.find?_append] at hlast
    cases hlater : Dictionary.find? other entries.reverse with
    | some t =>
      rw [hlater] at hlast
      exact h.holds (hlater.trans hlast)
    | none =>
      -- The source in front is the last one of its name.
      have hother : other ∉ Dictionary.keys entries := fun hmem =>
        Dictionary.find?_eq_none_iff.1 hlater (Dictionary.mem_keys_reverse.2 hmem)
      rw [hlater, Option.none_or, Dictionary.find?_cons] at hlast
      split at hlast
      · rename_i hname
        cases hlast
        exact (hname ▸ hholds).of_get?_eq (h.untouched hother)
      · cases hlast
  untouched {other} hother := by
    rw [Dictionary.keys_cons, List.mem_cons, not_or] at hother
    rw [h.untouched hother.2, hothers other hother.1]

/-! ### Several sources -/

/-- What every insertion of a load keeps, the load keeps. -/
theorem insertEach_invariant {P : Catalog → Prop} {offers : List (String × Source)}
    (hinsert : ∀ r name source q, (name, .ok source) ∈ offers → r.insert name source = .ok q →
      P r → P q.1) (h : P r) : P (r.insertEach offers).1 := by
  induction offers generalizing r with
  | nil => exact h
  | cons offer offers ih =>
    obtain ⟨name, s⟩ := offer
    cases hs : s.bind (r.insert name) with
    | error fault =>
      rw [insertEach_cons_of_error hs]
      exact h
    | ok q =>
      obtain _ | source := s
      · cases hs
      · rw [insertEach_cons_of_ok hs]
        exact ih (fun r' other t q' ht => hinsert r' other t q' (List.mem_cons_of_mem _ ht))
          (hinsert r name source q List.mem_cons_self hs h)

/-- A load with success inserts its first source, and then the others. -/
theorem exists_insert_of_insertEach_cons {offer : String × Source} {offers : List (String × Source)}
    {n : Nat} (h : (r.insertEach (offer :: offers)).2 = .ok n) :
    ∃ name source q k, offer = (name, .ok source) ∧ r.insert name source = .ok q ∧
      (q.1.insertEach offers).2 = .ok k ∧ n = k + 1 ∧
      (r.insertEach (offer :: offers)).1 = (q.1.insertEach offers).1 := by
  obtain ⟨name, s⟩ := offer
  cases hs : s.bind (r.insert name) with
  | error fault => rw [insertEach_cons_of_error hs] at h; cases h
  | ok q =>
    obtain _ | source := s
    · cases hs
    · rw [insertEach_cons_of_ok hs] at h ⊢
      obtain ⟨k, hk, rfl⟩ := map_eq_ok_iff.1 h
      exact ⟨name, source, q, k, rfl, hs, hk, rfl, rfl⟩

/-- A load succeeds when it is offered sources only, and counts all of them. -/
theorem exists_eq_assetOffers_of_insertEach {offers : List (String × Source)} {n : Nat}
    (h : (r.insertEach offers).2 = .ok n) :
    ∃ entries, offers = assetOffers entries ∧ entries.length = n := by
  induction offers generalizing r n with
  | nil => exact ⟨[], rfl, Except.ok.inj h⟩
  | cons offer offers ih =>
    obtain ⟨name, source, q, k, rfl, -, hk, rfl, -⟩ := exists_insert_of_insertEach_cons h
    obtain ⟨entries, rfl, hlength⟩ := ih hk
    exact ⟨(name, source) :: entries, rfl, congrArg (· + 1) hlength⟩

theorem length_eq_of_insertEach {offers : List (String × Source)} {n : Nat}
    (h : (r.insertEach offers).2 = .ok n) : offers.length = n := by
  obtain ⟨entries, rfl, hlength⟩ := exists_eq_assetOffers_of_insertEach h
  rw [assetOffers, List.length_map, hlength]

/-- A load leaves the names alone under which it is offered nothing. -/
theorem get?_insertEach_of_notMem {offers : List (String × Source)}
    (h : name ∉ Dictionary.keys offers) : (r.insertEach offers).1.get? name = r.get? name := by
  refine insertEach_invariant (P := fun r' => r'.get? name = r.get? name) ?_ rfl
  intro r' other source q hmem hinsert hget
  have hne : name ≠ other := fun heq => h (List.mem_map.2 ⟨(other, .ok source), hmem, heq.symm⟩)
  exact (get?_insert_of_ne hinsert hne).trans hget

theorem keys_assetOffers (entries : List (String × String)) :
    Dictionary.keys (assetOffers entries) = Dictionary.keys entries := by
  rw [assetOffers, Dictionary.keys, List.map_map]
  rfl

/-- A load of sources with a name each: every name receives its source. -/
theorem receives_of_insertEach (hnames : (Dictionary.keys entries).Nodup) {n : Nat}
    (h : (r.insertEach (assetOffers entries)).2 = .ok n) :
    ∀ e ∈ entries, r.Receives e.1 e.2 (r.insertEach (assetOffers entries)).1 := by
  induction entries generalizing r n with
  | nil => simp
  | cons e entries ih =>
    obtain ⟨name, source⟩ := e
    rw [Dictionary.keys_cons, List.nodup_cons] at hnames
    obtain ⟨hname, hnames⟩ := hnames
    rw [assetOffers_cons] at h ⊢
    obtain ⟨_, _, q, k, heq, hinsert, hk, -, hafter⟩ := exists_insert_of_insertEach_cons h
    cases heq
    rw [hafter]
    refine List.forall_mem_cons.2 ⟨?_, fun f hf => ?_⟩
    · -- The sources behind this one have other names.
      refine (receives_insert hinsert).of_get?_eq rfl (get?_insertEach_of_notMem ?_)
      rwa [keys_assetOffers]
    · have hne : f.1 ≠ name := fun heq => hname (List.mem_map.2 ⟨f, hf, heq⟩)
      exact (ih hnames hk f hf).of_get?_eq (get?_insert_of_ne hinsert hne) rfl

/-- A load with an answer, in which the catalog is overwritten by some sources and nothing else is
changed. -/
structure Loads (r : Catalog) (entries : List (String × String)) (answer : Except Fault Nat)
    (result : Catalog × Except Fault Nat) : Prop where
  answer_eq : result.2 = answer
  overwrites : r.Overwrites entries result.1
  defaultLayout_eq : result.1.defaultLayout = r.defaultLayout

/-! ### Sources that are told apart -/

/-- No source is mistaken for another one of its name: neither for the one whose template is
published under the name before, nor for another one of the same load. -/
structure TellsApart (r : Catalog) (entries : List (String × String)) : Prop where
  published {name source : String} {p : Published} : (name, source) ∈ entries →
    r.get? name = some p → p.template.digest = Text.digest source → r.Holds name source
  offered {name s t : String} : (name, s) ∈ entries → (name, t) ∈ entries →
    Text.digest s = Text.digest t → s = t

/-- The digest of a template tells its source. -/
theorem Holds.digest_eq {p : Published} (h : r.Holds name source) (hp : r.get? name = some p) :
    p.template.digest = Text.digest source := by
  obtain ⟨q, hq, hread⟩ := h
  obtain rfl := Option.some.inj (hp.symm.trans hq)
  obtain ⟨ns, -, htemplate⟩ := Template.ofSource_eq_ok_iff.1 hread
  rw [htemplate]

/-- A source without a fault is inserted. -/
theorem exists_insert_eq_ok {ns : Body} (hread : Body.ofSource source = .ok ns) (r : Catalog)
    (name : String) : ∃ q, r.insert name source = .ok q := by
  rw [insert, Template.ofSource_of_ok hread]
  cases r.current? name (Text.digest source) with
  | some p => exact ⟨(r, p), rfl⟩
  | none => exact ⟨_, rfl⟩

namespace TellsApart

/-- Inserting a source that is told apart publishes its template, whether the source is read again
or not. -/
theorem holds_of_insert (h : r.TellsApart entries) (hmem : (name, source) ∈ entries)
    {q : Catalog × Published} (hq : r.insert name source = .ok q) : q.1.Holds name source := by
  rcases receives_insert hq with hholds | ⟨p, hp, hdigest, hp'⟩
  · exact hholds
  · exact (h.published hmem hp hdigest).of_get?_eq (hp'.trans hp.symm)

/-- A malformed source that is told apart is not inserted. -/
theorem insert_eq_error (h : r.TellsApart entries) (hmem : (name, source) ∈ entries)
    (hread : Body.ofSource source = .error fault) :
    r.insert name source = .error (fault.inTemplate name) := by
  cases hinsert : r.insert name source with
  | ok q =>
    obtain ⟨p, -, htemplate⟩ := h.holds_of_insert hmem hinsert
    rw [Template.ofSource_of_error hread] at htemplate
    cases htemplate
  | error fault' =>
    rw [insert, Template.ofSource_of_error hread] at hinsert
    cases hcurrent : r.current? name (Text.digest source) with
    | some p =>
      rw [hcurrent] at hinsert
      cases hinsert
    | none =>
      rw [hcurrent] at hinsert
      exact hinsert.symm

/-- Behind a source that is inserted, the others are still told apart. -/
theorem insert (h : r.TellsApart ((name, source) :: entries)) {q : Catalog × Published}
    (hq : r.insert name source = .ok q) : q.1.TellsApart entries where
  published {other s p} hmem hp hdigest := by
    by_cases hname : other = name
    · subst hname
      have hholds := h.holds_of_insert List.mem_cons_self hq
      have hsource : source = s := h.offered List.mem_cons_self (List.mem_cons_of_mem _ hmem)
        ((hholds.digest_eq hp).symm.trans hdigest)
      exact hsource ▸ hholds
    · have hget := get?_insert_of_ne hq hname
      exact (h.published (List.mem_cons_of_mem _ hmem) (hget.symm.trans hp) hdigest).of_get?_eq hget
  offered hs ht := h.offered (List.mem_cons_of_mem _ hs) (List.mem_cons_of_mem _ ht)

/-- Sources without a fault are all published and counted. -/
theorem insertEach_of_faultless (h : r.TellsApart entries) (hread : Faultless entries) :
    r.Loads entries (.ok entries.length) (r.insertEach (assetOffers entries)) := by
  induction entries generalizing r with
  | nil => exact ⟨rfl, overwrites_nil r, rfl⟩
  | cons e entries ih =>
    obtain ⟨name, source⟩ := e
    obtain ⟨⟨ns, hns⟩, hread⟩ := faultless_cons_iff.1 hread
    obtain ⟨q, hinsert⟩ := exists_insert_eq_ok hns r name
    have hbind : (.ok source : Source).bind (r.insert name) = .ok q := hinsert
    have hholds := h.holds_of_insert List.mem_cons_self hinsert
    have hload := ih (h.insert hinsert) hread
    rw [assetOffers_cons, insertEach_cons_of_ok hbind, hload.answer_eq]
    exact ⟨rfl, hload.overwrites.cons hholds fun other => get?_insert_of_ne hinsert,
      hload.defaultLayout_eq.trans (defaultLayout_insert hinsert)⟩

/-- Behind sources without a fault, the others are still told apart. -/
theorem insertEach {rest : List (String × String)} (h : r.TellsApart (entries ++ rest))
    (hread : Faultless entries) : (r.insertEach (assetOffers entries)).1.TellsApart rest := by
  induction entries generalizing r with
  | nil => exact h
  | cons e entries ih =>
    obtain ⟨name, source⟩ := e
    obtain ⟨⟨ns, hns⟩, hread⟩ := faultless_cons_iff.1 hread
    obtain ⟨q, hinsert⟩ := exists_insert_eq_ok hns r name
    have hbind : (.ok source : Source).bind (r.insert name) = .ok q := hinsert
    rw [assetOffers_cons, insertEach_cons_of_ok hbind]
    exact ih (h.insert hinsert) hread

theorem of_append {rest : List (String × String)} (h : r.TellsApart (entries ++ rest)) :
    r.TellsApart entries where
  published hmem := h.published (List.mem_append_left _ hmem)
  offered hs ht := h.offered (List.mem_append_left _ hs) (List.mem_append_left _ ht)

/-- The first source with a fault ends the loading. The sources before it are published, and nothing
else is changed. -/
theorem insertEach_of_fault {offer : String × Source} {behind : List (String × Source)}
    (h : r.TellsApart (attempts (assetOffers entries ++ offer :: behind)))
    (hread : Faultless entries) (hfault : reading offer = .error fault) :
    r.Loads entries (.error fault) (r.insertEach (assetOffers entries ++ offer :: behind)) := by
  rw [attempts_append hread] at h
  have hload := h.of_append.insertEach_of_faultless hread
  have hbind : offer.2.bind ((r.insertEach (assetOffers entries)).1.insert offer.1) =
      .error fault := by
    obtain ⟨name, _ | source⟩ := offer
    · cases hfault
      rfl
    · obtain ⟨cause, hcause, rfl⟩ := reading_ok_eq_error_iff.1 hfault
      rw [attempts_cons_of_error hcause] at h
      exact (h.insertEach hread).insert_eq_error (List.mem_singleton.2 rfl) hcause
  rw [insertEach_append_of_ok hload.answer_eq, insertEach_cons_of_error hbind]
  exact ⟨rfl, hload.overwrites, hload.defaultLayout_eq⟩

/-- A load without a fault is offered sources without a fault. -/
theorem exists_faultless_of_insertEach {offers : List (String × Source)}
    (h : r.TellsApart (attempts offers)) {n : Nat} (hok : (r.insertEach offers).2 = .ok n) :
    ∃ entries, offers = assetOffers entries ∧ Faultless entries := by
  rcases faultless_or_exists_fault offers with
    ⟨entries, rfl, hread⟩ | ⟨entries, offer, behind, fault, rfl, hread, hfault⟩
  · exact ⟨entries, rfl, hread⟩
  · have hload := h.insertEach_of_fault hread hfault
    rw [hload.answer_eq] at hok
    cases hok

/-- A load without a fault, of sources with a name each, publishes the template of every source. -/
theorem holds_of_insertEach (h : r.TellsApart (attempts (assetOffers entries)))
    (hnames : (Dictionary.keys entries).Nodup) {n : Nat}
    (hok : (r.insertEach (assetOffers entries)).2 = .ok n) :
    ∀ e ∈ entries, (r.insertEach (assetOffers entries)).1.Holds e.1 e.2 := by
  intro e he
  obtain ⟨entries', heq, hread⟩ := h.exists_faultless_of_insertEach hok
  obtain rfl := assetOffers_injective heq
  rw [attempts_of_faultless hread] at h
  refine (h.insertEach_of_faultless hread).overwrites.holds ?_
  rw [← Dictionary.find?_perm (List.reverse_perm entries).symm hnames,
    Dictionary.find?_eq_some_iff_mem hnames]
  exact he

end TellsApart

/-- Where the templates are those of the sources of a map, digests that tell all sources from each
other tell those of a load apart. -/
theorem Publishes.tellsApart {sources : List String} (h : r.Publishes m) (hm : m.Within sources)
    (hdigest : Text.Distinguishes sources) (hentries : ∀ e ∈ entries, e.2 ∈ sources) :
    r.TellsApart entries where
  published {name source p} hmem hp heq := by
    obtain ⟨s, hs, hread⟩ := h.exists_eq_some hp
    have hholds : r.Holds name s := ⟨p, hp, hread⟩
    have hsource : s = source := hdigest s (hm name s hs) source (hentries _ hmem)
      ((hholds.digest_eq hp).symm.trans heq)
    exact hsource ▸ hholds
  offered {name s t} hs ht := hdigest s (hentries _ hs) t (hentries _ ht)

/-- Sources are told apart by their digests, if these are others than that of the template under the
name and than those of the other sources of the name. -/
theorem tellsApart_of_digest_ne
    (hpublished : ∀ e ∈ entries, ∀ p ∈ r.get? e.1, p.template.digest ≠ Text.digest e.2)
    (hoffered : ∀ e ∈ entries, ∀ f ∈ entries, e.1 = f.1 → Text.digest e.2 = Text.digest f.2 →
      e.2 = f.2) :
    r.TellsApart entries where
  published {name source p} hmem hp hdigest :=
    absurd hdigest (hpublished (name, source) hmem p hp)
  offered {name s t} hs ht := hoffered (name, s) hs (name, t) ht rfl

/-- After a run in which the digests tell the attempted sources from each other, they tell those of
its last operation apart. -/
theorem tellsApart_of_run {ops : List Operation} {op : Operation}
    (hdigest : Text.Distinguishes (attempted (ops ++ [op]))) :
    (run ops).TellsApart op.attempts := by
  have hbefore : attempted ops ⊆ attempted (ops ++ [op]) := by
    rw [attempted, attempted, List.flatMap_append]
    exact List.subset_append_left _ _
  obtain ⟨hpublishes, hwithin⟩ := publishes_run hdigest hbefore
  exact hpublishes.tellsApart hwithin hdigest fun e he =>
    mem_attempted_iff.2 ⟨op, by simp, e, he, rfl⟩

end Catalog

end Stencil
