import Stencil.Path
import Stencil.Proofs.Text.Split

/-!
# Joining paths

A path that is continued by another one keeps its components. The components of the other path come
behind them, except for a `.` at the beginning, which counts only where a path starts. However the
two paths are spelled, what comes out depends on their components alone; so a path can be put
together again from its components.

## Main definitions

* `Stencil.Path.IsOrdinary`: the names that the entries of a directory have.
* `Stencil.Path.Component.isInner`, `Stencil.Path.inner`: the components that can stand behind
  others, and those of a path.

## Main results

* `Stencil.Path.components_join_of_ne_empty`: a path continued by another one.
* `Stencil.Path.components_join_congr`: what it is continued by counts by its components.
* `Stencil.Path.components_foldl_join`: a path continued by components, one after the other.
* `Stencil.Path.components_ofComponents`: a path from its components.
-/

namespace Stencil.Path

/-! ### Components behind others -/

/-- The names that entries of a directory can have: not empty, without a slash, and neither `.` nor
`..`. -/
def IsOrdinary (name : String) : Prop :=
  name ≠ "" ∧ name ≠ "." ∧ name ≠ ".." ∧ '/' ∉ name.toList

instance (name : String) : Decidable (IsOrdinary name) :=
  inferInstanceAs (Decidable (_ ∧ _ ∧ _ ∧ _))

theorem IsOrdinary.ofName? {name : String} (h : IsOrdinary name) :
    Component.ofName? name = some (.normal name) := by
  obtain ⟨hempty, hcurrent, hparent, -⟩ := h
  simp [Component.ofName?, hempty, hcurrent, hparent]

/-- Whether a component can stand behind others. -/
def Component.isInner : Component → Bool
  | root => false
  | current => false
  | parent => true
  | normal _ => true

/-- The components of a path without the one that stands for its beginning. -/
def inner (path : String) : List Component :=
  (components path).filter Component.isInner

variable {name base path path' : String} {c : Component} {cs : List Component}

theorem isInner_of_ofName? (h : Component.ofName? name = some c) : c.isInner = true := by
  rw [Component.ofName?] at h
  split at h
  · cases h
  · split at h
    all_goals cases h
    all_goals rfl

theorem filter_isInner_leading (names : List String) :
    (leading names).filter Component.isInner = [] := by
  unfold leading
  split <;> rfl

/-- They are made from the names between the slashes. -/
theorem inner_eq_filterMap (path : String) :
    inner path = (Text.split '/' path).filterMap Component.ofName? := by
  rw [inner, components, List.filter_append, filter_isInner_leading, List.nil_append,
    List.filter_eq_self]
  intro c hc
  obtain ⟨name, -, hname⟩ := List.mem_filterMap.1 hc
  exact isInner_of_ofName? hname

theorem components_eq_leading_append (path : String) :
    components path = leading (Text.split '/' path) ++ inner path := by
  rw [inner_eq_filterMap, components]

/-- A name in a path is one that an entry of a directory can have. -/
theorem isOrdinary_of_mem_components (h : .normal name ∈ components path) : IsOrdinary name := by
  have hinner : .normal name ∈ inner path := List.mem_filter.2 ⟨h, rfl⟩
  rw [inner_eq_filterMap] at hinner
  obtain ⟨piece, hpiece, hname⟩ := List.mem_filterMap.1 hinner
  obtain ⟨s, hs, rfl⟩ := List.mem_map.1 hpiece
  rw [Component.ofName?] at hname
  split at hname
  · cases hname
  · split at hname
    · cases hname
    · rename_i hdots hparent
      cases hname
      refine ⟨fun h => hdots (.inl h), fun h => hdots (.inr h), hparent, ?_⟩
      rw [String.toList_ofList]
      exact Text.notMem_of_mem_pieces hs

/-! ### Beginnings -/

theorem isAbsolute_iff_split :
    isAbsolute path = true ↔ ∃ name names, Text.split '/' path = "" :: name :: names := by
  rw [isAbsolute, beq_iff_eq, Text.split]
  cases path.toList with
  | nil => simp [Text.pieces]
  | cons c r =>
    rw [Text.pieces, List.head?_cons, Option.some_inj]
    split
    · rename_i hc
      have hne : Text.pieces '/' r ≠ [] := Text.pieces_ne_nil r
      obtain ⟨p, ps, hps⟩ := List.exists_cons_of_ne_nil hne
      exact iff_of_true hc ⟨String.ofList p, ps.map String.ofList, by rw [hps]; rfl⟩
    · rename_i hc
      refine iff_of_false hc ?_
      split <;> simp

/-- An absolute path starts with the slash. -/
theorem isAbsolute_iff_head? : isAbsolute path = true ↔ (components path).head? = some .root := by
  rw [isAbsolute_iff_split, components_eq_leading_append]
  constructor
  · rintro ⟨name, names, hsplit⟩
    rw [hsplit]
    rfl
  · intro h
    unfold leading at h
    split at h
    · rename_i name names hsplit
      exact ⟨name, names, hsplit⟩
    · cases h
    · rw [List.nil_append] at h
      have hroot := (List.mem_filter.1 (List.mem_of_mem_head? h)).2
      cases hroot

/-- A path without the slash at the beginning is relative. -/
theorem isAbsolute_eq_false (h : ∀ c ∈ components path, c.isInner = true) :
    isAbsolute path = false := by
  rw [← Bool.not_eq_true, isAbsolute_iff_head?]
  intro hhead
  have hroot := h .root (List.mem_of_mem_head? hhead)
  cases hroot

/-- Behind the first component all others can stand behind another one. -/
theorem isInner_of_mem_tail (h : c ∈ (components path).tail) : c.isInner = true := by
  rw [components_eq_leading_append] at h
  have hinner : c ∈ inner path := by
    unfold leading at h
    split at h
    · exact h
    · exact h
    · exact List.mem_of_mem_tail h
  exact (List.mem_filter.1 hinner).2

/-- The beginning of a path does not depend on what follows its last slash. -/
theorem leading_append_cons {names : List String} (h : names ≠ []) (x y : String)
    (xs ys : List String) : leading (names ++ x :: xs) = leading (names ++ y :: ys) := by
  match names, h with
  | [n], _ => by_cases hn : n = "" <;> by_cases hn' : n = "." <;> simp [leading, hn, hn']
  | n :: n' :: ns, _ => by_cases hn : n = "" <;> by_cases hn' : n = "." <;> simp [leading, hn, hn']

/-- What follows does not change the beginning of a path that has one. -/
theorem leading_append {names : List String} (h : names ≠ []) (h' : names ≠ [""])
    (names' : List String) : leading (names ++ names') = leading names := by
  match names, h, h' with
  | [n], _, h' =>
    have hn : n ≠ "" := fun heq => h' (by rw [heq])
    by_cases hn' : n = "." <;> simp [leading, hn, hn']
  | n :: n' :: ns, _, _ =>
    by_cases hn : n = "" <;> by_cases hn' : n = "." <;> simp [leading, hn, hn']

/-! ### A path behind a slash -/

theorem split_append_slash (base path : String) :
    Text.split '/' (base ++ "/" ++ path) = Text.split '/' base ++ Text.split '/' path :=
  Text.split_append_sep_append base path

theorem inner_append_slash (base path : String) :
    inner (base ++ "/" ++ path) = inner base ++ inner path := by
  rw [inner_eq_filterMap, split_append_slash, List.filterMap_append, inner_eq_filterMap,
    inner_eq_filterMap]

/-- What follows a slash keeps its components, except for the beginning. -/
theorem components_append_slash (hbase : base ≠ "") (path : String) :
    components (base ++ "/" ++ path) = components base ++ inner path := by
  rw [components_eq_leading_append, split_append_slash, inner_append_slash,
    leading_append (Text.split_ne_nil '/' base) (Text.split_ne_singleton_empty hbase),
    ← List.append_assoc, ← components_eq_leading_append]

/-- This holds behind a path that ends in a slash, too. -/
theorem components_append (front path : String) :
    components (front ++ "/" ++ path) = components (front ++ "/") ++ inner path := by
  have hends : front ++ "/" = front ++ "/" ++ "" := (String.append_empty).symm
  obtain ⟨name, names, hpath⟩ := List.exists_cons_of_ne_nil (Text.split_ne_nil '/' path)
  have hempty : Text.split '/' "" = [""] := by decide +kernel
  rw [components_eq_leading_append, split_append_slash, inner_append_slash, hpath,
    leading_append_cons (Text.split_ne_nil '/' front) name "" names [], ← List.append_assoc]
  congr 1
  rw [hends, components_eq_leading_append, split_append_slash, inner_append_slash, hempty]
  have hinner : inner "" = [] := by decide +kernel
  rw [hinner, List.append_nil]

/-! ### Joining -/

theorem join_of_isAbsolute (h : isAbsolute path = true) : join base path = path := by
  rw [join, if_pos h]

theorem join_empty (path : String) : join "" path = path := by
  simp [join]

/-- A path continued by a relative one. -/
theorem components_join_of_ne_empty (hbase : base ≠ "") (hpath : isAbsolute path = false) :
    components (join base path) = components base ++ inner path := by
  rw [join, hpath, if_neg Bool.false_ne_true]
  split
  · rename_i hends
    obtain ⟨front, hfront⟩ := List.getLast?_eq_some_iff.1 (hends.resolve_left hbase)
    obtain rfl : base = String.ofList front ++ "/" := by
      rw [← String.toList_inj, hfront]
      simp
    exact components_append (String.ofList front) path
  · exact components_append_slash hbase path

/-- A path that is continued by components that can all stand behind others. -/
theorem components_join_of_isInner (h : ∀ c ∈ components path, c.isInner = true)
    (base : String) : components (join base path) = components base ++ components path := by
  by_cases hbase : base = ""
  · rw [hbase, join_empty]
    rfl
  · rw [components_join_of_ne_empty hbase (isAbsolute_eq_false h), inner,
      List.filter_eq_self.2 h]

/-- What a path is continued by counts by its components alone. -/
theorem components_join_congr (h : components path = components path') (base : String) :
    components (join base path) = components (join base path') := by
  have habsolute : isAbsolute path = isAbsolute path' := by
    rw [Bool.eq_iff_iff, isAbsolute_iff_head?, isAbsolute_iff_head?, h]
  by_cases hpath : isAbsolute path = true
  · rw [join_of_isAbsolute hpath, join_of_isAbsolute (habsolute ▸ hpath), h]
  · rw [Bool.not_eq_true] at hpath
    by_cases hbase : base = ""
    · rw [hbase, join_empty, join_empty, h]
    · rw [components_join_of_ne_empty hbase hpath,
        components_join_of_ne_empty hbase (habsolute ▸ hpath), inner, inner, h]

/-- A joined path has no components but those of its parts. -/
theorem mem_components_join (h : c ∈ components (join base path)) :
    c ∈ components base ∨ c ∈ components path := by
  by_cases hpath : isAbsolute path = true
  · rw [join_of_isAbsolute hpath] at h
    exact .inr h
  · by_cases hbase : base = ""
    · rw [hbase, join_empty] at h
      exact .inr h
    · rw [components_join_of_ne_empty hbase (Bool.not_eq_true _ ▸ hpath), List.mem_append] at h
      exact h.imp_right fun hinner => (List.mem_filter.1 hinner).1

/-! ### Paths from components -/

theorem IsOrdinary.components (h : IsOrdinary name) : components name = [.normal name] := by
  have hsplit : Text.split '/' name = [name] := Text.split_of_notMem h.2.2.2
  have hleading : leading [name] = [] := by
    simp [leading, h.2.1]
  rw [Path.components, hsplit, hleading]
  simp [h.ofName?]

/-- The text of a component is a path of that component. -/
theorem components_text (h : c ∈ components path) : components c.text = [c] := by
  cases c with
  | root => decide +kernel
  | current => decide +kernel
  | parent => decide +kernel
  | normal name => exact (isOrdinary_of_mem_components h).components

/-- A path continued by components, one after the other. -/
theorem components_foldl_join (h : ∀ c ∈ cs, c.isInner = true)
    (hpath : ∀ c ∈ cs, c ∈ components path) (base : String) :
    components (cs.foldl (fun p c => join p c.text) base) = components base ++ cs := by
  induction cs generalizing base with
  | nil => simp
  | cons c cs ih =>
    obtain ⟨hc, hcs⟩ := List.forall_mem_cons.1 h
    obtain ⟨hcpath, hcspath⟩ := List.forall_mem_cons.1 hpath
    have htext := components_text hcpath
    have hone : components (join base c.text) = components base ++ [c] := by
      rw [components_join_of_isInner _ base, htext]
      rw [htext]
      simpa using hc
    rw [List.foldl_cons, ih hcs hcspath, hone, List.append_assoc, List.singleton_append]

/-- A path can be put together again from the components at its beginning. -/
theorem components_ofComponents (h : cs <+: components path) :
    components (ofComponents cs) = cs := by
  cases cs with
  | nil => decide +kernel
  | cons c cs =>
    have htail : cs <+: (components path).tail := by
      obtain ⟨rest, hrest⟩ := h
      exact ⟨rest, by rw [← hrest]; rfl⟩
    have hc : components c.text = [c] :=
      components_text (h.subset (List.mem_cons_self))
    have hinner : ∀ c' ∈ cs, c'.isInner = true := fun c' hc' =>
      isInner_of_mem_tail (htail.subset hc')
    have hmem : ∀ c' ∈ cs, c' ∈ components path := fun c' hc' =>
      h.subset (List.mem_cons_of_mem c hc')
    rw [ofComponents, List.foldl_cons, join_empty, components_foldl_join hinner hmem, hc,
      List.singleton_append]

/-- What a pattern starts with has the components of the pattern up to the first one with a
wildcard. -/
theorem components_literalPart (pattern : String) :
    components (literalPart pattern) = (components pattern).takeWhile Component.isLiteral :=
  components_ofComponents (List.takeWhile_prefix _)

end Stencil.Path
