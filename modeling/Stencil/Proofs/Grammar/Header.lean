import Stencil.Proofs.Grammar
import Stencil.Proofs.Progress

/-!
# Headers and the grammar

A header that is being read is completed by items of which the grammar knows the form: an opening,
or what follows `else`. A run inside a header ends well exactly when some items complete the header
and the run over the others, after the event of the header, ends well.

## Main definitions

* `Stencil.Header.Reads`: the items that complete a header, with its event.

## Main results

* `Stencil.Header.reads_condition_iff`, `Stencil.Header.reads_loopVariable_iff`,
  `Stencil.Header.reads_alternative_iff`: these items in terms of the grammar.
* `Stencil.Progress.run_header_eq_ok_iff`: runs inside a header.
-/

namespace Stencil

open Item

namespace Header

/-- The items that complete a header, with the event it then amounts to. -/
inductive Reads : Header → List Item → Event → Prop where
  | skip {h : Header} {i : Item} {items : List Item} {e : Event} (hi : i.isBlank = true)
      (hr : Reads h items e) : Reads h (i :: items) e
  | next {h h' : Header} {t : Token} {items : List Item} {e : Event}
      (hs : h.step t = .ok (.inl h')) (hr : Reads h' items e) : Reads h (token t :: items) e
  | last {h : Header} {t : Token} {e : Event} (hs : h.step t = .ok (.inr e)) :
      Reads h [token t] e

theorem Reads.gap {h : Header} {g items : List Item} {e : Event} (hg : IsGap g)
    (hr : Reads h items e) : Reads h (g ++ items) e := by
  induction g with
  | nil => exact hr
  | cons i g ih =>
    rw [isGap_cons] at hg
    exact .skip hg.1 (ih hg.2)

/-- A header goes on with a gap and a token, which takes it one step further or completes it. -/
theorem Reads.exists_step {h : Header} {items : List Item} {e : Event} (hr : Reads h items e) :
    ∃ t k g rest, h.step t = .ok k ∧ IsGap g ∧ items = g ++ token t :: rest ∧
      k.elim (fun h' => Reads h' rest e) (fun e' => rest = [] ∧ e = e') := by
  induction hr with
  | @skip h i items e hi hr ih =>
    obtain ⟨t, k, g, rest, hs, hg, rfl, hk⟩ := ih
    exact ⟨t, k, i :: g, rest, hs, by simp [hi, hg], rfl, hk⟩
  | @next h h' t items e hs hr ih => exact ⟨t, _, [], items, hs, by simp, rfl, hr⟩
  | @last h t e hs => exact ⟨t, _, [], [], hs, by simp, rfl, rfl, rfl⟩

/-! ### The steps of a header -/

section Steps

variable {arm : Arm} {parens : Bool} {x c : String} {t : Token} {k : Header ⊕ Event}

attribute [local simp] step

theorem step_condition_eq_ok_iff : (condition arm).step t = .ok k ↔
    (∃ c, t = .identifier c ∧ k = .inl (branchBody arm c)) ∨
      t = .leftParen ∧ k = .inl (conditionName arm) := by
  cases t <;> simp [eq_comm]

theorem step_conditionName_eq_ok_iff : (conditionName arm).step t = .ok k ↔
    ∃ c, t = .identifier c ∧ k = .inl (conditionEnd arm c) := by
  cases t <;> simp [eq_comm]

theorem step_conditionEnd_eq_ok_iff : (conditionEnd arm c).step t = .ok k ↔
    t = .rightParen ∧ k = .inl (branchBody arm c) := by
  cases t <;> simp [eq_comm]

theorem step_branchBody_eq_ok_iff : (branchBody arm c).step t = .ok k ↔
    t = .leftBrace ∧ k = .inr (arm.event c) := by
  cases t <;> simp [eq_comm]

theorem step_loopVariable_eq_ok_iff : loopVariable.step t = .ok k ↔
    (∃ x, t = .identifier x ∧ k = .inl (loopIn false x)) ∨
      t = .leftParen ∧ k = .inl loopVariableName := by
  cases t <;> simp [eq_comm]

theorem step_loopVariableName_eq_ok_iff : loopVariableName.step t = .ok k ↔
    ∃ x, t = .identifier x ∧ k = .inl (loopIn true x) := by
  cases t <;> simp [eq_comm]

theorem step_loopIn_eq_ok_iff : (loopIn parens x).step t = .ok k ↔
    t = .keyword .inWord ∧ k = .inl (loopCollection parens x) := by
  cases t with
  | keyword w => cases w <;> simp [eq_comm]
  | _ => simp

theorem step_loopCollection_eq_ok_iff : (loopCollection parens x).step t = .ok k ↔
    ∃ c, t = .identifier c ∧
      k = .inl (if parens then loopCollectionEnd x c else loopBody x c) := by
  cases parens <;> cases t <;> simp [eq_comm]

theorem step_loopCollectionEnd_eq_ok_iff : (loopCollectionEnd x c).step t = .ok k ↔
    t = .rightParen ∧ k = .inl (loopBody x c) := by
  cases t <;> simp [eq_comm]

theorem step_loopBody_eq_ok_iff : (loopBody x c).step t = .ok k ↔
    t = .leftBrace ∧ k = .inr (.openFor x c) := by
  cases t <;> simp [eq_comm]

theorem step_alternative_eq_ok_iff : alternative.step t = .ok k ↔
    t = .leftBrace ∧ k = .inr .otherwise ∨
      t = .keyword .ifWord ∧ k = .inl (condition .further) := by
  cases t with
  | keyword w => cases w <;> simp [eq_comm]
  | _ => simp [eq_comm]

end Steps

/-! ### What completes a header -/

variable {arm : Arm} {x c : String} {items : List Item} {e : Event}

theorem reads_branchBody_iff : Reads (branchBody arm c) items e ↔
    ∃ g, IsGap g ∧ items = g ++ [token .leftBrace] ∧ e = arm.event c := by
  constructor
  · intro hr
    obtain ⟨t, k, g, rest, hs, hg, rfl, hk⟩ := hr.exists_step
    obtain ⟨rfl, rfl⟩ := step_branchBody_eq_ok_iff.1 hs
    obtain ⟨rfl, rfl⟩ := hk
    exact ⟨g, hg, rfl, rfl⟩
  · rintro ⟨g, hg, rfl, rfl⟩
    exact .gap hg (.last rfl)

theorem reads_loopBody_iff : Reads (loopBody x c) items e ↔
    ∃ g, IsGap g ∧ items = g ++ [token .leftBrace] ∧ e = .openFor x c := by
  constructor
  · intro hr
    obtain ⟨t, k, g, rest, hs, hg, rfl, hk⟩ := hr.exists_step
    obtain ⟨rfl, rfl⟩ := step_loopBody_eq_ok_iff.1 hs
    obtain ⟨rfl, rfl⟩ := hk
    exact ⟨g, hg, rfl, rfl⟩
  · rintro ⟨g, hg, rfl, rfl⟩
    exact .gap hg (.last rfl)

/-- An opening completes a header with a condition. -/
theorem reads_condition_iff : Reads (condition arm) items e ↔
    ∃ c, Grammar.Opening c items ∧ e = arm.event c := by
  constructor
  · intro hr
    obtain ⟨t, k, g, rest, hs, hg, rfl, hk⟩ := hr.exists_step
    rcases step_condition_eq_ok_iff.1 hs with ⟨c, rfl, rfl⟩ | ⟨rfl, rfl⟩
    · obtain ⟨h, hh, rfl, rfl⟩ := reads_branchBody_iff.1 hk
      exact ⟨c, by simpa using Grammar.Opening.mk hg .plain hh, rfl⟩
    · obtain ⟨t, k, g₁, rest, hs, hg₁, rfl, hk⟩ := Reads.exists_step hk
      obtain ⟨c, rfl, rfl⟩ := step_conditionName_eq_ok_iff.1 hs
      obtain ⟨t, k, g₂, rest, hs, hg₂, rfl, hk⟩ := Reads.exists_step hk
      obtain ⟨rfl, rfl⟩ := step_conditionEnd_eq_ok_iff.1 hs
      obtain ⟨h, hh, rfl, rfl⟩ := reads_branchBody_iff.1 hk
      exact ⟨c, by simpa using Grammar.Opening.mk hg (.parens hg₁ hg₂) hh, rfl⟩
  · rintro ⟨c, ⟨hg, hc, hh⟩, rfl⟩
    cases hc with
    | plain =>
      simp only [List.append_assoc, List.cons_append, List.nil_append]
      exact .gap hg (.next rfl (.gap hh (.last rfl)))
    | parens hg₁ hg₂ =>
      simp only [List.append_assoc, List.cons_append, List.nil_append]
      exact .gap hg (.next rfl (.gap hg₁ (.next rfl (.gap hg₂ (.next rfl (.gap hh (.last rfl)))))))

/-- The opening of a loop completes its header. -/
theorem reads_loopVariable_iff : Reads loopVariable items e ↔
    ∃ x c, Grammar.LoopOpening x c items ∧ e = .openFor x c := by
  constructor
  · intro hr
    obtain ⟨t, k, g, rest, hs, hg, rfl, hk⟩ := hr.exists_step
    rcases step_loopVariable_eq_ok_iff.1 hs with ⟨x, rfl, rfl⟩ | ⟨rfl, rfl⟩
    · obtain ⟨t, k, g₁, rest, hs, hg₁, rfl, hk⟩ := Reads.exists_step hk
      obtain ⟨rfl, rfl⟩ := step_loopIn_eq_ok_iff.1 hs
      obtain ⟨t, k, g₂, rest, hs, hg₂, rfl, hk⟩ := Reads.exists_step hk
      obtain ⟨c, rfl, rfl⟩ := step_loopCollection_eq_ok_iff.1 hs
      obtain ⟨h, hh, rfl, rfl⟩ := reads_loopBody_iff.1 hk
      exact ⟨x, c, by simpa using Grammar.LoopOpening.mk hg (.plain hg₁ hg₂) hh, rfl⟩
    · obtain ⟨t, k, g₀, rest, hs, hg₀, rfl, hk⟩ := Reads.exists_step hk
      obtain ⟨x, rfl, rfl⟩ := step_loopVariableName_eq_ok_iff.1 hs
      obtain ⟨t, k, g₁, rest, hs, hg₁, rfl, hk⟩ := Reads.exists_step hk
      obtain ⟨rfl, rfl⟩ := step_loopIn_eq_ok_iff.1 hs
      obtain ⟨t, k, g₂, rest, hs, hg₂, rfl, hk⟩ := Reads.exists_step hk
      obtain ⟨c, rfl, rfl⟩ := step_loopCollection_eq_ok_iff.1 hs
      obtain ⟨t, k, g₃, rest, hs, hg₃, rfl, hk⟩ := Reads.exists_step hk
      obtain ⟨rfl, rfl⟩ := step_loopCollectionEnd_eq_ok_iff.1 hs
      obtain ⟨h, hh, rfl, rfl⟩ := reads_loopBody_iff.1 hk
      exact ⟨x, c, by simpa using Grammar.LoopOpening.mk hg (.parens hg₀ hg₁ hg₂ hg₃) hh, rfl⟩
  · rintro ⟨x, c, ⟨hg, hc, hh⟩, rfl⟩
    cases hc with
    | plain hg₁ hg₂ =>
      simp only [List.append_assoc, List.cons_append, List.nil_append]
      exact .gap hg (.next rfl (.gap hg₁ (.next rfl (.gap hg₂ (.next rfl (.gap hh (.last rfl)))))))
    | parens hg₀ hg₁ hg₂ hg₃ =>
      simp only [List.append_assoc, List.cons_append, List.nil_append]
      exact .gap hg (.next rfl (.gap hg₀ (.next rfl (.gap hg₁ (.next rfl (.gap hg₂ (.next rfl
        (.gap hg₃ (.next rfl (.gap hh (.last rfl)))))))))))

/-- `else` goes on with a brace, or with `if` and an opening. -/
theorem reads_alternative_iff : Reads alternative items e ↔
    (∃ g, IsGap g ∧ items = g ++ [token .leftBrace] ∧ e = .otherwise) ∨
      ∃ g opening c, IsGap g ∧ Grammar.Opening c opening ∧
        items = g ++ keyword .ifWord :: opening ∧ e = .elseIf c := by
  constructor
  · intro hr
    obtain ⟨t, k, g, rest, hs, hg, rfl, hk⟩ := hr.exists_step
    rcases step_alternative_eq_ok_iff.1 hs with ⟨rfl, rfl⟩ | ⟨rfl, rfl⟩
    · obtain ⟨rfl, rfl⟩ := hk
      exact .inl ⟨g, hg, rfl, rfl⟩
    · obtain ⟨c, hc, rfl⟩ := reads_condition_iff.1 hk
      exact .inr ⟨g, rest, c, hg, hc, rfl, rfl⟩
  · rintro (⟨g, hg, rfl, rfl⟩ | ⟨g, opening, c, hg, hc, rfl, rfl⟩)
    · exact .gap hg (.last rfl)
    · exact .gap hg (.next rfl (reads_condition_iff.2 ⟨c, hc, rfl⟩))

end Header

/-! ### Runs inside a header -/

namespace Progress

/-- The items that complete a header amount to its event. -/
theorem run_header_of_reads {h : Header} {items : List Item} {e : Event}
    (hr : Header.Reads h items e) (d : Draft) (rest : List Item) :
    run ⟨.header h, d⟩ (items ++ rest) = (d.apply e).bind fun d => run ⟨.content, d⟩ rest := by
  induction hr with
  | @skip h i items e hi hr ih =>
    rw [← ih, List.cons_append]
    exact run_header_of_isBlank hi h d (items ++ rest)
  | next hs hr ih => rw [← ih, List.cons_append, run_header_of_inl hs]
  | last hs =>
    rw [List.cons_append, List.nil_append, run_cons, step_header_of_inr hs]
    cases d.apply _ <;> rfl

/-- A run inside a header ends well exactly when some items complete the header and the run over
the others does. -/
theorem run_header_eq_ok_iff {h : Header} {d : Draft} {items : List Item} {ns : Body} :
    run ⟨.header h, d⟩ items = .ok ns ↔
      ∃ own rest e d', items = own ++ rest ∧ Header.Reads h own e ∧ d.apply e = .ok d' ∧
        run ⟨.content, d'⟩ rest = .ok ns := by
  constructor
  · intro hrun
    induction items generalizing h with
    | nil => cases hrun
    | cons i items ih =>
      cases i with
      | text s =>
        by_cases hs : Text.isBlankText s = true
        · rw [run_header_of_isBlank (isBlank_text.trans hs)] at hrun
          obtain ⟨own, rest, e, d', rfl, hr, hd⟩ := ih hrun
          exact ⟨text s :: own, rest, e, d', rfl, .skip hs hr, hd⟩
        · rw [run_cons_of_error (step_header_of_text hs d)] at hrun
          cases hrun
      | expression content =>
        rw [run_cons_of_error (step_of_error rfl)] at hrun
        cases hrun
      | token t =>
        cases hs : h.step t with
        | error e =>
          rw [run_cons_of_error (step_header_of_error hs d)] at hrun
          cases hrun
        | ok k =>
          cases k with
          | inl h' =>
            rw [run_header_of_inl hs] at hrun
            obtain ⟨own, rest, e, d', rfl, hr, hd⟩ := ih hrun
            exact ⟨token t :: own, rest, e, d', rfl, .next hs hr, hd⟩
          | inr e =>
            rw [run_cons, step_header_of_inr hs] at hrun
            cases hd : d.apply e with
            | error f => simp [hd, Except.map, Except.bind] at hrun
            | ok d' =>
              rw [hd] at hrun
              exact ⟨[token t], items, e, d', rfl, .last hs, hd, hrun⟩
  · rintro ⟨own, rest, e, d', rfl, hr, hd, hrun⟩
    rw [run_header_of_reads hr, hd]
    exact hrun

end Progress

end Stencil
