import Stencil.Proofs.Progress

/-!
# Where a reading fails

A reading fails at one of the items, or behind the last one. At an item it is a statement that is at
fault, unless the item is a `}` that stands between statements while no block is open. Behind the
last item a statement is unfinished, or else some blocks are open. So the faults of braces depend on
the number of open blocks alone, and on whether the reading stands inside a header.

## Main definitions

* `Stencil.Reader.IsBetween`: readers between statements.
* `Stencil.Progress.settled`: a draft with the texts that are still held back.

## Main results

* `Stencil.Progress.exists_step_eq_error`: the item at which a reading fails.
* `Stencil.Progress.step_eq_error`, `Stencil.Progress.finish_of_isBetween`,
  `Stencil.Progress.finish_of_not_isBetween`: the faults at an item, and behind the last one.
* `Stencil.Body.ofItems_eq_error`: the faults of items.
-/

namespace Stencil

open Item

/-! ### Faults of events -/

namespace Draft

variable {d : Draft} {e : Event} {fault : Fault}

/-- Only a statement can be at fault when a block is opened once more. -/
theorem reopen_eq_error {edited : Except StatementFault Body}
    (h : d.reopen edited = .error fault) : ∃ cause, fault = .statement cause := by
  cases edited with
  | error e => exact ⟨e, (Except.error.inj h).symm⟩
  | ok ns =>
    rw [reopen] at h
    split at h
    · exact ⟨_, (Except.error.inj h).symm⟩
    · cases h

/-- Closing a block is at fault when none is open; every other fault is one of a statement. -/
theorem apply_eq_error (h : d.apply e = .error fault) :
    (∃ cause, fault = .statement cause) ∨
      e = .close ∧ d.enclosing = [] ∧ fault = .brackets .strayClose := by
  cases e with
  | elseIf condition => exact .inl (reopen_eq_error h)
  | otherwise => exact .inl (reopen_eq_error h)
  | close =>
    rw [apply, close] at h
    split at h
    · rename_i hnone
      exact .inr ⟨rfl, hnone, (Except.error.inj h).symm⟩
    · cases h
  | _ => cases h

end Draft

theorem Arm.event_ne_close (arm : Arm) (condition : String) : arm.event condition ≠ .close := by
  cases arm with
  | first => exact Event.noConfusion
  | further => exact Event.noConfusion

/-- No header amounts to the end of a block. -/
theorem Header.ne_close_of_step {h : Header} {t : Token} {e : Event}
    (hs : h.step t = .ok (.inr e)) : e ≠ .close := by
  unfold step at hs
  split at hs
  all_goals cases hs
  · exact Arm.event_ne_close _ _
  · exact Event.noConfusion
  · exact Event.noConfusion

/-! ### Readers between statements -/

/-- The readers that are not inside a header. -/
def Reader.IsBetween : Reader → Prop
  | header _ => False
  | _ => True

namespace Progress

variable {p : Progress} {i : Item} {fault : Fault}

/-- The draft with the texts that are held back as content of its innermost body. -/
def settled (p : Progress) : Draft :=
  match p.reader with
  | .closed blanks => p.draft.appendTexts blanks
  | _ => p.draft

@[simp] theorem enclosing_settled (p : Progress) : p.settled.enclosing = p.draft.enclosing := by
  obtain ⟨r, d⟩ := p
  cases r <;> rfl

/-- Between statements, an item that is no blank text and not `else` finds all texts settled. -/
theorem step_of_isBetween (hp : p.reader.IsBetween) (helse : i ≠ keyword .elseWord)
    (hblank : i.isBlank = false) : p.step i = step ⟨.content, p.settled⟩ i := by
  obtain ⟨r, d⟩ := p
  cases r with
  | content => rfl
  | closed blanks => exact step_closed helse hblank d
  | header h => exact hp.elim

/-- Between statements `}` closes the innermost block. -/
theorem step_rightBrace (hp : p.reader.IsBetween) :
    p.step (token .rightBrace) = p.settled.close.map fun d => ⟨.closed [], d⟩ := by
  have helse : token .rightBrace ≠ keyword .elseWord := by decide
  rw [step_of_isBetween hp helse rfl]
  exact step_of_event (r := .closed []) (e := .close) rfl

/-! ### Faults at an item -/

/-- Every fault inside a header is one of the statement. -/
theorem step_header_eq_error {h : Header} {d : Draft}
    (hstep : step ⟨.header h, d⟩ i = .error fault) :
    ∃ cause, fault = .statement cause := by
  cases i with
  | text s =>
    by_cases hs : Text.isBlankText s = true
    · rw [step_of_no_event (r := .header h) (by simp [Reader.step, Reader.within, hs])] at hstep
      cases hstep
    · rw [step_header_of_text hs] at hstep
      exact ⟨_, (Except.error.inj hstep).symm⟩
  | expression content =>
    rw [step_of_error rfl] at hstep
    exact ⟨_, (Except.error.inj hstep).symm⟩
  | token t =>
    cases hs : h.step t with
    | error e =>
      rw [step_header_of_error hs] at hstep
      exact ⟨_, (Except.error.inj hstep).symm⟩
    | ok next =>
      cases next with
      | inl h' => rw [step_header_of_inl hs] at hstep; cases hstep
      | inr e =>
        rw [step_header_of_inr hs] at hstep
        cases hd : d.apply e with
        | ok d' => rw [hd] at hstep; cases hstep
        | error f =>
          rw [hd] at hstep
          cases hstep
          exact (Draft.apply_eq_error hd).resolve_right fun hclose =>
            Header.ne_close_of_step hs hclose.1

/-- Between statements an item is at fault as the beginning of a statement, unless it is a `}`
outside all blocks. -/
theorem step_content_eq_error {d : Draft} (hstep : step ⟨.content, d⟩ i = .error fault) :
    (∃ cause, fault = .statement cause) ∨
      fault = .brackets .strayClose ∧ i = token .rightBrace ∧ d.enclosing = [] := by
  cases i with
  | text s => rw [step_of_event (r := .content) (e := .text s) rfl] at hstep; cases hstep
  | expression content =>
    rw [step_of_event (r := .content) (e := .expression (Text.trim content)) rfl] at hstep
    cases hstep
  | token t =>
    by_cases hclose : t = .rightBrace
    · subst hclose
      rw [step_of_event (r := .closed []) (e := .close) rfl] at hstep
      cases hd : d.apply .close with
      | ok d' => rw [hd] at hstep; cases hstep
      | error f =>
        rw [hd] at hstep
        cases hstep
        rcases Draft.apply_eq_error hd with hcause | ⟨-, hnone, rfl⟩
        · exact .inl hcause
        · exact .inr ⟨rfl, rfl, hnone⟩
    · cases hs : Reader.statement t with
      | error e =>
        have hread : Reader.content.step (token t) = .error e := hs
        rw [step_of_error hread] at hstep
        exact .inl ⟨e, (Except.error.inj hstep).symm⟩
      | ok q =>
        have hq : q.2 = [] := by
          cases t with
          | keyword k => cases k <;> cases hs <;> rfl
          | rightBrace => exact absurd rfl hclose
          | _ => cases hs
        rw [step_of_no_event (r := q.1) (by rw [← hq]; exact hs)] at hstep
        cases hstep

/-- At an item a statement is at fault, or the item is a `}` between statements and outside all
blocks. -/
theorem step_eq_error (hstep : p.step i = .error fault) :
    (∃ cause, fault = .statement cause) ∨
      fault = .brackets .strayClose ∧ i = token .rightBrace ∧ p.reader.IsBetween ∧
        p.draft.enclosing = [] := by
  obtain ⟨r, d⟩ := p
  cases r with
  | header h => exact .inl (step_header_eq_error hstep)
  | content =>
    exact (step_content_eq_error hstep).imp_right fun ⟨hfault, hi, hnone⟩ =>
      ⟨hfault, hi, trivial, hnone⟩
  | closed blanks =>
    by_cases helse : i = keyword .elseWord
    · subst helse
      rw [step_of_no_event (r := .header .alternative) rfl] at hstep
      cases hstep
    · cases hblank : i.isBlank with
      | true =>
        cases i with
        | text s => rw [step_closed_of_isBlank hblank] at hstep; cases hstep
        | _ => cases hblank
      | false =>
        rw [step_closed helse hblank] at hstep
        exact (step_content_eq_error hstep).imp_right fun ⟨hfault, hi, hnone⟩ =>
          ⟨hfault, hi, trivial, hnone⟩

/-- A reading that fails before the end fails at one item, with items in front of it that are
read. -/
theorem exists_step_eq_error {items : List Item} (h : items.foldlM step p = .error fault) :
    ∃ before i behind q, items = before ++ i :: behind ∧ before.foldlM step p = .ok q ∧
      q.step i = .error fault := by
  induction items generalizing p with
  | nil => cases h
  | cons i items ih =>
    rw [List.foldlM_cons] at h
    cases hstep : p.step i with
    | error f =>
      rw [hstep] at h
      cases h
      exact ⟨[], i, items, p, rfl, rfl, hstep⟩
    | ok q =>
      rw [hstep] at h
      obtain ⟨before, j, behind, r, rfl, hbefore, hj⟩ := ih h
      refine ⟨i :: before, j, behind, r, rfl, ?_, hj⟩
      rw [List.foldlM_cons, hstep]
      exact hbefore

/-! ### Faults behind the last item -/

/-- Between statements the tree is finished when no block is open. -/
theorem finish_of_isBetween (hp : p.reader.IsBetween) : p.finish = p.settled.finish := by
  obtain ⟨r, d⟩ := p
  cases r with
  | content => rfl
  | header h => exact hp.elim
  | closed blanks =>
    show (d.applyAll (blanks.map .text)).bind Draft.finish = (d.appendTexts blanks).finish
    rw [Draft.applyAll_map_text]
    rfl

/-- Inside a header the statement is unfinished. -/
theorem finish_of_not_isBetween (hp : ¬ p.reader.IsBetween) :
    ∃ cause, p.finish = .error (.statement cause) := by
  obtain ⟨r, d⟩ := p
  cases r with
  | header h => exact ⟨_, rfl⟩
  | _ => exact absurd trivial hp

/-! ### Items read one list after another -/

theorem run_append_of_ok {items : List Item} {q : Progress} (h : items.foldlM step p = .ok q)
    (rest : List Item) : p.run (items ++ rest) = q.run rest := by
  rw [run, List.foldlM_append, h]
  rfl

/-- A reading that has failed stays at its fault. -/
theorem run_append_of_error {items : List Item} (h : items.foldlM step p = .error fault)
    (rest : List Item) : p.run (items ++ rest) = .error fault := by
  rw [run, List.foldlM_append, h]
  rfl

theorem ofItems_of_foldlM {items : List Item} (h : items.foldlM step start = .ok p) :
    Body.ofItems items = p.finish := by
  rw [Body.ofItems, h]
  rfl

theorem ofItems_of_foldlM_eq_error {items : List Item}
    (h : items.foldlM step start = .error fault) :
    Body.ofItems items = .error fault := by
  rw [Body.ofItems, h]
  rfl

end Progress

/-- Items are at fault in a statement, in a `}` outside all blocks, or in blocks that are never
closed. -/
theorem Body.ofItems_eq_error {items : List Item} {fault : Fault}
    (h : ofItems items = .error fault) :
    (∃ cause, fault = .statement cause) ∨ fault = .brackets .strayClose ∨
      ∃ n, fault = .brackets (.neverClosed (n + 1)) := by
  cases hread : items.foldlM Progress.step Progress.start with
  | error f =>
    rw [Progress.ofItems_of_foldlM_eq_error hread] at h
    cases h
    obtain ⟨before, i, behind, q, -, -, hstep⟩ := Progress.exists_step_eq_error hread
    exact (Progress.step_eq_error hstep).imp_right fun hclose => .inl hclose.1
  | ok p =>
    rw [Progress.ofItems_of_foldlM hread] at h
    by_cases hp : p.reader.IsBetween
    · rw [Progress.finish_of_isBetween hp, Draft.finish] at h
      split at h
      · cases h
      · rename_i hopen
        cases henclosing : p.settled.enclosing with
        | nil => rw [henclosing] at hopen; exact absurd rfl hopen
        | cons b stack =>
          rw [henclosing] at h
          exact .inr (.inr ⟨stack.length, (Except.error.inj h).symm⟩)
    · obtain ⟨cause, hcause⟩ := Progress.finish_of_not_isBetween hp
      rw [hcause] at h
      exact .inl ⟨cause, (Except.error.inj h).symm⟩

end Stencil
