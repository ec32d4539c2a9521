import Stencil.Proofs.Fallible
import Stencil.Proofs.Progress.Failure
import Stencil.Proofs.Reader

/-!
# Braces that do not match

Items that can be read up to their end, and end between statements, leave a number of blocks open.
This number decides what closing braces behind the items do: each of them closes one block, one more
than there are blocks is a fault at once, and one less leaves a block that is never closed. Items
that end inside a header, or that have a fault before the end, are not mended by closing braces.

So both faults of braces can be told from what can be read: a `}` is stray when the items in front
of it are a body, and `n` blocks are never closed when the items with `n` closing braces behind them
are a body.

## Main definitions

* `Stencil.Item.closers`: some closing braces.
* `Stencil.Item.LeavesOpen`: items that end between statements, with some blocks open.
* `Stencil.BracketFault.closing`: the outcome of closing some of the open blocks.

## Main results

* `Stencil.Item.LeavesOpen.ofItems_append_closers`: closing braces behind some items.
* `Stencil.Body.ofItems_eq_strayClose_iff_and_eq_neverClosed_iff`: the faults of braces.
-/

namespace Stencil

open Item

namespace Item

/-- Some closing braces, one after the other. -/
def closers (n : Nat) : List Item :=
  List.replicate n (token .rightBrace)

/-- The items can be read, they end between statements, and then some blocks are open. -/
def LeavesOpen (items : List Item) (n : Nat) : Prop :=
  ∃ p, items.foldlM Progress.step .start = .ok p ∧ p.reader.IsBetween ∧
    p.draft.enclosing.length = n

@[simp] theorem closers_zero : closers 0 = [] := rfl

theorem closers_succ (n : Nat) : closers (n + 1) = token .rightBrace :: closers n := rfl

end Item

namespace BracketFault

/-- The outcome, apart from the tree, when some blocks are open and some of them are closed. -/
def closing : Nat → Nat → Except Fault Unit
  | 0, 0 => .ok ()
  | opened + 1, 0 => .error (.brackets (.neverClosed (opened + 1)))
  | 0, _ + 1 => .error (.brackets .strayClose)
  | opened + 1, closed + 1 => closing opened closed

theorem closing_of_lt {opened closed : Nat} (h : closed < opened) :
    closing opened closed = .error (.brackets (.neverClosed (opened - closed))) := by
  induction opened, closed using closing.induct with
  | case1 => omega
  | case2 opened => rfl
  | case3 closed => omega
  | case4 opened closed ih => rw [closing, ih (by omega), Nat.succ_sub_succ]

theorem closing_of_gt {opened closed : Nat} (h : opened < closed) :
    closing opened closed = .error (.brackets .strayClose) := by
  induction opened, closed using closing.induct with
  | case1 => omega
  | case2 opened => omega
  | case3 closed => rfl
  | case4 opened closed ih => rw [closing, ih (by omega)]

/-- Blocks are closed by as many braces, and by no other number of them. -/
theorem closing_eq_ok_iff {opened closed : Nat} :
    closing opened closed = .ok () ↔ closed = opened := by
  induction opened, closed using closing.induct with
  | case4 opened closed ih => rw [closing, ih, Nat.succ_inj]
  | _ => simp [closing]

end BracketFault

open BracketFault (closing)

/-! ### Closing braces in a run -/

namespace Progress

variable {p : Progress}

/-- Between statements, closing braces close one block after the other. -/
theorem run_closers (hp : p.reader.IsBetween) (k : Nat) :
    (p.run (closers k)).map (fun _ => ()) = closing p.draft.enclosing.length k := by
  induction k generalizing p with
  | zero =>
    show (p.finish).map _ = _
    rw [finish_of_isBetween hp, Draft.finish, enclosing_settled]
    cases p.draft.enclosing <;> rfl
  | succ k ih =>
    have hclose := step_rightBrace hp
    rw [Draft.close, enclosing_settled] at hclose
    rw [closers_succ]
    cases henclosing : p.draft.enclosing with
    | nil =>
      rw [henclosing] at hclose
      rw [run_cons_of_error hclose]
      rfl
    | cons block stack =>
      rw [henclosing] at hclose
      rw [run_cons_of_step hclose]
      exact ih trivial

/-- Behind the last item no brace is stray. -/
theorem finish_ne_strayClose (p : Progress) : p.finish ≠ .error (.brackets .strayClose) := by
  intro h
  by_cases hp : p.reader.IsBetween
  · rw [finish_of_isBetween hp, Draft.finish] at h
    split at h
    · cases h
    · cases h
  · obtain ⟨cause, hcause⟩ := finish_of_not_isBetween hp
    rw [hcause] at h
    cases h

/-- No header goes on with a closing brace. -/
theorem step_header_rightBrace_ne_ok {h : Header} {d : Draft} {q : Progress}
    (hstep : step ⟨.header h, d⟩ (token .rightBrace) = .ok q) : False := by
  cases hs : h.step .rightBrace with
  | error e => rw [step_header_of_error hs] at hstep; cases hstep
  | ok next =>
    cases next with
    | inl h' => exact (Header.ne_brace_of_step_eq_inl hs).2 rfl
    | inr e => cases Header.eq_leftBrace_of_step_eq_inr hs

/-- Inside a header closing braces leave the statement at fault. -/
theorem exists_run_closers_eq_error (hp : ¬ p.reader.IsBetween) (k : Nat) :
    ∃ cause, p.run (closers k) = .error (.statement cause) := by
  cases k with
  | zero => exact finish_of_not_isBetween hp
  | succ k =>
    obtain ⟨r, d⟩ := p
    cases r with
    | header h =>
      cases hstep : step ⟨.header h, d⟩ (token .rightBrace) with
      | error fault =>
        obtain ⟨cause, rfl⟩ := step_header_eq_error hstep
        exact ⟨cause, run_cons_of_error hstep _⟩
      | ok q => exact (step_header_rightBrace_ne_ok hstep).elim
    | _ => exact absurd trivial hp

end Progress

/-! ### Items that leave blocks open -/

namespace Item

variable {items : List Item} {n : Nat}

/-- Closing braces behind the items close the blocks that are open. -/
theorem LeavesOpen.ofItems_append_closers (h : LeavesOpen items n) (k : Nat) :
    (Body.ofItems (items ++ closers k)).map (fun _ => ()) = closing n k := by
  obtain ⟨p, hread, hp, rfl⟩ := h
  rw [Progress.ofItems_eq_run, Progress.run_append_of_ok hread, Progress.run_closers hp]

/-- The same for the faults that closing braces leave. -/
theorem LeavesOpen.ofItems_append_closers_eq_error {k : Nat} {fault : Fault}
    (h : LeavesOpen items n) (hclosing : closing n k = .error fault) :
    Body.ofItems (items ++ closers k) = .error fault :=
  map_eq_error_iff.1 ((h.ofItems_append_closers k).trans hclosing)

/-- Items end between statements, or closing braces behind them neither complete them nor leave them
with open blocks. -/
theorem exists_leavesOpen_or_forall_eq_error (items : List Item) :
    (∃ n, LeavesOpen items n) ∨
      ∀ k, ∃ fault, Body.ofItems (items ++ closers k) = .error fault ∧
        ∀ n, fault ≠ .brackets (.neverClosed n) := by
  cases hread : items.foldlM Progress.step .start with
  | error fault =>
    right
    intro k
    refine ⟨fault, Progress.run_append_of_error hread (closers k), ?_⟩
    obtain ⟨-, i, -, q, -, -, hstep⟩ := Progress.exists_step_eq_error hread
    rcases Progress.step_eq_error hstep with ⟨cause, rfl⟩ | ⟨rfl, -⟩
    · nofun
    · nofun
  | ok p =>
    by_cases hp : p.reader.IsBetween
    · exact .inl ⟨_, p, hread, hp, rfl⟩
    · right
      intro k
      obtain ⟨cause, hcause⟩ := Progress.exists_run_closers_eq_error hp k
      refine ⟨.statement cause, ?_, nofun⟩
      rw [Progress.ofItems_eq_run, Progress.run_append_of_ok hread, hcause]

/-- The number of open blocks is the number of closing braces that complete the items. -/
theorem leavesOpen_iff_append_closers :
    LeavesOpen items n ↔ ∃ ns, Body.ofItems (items ++ closers n) = .ok ns := by
  constructor
  · intro h
    have hclosing : closing n n = .ok () := BracketFault.closing_eq_ok_iff.2 rfl
    obtain ⟨ns, hns, -⟩ := map_eq_ok_iff.1 ((h.ofItems_append_closers n).trans hclosing)
    exact ⟨ns, hns⟩
  · rintro ⟨ns, hread⟩
    rcases exists_leavesOpen_or_forall_eq_error items with ⟨m, hopen⟩ | hfails
    · have hmap := hopen.ofItems_append_closers n
      rw [hread] at hmap
      rwa [BracketFault.closing_eq_ok_iff.1 hmap.symm]
    · obtain ⟨fault, hfault, -⟩ := hfails n
      rw [hread] at hfault
      cases hfault

/-- No block is open behind the items of a body. -/
theorem leavesOpen_zero_iff : LeavesOpen items 0 ↔ ∃ ns, Body.ofItems items = .ok ns := by
  rw [leavesOpen_iff_append_closers, closers_zero, List.append_nil]

/-- Blocks that are open behind all items are the fault of the items. -/
theorem leavesOpen_succ_iff :
    LeavesOpen items (n + 1) ↔ Body.ofItems items = .error (.brackets (.neverClosed (n + 1))) := by
  have hnil : Body.ofItems items = Body.ofItems (items ++ closers 0) := by
    rw [closers_zero, List.append_nil]
  rw [hnil]
  constructor
  · exact fun h => h.ofItems_append_closers_eq_error rfl
  · intro hfault
    rcases exists_leavesOpen_or_forall_eq_error items with ⟨m, hopen⟩ | hfails
    · have hmap := hopen.ofItems_append_closers 0
      rw [hfault] at hmap
      cases m with
      | zero => cases hmap
      | succ m => cases hmap; exact hopen
    · obtain ⟨fault, hfault', hne⟩ := hfails 0
      rw [hfault] at hfault'
      exact absurd (Except.error.inj hfault').symm (hne (n + 1))

end Item

/-! ### The faults of braces -/

namespace Body

variable {items : List Item}

/-- A `}` is stray when the items in front of it are a body. -/
theorem ofItems_eq_strayClose_iff :
    ofItems items = .error (.brackets .strayClose) ↔
      ∃ front behind ns, items = front ++ [token .rightBrace] ++ behind ∧
        ofItems front = .ok ns := by
  constructor
  · intro hfault
    cases hread : items.foldlM Progress.step .start with
    | ok p =>
      rw [Progress.ofItems_of_foldlM hread] at hfault
      exact absurd hfault (Progress.finish_ne_strayClose p)
    | error f =>
      rw [Progress.ofItems_of_foldlM_eq_error hread] at hfault
      cases hfault
      obtain ⟨front, i, behind, q, rfl, hfront, hstep⟩ := Progress.exists_step_eq_error hread
      rcases Progress.step_eq_error hstep with ⟨cause, hcause⟩ | ⟨-, rfl, hq, hnone⟩
      · cases hcause
      · obtain ⟨ns, hns⟩ := leavesOpen_zero_iff.1 ⟨q, hfront, hq, by rw [hnone]; rfl⟩
        exact ⟨front, behind, ns, by simp, hns⟩
  · rintro ⟨front, behind, ns, rfl, hns⟩
    obtain ⟨p, hread, hp, hnone⟩ := leavesOpen_zero_iff.2 ⟨ns, hns⟩
    have hclose := Progress.step_rightBrace hp
    rw [Draft.close, Progress.enclosing_settled, List.length_eq_zero_iff.1 hnone] at hclose
    rw [List.append_assoc, Progress.ofItems_eq_run, Progress.run_append_of_ok hread]
    exact Progress.run_cons_of_error hclose behind

/-- Blocks are never closed when so many closing braces complete the items. -/
theorem ofItems_eq_neverClosed_iff {n : Nat} (hn : 1 ≤ n) :
    ofItems items = .error (.brackets (.neverClosed n)) ↔
      ∃ ns, ofItems (items ++ closers n) = .ok ns := by
  obtain ⟨m, rfl⟩ := Nat.exists_eq_add_of_le' hn
  rw [← leavesOpen_succ_iff, leavesOpen_iff_append_closers]

/-- **Faults of braces.** A `}` is stray exactly when the items in front of it are a body. Blocks
are never closed exactly when as many closing braces behind the items make them a body; less of them
leave the rest of the blocks open, and one more of them is stray. Every other fault of items is one
of a statement. -/
theorem ofItems_eq_strayClose_iff_and_eq_neverClosed_iff (items : List Item) :
    (ofItems items = .error (.brackets .strayClose) ↔
      ∃ front behind ns, items = front ++ [token .rightBrace] ++ behind ∧
        ofItems front = .ok ns) ∧
    (∀ n, 1 ≤ n →
      (ofItems items = .error (.brackets (.neverClosed n)) ↔
        ∃ ns, ofItems (items ++ closers n) = .ok ns) ∧
      (ofItems items = .error (.brackets (.neverClosed n)) →
        (∀ k < n, ofItems (items ++ closers k) = .error (.brackets (.neverClosed (n - k)))) ∧
        ∀ k > n, ofItems (items ++ closers k) = .error (.brackets .strayClose))) ∧
    ∀ fault, ofItems items = .error fault →
      fault = .brackets .strayClose ∨ (∃ n, 1 ≤ n ∧ fault = .brackets (.neverClosed n)) ∨
        ∃ cause, fault = .statement cause := by
  refine ⟨ofItems_eq_strayClose_iff, ?_, ?_⟩
  · intro n hn
    refine ⟨ofItems_eq_neverClosed_iff hn, ?_⟩
    intro hfault
    have hopen : LeavesOpen items n :=
      leavesOpen_iff_append_closers.2 ((ofItems_eq_neverClosed_iff hn).1 hfault)
    constructor
    · intro k hk
      exact hopen.ofItems_append_closers_eq_error (BracketFault.closing_of_lt hk)
    · intro k hk
      exact hopen.ofItems_append_closers_eq_error (BracketFault.closing_of_gt hk)
  · intro fault hfault
    rcases ofItems_eq_error hfault with hcause | rfl | ⟨n, rfl⟩
    · exact .inr (.inr hcause)
    · exact .inl rfl
    · exact .inr (.inl ⟨n + 1, Nat.le_add_left 1 n, rfl⟩)

/-- A loop around a conditional whose first branch is closed, cut behind the `else` branch that
follows it after a blank: two blocks are open. One closing brace leaves the loop open, two complete
the items, and a third one is stray, with whatever stands behind it. -/
theorem ofItems_eq_strayClose_iff_and_eq_neverClosed_iff_nested :
    let items : List Item := [keyword .forWord, identifier "x", keyword .inWord, identifier "xs",
      token .leftBrace, keyword .ifWord, identifier "a", token .leftBrace, text "A",
      token .rightBrace, text " ", keyword .elseWord, token .leftBrace, text "B"]
    ofItems items = .error (.brackets (.neverClosed 2)) ∧
      (∃ ns, ofItems (items ++ closers 2) = .ok ns) ∧
      ofItems (items ++ closers 1) = .error (.brackets (.neverClosed 1)) ∧
      ofItems (items ++ closers 3) = .error (.brackets .strayClose) ∧
      ofItems (items ++ closers 2 ++ [token .rightBrace] ++ [keyword .ifWord]) =
        .error (.brackets .strayClose) := by
  intro items
  have hopen : ofItems items = .error (.brackets (.neverClosed 2)) := rfl
  obtain ⟨-, hclosed, -⟩ := ofItems_eq_strayClose_iff_and_eq_neverClosed_iff items
  obtain ⟨hiff, hother⟩ := hclosed 2 (by decide)
  obtain ⟨hfewer, hmore⟩ := hother hopen
  obtain ⟨ns, hns⟩ := hiff.1 hopen
  have hstray := (ofItems_eq_strayClose_iff_and_eq_neverClosed_iff
    (items ++ closers 2 ++ [token .rightBrace] ++ [keyword .ifWord])).1.2 ⟨_, _, ns, rfl, hns⟩
  exact ⟨hopen, ⟨ns, hns⟩, hfewer 1 (by decide), hmore 3 (by decide), hstray⟩

end Body

end Stencil
