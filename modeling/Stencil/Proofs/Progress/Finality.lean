import Stencil.Proofs.Brace

/-!
# Faults that are final

Items are read from left to right, and after a `}` it depends on the next item that is not blank
whether the block goes on. All the same, a fault at one of the items stands whatever comes behind
it. Only the faults behind the last item can change when more items follow: a statement that is not
complete, and blocks that are not closed. The message tells these faults from all others, and each
of them does change when a `}` follows.

## Main definitions

* `Stencil.StatementFault.IsAtEnd`, `Stencil.Fault.IsAtEnd`: the faults behind the last item.

## Main results

* `Stencil.StatementFault.isAtEnd_iff`: the message of a statement that is not complete.
* `Stencil.Progress.failsOnly_step`, `Stencil.Progress.isAtEnd_of_finish`: the faults at an item,
  and behind the last one.
* `Stencil.Body.ofItems_append_eq_error_iff`: the faults that are final, and the item that is at
  fault.
-/

namespace Stencil

open Item

/-! ### The ends of messages -/

theorem Text.getLast?_toList_append (s : String) {t : String} {c : Char}
    (h : t.toList.getLast? = some c) : (s ++ t).toList.getLast? = some c := by
  rw [String.toList_append, List.getLast?_append, h]
  rfl

theorem Token.getLast?_describe (t : Token) : t.describe.toList.getLast? = some '`' := by
  cases t with
  | keyword k => exact Text.getLast?_toList_append _ rfl
  | identifier name => exact Text.getLast?_toList_append _ rfl
  | _ => rfl

/-- What was found is named with a mark at the end, unless it is the end of the template. -/
theorem Found.exists_getLast?_describe {found : Found} (h : found ≠ .endOfTemplate) :
    ∃ c ≠ 'e', found.describe.toList.getLast? = some c := by
  cases found with
  | token t => exact ⟨'`', by decide, t.getLast?_describe⟩
  | text s =>
    refine ⟨'"', by decide, Text.getLast?_toList_append _ ?_⟩
    rw [Text.quoted, String.toList_ofList, List.getLast?_concat]
  | expression content => exact ⟨'`', by decide, Text.getLast?_toList_append _ rfl⟩
  | endOfTemplate => exact absurd rfl h

namespace StatementFault

variable {cause : StatementFault}

/-- The end of the template leaves the statement incomplete, as the message says. -/
def IsAtEnd (cause : StatementFault) : Prop :=
  "found end of template".toList <:+ cause.message.toList

theorem exists_getLast?_message (h : ∀ what, cause ≠ .expected what .endOfTemplate) :
    ∃ c ≠ 'e', cause.message.toList.getLast? = some c := by
  cases cause with
  | expected what found =>
    have hfound : found ≠ .endOfTemplate := fun hend => h what (by rw [hend])
    obtain ⟨c, hc, hlast⟩ := Found.exists_getLast?_describe hfound
    exact ⟨c, hc, Text.getLast?_toList_append _ hlast⟩
  | unexpected t => exact ⟨'`', by decide, Text.getLast?_toList_append _ rfl⟩
  | unexpectedAfterElse t => exact ⟨'`', by decide, Text.getLast?_toList_append _ rfl⟩
  | elseIfAfterElse condition => exact ⟨'`', by decide, Text.getLast?_toList_append _ rfl⟩
  | _ => exact ⟨_, by decide, rfl⟩

/-- The message tells whether the end of the template was found where the statement had to go on. -/
theorem isAtEnd_iff : cause.IsAtEnd ↔ ∃ what, cause = .expected what .endOfTemplate := by
  constructor
  · intro hsuffix
    by_contra hne
    obtain ⟨c, hc, hlast⟩ := exists_getLast?_message fun what hwhat => hne ⟨what, hwhat⟩
    obtain ⟨front, hfront⟩ := hsuffix
    rw [← hfront, List.getLast?_append] at hlast
    exact hc (Option.some.inj hlast).symm
  · rintro ⟨what, rfl⟩
    refine ⟨("expected " ++ what.describe ++ ", ").toList, ?_⟩
    have hseam : ", " ++ "found end of template" = ", found " ++ "end of template" := rfl
    rw [← String.toList_append, String.toList_inj, String.append_assoc, hseam,
      ← String.append_assoc]
    rfl

end StatementFault

/-- A fault behind the last item: a statement is not complete, or blocks are not closed. -/
def Fault.IsAtEnd : Fault → Prop
  | statement cause => cause.IsAtEnd
  | brackets (.neverClosed _) => True
  | _ => False

/-- One closing brace more is another outcome. -/
theorem BracketFault.closing_one_ne {n : Nat} {fault : Fault} (h : closing n 0 = .error fault) :
    closing n 1 ≠ .error fault := by
  cases n with
  | zero => cases h
  | succ n =>
    cases h
    cases n with
    | zero => simp [closing]
    | succ n => simp [closing]

/-! ### Faults at an item -/

/-- A statement is at fault in what it says, and not because it is incomplete. -/
abbrev StatementFault.IsAtItem (cause : StatementFault) : Prop :=
  ∀ what, cause ≠ .expected what .endOfTemplate

theorem StatementFault.IsOfItem.isAtItem {cause : StatementFault} (h : cause.IsOfItem) :
    cause.IsAtItem := by
  rintro what rfl
  exact h rfl

/-! ### Faults of events -/

theorem Node.failsOnly_pushBranch (b : Branch) (n : Node) :
    FailsOnly StatementFault.IsAtItem (n.pushBranch b) := by
  cases n with
  | conditional branches alternative =>
    cases alternative with
    | none => exact .ok _
    | some body => exact .error (by rintro _ ⟨⟩)
  | _ => exact .error (by rintro _ ⟨⟩)

theorem Node.failsOnly_openAlternative (n : Node) :
    FailsOnly StatementFault.IsAtItem n.openAlternative := by
  cases n with
  | conditional branches alternative =>
    cases branches with
    | nil => exact .error (by rintro _ ⟨⟩)
    | cons b branches =>
      cases alternative with
      | none => exact .ok _
      | some body => exact .error (by rintro _ ⟨⟩)
  | _ => exact .error (by rintro _ ⟨⟩)

theorem Node.failsOnly_openBody (n : Node) : FailsOnly StatementFault.IsAtItem n.openBody := by
  cases n with
  | conditional branches alternative =>
    cases alternative with
    | some body => exact .ok _
    | none =>
      rw [openBody]
      cases branches.getLast? with
      | none => exact .error (by rintro _ ⟨⟩)
      | some last => exact .ok _
  | loop name collection body => exact .ok _
  | _ => exact .error (by rintro _ ⟨⟩)

namespace Body

theorem failsOnly_editLast {edit : Node → Except StatementFault Node} {e : StatementFault}
    (he : e.IsAtItem) (hedit : ∀ n, FailsOnly StatementFault.IsAtItem (edit n)) (ns : Body) :
    FailsOnly StatementFault.IsAtItem (editLast e edit ns) := by
  rw [editLast]
  cases ns.getLast? with
  | none => exact .error he
  | some n => exact (hedit n).map _

theorem failsOnly_openLast (ns : Body) : FailsOnly StatementFault.IsAtItem (openLast ns) := by
  rw [openLast]
  cases ns.getLast? with
  | none => exact .error (by rintro _ ⟨⟩)
  | some n => exact n.failsOnly_openBody.map _

end Body

/-- A fault at an item. -/
abbrev Fault.IsAtItem (fault : Fault) : Prop := ¬ fault.IsAtEnd

theorem Fault.isAtItem_statement {cause : StatementFault} (h : cause.IsAtItem) :
    (statement cause).IsAtItem := fun hend =>
  have ⟨what, hwhat⟩ := StatementFault.isAtEnd_iff.1 hend
  h what hwhat

namespace Draft

variable (d : Draft)

theorem failsOnly_reopen {edited : Except StatementFault Body}
    (h : FailsOnly StatementFault.IsAtItem edited) :
    FailsOnly Fault.IsAtItem (d.reopen edited) := by
  cases edited with
  | error e => exact .error (Fault.isAtItem_statement (h e rfl))
  | ok ns =>
    rw [reopen]
    cases hopen : Body.openLast ns with
    | error e => exact .error (Fault.isAtItem_statement (Body.failsOnly_openLast ns e hopen))
    | ok p => exact .ok _

theorem failsOnly_apply (e : Event) : FailsOnly Fault.IsAtItem (d.apply e) := by
  cases e with
  | elseIf condition =>
    have hnone : StatementFault.elseIfWithoutIf.IsAtItem := by rintro _ ⟨⟩
    exact d.failsOnly_reopen (Body.failsOnly_editLast hnone (Node.failsOnly_pushBranch _) d.body)
  | otherwise =>
    have hnone : StatementFault.elseWithoutIf.IsAtItem := by rintro _ ⟨⟩
    exact d.failsOnly_reopen (Body.failsOnly_editLast hnone Node.failsOnly_openAlternative d.body)
  | close =>
    rw [apply, close]
    split
    · exact .error id
    · exact .ok _
  | _ => exact .ok _

theorem failsOnly_applyAll (es : List Event) : FailsOnly Fault.IsAtItem (d.applyAll es) := by
  induction es generalizing d with
  | nil => exact .ok d
  | cons e es ih =>
    rw [applyAll_cons]
    exact (d.failsOnly_apply e).bind fun d' => ih d'

end Draft

/-! ### Faults of a reading -/

namespace Progress

variable {p : Progress} {items : List Item} {fault : Fault}

/-- No fault at an item is one behind the last item. -/
theorem failsOnly_step (p : Progress) (i : Item) : FailsOnly Fault.IsAtItem (p.step i) := by
  cases hread : p.reader.step i with
  | error cause =>
    rw [step_of_error hread]
    exact .error (Fault.isAtItem_statement (p.reader.failsOnly_step i cause hread).isAtItem)
  | ok q =>
    rw [step_of_ok hread]
    exact (p.draft.failsOnly_applyAll q.2).map _

theorem failsOnly_foldlM (p : Progress) (items : List Item) :
    FailsOnly Fault.IsAtItem (items.foldlM step p) := by
  intro fault h
  obtain ⟨-, i, -, q, -, -, hstep⟩ := exists_step_eq_error h
  exact q.failsOnly_step i fault hstep

/-- Behind the last item a statement is not complete, or blocks are not closed. -/
theorem isAtEnd_of_finish (h : p.finish = .error fault) : fault.IsAtEnd := by
  by_cases hp : p.reader.IsBetween
  · rw [finish_of_isBetween hp, Draft.finish] at h
    split at h
    · cases h
    · cases h
      trivial
  · obtain ⟨r, d⟩ := p
    cases r with
    | header h' =>
      cases h
      exact StatementFault.isAtEnd_iff.2 ⟨_, rfl⟩
    | _ => exact absurd trivial hp

/-- Items with a fault behind the last one are all read. -/
theorem exists_finish_eq_error (h : Body.ofItems items = .error fault) (hend : fault.IsAtEnd) :
    ∃ p, items.foldlM step start = .ok p ∧ p.finish = .error fault := by
  cases hread : items.foldlM step start with
  | ok p => exact ⟨p, rfl, (ofItems_of_foldlM hread).symm.trans h⟩
  | error f =>
    rw [ofItems_of_foldlM_eq_error hread] at h
    cases h
    exact absurd hend (failsOnly_foldlM start items fault hread)

/-- Every other fault comes up while the items are read. -/
theorem foldlM_eq_error (h : Body.ofItems items = .error fault) (hend : ¬ fault.IsAtEnd) :
    items.foldlM step start = .error fault := by
  cases hread : items.foldlM step start with
  | ok p =>
    rw [ofItems_of_foldlM hread] at h
    exact absurd (isAtEnd_of_finish h) hend
  | error f =>
    rw [ofItems_of_foldlM_eq_error hread] at h
    cases h
    rfl

/-- A `}` behind the last item changes the fault there. -/
theorem run_rightBrace_ne (h : p.finish = .error fault) : p.run (closers 1) ≠ .error fault := by
  intro hrun
  by_cases hp : p.reader.IsBetween
  · have hopened := run_closers hp 0
    have hclosed := run_closers hp 1
    rw [closers_zero, run_nil, h] at hopened
    rw [hrun] at hclosed
    exact BracketFault.closing_one_ne hopened.symm hclosed.symm
  · obtain ⟨r, d⟩ := p
    cases r with
    | header h' =>
      cases hstep : step ⟨.header h', d⟩ (token .rightBrace) with
      | ok q => exact step_header_rightBrace_ne_ok hstep
      | error f =>
        rw [closers_succ, run_cons_of_error hstep] at hrun
        cases hrun
        exact failsOnly_step _ _ fault hstep (isAtEnd_of_finish h)
    | _ => exact absurd trivial hp

end Progress

namespace Body

variable {items : List Item} {fault : Fault}

/-- **Faults in front of the end are final.** A fault of items stands whatever more items follow,
exactly when it is not one behind the last item. Then it is the fault of the leftmost item that is
at fault: it is the same when the items end there or go on in any other way, and the items in front
of it have no fault, or only one behind the last of them. -/
theorem ofItems_append_eq_error_iff (h : ofItems items = .error fault) :
    ((∀ behind, ofItems (items ++ behind) = .error fault) ↔ ¬ fault.IsAtEnd) ∧
    (¬ fault.IsAtEnd → ∃ front i behind, items = front ++ i :: behind ∧
      (∀ rest, ofItems (front ++ i :: rest) = .error fault) ∧
      ∀ shorter, shorter <+: front →
        ∀ fault', ofItems shorter = .error fault' → fault'.IsAtEnd) := by
  refine ⟨⟨?_, ?_⟩, ?_⟩
  · intro hfinal hend
    obtain ⟨p, hread, hfinish⟩ := Progress.exists_finish_eq_error h hend
    refine Progress.run_rightBrace_ne hfinish ?_
    rw [← Progress.run_append_of_ok hread]
    exact hfinal (closers 1)
  · intro hend behind
    exact Progress.run_append_of_error (Progress.foldlM_eq_error h hend) behind
  · intro hend
    obtain ⟨front, i, behind, q, hitems, hfront, hstep⟩ :=
      Progress.exists_step_eq_error (Progress.foldlM_eq_error h hend)
    refine ⟨front, i, behind, hitems, fun rest => ?_, ?_⟩
    · rw [Progress.ofItems_eq_run, Progress.run_append_of_ok hfront]
      exact Progress.run_cons_of_error hstep rest
    · rintro shorter ⟨rest, rfl⟩ fault' hfault'
      by_contra hend'
      rw [List.foldlM_append, Progress.foldlM_eq_error hfault' hend'] at hfront
      cases hfront

/-- A block that is closed, and then `else` behind a blank text: the `{` is at fault since the block
is a loop, whatever follows. The items in front of it are not a body either, but that fault is one
behind the last of them. -/
theorem ofItems_append_eq_error_iff_after_loop :
    let front : List Item := [keyword .forWord, identifier "x", keyword .inWord, identifier "xs",
      token .leftBrace, token .rightBrace, text " ", keyword .elseWord]
    let items := front ++ [token .leftBrace, text "A"]
    ofItems items = .error (.statement .elseAfterLoop) ∧
      ¬ (Fault.statement .elseAfterLoop).IsAtEnd ∧
      (∀ behind, ofItems (items ++ behind) = .error (.statement .elseAfterLoop)) ∧
      ofItems front = .error (.statement (.expected .elseBody .endOfTemplate)) ∧
      ¬ ∀ behind, ofItems (front ++ behind) =
        .error (.statement (.expected .elseBody .endOfTemplate)) := by
  intro front items
  have hitems : ofItems items = .error (.statement .elseAfterLoop) := rfl
  have hfront : ofItems front = .error (.statement (.expected .elseBody .endOfTemplate)) := rfl
  have hend : ¬ (Fault.statement .elseAfterLoop).IsAtEnd :=
    Fault.isAtItem_statement (by rintro _ ⟨⟩)
  have hend' : (Fault.statement (.expected .elseBody .endOfTemplate)).IsAtEnd :=
    StatementFault.isAtEnd_iff.2 ⟨_, rfl⟩
  exact ⟨hitems, hend, (ofItems_append_eq_error_iff hitems).1.2 hend, hfront,
    fun hfinal => (ofItems_append_eq_error_iff hfront).1.1 hfinal hend'⟩

end Body

end Stencil
