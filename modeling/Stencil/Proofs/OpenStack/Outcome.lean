import Stencil.Proofs.Draft
import Stencil.Proofs.OpenStack

/-!
# What a stack of open blocks comes to

A draft and a block that was closed last determine a stack of open blocks: the block is held, and
the frames of the draft are filled with the bodies that they enclose. They also determine the draft
of a reading, in which the block is the last node of the innermost body already. Every event takes
both to what one and the same draft determines, or to the same fault, if `else` comes only behind
the end of a block. The events of items are like that. So the stack has the outcome of the reading,
and what is kept by a run of the stack holds while items are read.

## Main definitions

* `Stencil.Draft.openStack`, `Stencil.Draft.attach`: what a draft and a closed block determine.

## Main results

* `Stencil.Draft.exists_apply_openStack`: both ways take the same step.
* `Stencil.OpenStack.ofItems_eq`: both ways have the same outcome.
* `Stencil.OpenStack.isSound_and_grows_and_ofItems`: only blocks are ever open, their scope is
  always there, the tree only grows, and no fault is internal.
-/

namespace Stencil

/-! ### Stacks of drafts -/

namespace Draft

/-- The stack of the blocks of a draft, none of them held. -/
def stackOf (body : Body) : List (Body × Frame) → OpenStack
  | [] => ⟨body, [], none⟩
  | (before, frame) :: stack => (stackOf before stack).push (frame.fill body)

/-- The stack of the blocks of a draft, and a block that was taken from it last. -/
def openStack (d : Draft) (held : Option Node) : OpenStack :=
  { stackOf d.body d.enclosing with held := held }

/-- The draft with a block that was closed last in its place. -/
def attach (d : Draft) (held : Option Node) : Draft :=
  { d with body := d.body ++ held.toList }

variable {held : Option Node}

theorem length_opened_stackOf (body : Body) (stack : List (Body × Frame)) :
    (stackOf body stack).opened.length = stack.length := by
  induction stack generalizing body with
  | nil => rfl
  | cons p stack ih =>
    rw [stackOf, OpenStack.push, List.length_cons, List.length_cons, ih p.1]

@[simp] theorem attach_none (d : Draft) : d.attach none = d := by
  rw [attach, Option.toList_none, List.append_nil]

theorem map_attach_none (r : Except Fault Draft) :
    (r.map fun d => (d, none)).map (fun p => p.1.attach p.2) = r := by
  cases r with
  | error fault => rfl
  | ok d => exact congrArg Except.ok (attach_none d)

/-- The scope of the stack is the innermost body of the draft. -/
theorem scope_openStack (d : Draft) (held : Option Node) :
    (d.openStack held).scope =
      .ok (d.body, fun body => openStack { d with body := body } held) := by
  obtain ⟨body, stack⟩ := d
  cases stack with
  | nil => rfl
  | cons p stack =>
    obtain ⟨before, frame⟩ := p
    show ((frame.fill body).openBody.map fun p => _) = _
    rw [Frame.openBody_fill]
    rfl

theorem extend_openStack (edit : Body → Body) (d : Draft) (held : Option Node) :
    (d.openStack held).extend edit = .ok (openStack { d with body := edit d.body } held) := by
  rw [OpenStack.extend, scope_openStack]

/-- Settling puts the block in its place. -/
theorem settle_openStack (d : Draft) (held : Option Node) :
    (d.openStack held).settle = .ok ((d.attach held).openStack none) := by
  cases held with
  | none =>
    rw [attach_none]
    rfl
  | some n => exact extend_openStack (· ++ [n]) d none

/-! ### One step -/

/-- Opening the closed block once more. An edit that gives no node without an open body has the same
outcome on the stack and in the draft. -/
theorem exists_resume_openStack (whenNone : StatementFault)
    {edit : Node → Except StatementFault Node} (hedit : ∀ n m, edit n = .ok m → m.IsBlock)
    (n : Node) (d : Draft) :
    ∃ r : Except Fault Draft,
      (d.openStack (some n)).resume whenNone edit = r.map (openStack · none) ∧
        (d.attach (some n)).reopen (Body.editLast whenNone edit (d.attach (some n)).body) = r := by
  obtain ⟨body, stack⟩ := d
  have hlast : Body.editLast whenNone edit (body ++ [n]) = (edit n).map fun m => body ++ [m] :=
    Body.editLast_append_singleton whenNone edit body n
  cases hn : edit n with
  | error fault =>
    refine ⟨.error (.statement fault), ?_, ?_⟩
    · simp only [openStack, OpenStack.resume, hn]
      rfl
    · rw [attach, Option.toList_some, hlast, hn]
      rfl
  | ok m =>
    obtain ⟨frame, inner, hinner⟩ := (hedit n m hn).exists_openBody
    have hfill : frame.fill inner = m := Node.fill_of_openBody hinner
    refine ⟨.ok ⟨inner, (body, frame) :: stack⟩, ?_, ?_⟩
    · simp only [openStack, OpenStack.resume, hn, ← hfill]
      rfl
    · rw [attach, Option.toList_some, hlast, hn, ← hfill]
      exact reopen_append_fill _

/-- Every event takes the stack and the draft to what one and the same draft determines, or to the
same fault. Behind the end of a block this block is held. -/
theorem exists_apply_openStack {e : Event} (helse : e.isElse = true → held.isSome = true)
    (d : Draft) : ∃ r : Except Fault (Draft × Option Node),
      (d.openStack held).apply e = r.map (fun p => p.1.openStack p.2) ∧
        (d.attach held).apply e = r.map (fun p => p.1.attach p.2) ∧
        ∀ p, r = .ok p → e = .close → p.2.isSome = true := by
  cases e with
  | text t =>
    refine ⟨.ok ({ d.attach held with body := (d.attach held).body.appendText t }, none), ?_, ?_,
      by rintro p - ⟨⟩⟩
    · rw [OpenStack.apply, settle_openStack]
      exact extend_openStack (fun body => body.appendText t) (d.attach held) none
    · exact congrArg Except.ok (attach_none _).symm
  | expression path =>
    refine ⟨.ok ({ d.attach held with body := (d.attach held).body ++ [.expression path] }, none),
      ?_, ?_, by rintro p - ⟨⟩⟩
    · rw [OpenStack.apply, settle_openStack]
      exact extend_openStack (· ++ [.expression path]) (d.attach held) none
    · exact congrArg Except.ok (attach_none _).symm
  | openIf condition =>
    refine ⟨.ok ((d.attach held).enter (d.attach held).body (.branch [] condition) [], none),
      ?_, ?_, by rintro p - ⟨⟩⟩
    · rw [OpenStack.apply, settle_openStack]
      rfl
    · exact congrArg Except.ok (attach_none _).symm
  | openFor name collection =>
    refine ⟨.ok ((d.attach held).enter (d.attach held).body (.loop name collection) [], none),
      ?_, ?_, by rintro p - ⟨⟩⟩
    · rw [OpenStack.apply, settle_openStack]
      rfl
    · exact congrArg Except.ok (attach_none _).symm
  | close =>
    obtain ⟨body, stack⟩ := d
    have hclose : (openStack ⟨body, stack⟩ held).apply .close =
        (openStack ⟨body ++ held.toList, stack⟩ none).pop := by
      rw [OpenStack.apply, settle_openStack]
      rfl
    rw [hclose]
    cases stack with
    | nil => exact ⟨.error (.brackets .strayClose), rfl, rfl, by rintro p ⟨⟩⟩
    | cons p stack =>
      obtain ⟨before, frame⟩ := p
      refine ⟨.ok (⟨before, stack⟩, some (frame.fill (body ++ held.toList))), rfl, rfl, ?_⟩
      rintro p ⟨⟩ -
      rfl
  | elseIf condition =>
    obtain ⟨n, rfl⟩ := Option.isSome_iff_exists.1 (helse rfl)
    obtain ⟨r, hstack, hdraft⟩ := exists_resume_openStack .elseIfWithoutIf
      (fun n m => Node.isBlock_of_pushBranch) n d
    refine ⟨r.map fun d => (d, none), ?_, ?_, by rintro p - ⟨⟩⟩
    · rw [OpenStack.apply, hstack]
      cases r <;> rfl
    · rw [apply, Body.pushBranch, hdraft, map_attach_none]
  | otherwise =>
    obtain ⟨n, rfl⟩ := Option.isSome_iff_exists.1 (helse rfl)
    obtain ⟨r, hstack, hdraft⟩ := exists_resume_openStack .elseWithoutIf
      (fun n m => Node.isBlock_of_openAlternative) n d
    refine ⟨r.map fun d => (d, none), ?_, ?_, by rintro p - ⟨⟩⟩
    · rw [OpenStack.apply, hstack]
      cases r <;> rfl
    · rw [apply, Body.openAlternative, hdraft, map_attach_none]

/-! ### A run -/

/-- Orderly events take both to what one draft determines, or to the same fault. -/
theorem exists_applyAll_openStack {closed : Bool} {es : List Event}
    (hes : Event.IsOrderly closed es) (hclosed : closed = true → held.isSome = true) (d : Draft) :
    ∃ r : Except Fault (Draft × Option Node),
      (d.openStack held).applyAll es = r.map (fun p => p.1.openStack p.2) ∧
        (d.attach held).applyAll es = r.map (fun p => p.1.attach p.2) := by
  induction es generalizing d held closed with
  | nil => exact ⟨.ok (d, held), rfl, rfl⟩
  | cons e es ih =>
    obtain ⟨he, hes⟩ := hes
    obtain ⟨r, hstack, hdraft, hheld⟩ :=
      exists_apply_openStack (fun helse => hclosed (he helse)) d
    rw [OpenStack.applyAll_cons, applyAll_cons, hstack, hdraft]
    cases r with
    | error fault => exact ⟨.error fault, rfl, rfl⟩
    | ok p => exact ih hes (fun hclose => hheld p rfl (beq_iff_eq.1 hclose)) p.1

/-- At the end the tree of both is complete, or as many blocks are open. -/
theorem finish_openStack (d : Draft) (held : Option Node) :
    (d.openStack held).finish = (d.attach held).finish := by
  rw [OpenStack.finish, settle_openStack]
  obtain ⟨body, stack⟩ := d
  cases stack with
  | nil => rfl
  | cons p stack =>
    show Except.error (Fault.brackets (.neverClosed (stackOf _ (p :: stack)).opened.length)) = _
    rw [length_opened_stackOf]
    rfl

end Draft

/-! ### Faults of the template -/

namespace StatementFault

variable {cause fault : StatementFault}

/-- A message that starts like none of the internal faults is not that of an internal fault. -/
theorem message_ne_of_append {p t : String} (hmessage : cause.message = p ++ t)
    (hp : ∀ fault ∈ internal, ¬ p.toList <+: fault.message.toList) (hfault : fault ∈ internal) :
    cause.message ≠ fault.message := by
  rw [hmessage]
  intro heq
  exact hp fault hfault ⟨t.toList, by rw [← String.toList_append, heq]⟩

/-- The message tells the internal faults from all others. -/
theorem message_ne_of_notMem_internal (hcause : cause ∉ internal) (hfault : fault ∈ internal) :
    cause.message ≠ fault.message := by
  cases cause with
  | expected what found =>
    have hmessage : (expected what found).message =
        "expected " ++ (what.describe ++ ", found " ++ found.describe) := by
      show "expected " ++ what.describe ++ ", found " ++ found.describe = _
      simp only [String.append_assoc]
    exact message_ne_of_append hmessage (by decide +kernel) hfault
  | unexpected t =>
    have hmessage : (unexpected t).message =
        "unexpected " ++ (t.describe ++ ", expected `if`, `for` or `" ++ closeBrace ++ "`") := by
      show "unexpected " ++ t.describe ++ ", expected `if`, `for` or `" ++ closeBrace ++ "`" = _
      simp only [String.append_assoc]
    exact message_ne_of_append hmessage (by decide +kernel) hfault
  | unexpectedAfterElse t =>
    have hmessage : (unexpectedAfterElse t).message =
        "unexpected " ++ (t.describe ++ " after `else`") :=
      String.append_assoc
    exact message_ne_of_append hmessage (by decide +kernel) hfault
  | elseIfAfterElse condition =>
    have hmessage : (elseIfAfterElse condition).message =
        "`else if " ++ (condition ++ "` after `else`") :=
      String.append_assoc
    exact message_ne_of_append hmessage (by decide +kernel) hfault
  | strayElse =>
    revert fault
    decide +kernel
  | elseAfterLoop =>
    revert fault
    decide +kernel
  | elseIfAfterLoop =>
    revert fault
    decide +kernel
  | duplicateElse =>
    revert fault
    decide +kernel
  | _ => exact absurd (by decide) hcause

end StatementFault

/-- A reader has no internal faults. -/
theorem Reader.notMem_internal_of_read {r : Reader} {items : List Item} {cause : StatementFault}
    (h : (r.read items).2 = some cause) : cause ∉ StatementFault.internal := by
  induction items generalizing r with
  | nil =>
    cases r with
    | content => cases h
    | closed blanks => cases h
    | header h' =>
      cases h
      simp [StatementFault.internal]
  | cons item items ih =>
    cases hstep : r.step item with
    | ok q =>
      obtain ⟨r', es⟩ := q
      rw [read_cons_of_ok hstep] at h
      exact ih h
    | error fault =>
      rw [read_cons_of_error hstep] at h
      cases h
      have hitem := r.failsOnly_step item cause hstep
      intro hmem
      simp only [StatementFault.internal, List.mem_cons, List.not_mem_nil, or_false] at hmem
      rcases hmem with rfl | rfl | rfl | rfl | rfl | rfl
      all_goals exact hitem

namespace OpenStack

variable {s : OpenStack}

/-! ### The invariant of a reading -/

/-- The stack has the outcome of the reading. -/
theorem ofItems_eq (items : List Item) : ofItems items = Body.ofItems items := by
  have hheld : Reader.content.mayElse = true → (none : Option Node).isSome = true := by
    rintro ⟨⟩
  obtain ⟨r, hstack, hdraft⟩ := Draft.exists_applyAll_openStack
    (Reader.isOrderly_read .content items) hheld Draft.empty
  have hread : Body.ofItems items =
      (Draft.empty.applyAll (Reader.content.read items).1).bind
        (Progress.finishAt (Reader.content.read items).2) :=
    (Progress.ofItems_eq_run items).trans (Progress.start.run_eq_of_read items)
  rw [Draft.attach_none] at hdraft
  have hempty : Draft.empty.openStack none = empty := rfl
  rw [hempty] at hstack
  rw [ofItems, hread, hstack, hdraft]
  cases r with
  | error fault => rfl
  | ok p =>
    show finishAt _ (p.1.openStack p.2) = Progress.finishAt _ (p.1.attach p.2)
    cases (Reader.content.read items).2 with
    | none => exact Draft.finish_openStack p.1 p.2
    | some fault => rfl

/-- Behind the events of items, the tree is complete, or blocks are open, or the reader fails. -/
theorem IsSound.finishAt_cases (h : s.IsSound) (fault? : Option StatementFault) :
    finishAt fault? s = .ok s.tree ∨
      (∃ count, finishAt fault? s = .error (.brackets (.neverClosed count))) ∨
      ∃ cause, fault? = some cause ∧ finishAt fault? s = .error (.statement cause) := by
  cases fault? with
  | none => exact h.finish_cases.imp_right .inl
  | some cause => exact .inr (.inr ⟨cause, rfl, rfl⟩)

/-- A reading that ends in a body has applied all events, and the body is the tree behind them. -/
theorem applyAll_of_ofItems {items : List Item} {body : Body} (h : Body.ofItems items = .ok body) :
    ∃ s, empty.applyAll (Reader.content.read items).1 = .ok s ∧ s.tree = body := by
  rw [← ofItems_eq, ofItems] at h
  obtain ⟨s, hs, hfinish⟩ := bind_eq_ok_iff.1 h
  rcases (isSound_empty.of_applyAll hs).1.finishAt_cases (Reader.content.read items).2 with
    htree | ⟨count, hopen⟩ | ⟨cause, -, hcause⟩
  · rw [htree] at hfinish
    exact ⟨s, hs, Except.ok.inj hfinish⟩
  · rw [hopen] at hfinish
    cases hfinish
  · rw [hcause] at hfinish
    cases hfinish

/-- The faults of a reading are faults of the template. -/
theorem not_isInternal_of_ofItems {items : List Item} {fault : Fault}
    (h : Body.ofItems items = .error fault) : ¬ fault.IsInternal := by
  rw [← ofItems_eq, ofItems] at h
  cases hs : empty.applyAll (Reader.content.read items).1 with
  | error fault' =>
    rw [hs] at h
    cases h
    exact isSound_empty.not_isInternal_of_applyAll (Reader.isOrderly_read .content items)
      (by rintro ⟨⟩) hs
  | ok s =>
    rw [hs] at h
    have hfinish : finishAt (Reader.content.read items).2 s = .error fault := h
    rcases (isSound_empty.of_applyAll hs).1.finishAt_cases (Reader.content.read items).2 with
      htree | ⟨count, hopen⟩ | ⟨cause, hread, hcause⟩
    · rw [htree] at hfinish
      cases hfinish
    · rw [hopen] at hfinish
      cases hfinish
      rintro ⟨cause, -, ⟨⟩⟩
    · rw [hcause] at hfinish
      cases hfinish
      rintro ⟨cause', hmem, heq⟩
      obtain rfl := Fault.statement.inj heq
      exact Reader.notMem_internal_of_read hread hmem

/-- **The stack of open blocks.** Building the tree of items on a stack of open blocks has the
outcome of the reading. Behind any number of the events, the stack holds loops and conditionals with
a branch only, and so does the place of the block that was taken from it last; the scope of new
content is there, before and after this block has become a node of it; and the tree grows, in every
further step and up to the body that the reading ends in, without ever losing a branch or an
alternative. So no reading ends in a fault with the message of an internal fault. -/
theorem isSound_and_grows_and_ofItems (items : List Item) :
    (∀ before after s, (Reader.content.read items).1 = before ++ after →
      empty.applyAll before = .ok s →
        s.IsSound ∧ (∃ body put, s.scope = .ok (body, put)) ∧
        (∃ s', s.settle = .ok s' ∧ ∃ body put, s'.scope = .ok (body, put)) ∧
        (∀ between rest s', after = between ++ rest → s.applyAll between = .ok s' →
          Body.Grows s.tree s'.tree) ∧
        ∀ body, Body.ofItems items = .ok body → Body.Grows s.tree body) ∧
    ofItems items = Body.ofItems items ∧
    ∀ cause, Body.ofItems items = .error (.statement cause) →
      ∀ fault ∈ StatementFault.internal, cause.message ≠ fault.message := by
  refine ⟨fun before after s hread hs => ?_, ofItems_eq items, fun cause h fault hfault => ?_⟩
  · have hsound : s.IsSound := (isSound_empty.of_applyAll hs).1
    obtain ⟨s', hsettle, hsound', -, -⟩ := hsound.exists_settle
    obtain ⟨body, put, -, hscope, -⟩ := hsound.exists_scope
    obtain ⟨body', put', -, hscope', -⟩ := hsound'.exists_scope
    refine ⟨hsound, ⟨body, put, hscope⟩, ⟨s', hsettle, body', put', hscope'⟩,
      fun between rest s' _ hs' => (hsound.of_applyAll hs').2, fun body hbody => ?_⟩
    obtain ⟨s', hs', rfl⟩ := applyAll_of_ofItems hbody
    rw [hread, applyAll_append, hs] at hs'
    exact (hsound.of_applyAll hs').2
  · refine StatementFault.message_ne_of_notMem_internal (fun hmem => ?_) hfault
    exact not_isInternal_of_ofItems h ⟨cause, hmem, rfl⟩

end OpenStack

end Stencil
