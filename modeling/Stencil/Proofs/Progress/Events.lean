import Stencil.Proofs.Progress

/-!
# The events of a sequence of items

A reader does not depend on the tree that is built from its events. So a reading can be taken apart:
the items have a sequence of events, up to the item at which the reader fails if there is one, and
the draft grows by these events. The draft may fail earlier, and then its fault is the outcome.

The header of an `else` is read only behind a `}`. So in the sequence of events of any items, an
event that opens a block once more comes directly behind the end of a block.

## Main definitions

* `Stencil.Reader.read`: the events of items, and the fault of the reader.
* `Stencil.Event.isElse`, `Stencil.Event.IsOrderly`: sequences in which every `else` directly
  follows the end of a block.

## Main results

* `Stencil.Progress.run_eq_of_read`: a reading, taken apart.
* `Stencil.Reader.isOrderly_read`: the events of items are orderly.
-/

namespace Stencil

/-! ### Orderly events -/

namespace Event

/-- Whether an event opens the block that was closed last once more. -/
def isElse : Event → Bool
  | elseIf _ => true
  | otherwise => true
  | _ => false

/-- Every `else` directly follows the end of a block. The flag says whether such an end is what the
sequence comes directly behind. -/
def IsOrderly : Bool → List Event → Prop
  | _, [] => True
  | closed, e :: es => (e.isElse = true → closed = true) ∧ IsOrderly (e == close) es

variable {closed closed' : Bool} {es : List Event}

/-- What is orderly behind anything is orderly behind the end of a block. -/
theorem IsOrderly.mono (h : IsOrderly closed es) (hclosed : closed = true → closed' = true) :
    IsOrderly closed' es := by
  cases es with
  | nil => trivial
  | cons e es => exact ⟨fun he => hclosed (h.1 he), h.2⟩

/-- Texts may stand in front, unless an `else` follows. -/
theorem IsOrderly.texts_append (h : IsOrderly false es) (texts : List String) (closed : Bool) :
    IsOrderly closed (texts.map .text ++ es) := by
  induction texts generalizing closed with
  | nil => exact h.mono (by rintro ⟨⟩)
  | cons s texts ih => exact ⟨by rintro ⟨⟩, ih false⟩

end Event

/-! ### Reading items as events -/

/-- Whether the header is that of an `else`. -/
def Header.isElse : Header → Bool
  | condition arm => arm == .further
  | conditionName arm => arm == .further
  | conditionEnd arm _ => arm == .further
  | branchBody arm _ => arm == .further
  | alternative => true
  | _ => false

/-- A header stays one of an `else`. -/
theorem Header.isElse_of_step_eq_inl {h h' : Header} {t : Token} (hs : h.step t = .ok (.inl h'))
    (helse : h'.isElse = true) : h.isElse = true := by
  unfold step at hs
  split at hs
  all_goals cases hs
  all_goals exact helse

/-- The event of a header that is complete is an `else` if the header is one. -/
theorem Header.isElse_of_step_eq_inr {h : Header} {t : Token} {e : Event}
    (hs : h.step t = .ok (.inr e)) (helse : e.isElse = true) : h.isElse = true := by
  unfold step at hs
  split at hs
  all_goals cases hs
  · rename_i arm c
    cases arm with
    | first => cases helse
    | further => rfl
  · cases helse
  · rfl

namespace Reader

/-- Whether an `else` can be the next event. -/
def mayElse : Reader → Bool
  | content => false
  | closed _ => true
  | header h => h.isElse

/-- The events of the items to come, and the fault at which the reader stops, if it does. -/
def read (r : Reader) : List Item → List Event × Option StatementFault
  | [] =>
    match r.finish with
    | .ok events => (events, none)
    | .error fault => ([], some fault)
  | item :: items =>
    match r.step item with
    | .ok (r', events) => (events ++ (read r' items).1, (read r' items).2)
    | .error fault => ([], some fault)

variable {r r' : Reader} {item : Item} {items : List Item} {es : List Event}

theorem read_cons_of_ok (h : r.step item = .ok (r', es)) :
    r.read (item :: items) = (es ++ (r'.read items).1, (r'.read items).2) := by
  rw [read, h]

theorem read_cons_of_error {fault : StatementFault} (h : r.step item = .error fault) :
    r.read (item :: items) = ([], some fault) := by
  rw [read, h]

/-! ### The events of items are orderly -/

/-- The events of one item, in front of what is orderly behind it. -/
theorem isOrderly_between (h : between item = .ok (r', es)) {fs : List Event}
    (hfs : Event.IsOrderly r'.mayElse fs) : Event.IsOrderly false (es ++ fs) := by
  cases item with
  | text s =>
    cases h
    exact ⟨by rintro ⟨⟩, hfs⟩
  | expression path =>
    cases h
    exact ⟨by rintro ⟨⟩, hfs⟩
  | token t =>
    rw [between] at h
    unfold statement at h
    split at h
    all_goals cases h
    · exact hfs
    · exact hfs
    · exact ⟨by rintro ⟨⟩, hfs⟩

theorem isOrderly_within {h : Header} (hs : within h item = .ok (r', es)) {fs : List Event}
    (hfs : Event.IsOrderly r'.mayElse fs) : Event.IsOrderly h.isElse (es ++ fs) := by
  cases item with
  | text s =>
    rw [within] at hs
    split at hs
    · cases hs
      exact hfs
    · cases hs
  | expression path => cases hs
  | token t =>
    rw [within] at hs
    cases hstep : h.step t with
    | error fault =>
      rw [hstep] at hs
      cases hs
    | ok next =>
      rw [hstep] at hs
      cases next with
      | inl h' =>
        cases hs
        exact hfs.mono (Header.isElse_of_step_eq_inl hstep)
      | inr e =>
        cases hs
        exact ⟨Header.isElse_of_step_eq_inr hstep, hfs.mono (by rintro ⟨⟩)⟩

theorem isOrderly_after {blanks : List String} (h : after blanks item = .ok (r', es))
    {fs : List Event} (hfs : Event.IsOrderly r'.mayElse fs) : Event.IsOrderly true (es ++ fs) := by
  unfold after at h
  split at h
  · cases h
    exact hfs
  · split at h
    · cases h
      exact hfs
    · rename_i s _
      cases h
      rw [List.append_assoc]
      have htext : Event.IsOrderly false ([.text s] ++ fs) := ⟨by rintro ⟨⟩, hfs⟩
      exact htext.texts_append blanks true
  · cases hbetween : between item with
    | error fault =>
      rw [hbetween] at h
      cases h
    | ok q =>
      rw [hbetween] at h
      cases h
      rw [List.append_assoc]
      exact (isOrderly_between hbetween hfs).texts_append blanks true

theorem isOrderly_step (h : r.step item = .ok (r', es)) {fs : List Event}
    (hfs : Event.IsOrderly r'.mayElse fs) : Event.IsOrderly r.mayElse (es ++ fs) := by
  cases r with
  | content => exact isOrderly_between h hfs
  | closed blanks => exact isOrderly_after h hfs
  | header h' => exact isOrderly_within h hfs

/-- Every `else` among the events of items directly follows the end of a block. -/
theorem isOrderly_read (r : Reader) (items : List Item) :
    Event.IsOrderly r.mayElse (r.read items).1 := by
  induction items generalizing r with
  | nil =>
    cases r with
    | content => trivial
    | closed blanks =>
      have hnil : Event.IsOrderly false [] := trivial
      have htexts := hnil.texts_append blanks true
      rwa [List.append_nil] at htexts
    | header h => trivial
  | cons item items ih =>
    cases hstep : r.step item with
    | error fault =>
      rw [read_cons_of_error hstep]
      trivial
    | ok q =>
      obtain ⟨r', es⟩ := q
      rw [read_cons_of_ok hstep]
      exact isOrderly_step hstep (ih r')

end Reader

/-! ### A reading, taken apart -/

namespace Progress

/-- What a reading comes to when its items have been read as events and the draft has grown by
them. -/
def finishAt (fault? : Option StatementFault) (d : Draft) : Except Fault Body :=
  match fault? with
  | none => d.finish
  | some fault => .error (.statement fault)

/-- The draft grows by the events of the items, and the fault of the reader comes behind them. -/
theorem run_eq_of_read (p : Progress) (items : List Item) :
    p.run items =
      (p.draft.applyAll (p.reader.read items).1).bind (finishAt (p.reader.read items).2) := by
  induction items generalizing p with
  | nil =>
    rw [run_nil, finish, Reader.read]
    cases p.reader.finish with
    | error fault => rfl
    | ok events => rfl
  | cons item items ih =>
    rw [run_cons]
    cases hstep : p.reader.step item with
    | error fault =>
      rw [step_of_error hstep, Reader.read_cons_of_error hstep]
      rfl
    | ok q =>
      obtain ⟨r', es⟩ := q
      rw [step_of_ok hstep, Reader.read_cons_of_ok hstep, Draft.applyAll_append]
      cases p.draft.applyAll es with
      | error fault => rfl
      | ok d => exact ih ⟨r', d⟩

end Progress

end Stencil
