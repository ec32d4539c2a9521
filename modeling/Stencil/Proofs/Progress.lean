import Stencil.Body.Source
import Stencil.Proofs.Gap

/-!
# Runs of a reading

What is left of the items decides what becomes of a reading under way: it ends in a body or in the
first fault. After a `}` the reading waits for `else` with the blank texts that follow held back. It
is *settled* when these texts have become content; unless `else` is the next item that is not blank,
settling now or later makes no difference to the run.

## Main definitions

* `Stencil.Progress.run`: the outcome of a reading with the given items still to come.
* `Stencil.Draft.appendTexts`: a draft with texts that were held back.

## Main results

* `Stencil.Progress.run_cons`: a run item by item.
* `Stencil.Progress.run_header_of_isBlank`: a header skips blank text.
* `Stencil.Progress.run_closed_gap_else`, `Stencil.Progress.run_closed_of_next?_ne`: the two ways in
  which a reading goes on after `}`.
-/

namespace Stencil

namespace Draft

/-- The draft with texts added to its innermost body. -/
def appendTexts (d : Draft) (texts : List String) : Draft :=
  { d with body := texts.foldl Body.appendText d.body }

@[simp] theorem appendTexts_nil (d : Draft) : d.appendTexts [] = d := rfl

theorem appendTexts_append_singleton (d : Draft) (texts : List String) (s : String) :
    d.appendTexts (texts ++ [s]) =
      { d.appendTexts texts with body := Body.appendText (d.appendTexts texts).body s } := by
  simp [appendTexts, List.foldl_append]

theorem applyAll_map_text (d : Draft) (texts : List String) :
    d.applyAll (texts.map .text) = .ok (d.appendTexts texts) := by
  induction texts generalizing d with
  | nil => rfl
  | cons s texts ih =>
    rw [List.map_cons, applyAll_cons]
    exact ih { d with body := Body.appendText d.body s }

end Draft

namespace Progress

open Item

/-! ### Steps -/

/-- A step of the reader, whose events are then applied. -/
theorem step_of_ok {p : Progress} {i : Item} {q : Reader × List Event}
    (h : p.reader.step i = .ok q) :
    p.step i = (p.draft.applyAll q.2).map fun d => ⟨q.1, d⟩ := by
  rw [step, h]
  show ((p.draft.applyAll q.2).bind fun d => .ok (⟨q.1, d⟩ : Progress)) = _
  cases p.draft.applyAll q.2 <;> rfl

/-- A step of the reader that completes no event leaves the draft as it is. -/
theorem step_of_no_event {p : Progress} {i : Item} {r : Reader}
    (h : p.reader.step i = .ok (r, [])) : p.step i = .ok ⟨r, p.draft⟩ := by
  rw [step_of_ok h]
  rfl

/-- A step of the reader that completes one event applies it. -/
theorem step_of_event {p : Progress} {i : Item} {r : Reader} {e : Event}
    (h : p.reader.step i = .ok (r, [e])) :
    p.step i = (p.draft.apply e).map fun d => ⟨r, d⟩ := by
  rw [step_of_ok h, Draft.applyAll_cons]
  cases p.draft.apply e <;> rfl

/-- A fault of the reader ends the reading. -/
theorem step_of_error {p : Progress} {i : Item} {e : StatementFault}
    (h : p.reader.step i = .error e) : p.step i = .error (.statement e) := by
  rw [step, h]
  rfl

/-- Held back texts become content in front of the events of the next item, unless that item is
`else` or one more blank text. -/
theorem step_closed {blanks : List String} {i : Item} (helse : i ≠ keyword .elseWord)
    (hblank : i.isBlank = false) (d : Draft) :
    step ⟨.closed blanks, d⟩ i = step ⟨.content, d.appendTexts blanks⟩ i := by
  have hread : (Reader.closed blanks).step i =
      (Reader.content.step i).map fun p => (p.1, blanks.map .text ++ p.2) := by
    show Reader.after blanks i = _
    unfold Reader.after
    split
    · exact absurd rfl helse
    · rename_i s
      rw [if_neg (by simpa [isBlank_text] using hblank)]
      rfl
    · rfl
  cases hb : Reader.content.step i with
  | error e =>
    rw [hb] at hread
    rw [step_of_error hread, step_of_error hb]
  | ok q =>
    rw [hb] at hread
    rw [step_of_ok hread, step_of_ok hb, Draft.applyAll_append, Draft.applyAll_map_text]
    rfl

/-- A token that takes a header one step further. -/
theorem step_header_of_inl {h h' : Header} {t : Token} (hs : h.step t = .ok (.inl h'))
    (d : Draft) : step ⟨.header h, d⟩ (token t) = .ok ⟨.header h', d⟩ :=
  step_of_no_event (by simp [Reader.step, Reader.within, hs, Except.map])

/-- A token that completes a header. -/
theorem step_header_of_inr {h : Header} {t : Token} {e : Event} (hs : h.step t = .ok (.inr e))
    (d : Draft) :
    step ⟨.header h, d⟩ (token t) = (d.apply e).map fun d => ⟨.content, d⟩ :=
  step_of_event (by simp [Reader.step, Reader.within, hs, Except.map])

/-- A token that cannot continue a header. -/
theorem step_header_of_error {h : Header} {t : Token} {e : StatementFault}
    (hs : h.step t = .error e) (d : Draft) :
    step ⟨.header h, d⟩ (token t) = .error (.statement e) :=
  step_of_error (by simp [Reader.step, Reader.within, hs, Except.map])

/-- Text inside a header has to be blank. -/
theorem step_header_of_text {h : Header} {s : String} (hs : ¬ Text.isBlankText s = true)
    (d : Draft) : step ⟨.header h, d⟩ (text s) =
      .error (.statement (.expected h.expectation (.text s))) :=
  step_of_error (by simp [Reader.step, Reader.within, hs])

/-! ### Runs -/

/-- The outcome of a reading with the given items still to come. -/
def run (p : Progress) (items : List Item) : Except Fault Body :=
  (items.foldlM step p).bind finish

@[simp] theorem run_nil (p : Progress) : p.run [] = p.finish := rfl

theorem run_cons (p : Progress) (i : Item) (items : List Item) :
    p.run (i :: items) = (p.step i).bind fun q => q.run items := by
  rw [run, List.foldlM_cons]
  cases p.step i <;> rfl

theorem run_cons_of_step {p q : Progress} {i : Item} (h : p.step i = .ok q) (items : List Item) :
    p.run (i :: items) = q.run items := by
  rw [run_cons, h]
  rfl

theorem run_cons_of_error {p : Progress} {i : Item} {e : Fault} (h : p.step i = .error e)
    (items : List Item) : p.run (i :: items) = .error e := by
  rw [run_cons, h]
  rfl

/-- A token that takes a header one step further, in a run. -/
theorem run_header_of_inl {h h' : Header} {t : Token} (hs : h.step t = .ok (.inl h')) (d : Draft)
    (items : List Item) : run ⟨.header h, d⟩ (token t :: items) = run ⟨.header h', d⟩ items :=
  run_cons_of_step (step_header_of_inl hs d) items

theorem ofItems_eq_run (items : List Item) : Body.ofItems items = start.run items := rfl

/-! ### Blank texts in a run -/

/-- A header skips blank text. -/
theorem run_header_of_isBlank {i : Item} (hi : i.isBlank = true) (h : Header) (d : Draft)
    (items : List Item) : run ⟨.header h, d⟩ (i :: items) = run ⟨.header h, d⟩ items := by
  have hstep : step ⟨.header h, d⟩ i = .ok ⟨.header h, d⟩ := by
    cases i with
    | text s =>
      have hs : Text.isBlankText s = true := hi
      exact step_of_no_event (by simp [Reader.step, Reader.within, hs])
    | _ => cases hi
  exact run_cons_of_step hstep items

/-- One more blank text after `}` is held back. -/
theorem step_closed_of_isBlank {s : String} (hs : Text.isBlankText s = true)
    (blanks : List String) (d : Draft) :
    step ⟨.closed blanks, d⟩ (.text s) = .ok ⟨.closed (blanks ++ [s]), d⟩ :=
  step_of_no_event (by simp [Reader.step, Reader.after, hs])

/-- Blank texts between `}` and `else` are dropped. -/
theorem run_closed_gap_else (blanks : List String) (d : Draft) {g : List Item} (hg : IsGap g)
    (rest : List Item) :
    run ⟨.closed blanks, d⟩ (g ++ keyword .elseWord :: rest) =
      run ⟨.header .alternative, d⟩ rest := by
  induction g generalizing blanks with
  | nil => exact run_cons_of_step (step_of_no_event rfl) rest
  | cons i g ih =>
    rw [isGap_cons] at hg
    cases i with
    | text s =>
      rw [List.cons_append, run_cons_of_step (step_closed_of_isBlank hg.1 blanks d), ih _ hg.2]
    | _ => cases hg.1

/-- Text between statements is content. -/
theorem run_content_text (d : Draft) (s : String) (rest : List Item) :
    run ⟨.content, d⟩ (.text s :: rest) =
      run ⟨.content, { d with body := Body.appendText d.body s }⟩ rest :=
  run_cons_of_step ((step_of_event rfl).trans rfl) rest

theorem run_content_expression (d : Draft) (content : String) (rest : List Item) :
    run ⟨.content, d⟩ (.expression content :: rest) =
      run ⟨.content, { d with body := d.body ++ [.expression (Text.trim content)] }⟩ rest :=
  run_cons_of_step ((step_of_event rfl).trans rfl) rest

/-- `if` between statements starts a header. -/
theorem run_content_ifWord (d : Draft) (rest : List Item) :
    run ⟨.content, d⟩ (keyword .ifWord :: rest) = run ⟨.header (.condition .first), d⟩ rest :=
  run_cons_of_step (step_of_no_event rfl) rest

/-- `for` between statements starts a header. -/
theorem run_content_forWord (d : Draft) (rest : List Item) :
    run ⟨.content, d⟩ (keyword .forWord :: rest) = run ⟨.header .loopVariable, d⟩ rest :=
  run_cons_of_step (step_of_no_event rfl) rest

/-- `}` outside all blocks is a fault. -/
theorem run_content_rightBrace_nil (body : Body) (rest : List Item) :
    run ⟨.content, ⟨body, []⟩⟩ (token .rightBrace :: rest) = .error (.brackets .strayClose) :=
  run_cons_of_error ((step_of_event rfl).trans rfl) rest

/-- `}` closes the innermost block. -/
theorem run_content_rightBrace_cons (body before : Body) (frame : Frame)
    (stack : List (Body × Frame)) (rest : List Item) :
    run ⟨.content, ⟨body, (before, frame) :: stack⟩⟩ (token .rightBrace :: rest) =
      run ⟨.closed [], ⟨before ++ [frame.fill body], stack⟩⟩ rest :=
  run_cons_of_step ((step_of_event rfl).trans rfl) rest

/-- Every other token between statements is a fault. -/
theorem exists_run_content_token_eq_error {t : Token} (hif : t ≠ .keyword .ifWord)
    (hfor : t ≠ .keyword .forWord) (hclose : t ≠ .rightBrace) (d : Draft) :
    ∃ e, ∀ rest, run ⟨.content, d⟩ (token t :: rest) = .error (.statement e) := by
  have he : ∃ e, Reader.statement t = .error e := by
    cases t with
    | keyword k => cases k <;> simp_all [Reader.statement]
    | rightBrace => exact absurd rfl hclose
    | _ => exact ⟨_, rfl⟩
  obtain ⟨e, he⟩ := he
  have hstep : step ⟨.content, d⟩ (token t) = .error (.statement e) := step_of_error he
  exact ⟨e, fun rest => run_cons_of_error hstep rest⟩

/-- Where no `else` follows, texts after `}` are content like any other. -/
theorem run_closed_of_next?_ne {items : List Item} (hnext : next? items ≠ some (keyword .elseWord))
    (blanks : List String) (d : Draft) :
    run ⟨.closed blanks, d⟩ items = run ⟨.content, d.appendTexts blanks⟩ items := by
  induction items generalizing blanks with
  | nil =>
    show (d.applyAll (blanks.map .text)).bind Draft.finish = (d.appendTexts blanks).finish
    rw [Draft.applyAll_map_text]
    rfl
  | cons i items ih =>
    cases hi : i.isBlank with
    | true =>
      cases i with
      | text s =>
        rw [next?_cons_of_isBlank hi] at hnext
        rw [run_cons_of_step (step_closed_of_isBlank hi blanks d), ih hnext, run_content_text,
          Draft.appendTexts_append_singleton]
      | _ => cases hi
    | false =>
      rw [next?_cons_of_not_isBlank hi] at hnext
      rw [run_cons, run_cons, step_closed (fun h => hnext (by rw [h])) hi]

end Progress

end Stencil
