import Mathlib.Data.Set.Subsingleton
import Stencil.Proofs.Draft
import Stencil.Proofs.Grammar.Header

/-!
# Reading and the grammar

A draft is a tree with open blocks, and the items still to come have to complete it: they go on with
the body of the innermost block, close the block with a `}` and the arms that may follow it, go on
with the body around it, and so on, until the last body ends with the items. `Draft.Completes` says
this in terms of derivations. It is the invariant that ties the open blocks to the grammar: a run
between statements ends in a body exactly when the items complete the draft to that body.

## Main definitions

* `Stencil.Frame.Closes`: what follows the `}` of a block and still belongs to it.
* `Stencil.Draft.Ends`, `Stencil.Draft.Completes`: the items that complete a draft.

## Main results

* `Stencil.Progress.run_content_eq_ok_iff`: the runs that end well.
* `Stencil.Body.ofItems_eq_ok_iff_derives`: the items that are a body are those that the grammar
  derives, with the tree of the derivation.
-/

namespace Stencil

open Item Grammar

/-! ### Closing a block -/

/-- The items after the `}` of a block with the given body that still belong to the block, and the
node that the block becomes with them. -/
def Frame.Closes : Frame → Body → List Item → Node → Prop
  | branch earlier c, body, tail, n =>
    ∃ branches alternative, Derives tail (.arms branches alternative) ∧
      n = .conditional (earlier ++ ⟨c, body⟩ :: branches) alternative
  | frame, body, tail, n => tail = [] ∧ n = frame.fill body

namespace Frame

variable {frame : Frame} {body : Body} {n : Node}

theorem closes_nil_iff : frame.Closes body [] n ↔ n = frame.fill body := by
  cases frame with
  | branch earlier c =>
    constructor
    · rintro ⟨branches, alternative, h, rfl⟩
      rcases h.eq_nil_or_else with ⟨-, rfl, rfl⟩ | ⟨g, rest, -, hnil⟩
      · rfl
      · simp at hnil
    · rintro rfl
      exact ⟨[], none, .noArm, rfl⟩
  | _ => simp [Closes]

/-- What belongs to a block after its `}` is nothing or starts with `else`. -/
theorem Closes.eq_nil_or_else {tail : List Item} (h : frame.Closes body tail n) :
    tail = [] ∨ ∃ g rest, IsGap g ∧ tail = g ++ keyword .elseWord :: rest := by
  cases frame with
  | branch earlier c =>
    obtain ⟨branches, alternative, h, -⟩ := h
    rcases h.eq_nil_or_else with ⟨rfl, -⟩ | h
    · exact .inl rfl
    · exact .inr h
  | _ => exact .inl h.1

end Frame

/-! ### Completing a draft -/

namespace Draft

/-- The items that end the innermost body and complete all bodies around it. -/
def Ends : List (Body × Frame) → Body → List Item → Body → Prop
  | [], body, items, ns => items = [] ∧ ns = body
  | (before, frame) :: stack, body, items, ns =>
    ∃ tail n own ms rest, items = token .rightBrace :: (tail ++ (own ++ rest)) ∧
      frame.Closes body tail n ∧ Derives own (.body ms) ∧
      Ends stack (Body.join (before ++ [n]) ms) rest ns

/-- The items that complete a draft to a tree. -/
def Completes (d : Draft) (items : List Item) (ns : Body) : Prop :=
  ∃ own ms rest, items = own ++ rest ∧ Derives own (.body ms) ∧
    Ends d.enclosing (d.body.join ms) rest ns

variable {body : Body} {stack : List (Body × Frame)} {items rest : List Item} {ns : Body}

theorem ends_cons_iff {before : Body} {frame : Frame} :
    Ends ((before, frame) :: stack) body items ns ↔
      ∃ tail rest n, items = token .rightBrace :: (tail ++ rest) ∧ frame.Closes body tail n ∧
        Completes ⟨before ++ [n], stack⟩ rest ns := by
  constructor
  · rintro ⟨tail, n, own, ms, rest, rfl, hc, hd, he⟩
    exact ⟨tail, own ++ rest, n, rfl, hc, own, ms, rest, rfl, hd, he⟩
  · rintro ⟨tail, _, n, rfl, hc, own, ms, rest, rfl, hd, he⟩
    exact ⟨tail, n, own, ms, rest, rfl, hc, hd, he⟩

/-- A body ends with `}` or with the items. -/
theorem Ends.eq_rightBrace {i : Item} (h : Ends stack body (i :: items) ns) :
    i = token .rightBrace := by
  cases stack with
  | nil => cases h.1
  | cons p stack =>
    obtain ⟨_, _, _, _, _, hi, -⟩ := h
    exact (List.cons.inj hi).1

theorem completes_of_ends (h : Ends stack body items ns) : Completes ⟨body, stack⟩ items ns :=
  ⟨[], [], items, rfl, .empty, by simpa using h⟩

theorem completes_nil_iff : Completes ⟨body, stack⟩ [] ns ↔ stack = [] ∧ ns = body := by
  constructor
  · rintro ⟨own, ms, rest, hnil, hd, he⟩
    obtain ⟨rfl, rfl⟩ := List.append_eq_nil_iff.1 hnil.symm
    cases stack with
    | nil =>
      obtain rfl := derives_nil_iff.1 hd
      exact ⟨rfl, by simpa using he.2⟩
    | cons p stack =>
      obtain ⟨_, _, _, _, _, h, -⟩ := he
      cases h
  · rintro ⟨rfl, rfl⟩
    exact completes_of_ends ⟨rfl, rfl⟩

theorem completes_text_iff {s : String} :
    Completes ⟨body, stack⟩ (text s :: items) ns ↔
      Completes ⟨body.appendText s, stack⟩ items ns := by
  constructor
  · rintro ⟨own, ms, rest, heq, hd, he⟩
    rcases derives_body_iff.1 hd with ⟨rfl, rfl⟩ | ⟨t, own, ms, rfl, ho, rfl⟩ | ⟨_, _, _, rfl, -⟩ |
      ⟨_, _, _, _, rfl, hn, -⟩
    · obtain rfl : text s :: items = rest := heq
      cases he.eq_rightBrace
    · obtain ⟨hst, rfl⟩ := List.cons.inj heq
      obtain rfl := Item.text.inj hst
      exact ⟨own, ms, rest, rfl, ho, by simpa [Body.join_prependText] using he⟩
    · cases heq
    · obtain ⟨k, own, rfl, -⟩ := hn.exists_keyword
      cases heq
  · rintro ⟨own, ms, rest, rfl, hd, he⟩
    exact ⟨text s :: own, _, rest, rfl, .text s hd, by simpa [Body.join_prependText] using he⟩

theorem completes_expression_iff {content : String} :
    Completes ⟨body, stack⟩ (expression content :: items) ns ↔
      Completes ⟨body ++ [.expression (Text.trim content)], stack⟩ items ns := by
  constructor
  · rintro ⟨own, ms, rest, heq, hd, he⟩
    rcases derives_body_iff.1 hd with ⟨rfl, rfl⟩ | ⟨_, _, _, rfl, -⟩ | ⟨_, own, ms, rfl, ho, rfl⟩ |
      ⟨_, _, _, _, rfl, hn, -⟩
    · obtain rfl : expression content :: items = rest := heq
      cases he.eq_rightBrace
    · cases heq
    · obtain ⟨hc, rfl⟩ := List.cons.inj heq
      obtain rfl := Item.expression.inj hc
      exact ⟨own, ms, rest, rfl, ho, by rwa [Body.join_cons rfl] at he⟩
    · obtain ⟨k, own, rfl, -⟩ := hn.exists_keyword
      cases heq
  · rintro ⟨own, ms, rest, rfl, hd, he⟩
    exact ⟨_, _, rest, rfl, .expression content hd, by rwa [Body.join_cons rfl]⟩

/-- A token starts a block of the innermost body, or it ends that body. -/
theorem completes_token_iff {t : Token} :
    Completes ⟨body, stack⟩ (token t :: items) ns ↔
      (∃ own rest n, token t :: items = own ++ rest ∧ Derives own (.block n) ∧
        Completes ⟨body ++ [n], stack⟩ rest ns) ∨ Ends stack body (token t :: items) ns := by
  constructor
  · rintro ⟨own, ms, rest, heq, hd, he⟩
    rcases derives_body_iff.1 hd with ⟨rfl, rfl⟩ | ⟨_, _, _, rfl, -⟩ | ⟨_, _, _, rfl, -⟩ |
      ⟨own, after, n, ms, rfl, hn, ha, rfl⟩
    · obtain rfl : token t :: items = rest := heq
      exact .inr (by simpa using he)
    · cases heq
    · cases heq
    · rw [Body.join_cons hn.isText_eq_false] at he
      exact .inl ⟨own, after ++ rest, n, by rw [heq, List.append_assoc], hn, after, ms, rest, rfl,
        ha, he⟩
  · rintro (⟨own, _, n, heq, hn, after, ms, rest, rfl, hd, he⟩ | h)
    · rw [← Body.join_cons hn.isText_eq_false] at he
      exact ⟨own ++ after, n :: ms, rest, by rw [heq, List.append_assoc], .block hn hd, he⟩
    · exact completes_of_ends h

/-- Only three tokens can stand between statements. -/
theorem Completes.token_mem {t : Token} (h : Completes ⟨body, stack⟩ (token t :: items) ns) :
    t = .keyword .ifWord ∨ t = .keyword .forWord ∨ t = .rightBrace := by
  rcases completes_token_iff.1 h with ⟨own, rest, n, heq, hn, -⟩ | he
  · obtain ⟨k, own, rfl, hk⟩ := hn.exists_keyword
    obtain rfl := Item.token.inj (List.cons.inj heq).1
    rcases hk with rfl | rfl
    · exact .inl rfl
    · exact .inr (.inl rfl)
  · exact .inr (.inr (Item.token.inj he.eq_rightBrace))

/-- `if` opens the first branch of a conditional. -/
theorem completes_ifWord_iff :
    Completes ⟨body, stack⟩ (keyword .ifWord :: items) ns ↔
      ∃ c opening rest, items = opening ++ rest ∧ Opening c opening ∧
        Completes ⟨[], (body, .branch [] c) :: stack⟩ rest ns := by
  rw [completes_token_iff]
  constructor
  · rintro (⟨own, after, n, heq, hn, hc⟩ | he)
    · rcases derives_block_iff.1 hn with ⟨_, _, _, _, _, -, -, rfl, -⟩ |
        ⟨opening, own, tail, c, ms, branches, alternative, ho, hd, ht, rfl, rfl⟩
      · cases heq
      · obtain ⟨-, rfl⟩ := List.cons.inj heq
        refine ⟨c, opening, own ++ token .rightBrace :: (tail ++ after), by simp, ho, own, ms, _,
          rfl, hd, ends_cons_iff.2 ⟨tail, after, _, rfl, ⟨branches, alternative, ht, rfl⟩, hc⟩⟩
    · cases he.eq_rightBrace
  · rintro ⟨c, opening, _, rfl, ho, own, ms, rest, rfl, hd, he⟩
    obtain ⟨tail, after, n, rfl, ⟨branches, alternative, ht, rfl⟩, hc⟩ := ends_cons_iff.1 he
    exact .inl ⟨_, after, _, by simp, .conditional ho hd ht, hc⟩

/-- `for` opens a loop. -/
theorem completes_forWord_iff :
    Completes ⟨body, stack⟩ (keyword .forWord :: items) ns ↔
      ∃ x c opening rest, items = opening ++ rest ∧ LoopOpening x c opening ∧
        Completes ⟨[], (body, .loop x c) :: stack⟩ rest ns := by
  rw [completes_token_iff]
  constructor
  · rintro (⟨own, after, n, heq, hn, hc⟩ | he)
    · rcases derives_block_iff.1 hn with ⟨opening, own, x, c, ms, ho, hd, rfl, rfl⟩ |
        ⟨_, _, _, _, _, _, _, -, -, -, rfl, -⟩
      · obtain ⟨-, rfl⟩ := List.cons.inj heq
        exact ⟨x, c, opening, own ++ token .rightBrace :: ([] ++ after), by simp, ho, own, ms, _,
          rfl, hd, ends_cons_iff.2 ⟨[], after, _, rfl, ⟨rfl, rfl⟩, hc⟩⟩
      · cases heq
    · cases he.eq_rightBrace
  · rintro ⟨x, c, opening, _, rfl, ho, own, ms, rest, rfl, hd, he⟩
    obtain ⟨tail, after, n, rfl, ⟨rfl, rfl⟩, hc⟩ := ends_cons_iff.1 he
    exact .inl ⟨_, after, _, by simp, .loop ho hd, hc⟩

/-- `}` closes the innermost block, to which some of the following items may belong. -/
theorem completes_rightBrace_iff {before : Body} {frame : Frame} :
    Completes ⟨body, (before, frame) :: stack⟩ (token .rightBrace :: items) ns ↔
      ∃ tail rest n, items = tail ++ rest ∧ frame.Closes body tail n ∧
        Completes ⟨before ++ [n], stack⟩ rest ns := by
  rw [completes_token_iff, ends_cons_iff]
  constructor
  · rintro (⟨own, after, n, heq, hn, -⟩ | ⟨tail, rest, n, heq, hc, h⟩)
    · obtain ⟨k, own, rfl, -⟩ := hn.exists_keyword
      cases heq
    · exact ⟨tail, rest, n, (List.cons.inj heq).2, hc, h⟩
  · rintro ⟨tail, rest, n, rfl, hc, h⟩
    exact .inr ⟨tail, rest, n, rfl, hc, h⟩

/-- No other token can come next. -/
theorem not_completes_token {t : Token} (hif : t ≠ .keyword .ifWord) (hfor : t ≠ .keyword .forWord)
    (hclose : t ≠ .rightBrace) : ¬ Completes ⟨body, stack⟩ (token t :: items) ns := by
  intro h
  rcases h.token_mem with h | h | h
  · exact hif h
  · exact hfor h
  · exact hclose h

/-- Outside all blocks there is nothing to close. -/
theorem not_completes_rightBrace :
    ¬ Completes ⟨body, []⟩ (token .rightBrace :: items) ns := by
  rw [completes_token_iff]
  rintro (⟨own, rest, n, heq, hn, -⟩ | he)
  · obtain ⟨k, own, rfl, -⟩ := hn.exists_keyword
    cases heq
  · cases he.1

/-- Between statements no `else` can follow. -/
theorem not_completes_gap_else {g : List Item} (hg : IsGap g) :
    ¬ Completes ⟨body, stack⟩ (g ++ keyword .elseWord :: items) ns := by
  induction g generalizing body with
  | nil => exact not_completes_token nofun nofun nofun
  | cons i g ih =>
    rw [isGap_cons] at hg
    cases i with
    | text s =>
      rw [List.cons_append, completes_text_iff]
      exact ih hg.2
    | _ => cases hg.1

/-- An item that is content and cannot be followed by `else` at once: a block that was just closed
goes on with its arms when `else` is next, and is complete otherwise. -/
theorem closes_iff_of_next?_ne {before : Body} {frame : Frame}
    (hnext : next? items ≠ some (keyword .elseWord)) :
    (∃ tail rest n, items = tail ++ rest ∧ frame.Closes body tail n ∧
        Completes ⟨before ++ [n], stack⟩ rest ns) ↔
      Completes ⟨before ++ [frame.fill body], stack⟩ items ns := by
  constructor
  · rintro ⟨tail, rest, n, rfl, hc, h⟩
    rcases hc.eq_nil_or_else with rfl | ⟨g, tail, hg, rfl⟩
    · obtain rfl := Frame.closes_nil_iff.1 hc
      exact h
    · rw [List.append_assoc, next?_gap hg] at hnext
      exact absurd rfl hnext
  · intro h
    exact ⟨[], items, _, rfl, Frame.closes_nil_iff.2 rfl, h⟩

/-- A block behind which `else` follows goes on with its arms: they open it once more. -/
theorem closes_gap_else_iff {before : Body} {frame : Frame} {g : List Item} (hg : IsGap g) :
    (∃ tail rest n, g ++ keyword .elseWord :: items = tail ++ rest ∧ frame.Closes body tail n ∧
        Completes ⟨before ++ [n], stack⟩ rest ns) ↔
      ∃ own rest e d, items = own ++ rest ∧ Header.Reads .alternative own e ∧
        apply ⟨before ++ [frame.fill body], stack⟩ e = .ok d ∧ d.Completes rest ns := by
  constructor
  · rintro ⟨tail, rest, n, heq, hc, h⟩
    rcases hc.eq_nil_or_else with rfl | ⟨g', tail', hg', rfl⟩
    · rw [List.nil_append] at heq
      exact absurd (heq ▸ h) (not_completes_gap_else hg)
    · rw [List.append_assoc, List.cons_append] at heq
      obtain ⟨-, -, rfl⟩ := gap_append_inj hg hg' rfl rfl heq
      cases frame with
      | branch earlier c =>
        obtain ⟨branches, alternative, ht, rfl⟩ := hc
        rcases derives_arms_else_iff hg' |>.1 ht with ⟨k, own, ms, hk, hd, rfl, rfl, rfl⟩ |
          ⟨k, opening, own, tail, c', ms, branches, hk, ho, hd, ha, rfl, rfl⟩
        · exact ⟨k ++ [token .leftBrace], own ++ token .rightBrace :: rest, _, _, by simp,
            Header.reads_alternative_iff.2 (.inl ⟨k, hk, rfl, rfl⟩), apply_otherwise_branch _ _,
            own, ms, _, rfl, hd, ends_cons_iff.2 ⟨[], rest, _, rfl, ⟨rfl, rfl⟩, h⟩⟩
        · exact ⟨k ++ keyword .ifWord :: opening, own ++ token .rightBrace :: (tail ++ rest), _, _,
            by simp, Header.reads_alternative_iff.2 (.inr ⟨k, opening, c', hk, ho, rfl, rfl⟩),
            apply_elseIf_branch _ _ _, own, ms, _, rfl, hd,
            ends_cons_iff.2 ⟨tail, rest, _, rfl, ⟨branches, alternative, ha, rfl⟩,
              by simpa using h⟩⟩
      | _ => simp [Frame.Closes] at hc
  · rintro ⟨own, rest, e, d, rfl, hr, hd, h⟩
    rcases Header.reads_alternative_iff.1 hr with ⟨k, hk, rfl, rfl⟩ |
      ⟨k, opening, c', hk, ho, rfl, rfl⟩
    · obtain ⟨earlier, c, rfl, rfl⟩ := apply_otherwise_eq_ok_iff.1 hd
      obtain ⟨own, ms, rest, rfl, hd, he⟩ := h
      obtain ⟨tail, rest, n, rfl, ⟨rfl, rfl⟩, hc⟩ := ends_cons_iff.1 he
      exact ⟨_, rest, _, by simp, ⟨[], some ms, .elseArm hg hk hd, rfl⟩, hc⟩
    · obtain ⟨earlier, c, rfl, rfl⟩ := apply_elseIf_eq_ok_iff.1 hd
      obtain ⟨own, ms, rest, rfl, hd, he⟩ := h
      obtain ⟨tail, rest, n, rfl, ⟨branches, alternative, ht, rfl⟩, hc⟩ := ends_cons_iff.1 he
      exact ⟨_, rest, _, by simp, ⟨_, alternative, .elseIfArm hg hk ho hd ht, rfl⟩,
        by simpa using hc⟩

end Draft

/-! ### Runs between statements -/

namespace Progress

/-- `if` is followed by an opening. -/
theorem run_content_ifWord_eq_ok_iff {d : Draft} {items : List Item} {ns : Body} :
    run ⟨.content, d⟩ (keyword .ifWord :: items) = .ok ns ↔
      ∃ c opening rest, items = opening ++ rest ∧ Opening c opening ∧
        run ⟨.content, ⟨[], (d.body, .branch [] c) :: d.enclosing⟩⟩ rest = .ok ns := by
  rw [run_content_ifWord, run_header_eq_ok_iff]
  constructor
  · rintro ⟨opening, rest, e, d', rfl, hr, hd, hrun⟩
    obtain ⟨c, ho, rfl⟩ := Header.reads_condition_iff.1 hr
    obtain rfl := Except.ok.inj hd
    exact ⟨c, opening, rest, rfl, ho, hrun⟩
  · rintro ⟨c, opening, rest, rfl, ho, hrun⟩
    exact ⟨opening, rest, _, _, rfl, Header.reads_condition_iff.2 ⟨c, ho, rfl⟩, rfl, hrun⟩

/-- `for` is followed by the opening of a loop. -/
theorem run_content_forWord_eq_ok_iff {d : Draft} {items : List Item} {ns : Body} :
    run ⟨.content, d⟩ (keyword .forWord :: items) = .ok ns ↔
      ∃ x c opening rest, items = opening ++ rest ∧ LoopOpening x c opening ∧
        run ⟨.content, ⟨[], (d.body, .loop x c) :: d.enclosing⟩⟩ rest = .ok ns := by
  rw [run_content_forWord, run_header_eq_ok_iff]
  constructor
  · rintro ⟨opening, rest, e, d', rfl, hr, hd, hrun⟩
    obtain ⟨x, c, ho, rfl⟩ := Header.reads_loopVariable_iff.1 hr
    obtain rfl := Except.ok.inj hd
    exact ⟨x, c, opening, rest, rfl, ho, hrun⟩
  · rintro ⟨x, c, opening, rest, rfl, ho, hrun⟩
    exact ⟨opening, rest, _, _, rfl, Header.reads_loopVariable_iff.2 ⟨x, c, ho, rfl⟩, rfl, hrun⟩

/-- Behind a `}` a reading goes on with the arms of the block or with what follows it. Where it
leads to is known from the readings of the rests of the items. -/
theorem run_closed_eq_ok_iff {body before : Body} {frame : Frame} {stack : List (Body × Frame)}
    {items : List Item} {ns : Body} (ih : ∀ (d : Draft) (rest : List Item), rest <:+ items →
      (run ⟨.content, d⟩ rest = .ok ns ↔ d.Completes rest ns)) :
    run ⟨.closed [], ⟨before ++ [frame.fill body], stack⟩⟩ items = .ok ns ↔
      Draft.Completes ⟨body, (before, frame) :: stack⟩ (token .rightBrace :: items) ns := by
  rw [Draft.completes_rightBrace_iff]
  by_cases hnext : next? items = some (keyword .elseWord)
  · obtain ⟨-, g, rest, hg, rfl⟩ := next?_eq_some_iff.1 hnext
    rw [run_closed_gap_else _ _ hg, run_header_eq_ok_iff, Draft.closes_gap_else_iff hg]
    refine exists_congr fun own => exists_congr fun after => exists_congr fun e =>
      exists_congr fun d => and_congr_right fun hi => and_congr_right fun _ =>
        and_congr_right fun _ => ih d after ⟨g ++ keyword .elseWord :: own, ?_⟩
    rw [hi]
    simp
  · rw [run_closed_of_next?_ne hnext, Draft.appendTexts_nil, ih _ _ List.suffix_rfl,
      Draft.closes_iff_of_next?_ne hnext]

/-- A reading between statements ends in a body exactly when the items complete its draft to that
body. -/
theorem run_content_eq_ok_iff {d : Draft} {items : List Item} {ns : Body} :
    run ⟨.content, d⟩ items = .ok ns ↔ d.Completes items ns := by
  -- A header is read in one go, so the induction is on the number of items that are left.
  induction hlen : items.length using Nat.strongRecOn generalizing d items with
  | _ len ih =>
    obtain ⟨body, stack⟩ := d
    cases items with
    | nil =>
      rw [run_nil, Draft.completes_nil_iff]
      exact Draft.finish_eq_ok_iff
    | cons i items =>
      rw [List.length_cons] at hlen
      have hshort {rest : List Item} (hs : rest <:+ items) : rest.length < len := by
        have := hs.length_le
        omega
      cases i with
      | text s => rw [run_content_text, Draft.completes_text_iff, ih _ (hshort List.suffix_rfl) rfl]
      | expression content =>
        rw [run_content_expression, Draft.completes_expression_iff,
          ih _ (hshort List.suffix_rfl) rfl]
      | token t =>
        by_cases hif : t = .keyword .ifWord
        · subst hif
          rw [run_content_ifWord_eq_ok_iff, Draft.completes_ifWord_iff]
          exact exists_congr fun c => exists_congr fun opening => exists_congr fun rest =>
            and_congr_right fun hi => and_congr_right fun _ => ih _ (hshort ⟨opening, hi.symm⟩) rfl
        by_cases hfor : t = .keyword .forWord
        · subst hfor
          rw [run_content_forWord_eq_ok_iff, Draft.completes_forWord_iff]
          exact exists_congr fun x => exists_congr fun c => exists_congr fun opening =>
            exists_congr fun rest => and_congr_right fun hi => and_congr_right fun _ =>
              ih _ (hshort ⟨opening, hi.symm⟩) rfl
        by_cases hclose : t = .rightBrace
        · subst hclose
          cases stack with
          | nil =>
            rw [run_content_rightBrace_nil]
            constructor
            · rintro ⟨⟩
            · intro h
              exact absurd h Draft.not_completes_rightBrace
          | cons p stack =>
            obtain ⟨before, frame⟩ := p
            rw [run_content_rightBrace_cons]
            exact run_closed_eq_ok_iff fun d rest hs => ih _ (hshort hs) rfl
        obtain ⟨e, he⟩ := exists_run_content_token_eq_error hif hfor hclose ⟨body, stack⟩
        rw [he]
        constructor
        · rintro ⟨⟩
        · intro h
          exact absurd h (Draft.not_completes_token hif hfor hclose)

end Progress

namespace Body

/-- A template of which nothing has been read is completed by the items of a body. -/
theorem completes_empty_iff {items : List Item} {ns : Body} :
    Draft.empty.Completes items ns ↔ Derives items (.body ns) := by
  constructor
  · rintro ⟨own, ms, rest, rfl, hd, rfl, rfl⟩
    simpa [Draft.empty] using hd
  · intro h
    exact ⟨items, ns, [], by simp, h, rfl, rfl⟩

theorem ofItems_eq_ok_iff {items : List Item} {ns : Body} :
    ofItems items = .ok ns ↔ Derives items (.body ns) := by
  rw [Progress.ofItems_eq_run, Progress.start, Progress.run_content_eq_ok_iff, completes_empty_iff]

/-- **The grammar is exact.** Items are a body exactly when the grammar derives them, the body is
the tree of the derivation, and so no items have two trees. -/
theorem ofItems_eq_ok_iff_derives (items : List Item) :
    (∀ ns, ofItems items = .ok ns ↔ Derives items (.body ns)) ∧
      Set.Subsingleton {ns | Derives items (.body ns)} := by
  constructor
  · intro ns
    exact ofItems_eq_ok_iff
  · intro ns hns ms hms
    have hns' : ofItems items = .ok ns := ofItems_eq_ok_iff.2 hns
    have hms' : ofItems items = .ok ms := ofItems_eq_ok_iff.2 hms
    exact Except.ok.inj (hns'.symm.trans hms')

end Body

end Stencil
