import Stencil.Proofs.Text.Mark
import Stencil.Segment

/-!
# Reading in one pass is searching for marks

The segments of a source can be found by searching: the source is cut at the leftmost `<%`, what
follows is cut at the leftmost `%>`, and so on. Reading the source once, from left to right, decides
about a character before it is known whether a mark goes on with it. It finds the same segments,
since a character that was held and turns out to be content leaves the reading as if it had been
content at once.

## Main definitions

* `Stencil.Segment.leading`, `Stencil.Segment.tag`: the segments of the two sides of a cut.
* `Stencil.Segment.bySearch`: the segments of a source, found by searching.
* `Stencil.Segment.Scan.Collects`: readings that collect content up to a mark.

## Main results

* `Stencil.Segment.Scan.Collects.foldl_of_cut?`,
  `Stencil.Segment.Scan.Collects.foldl_of_cut?_eq_none`: content in front of a mark, and content
  without a mark.
* `Stencil.Segment.ofChars_eq_bySearch`: reading gives what searching finds.
* `Stencil.Segment.tag_induction`: induction along the tags of a source, with
  `Stencil.Segment.ofChars_of_plain`, `Stencil.Segment.ofChars_of_unclosed` and
  `Stencil.Segment.ofChars_of_tag` for its three cases.
* `Stencil.Segment.ofSource_eq_error_iff_and_eq_bySearch`: the sources without segments, and the
  segments of all others.
-/

namespace Stencil

namespace Segment

/-! ### Searching -/

/-- The text in front of a tag or the end of the source. It is no segment when it is empty. -/
def leading : List Char → List Segment
  | [] => []
  | c :: r => [text (String.ofList (c :: r))]

/-- The tag with the given content. -/
def tag : List Char → Segment
  | '=' :: r => expression (String.ofList r)
  | content => code (String.ofList content)

/-- The segments of a source, found by searching for the leftmost `<%`, for the leftmost `%>` behind
it, and so on. -/
def bySearch (s : List Char) : Except Fault (List Segment) :=
  match _h : Text.cut? '<' '%' s with
  | none => .ok (leading s)
  | some (before, inside) =>
    match _h' : Text.cut? '%' '>' inside with
    | none => .error .unclosedTag
    | some (content, rest) => do
      let segments ← bySearch rest
      return leading before ++ tag content :: segments
termination_by s.length
decreasing_by exact Nat.lt_trans (Text.length_lt_of_cut? _h') (Text.length_lt_of_cut? _h)

variable {s before inside content rest : List Char}

/-- A source without `<%` is one text. -/
theorem bySearch_of_cut?_eq_none (h : Text.cut? '<' '%' s = none) :
    bySearch s = .ok (leading s) := by
  rw [bySearch]
  split <;> simp_all

/-- A tag that is not closed is a fault. -/
theorem bySearch_of_unclosed (h : Text.cut? '<' '%' s = some (before, inside))
    (h' : Text.cut? '%' '>' inside = none) : bySearch s = .error .unclosedTag := by
  rw [bySearch]
  split
  · simp_all
  · rename_i heq
    obtain ⟨rfl, rfl⟩ := Prod.mk.inj (Option.some.inj (h.symm.trans heq))
    split <;> simp_all

/-- The text in front of a tag, the tag, and the segments of the rest. -/
theorem bySearch_of_cut? (h : Text.cut? '<' '%' s = some (before, inside))
    (h' : Text.cut? '%' '>' inside = some (content, rest)) :
    bySearch s = (bySearch rest).map (leading before ++ tag content :: ·) := by
  rw [bySearch]
  split
  · simp_all
  · rename_i heq
    obtain ⟨rfl, rfl⟩ := Prod.mk.inj (Option.some.inj (h.symm.trans heq))
    split
    · simp_all
    · rename_i heq'
      obtain ⟨rfl, rfl⟩ := Prod.mk.inj (Option.some.inj (h'.symm.trans heq'))
      cases bySearch rest <;> rfl

theorem flatMap_chars_leading (s : List Char) : (leading s).flatMap chars = s := by
  cases s <;> simp [leading, chars]

/-- A text that is not empty is the text of its characters. -/
theorem leading_toList {s : String} (h : s ≠ "") : leading s.toList = [text s] := by
  cases hs : s.toList with
  | nil => exact absurd (String.toList_eq_nil_iff.1 hs) h
  | cons c r => rw [leading, ← hs, String.ofList_toList]

theorem chars_tag (content : List Char) :
    (tag content).chars = '<' :: '%' :: content ++ ['%', '>'] := by
  unfold tag
  split <;> simp [chars]

theorem tag_of_head?_ne (h : content.head? ≠ some '=') :
    tag content = code (String.ofList content) := by
  unfold tag
  split
  · exact absurd rfl h
  · rfl

/-! ### Collecting content up to a mark -/

namespace Scan

theorem push_append_ofList (buffer : String) (c : Char) (p : List Char) :
    buffer.push c ++ String.ofList p = buffer ++ String.ofList (c :: p) := by
  rw [String.push_eq_append, String.append_assoc, ← String.ofList_cons]

/-- The readings, one for every content read so far, collect more content up to the mark `a b`: they
hold the first character of the mark until they have seen the next one. -/
structure Collects (reading : String → Scan) (a b : Char) : Prop where
  /-- A character that does not start the mark is content. -/
  step_of_ne : ∀ buffer c, c ≠ a → (reading buffer).step c = reading (buffer.push c)
  /-- A character that is held counts as content when the mark does not go on. -/
  step_step_of_ne : ∀ buffer c, c ≠ b →
    ((reading buffer).step a).step c = (reading (buffer.push a)).step c

/-- In text, content is collected up to `<%`. -/
theorem collects_text (segments : List Segment) :
    Collects (fun buffer => ⟨segments, buffer, .text⟩) '<' '%' where
  step_of_ne buffer c hc := if_neg hc
  step_step_of_ne buffer c hc := by
    by_cases hopen : c = '<'
    · subst hopen
      rfl
    · simp [step, goTo, push, hc, hopen]

/-- In a tag, content is collected up to `%>`. -/
theorem collects_tag (segments : List Segment) (kind : TagKind) :
    Collects (fun buffer => ⟨segments, buffer, .tag kind⟩) '%' '>' where
  step_of_ne buffer c hc := if_neg hc
  step_step_of_ne buffer c hc := by
    by_cases hclose : c = '%'
    · subst hclose
      rfl
    · simp [step, goTo, push, hc, hclose]

namespace Collects

variable {reading : String → Scan} {a b : Char} (h : Collects reading a b)

include h

/-- A character with which no mark starts is content. -/
theorem foldl_cons {c : Char} {s : List Char} (hs : s ≠ []) (hmark : ¬ (c = a ∧ s.head? = some b))
    (buffer : String) :
    (c :: s).foldl step (reading buffer) = s.foldl step (reading (buffer.push c)) := by
  obtain ⟨d, s, rfl⟩ := List.exists_cons_of_ne_nil hs
  by_cases hc : c = a
  · subst hc
    have hd : d ≠ b := fun hd => hmark ⟨rfl, congrArg some hd⟩
    rw [List.foldl_cons, List.foldl_cons, h.step_step_of_ne buffer d hd, List.foldl_cons]
  · rw [List.foldl_cons, h.step_of_ne buffer c hc]

/-- Everything in front of the leftmost mark is content. -/
theorem foldl_of_cut? {s p r : List Char} (hcut : Text.cut? a b s = some (p, r)) (buffer : String) :
    s.foldl step (reading buffer) =
      r.foldl step (((reading (buffer ++ String.ofList p)).step a).step b) := by
  induction s generalizing p buffer with
  | nil => cases hcut
  | cons c s ih =>
    rw [Text.cut?] at hcut
    split at hcut
    · rename_i hmark
      obtain ⟨rfl, hb⟩ := hmark
      obtain ⟨s, rfl⟩ := List.head?_eq_some_iff.1 hb
      cases hcut
      rw [String.ofList_nil, String.append_empty]
      rfl
    · rename_i hmark
      obtain ⟨⟨q, r⟩, hq, heq⟩ := Option.map_eq_some_iff.1 hcut
      cases heq
      have hs : s ≠ [] := by
        rintro rfl
        cases hq
      rw [h.foldl_cons hs hmark, ih hq, push_append_ofList]

/-- Where no mark is, everything is content, except that the first character of a mark is held at
the end. -/
theorem foldl_of_cut?_eq_none {s : List Char} (hcut : Text.cut? a b s = none) (buffer : String) :
    s.foldl step (reading buffer) = reading (buffer ++ String.ofList s) ∨
      ∃ p, s = p ++ [a] ∧
        s.foldl step (reading buffer) = (reading (buffer ++ String.ofList p)).step a := by
  induction s generalizing buffer with
  | nil =>
    left
    rw [String.ofList_nil, String.append_empty]
    rfl
  | cons c s ih =>
    rw [Text.cut?] at hcut
    split at hcut
    · cases hcut
    · rename_i hmark
      rw [Option.map_eq_none_iff] at hcut
      by_cases hs : s = []
      · subst hs
        by_cases hc : c = a
        · right
          refine ⟨[], by rw [hc]; rfl, ?_⟩
          rw [String.ofList_nil, String.append_empty, hc]
          rfl
        · left
          rw [← push_append_ofList, String.ofList_nil, String.append_empty]
          exact h.step_of_ne buffer c hc
      · rw [h.foldl_cons hs hmark]
        rcases ih hcut (buffer.push c) with hread | ⟨p, rfl, hread⟩
        · exact .inl (by rw [hread, push_append_ofList])
        · exact .inr ⟨c :: p, rfl, by rw [hread, push_append_ofList]⟩

end Collects

/-! ### One pass over a source -/

/-- The text in front of a tag is complete. -/
theorem flushText_mk (segments : List Segment) (buffer : String) (place : Place) :
    flushText ⟨segments, buffer, place⟩ =
      ⟨(leading buffer.toList).reverse ++ segments, "", place⟩ := by
  by_cases hempty : buffer = ""
  · subst hempty
    rfl
  · rw [flushText, if_neg hempty, leading_toList hempty]
    rfl

/-- A source without `<%` is read as one text, also when it ends in a `<` that is held. -/
theorem finish_foldl_text (h : Text.cut? '<' '%' s = none) (segments : List Segment) :
    (s.foldl step ⟨segments, "", .text⟩).finish = .ok (segments.reverse ++ leading s) := by
  have hflush (buffer : String) (place : Place) :
      (flushText ⟨segments, buffer, place⟩).segments.reverse =
        segments.reverse ++ leading buffer.toList := by
    rw [flushText_mk, List.reverse_append, List.reverse_reverse]
  rcases (collects_text segments).foldl_of_cut?_eq_none h "" with hread | ⟨p, rfl, hread⟩
  · rw [hread, finish, hflush, String.empty_append, String.toList_ofList]
  · rw [hread]
    show Except.ok
      (flushText ⟨segments, ("" ++ String.ofList p).push '<', .opening⟩).segments.reverse = _
    rw [hflush, String.empty_append, String.toList_push, String.toList_ofList]

/-- In front of the leftmost `<%` a source is read as text. -/
theorem foldl_text_of_cut? (h : Text.cut? '<' '%' s = some (before, inside))
    (segments : List Segment) :
    s.foldl step ⟨segments, "", .text⟩ =
      inside.foldl step ⟨(leading before).reverse ++ segments, "", .opened⟩ := by
  have hopen (buffer : String) : (step ⟨segments, buffer, .text⟩ '<').step '%' =
      ⟨(leading buffer.toList).reverse ++ segments, "", .opened⟩ := by
    show (flushText ⟨segments, buffer, .opening⟩).goTo .opened = _
    rw [flushText_mk]
    rfl
  rw [(collects_text segments).foldl_of_cut? h, hopen, String.empty_append, String.toList_ofList]

/-- Behind `<%` only `=` makes a difference. -/
theorem step_opened {c : Char} (hc : c ≠ '=') (segments : List Segment) :
    step ⟨segments, "", .opened⟩ c = step ⟨segments, "", .tag .code⟩ c := by
  by_cases hclose : c = '%'
  · subst hclose
    rfl
  · simp [step, goTo, push, hc, hclose]

/-- A tag is read up to the leftmost `%>`. -/
theorem foldl_tag_of_cut? (h : Text.cut? '%' '>' inside = some (content, rest))
    (segments : List Segment) (kind : TagKind) :
    inside.foldl step ⟨segments, "", .tag kind⟩ =
      rest.foldl step ⟨kind.segment (String.ofList content) :: segments, "", .text⟩ := by
  rw [(collects_tag segments kind).foldl_of_cut? h, String.empty_append]
  rfl

/-- A tag without `%>` is not closed, also when it ends in a `%` that is held. -/
theorem finish_foldl_tag (h : Text.cut? '%' '>' inside = none) (segments : List Segment)
    (kind : TagKind) :
    (inside.foldl step ⟨segments, "", .tag kind⟩).finish = .error .unclosedTag := by
  rcases (collects_tag segments kind).foldl_of_cut?_eq_none h "" with hread | ⟨p, -, hread⟩
  · rw [hread]
    rfl
  · rw [hread]
    rfl

/-- The first character behind `<%` says what tag it is, and the tag is read up to the leftmost
`%>`. -/
theorem foldl_opened_of_cut? (h : Text.cut? '%' '>' inside = some (content, rest))
    (segments : List Segment) :
    inside.foldl step ⟨segments, "", .opened⟩ =
      rest.foldl step ⟨tag content :: segments, "", .text⟩ := by
  cases inside with
  | nil => cases h
  | cons c r =>
    by_cases hc : c = '='
    · subst hc
      rw [Text.cut?, if_neg fun hmark => absurd hmark.1 (by decide)] at h
      obtain ⟨⟨p, rest⟩, hp, heq⟩ := Option.map_eq_some_iff.1 h
      cases heq
      exact foldl_tag_of_cut? hp segments .expression
    · have hhead : content.head? ≠ some '=' := by
        have happend := Text.eq_append_of_cut? h
        cases content with
        | nil => simp
        | cons d p =>
          cases happend
          exact fun heq => hc (Option.some.inj heq)
      rw [List.foldl_cons, step_opened hc, ← List.foldl_cons, foldl_tag_of_cut? h,
        tag_of_head?_ne hhead]
      rfl

/-- A tag without `%>` behind `<%` is not closed. -/
theorem finish_foldl_opened (h : Text.cut? '%' '>' inside = none) (segments : List Segment) :
    (inside.foldl step ⟨segments, "", .opened⟩).finish = .error .unclosedTag := by
  cases inside with
  | nil => rfl
  | cons c r =>
    by_cases hc : c = '='
    · subst hc
      rw [Text.cut?, if_neg fun hmark => absurd hmark.1 (by decide),
        Option.map_eq_none_iff] at h
      exact finish_foldl_tag h segments .expression
    · rw [List.foldl_cons, step_opened hc, ← List.foldl_cons]
      exact finish_foldl_tag h segments .code

/-- Between tags, the reading goes on with what searching finds in the rest. -/
theorem finish_foldl_eq_bySearch (s : List Char) (segments : List Segment) :
    (s.foldl step ⟨segments, "", .text⟩).finish = (bySearch s).map (segments.reverse ++ ·) := by
  -- The rest behind the first tag is shorter, so the induction is on the length of the source.
  induction hn : s.length using Nat.strongRecOn generalizing s segments with
  | _ n ih =>
    cases hopen : Text.cut? '<' '%' s with
    | none =>
      rw [finish_foldl_text hopen, bySearch_of_cut?_eq_none hopen]
      rfl
    | some cut =>
      obtain ⟨before, inside⟩ := cut
      rw [foldl_text_of_cut? hopen]
      cases hclose : Text.cut? '%' '>' inside with
      | none =>
        rw [finish_foldl_opened hclose, bySearch_of_unclosed hopen hclose]
        rfl
      | some cut' =>
        obtain ⟨content, rest⟩ := cut'
        have hshorter : rest.length < n :=
          hn ▸ Nat.lt_trans (Text.length_lt_of_cut? hclose) (Text.length_lt_of_cut? hopen)
        rw [foldl_opened_of_cut? hclose, ih _ hshorter rest _ rfl, bySearch_of_cut? hopen hclose]
        cases bySearch rest with
        | error fault => rfl
        | ok tail => simp [Except.map]

end Scan

/-- Reading a source in one pass gives the segments that searching finds. -/
theorem ofChars_eq_bySearch (s : List Char) : ofChars s = bySearch s := by
  rw [ofChars, Scan.start, Scan.finish_foldl_eq_bySearch]
  cases bySearch s <;> rfl

/-! ### Induction along the tags -/

/-- A source without `<%` is one text. -/
theorem ofChars_of_plain (h : ¬ ['<', '%'] <:+: s) : ofChars s = .ok (leading s) := by
  rw [ofChars_eq_bySearch, bySearch_of_cut?_eq_none (Text.cut?_eq_none_iff.2 h)]

/-- A tag that is not closed is a fault. -/
theorem ofChars_of_unclosed (hbefore : ¬ ['<', '%'] <:+: before)
    (hinside : ¬ ['%', '>'] <:+: inside) :
    ofChars (before ++ '<' :: '%' :: inside) = .error .unclosedTag := by
  have hopen := Text.cut?_append_mark (by decide) hbefore inside
  rw [ofChars_eq_bySearch, bySearch_of_unclosed hopen (Text.cut?_eq_none_iff.2 hinside)]

/-- The text in front of a tag, the tag, and the segments of the rest. -/
theorem ofChars_of_tag (hbefore : ¬ ['<', '%'] <:+: before) (hcontent : ¬ ['%', '>'] <:+: content)
    (rest : List Char) :
    ofChars (before ++ '<' :: '%' :: (content ++ '%' :: '>' :: rest)) =
      (ofChars rest).map (leading before ++ tag content :: ·) := by
  have hopen := Text.cut?_append_mark (by decide) hbefore (content ++ '%' :: '>' :: rest)
  have hclose := Text.cut?_append_mark (by decide) hcontent rest
  rw [ofChars_eq_bySearch, ofChars_eq_bySearch, bySearch_of_cut? hopen hclose]

/-- Induction along the tags of a source: it has none, the first one is not closed, or a rest stands
behind the first one. -/
theorem tag_induction {motive : List Char → Prop}
    (plain : ∀ s, ¬ ['<', '%'] <:+: s → motive s)
    (unclosed : ∀ before inside, ¬ ['<', '%'] <:+: before → ¬ ['%', '>'] <:+: inside →
      motive (before ++ '<' :: '%' :: inside))
    (tag : ∀ before content rest, ¬ ['<', '%'] <:+: before → ¬ ['%', '>'] <:+: content →
      motive rest → motive (before ++ '<' :: '%' :: (content ++ '%' :: '>' :: rest)))
    (s : List Char) : motive s := by
  induction hn : s.length using Nat.strongRecOn generalizing s with
  | _ n ih =>
    cases hopen : Text.cut? '<' '%' s with
    | none => exact plain s (Text.cut?_eq_none_iff.1 hopen)
    | some cut =>
      obtain ⟨before, inside⟩ := cut
      have hbefore := Text.not_mark_infix_of_cut? (by decide) hopen
      cases hclose : Text.cut? '%' '>' inside with
      | none =>
        rw [Text.eq_append_of_cut? hopen]
        exact unclosed before inside hbefore (Text.cut?_eq_none_iff.1 hclose)
      | some cut' =>
        obtain ⟨content, rest⟩ := cut'
        have hcontent := Text.not_mark_infix_of_cut? (by decide) hclose
        have hshorter : rest.length < n :=
          hn ▸ Nat.lt_trans (Text.length_lt_of_cut? hclose) (Text.length_lt_of_cut? hopen)
        rw [Text.eq_append_of_cut? hopen, Text.eq_append_of_cut? hclose]
        exact tag before content rest hbefore hcontent (ih _ hshorter rest rfl)

/-- The segments of a source spell the source. -/
theorem flatMap_chars_of_ofChars {segments : List Segment} (h : ofChars s = .ok segments) :
    segments.flatMap chars = s := by
  induction s using tag_induction generalizing segments with
  | plain s hs =>
    rw [ofChars_of_plain hs] at h
    cases h
    exact flatMap_chars_leading s
  | unclosed before inside hbefore hinside =>
    rw [ofChars_of_unclosed hbefore hinside] at h
    cases h
  | tag before content rest hbefore hcontent ih =>
    rw [ofChars_of_tag hbefore hcontent] at h
    cases hrest : ofChars rest with
    | error fault => rw [hrest] at h; cases h
    | ok tail =>
      rw [hrest] at h
      cases h
      rw [List.flatMap_append, List.flatMap_cons, flatMap_chars_leading, chars_tag, ih hrest]
      simp

/-! ### Tags that are not closed -/

/-- A source has no segments only when it ends inside a tag. -/
theorem eq_unclosedTag_of_ofChars {fault : Fault} (h : ofChars s = .error fault) :
    fault = .unclosedTag ∧ ∃ front inside, s = front ++ '<' :: '%' :: inside ∧
      (∃ segments, ofChars front = .ok segments) ∧ ¬ ['%', '>'] <:+: inside := by
  induction s using tag_induction with
  | plain s hs =>
    rw [ofChars_of_plain hs] at h
    cases h
  | unclosed before inside hbefore hinside =>
    rw [ofChars_of_unclosed hbefore hinside] at h
    cases h
    exact ⟨rfl, before, inside, rfl, ⟨_, ofChars_of_plain hbefore⟩, hinside⟩
  | tag before content rest hbefore hcontent ih =>
    rw [ofChars_of_tag hbefore hcontent] at h
    cases hrest : ofChars rest with
    | ok tail => rw [hrest] at h; cases h
    | error f =>
      rw [hrest] at h
      cases h
      obtain ⟨hfault, front, inside, rfl, ⟨segments, hfront⟩, hinside⟩ := ih hrest
      refine ⟨hfault, before ++ '<' :: '%' :: (content ++ '%' :: '>' :: front), inside, by simp,
        ⟨leading before ++ tag content :: segments, ?_⟩, hinside⟩
      rw [ofChars_of_tag hbefore hcontent, hfront]
      rfl

/-- A tag that is opened behind complete segments has to be closed. -/
theorem ofChars_append_of_unclosed {front : List Char} {segments : List Segment}
    (h : ofChars front = .ok segments) (hinside : ¬ ['%', '>'] <:+: inside) :
    ofChars (front ++ '<' :: '%' :: inside) = .error .unclosedTag := by
  induction front using tag_induction generalizing segments with
  | plain s hs => exact ofChars_of_unclosed hs hinside
  | unclosed before inside hbefore hinside =>
    rw [ofChars_of_unclosed hbefore hinside] at h
    cases h
  | tag before content rest hbefore hcontent ih =>
    rw [ofChars_of_tag hbefore hcontent] at h
    cases hrest : ofChars rest with
    | error f => rw [hrest] at h; cases h
    | ok tail =>
      have hunclosed := ofChars_of_tag hbefore hcontent (rest ++ '<' :: '%' :: inside)
      rw [ih hrest] at hunclosed
      simpa [Except.map] using hunclosed

/-- **Reading is searching.** A source has no segments exactly when some `<%` behind complete
segments has no `%>` after it, and this is the only fault. Reading in one pass gives what is found
by searching for the leftmost `<%`, for the leftmost `%>` behind it, and so on. -/
theorem ofSource_eq_error_iff_and_eq_bySearch (source : String) :
    ((∃ fault, ofSource source = .error fault) ↔
      ∃ front inside, source = front ++ "<%" ++ inside ∧
        (∃ segments, ofSource front = .ok segments) ∧ ¬ ['%', '>'] <:+: inside.toList) ∧
    (∀ fault, ofSource source = .error fault → fault = .unclosedTag) ∧
    ofSource source = bySearch source.toList := by
  refine ⟨⟨?_, ?_⟩, fun fault h => (eq_unclosedTag_of_ofChars h).1, ofChars_eq_bySearch _⟩
  · rintro ⟨fault, h⟩
    obtain ⟨-, front, inside, hsource, ⟨segments, hfront⟩, hinside⟩ := eq_unclosedTag_of_ofChars h
    refine ⟨String.ofList front, String.ofList inside, ?_, ⟨segments, ?_⟩, ?_⟩
    · rw [← String.toList_inj, hsource]
      simp
    · rwa [ofSource, String.toList_ofList]
    · rwa [String.toList_ofList]
  · rintro ⟨front, inside, rfl, ⟨segments, hfront⟩, hinside⟩
    refine ⟨.unclosedTag, ?_⟩
    rw [ofSource, String.toList_append, String.toList_append, List.append_assoc]
    exact ofChars_append_of_unclosed hfront hinside

end Segment

end Stencil
