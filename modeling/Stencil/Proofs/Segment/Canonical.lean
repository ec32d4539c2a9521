import Mathlib.Data.List.Chain
import Stencil.Proofs.Segment.Search

/-!
# Canonical sequences of segments

A sequence of segments can be written down, one segment after the other. Most sequences are not
read back from what they are written as: two texts in a row become one, and a text with `<%` in it
opens a tag. The canonical sequences are those without such an accident, and they are exactly the
sequences that reading a source gives.

## Main definitions

* `Stencil.Segment.IsProper`: a segment that can stand in a source by itself.
* `Stencil.Segment.Canonical`: sequences of proper segments without two texts in a row.
* `Stencil.Segment.join`: the source that a sequence of segments is written as.

## Main results

* `Stencil.Segment.ofSource_eq_ok_iff_canonical`: reading gives the canonical segments that spell
  the source, and no others.
-/

namespace Stencil

namespace Segment

/-! ### Canonical sequences -/

/-- Whether a segment is a text. -/
def isText : Segment → Bool
  | text _ => true
  | _ => false

@[simp] theorem isText_text (s : String) : (text s).isText = true := rfl

@[simp] theorem isText_expression (content : String) : (expression content).isText = false := rfl

@[simp] theorem isText_code (content : String) : (code content).isText = false := rfl

/-- A segment that can stand in a source by itself: a text that is not empty and opens no tag, or
a tag whose content does not close it. The content of a code tag does not start with `=`. -/
def IsProper : Segment → Prop
  | text s => s ≠ "" ∧ ¬ ['<', '%'] <:+: s.toList
  | expression content => ¬ ['%', '>'] <:+: content.toList
  | code content => ¬ ['%', '>'] <:+: content.toList ∧ content.toList.head? ≠ some '='

/-- A sequence of proper segments in which no two texts follow each other. -/
structure Canonical (segments : List Segment) : Prop where
  isProper : ∀ g ∈ segments, g.IsProper
  isSeparated : segments.IsChain fun g g' => ¬ (g.isText = true ∧ g'.isText = true)

/-- The source that a sequence of segments is written as. -/
def join (segments : List Segment) : String :=
  String.ofList (segments.flatMap chars)

@[simp] theorem toList_join (segments : List Segment) :
    (join segments).toList = segments.flatMap chars :=
  String.toList_ofList

theorem join_eq_iff {segments : List Segment} {source : String} :
    join segments = source ↔ segments.flatMap chars = source.toList := by
  rw [← String.toList_inj, toList_join]

theorem canonical_nil : Canonical [] :=
  ⟨by simp, .nil⟩

theorem canonical_cons_iff {g : Segment} {segments : List Segment} :
    Canonical (g :: segments) ↔ g.IsProper ∧ Canonical segments ∧
      (g.isText = true → ∀ g' ∈ segments.head?, g'.isText = false) := by
  constructor
  · rintro ⟨hproper, hsep⟩
    obtain ⟨hg, hsegments⟩ := List.forall_mem_cons.1 hproper
    obtain ⟨hhead, htail⟩ := List.isChain_cons.1 hsep
    refine ⟨hg, ⟨hsegments, htail⟩, fun htext g' hg' => ?_⟩
    exact Bool.eq_false_iff.2 fun htext' => hhead g' hg' ⟨htext, htext'⟩
  · rintro ⟨hg, ⟨hsegments, htail⟩, hhead⟩
    refine ⟨List.forall_mem_cons.2 ⟨hg, hsegments⟩, List.isChain_cons.2 ⟨?_, htail⟩⟩
    rintro g' hg' ⟨htext, htext'⟩
    rw [hhead htext g' hg'] at htext'
    cases htext'

/-- Two canonical sequences in a row are canonical unless two texts meet. -/
theorem Canonical.append {segments segments' : List Segment} (h : Canonical segments)
    (h' : Canonical segments')
    (hmeet : ∀ g ∈ segments.getLast?, ∀ g' ∈ segments'.head?,
      ¬ (g.isText = true ∧ g'.isText = true)) :
    Canonical (segments ++ segments') := by
  refine ⟨fun g hg => ?_, List.isChain_append.2 ⟨h.isSeparated, h'.isSeparated, hmeet⟩⟩
  rcases List.mem_append.1 hg with hg | hg
  · exact h.isProper g hg
  · exact h'.isProper g hg

/-! ### What reading gives is canonical -/

theorem isText_tag (content : List Char) : (tag content).isText = false := by
  unfold tag
  split <;> rfl

/-- A tag is proper when its content does not close it. -/
theorem isProper_tag {content : List Char} (h : ¬ ['%', '>'] <:+: content) :
    (tag content).IsProper := by
  unfold tag
  split
  · rw [IsProper, String.toList_ofList]
    exact fun hi => h (List.infix_cons hi)
  · rename_i hne
    rw [IsProper, String.toList_ofList]
    refine ⟨h, fun heq => ?_⟩
    obtain ⟨r, rfl⟩ := List.head?_eq_some_iff.1 heq
    exact hne r rfl

/-- The text in front of a canonical sequence that does not start with a text. -/
theorem Canonical.leading_append {s : List Char} {segments : List Segment}
    (hs : ¬ ['<', '%'] <:+: s) (h : Canonical segments)
    (hhead : ∀ g ∈ segments.head?, g.isText = false) : Canonical (leading s ++ segments) := by
  cases s with
  | nil => exact h
  | cons c r =>
    refine canonical_cons_iff.2 ⟨⟨?_, ?_⟩, h, fun _ => hhead⟩
    · intro heq
      have hlist := congrArg String.toList heq
      rw [String.toList_ofList] at hlist
      cases hlist
    · rwa [String.toList_ofList]

/-- Reading gives canonical segments. -/
theorem canonical_of_ofChars {s : List Char} {segments : List Segment}
    (h : ofChars s = .ok segments) : Canonical segments := by
  induction s using tag_induction generalizing segments with
  | plain s hs =>
    rw [ofChars_of_plain hs] at h
    cases h
    have hleading := canonical_nil.leading_append hs (by simp)
    rwa [List.append_nil] at hleading
  | unclosed before inside hbefore hinside =>
    rw [ofChars_of_unclosed hbefore hinside] at h
    cases h
  | tag before content rest hbefore hcontent ih =>
    rw [ofChars_of_tag hbefore hcontent] at h
    cases hrest : ofChars rest with
    | error fault => rw [hrest] at h; cases h
    | ok tail =>
      rw [hrest] at h
      cases h
      refine Canonical.leading_append hbefore ?_ (by simp [isText_tag])
      refine canonical_cons_iff.2 ⟨isProper_tag hcontent, ih hrest, ?_⟩
      simp [isText_tag]

/-! ### Canonical segments are read back -/

/-- A proper tag is the tag that its content makes, and is written between the two marks. -/
theorem IsProper.exists_tag_eq {g : Segment} (h : g.IsProper) (htag : g.isText = false) :
    ∃ content, g = tag content ∧ ¬ ['%', '>'] <:+: content := by
  cases g with
  | text s => cases htag
  | expression content =>
    refine ⟨'=' :: content.toList, ?_, ?_⟩
    · rw [tag, String.ofList_toList]
    · rw [List.infix_cons_iff, not_or]
      refine ⟨?_, h⟩
      rintro ⟨u, hu⟩
      cases hu
  | code content =>
    refine ⟨content.toList, ?_, h.1⟩
    unfold tag
    split
    · rename_i r heq
      exact absurd (by rw [heq]; rfl) h.2
    · rw [String.ofList_toList]

/-- Characters without `<%`, then a proper tag, then a rest: they are read one after the other. -/
theorem ofChars_append_tag {s : List Char} {g : Segment} {rest : List Char}
    {segments : List Segment} (hs : ¬ ['<', '%'] <:+: s) (hg : g.IsProper)
    (htag : g.isText = false) (hrest : ofChars rest = .ok segments) :
    ofChars (s ++ (g.chars ++ rest)) = .ok (leading s ++ g :: segments) := by
  obtain ⟨content, rfl, hcontent⟩ := hg.exists_tag_eq htag
  have hread := ofChars_of_tag hs hcontent rest
  rw [hrest] at hread
  simpa [chars_tag, Except.map] using hread

/-- Canonical segments are read from the source that they are written as. -/
theorem ofChars_flatMap_chars {segments : List Segment} (h : Canonical segments) :
    ofChars (segments.flatMap chars) = .ok segments := by
  -- Every step takes a text with the tag behind it, or one of the two alone.
  induction hn : segments.length using Nat.strongRecOn generalizing segments with
  | _ n ih =>
    cases segments with
    | nil => exact ofChars_of_plain (by simp)
    | cons g segments =>
      obtain ⟨hg, hsegments, hmeet⟩ := canonical_cons_iff.1 h
      rw [List.length_cons] at hn
      cases htext : g.isText with
      | false =>
        have hrest := ih segments.length (by omega) hsegments rfl
        rw [List.flatMap_cons]
        exact ofChars_append_tag (s := []) (by simp) hg htext hrest
      | true =>
        cases g with
        | expression content => cases htext
        | code content => cases htext
        | text s =>
          obtain ⟨hne, hopen⟩ := hg
          cases segments with
          | nil =>
            rw [List.flatMap_cons, List.flatMap_nil, List.append_nil]
            rw [chars, ofChars_of_plain hopen, leading_toList hne]
          | cons g' segments =>
            obtain ⟨hg', hsegments, -⟩ := canonical_cons_iff.1 hsegments
            rw [List.length_cons] at hn
            have hrest := ih segments.length (by omega) hsegments rfl
            have hread := ofChars_append_tag hopen hg' (hmeet rfl g' rfl) hrest
            rw [List.flatMap_cons, List.flatMap_cons, chars, hread, leading_toList hne]
            rfl

/-- Canonical segments are read back from their source. -/
theorem ofSource_join {segments : List Segment} (h : Canonical segments) :
    ofSource (join segments) = .ok segments := by
  rw [ofSource, toList_join]
  exact ofChars_flatMap_chars h

/-! ### Reading is exact -/

/-- **Reading is lossless and canonical.** A source has the given segments exactly when they are
canonical and spell the source. -/
theorem ofSource_eq_ok_iff_canonical (source : String) (segments : List Segment) :
    ofSource source = .ok segments ↔ Canonical segments ∧ join segments = source := by
  constructor
  · intro h
    exact ⟨canonical_of_ofChars h, join_eq_iff.2 (flatMap_chars_of_ofChars h)⟩
  · rintro ⟨h, rfl⟩
    exact ofSource_join h

end Segment

end Stencil
