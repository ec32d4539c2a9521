import Mathlib.Data.List.Chain
import Stencil.Token

/-!
# The blanks between tokens

The same tokens can be written down in many ways: blanks may stand in front of the first token,
between any two tokens and behind the last one. They have to stand only between two words, which
would be read as one word otherwise. Code has the tokens of which it is such a spacing, and no
others; so nothing is lost in reading but blanks.

Code can be cut into two parts that are read one after the other, as long as no word is cut.

## Main definitions

* `Stencil.Token.IsIdentifier`, `Stencil.Token.IsReadable`: the words that are identifiers, and the
  tokens that code can have.
* `Stencil.Token.isWord`: keywords and identifiers.
* `Stencil.Token.Spacing`: tokens with blanks around them.
* `Stencil.Token.StartsWord`, `Stencil.Token.EndsWord`: what a cut can go through.

## Main results

* `Stencil.Token.ofChars_word_append`: a word is read up to where it ends.
* `Stencil.Token.Spacing.ofChars_chars`: the tokens of a spacing are read.
* `Stencil.Token.exists_spacing`: code is a spacing of its tokens.
* `Stencil.Token.ofChars_append`, `Stencil.Token.length_ofChars_append`: cuts between words, and
  through a word.
* `Stencil.Token.ofCode_eq_iff_exists_spacing`: all three for code.
-/

namespace Stencil.Token

/-! ### Words -/

theorem ofPunctuation?_eq_none_iff {c : Char} :
    ofPunctuation? c = none ↔ c ∉ ['(', ')', '{', '}'] := by
  unfold ofPunctuation?
  repeat' split
  all_goals simp_all

theorem isWordChar_iff {c : Char} :
    isWordChar c = true ↔ Text.isBlank c = false ∧ c ∉ ['(', ')', '{', '}'] := by
  rw [isWordChar, Bool.and_eq_true, Bool.not_eq_true', Option.isNone_iff_eq_none,
    ofPunctuation?_eq_none_iff]

theorem isWordChar_of_isBlank {c : Char} (h : Text.isBlank c = true) : isWordChar c = false := by
  rw [isWordChar, h]
  rfl

theorem ofWord_word (k : Keyword) : ofWord k.word = keyword k := by
  rw [ofWord, Keyword.ofWord?_eq_some_iff.2 rfl]

theorem ofWord_of_ne_keyword {w : String} (h : ∀ k : Keyword, w ≠ k.word) :
    ofWord w = identifier w := by
  cases hk : Keyword.ofWord? w with
  | none => rw [ofWord, hk]
  | some k => exact absurd (Keyword.ofWord?_eq_some_iff.1 hk) (h k)

/-- A word is read as one token if no word character stands behind it. -/
theorem ofChars_word_append {w r : List Char} (hne : w ≠ [])
    (hw : ∀ c ∈ w, isWordChar c = true) (hr : ∀ c ∈ r.head?, isWordChar c = false) :
    ofChars (w ++ r) = ofWord (String.ofList w) :: ofChars r := by
  cases w with
  | nil => exact absurd rfl hne
  | cons c cs =>
    obtain ⟨hc, hcs⟩ := List.forall_mem_cons.1 hw
    have hstop : r.takeWhile isWordChar = [] ∧ r.dropWhile isWordChar = r := by
      cases r with
      | nil => exact ⟨rfl, rfl⟩
      | cons d r =>
        have hd : ¬ isWordChar d = true := by simp [hr d rfl]
        exact ⟨List.takeWhile_cons_of_neg hd, List.dropWhile_cons_of_neg hd⟩
    rw [List.cons_append, ofChars_word hc, List.takeWhile_append_of_pos hcs,
      List.dropWhile_append_of_pos hcs, hstop.1, hstop.2, List.append_nil]

theorem ofChars_blanks_append {b : List Char} (h : ∀ c ∈ b, Text.isBlank c = true)
    (r : List Char) : ofChars (b ++ r) = ofChars r := by
  induction b with
  | nil => rfl
  | cons c b ih =>
    obtain ⟨hc, hb⟩ := List.forall_mem_cons.1 h
    rw [List.cons_append, ofChars_blank hc, ih hb]

/-! ### Tokens of code -/

/-- A word that is read as an identifier. -/
structure IsIdentifier (w : String) : Prop where
  ne_empty : w ≠ ""
  isBlank_eq_false : ∀ c ∈ w.toList, Text.isBlank c = false
  not_punctuation : ∀ c ∈ w.toList, c ∉ ['(', ')', '{', '}']
  ne_keyword : ∀ k : Keyword, w ≠ k.word

theorem IsIdentifier.isWordChar {w : String} (h : IsIdentifier w) {c : Char}
    (hc : c ∈ w.toList) : isWordChar c = true :=
  isWordChar_iff.2 ⟨h.isBlank_eq_false c hc, h.not_punctuation c hc⟩

/-- A token that code can have: every one whose identifier is read as an identifier. -/
def IsReadable : Token → Prop
  | identifier w => IsIdentifier w
  | _ => True

/-- Keywords and identifiers are words; parentheses and braces are not. -/
def isWord : Token → Bool
  | keyword _ => true
  | identifier _ => true
  | _ => false

theorem isWord_of_ofPunctuation? {c : Char} {t : Token} (h : ofPunctuation? c = some t) :
    t.isWord = false ∧ t.written.toList = [c] := by
  unfold ofPunctuation? at h
  repeat' split at h
  all_goals cases h
  all_goals rename_i hc; exact ⟨rfl, by rw [hc]; rfl⟩

/-- What is read from a word is a word that is written like it. -/
theorem isReadable_ofWord {w : List Char} (hne : w ≠ []) (hw : ∀ c ∈ w, isWordChar c = true) :
    (ofWord (String.ofList w)).IsReadable ∧ (ofWord (String.ofList w)).isWord = true ∧
      (ofWord (String.ofList w)).written.toList = w := by
  cases hk : Keyword.ofWord? (String.ofList w) with
  | some k =>
    rw [ofWord, hk]
    refine ⟨trivial, rfl, ?_⟩
    rw [written, ← Keyword.ofWord?_eq_some_iff.1 hk, String.toList_ofList]
  | none =>
    rw [ofWord, hk]
    refine ⟨⟨fun h => hne ?_, ?_, ?_, fun k h => ?_⟩, rfl, String.toList_ofList⟩
    · rw [← String.toList_ofList (l := w), h]
      rfl
    · rw [String.toList_ofList]
      exact fun c hc => (isWordChar_iff.1 (hw c hc)).1
    · rw [String.toList_ofList]
      exact fun c hc => (isWordChar_iff.1 (hw c hc)).2
    · rw [Keyword.ofWord?_eq_some_iff.2 h] at hk
      cases hk

/-- The characters of a word are word characters. -/
theorem IsReadable.isWordChar {t : Token} (h : t.IsReadable) (hword : t.isWord = true) {c : Char}
    (hc : c ∈ t.written.toList) : Token.isWordChar c = true := by
  cases t with
  | keyword k =>
    have hchars : k.word.toList.all Token.isWordChar = true := by cases k <;> decide
    exact List.all_eq_true.1 hchars c hc
  | identifier w => exact IsIdentifier.isWordChar h hc
  | leftParen | rightParen | leftBrace | rightBrace => cases hword

theorem IsReadable.written_ne_nil {t : Token} (h : t.IsReadable) : t.written.toList ≠ [] := by
  cases t with
  | keyword k => cases k <;> decide
  | identifier w => exact fun hnil => IsIdentifier.ne_empty h (String.toList_eq_nil_iff.1 hnil)
  | leftParen | rightParen | leftBrace | rightBrace => decide

/-- The first character of a token tells whether it is a word. -/
theorem IsReadable.exists_head? {t : Token} (h : t.IsReadable) :
    ∃ c, t.written.toList.head? = some c ∧ Token.isWordChar c = t.isWord := by
  cases hword : t.isWord with
  | true =>
    obtain ⟨c, cs, hwritten⟩ := List.exists_cons_of_ne_nil h.written_ne_nil
    refine ⟨c, by rw [hwritten]; rfl, h.isWordChar hword ?_⟩
    rw [hwritten]
    exact List.mem_cons_self
  | false =>
    cases t with
    | keyword k | identifier w => cases hword
    | leftParen | rightParen | leftBrace | rightBrace => exact ⟨_, rfl, by decide⟩

/-- Nothing that is written for a token is blank. -/
theorem IsReadable.isBlank_eq_false {t : Token} (h : t.IsReadable) {c : Char}
    (hc : c ∈ t.written.toList) : Text.isBlank c = false := by
  cases hword : t.isWord with
  | true => exact (isWordChar_iff.1 (h.isWordChar hword hc)).1
  | false =>
    cases t with
    | keyword k | identifier w => cases hword
    | leftParen | rightParen | leftBrace | rightBrace =>
      rw [List.mem_singleton.1 hc]
      decide

/-- A token is read first if it is not a word that goes on. -/
theorem ofChars_written_append {t : Token} (h : t.IsReadable) {r : List Char}
    (hr : t.isWord = true → ∀ c ∈ r.head?, Token.isWordChar c = false) :
    ofChars (t.written.toList ++ r) = t :: ofChars r := by
  cases t with
  | keyword k =>
    rw [ofChars_word_append h.written_ne_nil (fun c => h.isWordChar rfl) (hr rfl),
      String.ofList_toList, written, ofWord_word]
  | identifier w =>
    rw [ofChars_word_append h.written_ne_nil (fun c => h.isWordChar rfl) (hr rfl),
      String.ofList_toList, written, ofWord_of_ne_keyword (IsIdentifier.ne_keyword h)]
  | leftParen | rightParen | leftBrace | rightBrace =>
    exact ofChars_punctuation (by decide) rfl r

/-- Code is read from its first character on: a blank is passed over, and everything else begins a
token, which reaches up to the next character that is no word character if it is a word. -/
theorem token_induction {motive : List Char → Prop} (nil : motive [])
    (blank : ∀ c r, Text.isBlank c = true → motive r → motive (c :: r))
    (token : ∀ (t : Token) r, t.IsReadable →
      (t.isWord = true → ∀ c ∈ r.head?, Token.isWordChar c = false) →
        motive r → motive (t.written.toList ++ r))
    (s : List Char) : motive s := by
  induction s using ofChars.induct with
  | case1 => exact nil
  | case2 c r hb ih => exact blank c r hb ih
  | case3 c r hb t ht ih =>
    obtain ⟨hword, hwritten⟩ := isWord_of_ofPunctuation? ht
    have hread : t.IsReadable := by
      cases t with
      | identifier w => cases hword
      | _ => trivial
    have htoken := token t r hread (fun htrue => absurd (hword ▸ htrue) nofun) ih
    rwa [hwritten] at htoken
  | case4 c r hb ht ih =>
    have hc : Token.isWordChar c = true := by simp [Token.isWordChar, hb, ht]
    obtain ⟨hread, -, hwritten⟩ := isReadable_ofWord (List.cons_ne_nil c _)
      (List.forall_mem_cons.2 ⟨hc, List.all_eq_true.1 (List.all_takeWhile (l := r))⟩)
    have hstop : ∀ d ∈ (r.dropWhile Token.isWordChar).head?, Token.isWordChar d = false := by
      intro d hd
      have hnot := List.head?_dropWhile_not Token.isWordChar r
      rw [hd] at hnot
      exact hnot
    have htoken := token _ _ hread (fun _ => hstop) ih
    rwa [hwritten, List.cons_append, List.takeWhile_append_dropWhile] at htoken

/-- The tokens of code are readable. -/
theorem isReadable_of_mem_ofChars (s : List Char) : ∀ t ∈ ofChars s, t.IsReadable := by
  induction s using token_induction with
  | nil => simp
  | blank c r hc ih => rwa [ofChars_blank hc]
  | token t r ht hr ih =>
    rw [ofChars_written_append ht hr]
    exact List.forall_mem_cons.2 ⟨ht, ih⟩

/-! ### Spacings -/

/-- Tokens with blanks in front of them and behind each of them. -/
structure Spacing where
  /-- The blanks in front of the first token. -/
  lead : List Char
  /-- Each token with the blanks behind it. -/
  pieces : List (Token × List Char)
  isBlank_lead : ∀ c ∈ lead, Text.isBlank c = true
  isBlank_behind : ∀ p ∈ pieces, ∀ c ∈ p.2, Text.isBlank c = true
  /-- Between two words there are blanks. -/
  apart : pieces.IsChain fun p q => p.1.isWord = true → q.1.isWord = true → p.2 ≠ []

namespace Spacing

/-- The tokens of a spacing. -/
def tokens (s : Spacing) : List Token :=
  s.pieces.map (·.1)

/-- The characters of a spacing. -/
def chars (s : Spacing) : List Char :=
  s.lead ++ s.pieces.flatMap fun p => p.1.written.toList ++ p.2

/-- No tokens and no blanks. -/
def empty : Spacing := ⟨[], [], nofun, nofun, .nil⟩

/-- A spacing with one more blank in front. -/
def blank (c : Char) (hc : Text.isBlank c = true) (s : Spacing) : Spacing :=
  { s with lead := c :: s.lead, isBlank_lead := List.forall_mem_cons.2 ⟨hc, s.isBlank_lead⟩ }

/-- A spacing with one more token in front, which is no word if a word follows at once. -/
def cons (t : Token) (s : Spacing)
    (h : t.isWord = true → ∀ q ∈ s.pieces.head?, q.1.isWord = true → s.lead ≠ []) : Spacing where
  lead := []
  pieces := (t, s.lead) :: s.pieces
  isBlank_lead := nofun
  isBlank_behind := List.forall_mem_cons.2 ⟨s.isBlank_lead, s.isBlank_behind⟩
  apart := List.isChain_cons.2 ⟨fun q hq ht => h ht q hq, s.apart⟩

theorem chars_cons (t : Token) (s : Spacing) (h) :
    (cons t s h).chars = t.written.toList ++ s.chars := by
  rw [chars, chars, cons, List.nil_append, List.flatMap_cons, List.append_assoc]

/-- The first character behind the blanks in front tells whether the first token is a word. -/
theorem exists_head?_chars {s : Spacing} (hs : ∀ t ∈ s.tokens, t.IsReadable) (hlead : s.lead = [])
    {q : Token × List Char} (hq : q ∈ s.pieces.head?) :
    ∃ c, s.chars.head? = some c ∧ Token.isWordChar c = q.1.isWord := by
  obtain ⟨qs, hpieces⟩ := List.head?_eq_some_iff.1 hq
  have hmem : q.1 ∈ s.tokens := by
    rw [tokens, hpieces]
    exact List.mem_cons_self
  obtain ⟨c, hc, hword⟩ := (hs q.1 hmem).exists_head?
  refine ⟨c, ?_, hword⟩
  rw [chars, hlead, hpieces, List.nil_append, List.flatMap_cons, List.append_assoc,
    List.head?_append, hc]
  rfl

/-- Where blanks or no word come first, no word character does. -/
theorem isWordChar_of_mem_head?_chars {s : Spacing} (hs : ∀ t ∈ s.tokens, t.IsReadable)
    (h : ∀ q ∈ s.pieces.head?, q.1.isWord = true → s.lead ≠ []) :
    ∀ c ∈ s.chars.head?, Token.isWordChar c = false := by
  intro c hc
  cases hlead : s.lead with
  | cons b bs =>
    rw [chars, hlead] at hc
    cases hc
    exact isWordChar_of_isBlank (s.isBlank_lead c (hlead ▸ List.mem_cons_self))
  | nil =>
    cases hpieces : s.pieces.head? with
    | none =>
      rw [chars, hlead, List.head?_eq_none_iff.1 hpieces] at hc
      cases hc
    | some q =>
      obtain ⟨d, hd, hword⟩ := exists_head?_chars hs hlead hpieces
      rw [hd] at hc
      cases hc
      rw [hword]
      exact Bool.eq_false_iff.2 fun hq => h q hpieces hq hlead

/-- The tokens of a spacing are read. -/
theorem ofChars_chars (s : Spacing) (hs : ∀ t ∈ s.tokens, t.IsReadable) :
    ofChars s.chars = s.tokens := by
  obtain ⟨lead, pieces, hlead, hbehind, hapart⟩ := s
  induction pieces generalizing lead with
  | nil =>
    rw [chars, ofChars_blanks_append hlead]
    exact ofChars_nil
  | cons p ps ih =>
    obtain ⟨hp, hps⟩ := List.forall_mem_cons.1 hs
    obtain ⟨hblank, hbehind⟩ := List.forall_mem_cons.1 hbehind
    obtain ⟨hnext, hapart⟩ := List.isChain_cons.1 hapart
    have hrest := isWordChar_of_mem_head?_chars (s := ⟨p.2, ps, hblank, hbehind, hapart⟩) hps
    rw [chars, ofChars_blanks_append hlead, List.flatMap_cons, List.append_assoc]
    -- If the token is a word, it ends here: blanks follow, or a token that is no word.
    refine (ofChars_written_append hp fun hword => hrest fun q hq => hnext q hq hword).trans ?_
    exact congrArg (List.cons p.1) (ih p.2 hblank hbehind hapart hps)

/-- Without its blanks, a spacing is what is written for its tokens. -/
theorem filter_chars (s : Spacing) (hs : ∀ t ∈ s.tokens, t.IsReadable) :
    (s.chars.filter fun c => !Text.isBlank c) = s.tokens.flatMap fun t => t.written.toList := by
  have hblanks : ∀ {b : List Char}, (∀ c ∈ b, Text.isBlank c = true) →
      (b.filter fun c => !Text.isBlank c) = [] := by
    intro b hb
    exact List.filter_eq_nil_iff.2 fun c hc => by simp [hb c hc]
  rw [chars, List.filter_append, hblanks s.isBlank_lead, List.nil_append, List.filter_flatMap,
    tokens, List.flatMap_map]
  refine List.flatMap_congr fun p hp => ?_
  rw [List.filter_append, hblanks (s.isBlank_behind p hp), List.append_nil, List.filter_eq_self]
  intro c hc
  simp [(hs p.1 (List.mem_map_of_mem hp)).isBlank_eq_false hc]

end Spacing

/-- Code is a spacing of its tokens. -/
theorem exists_spacing (code : List Char) :
    ∃ s : Spacing, s.tokens = ofChars code ∧ s.chars = code := by
  induction code using token_induction with
  | nil => exact ⟨.empty, ofChars_nil.symm, rfl⟩
  | blank c r hc ih =>
    obtain ⟨s, htokens, hchars⟩ := ih
    rw [ofChars_blank hc]
    exact ⟨s.blank c hc, htokens, congrArg (List.cons c) hchars⟩
  | token t r ht hr ih =>
    obtain ⟨s, htokens, hchars⟩ := ih
    have hread : ∀ t ∈ s.tokens, t.IsReadable := htokens ▸ isReadable_of_mem_ofChars r
    have hapart : t.isWord = true → ∀ q ∈ s.pieces.head?, q.1.isWord = true → s.lead ≠ [] := by
      intro hword q hq hqword hlead
      obtain ⟨d, hd, hdword⟩ := Spacing.exists_head?_chars hread hlead hq
      have hstop := hr hword d (hchars ▸ hd)
      rw [hdword, hqword] at hstop
      cases hstop
    refine ⟨.cons t s hapart, ?_, ?_⟩
    · rw [ofChars_written_append ht hr, ← htokens]
      rfl
    · rw [Spacing.chars_cons, hchars]

/-! ### Cuts -/

/-- The first character is part of a word. -/
def StartsWord (s : List Char) : Prop :=
  ∃ c ∈ s.head?, isWordChar c = true

/-- The last character is part of a word. -/
def EndsWord (s : List Char) : Prop :=
  ∃ c ∈ s.getLast?, isWordChar c = true

theorem EndsWord.append_left {s : List Char} (h : EndsWord s) (r : List Char) :
    EndsWord (r ++ s) := by
  obtain ⟨c, hc, hword⟩ := h
  refine ⟨c, ?_, hword⟩
  rw [List.getLast?_append, hc]
  rfl

theorem endsWord_of_forall_mem {w : List Char} (hne : w ≠ [])
    (hw : ∀ c ∈ w, isWordChar c = true) : EndsWord w :=
  ⟨w.getLast hne, List.getLast?_eq_some_getLast hne, hw _ (List.getLast_mem hne)⟩

/-- Code that is cut between words is read part by part. -/
theorem ofChars_append {a b : List Char} (h : ¬ (EndsWord a ∧ StartsWord b)) :
    ofChars (a ++ b) = ofChars a ++ ofChars b := by
  induction a using token_induction with
  | nil => rw [ofChars_nil]; rfl
  | blank c r hc ih =>
    have hr : ¬ (EndsWord r ∧ StartsWord b) := fun hcut => h ⟨hcut.1.append_left [c], hcut.2⟩
    rw [List.cons_append, ofChars_blank hc, ofChars_blank hc, ih hr]
  | token t r ht hr ih =>
    have hr' : ¬ (EndsWord r ∧ StartsWord b) := fun hcut => h ⟨hcut.1.append_left _, hcut.2⟩
    -- A word that ends where the cut is does not go on behind it.
    have hstop : t.isWord = true → ∀ c ∈ (r ++ b).head?, isWordChar c = false := by
      intro hword c hc
      cases r with
      | cons d r => exact hr hword c hc
      | nil =>
        rw [List.append_nil] at h
        have hends := endsWord_of_forall_mem ht.written_ne_nil fun c => ht.isWordChar hword
        exact Bool.eq_false_iff.2 fun htrue => h ⟨hends, c, hc, htrue⟩
    rw [List.append_assoc, ofChars_written_append ht hstop, ofChars_written_append ht hr, ih hr']
    rfl

/-- The word at a cut: its part from the cut on, and what stands behind it. -/
theorem StartsWord.exists_eq_append {b : List Char} (h : StartsWord b) :
    ∃ v rest, b = v ++ rest ∧ v ≠ [] ∧ (∀ c ∈ v, isWordChar c = true) ∧
      ∀ c ∈ rest.head?, isWordChar c = false := by
  refine ⟨b.takeWhile isWordChar, b.dropWhile isWordChar, List.takeWhile_append_dropWhile.symm,
    ?_, List.all_eq_true.1 List.all_takeWhile, ?_⟩
  · obtain ⟨c, hc, hword⟩ := h
    obtain ⟨bs, rfl⟩ := List.head?_eq_some_iff.1 hc
    rw [List.takeWhile_cons_of_pos hword]
    exact List.cons_ne_nil _ _
  · intro c hc
    have hnot := List.head?_dropWhile_not isWordChar b
    rw [hc] at hnot
    exact hnot

/-- The word at a cut: what stands in front of it, and its part up to the cut. -/
theorem EndsWord.exists_eq_append {a : List Char} (h : EndsWord a) :
    ∃ front u, a = front ++ u ∧ ¬ EndsWord front ∧ u ≠ [] ∧ ∀ c ∈ u, isWordChar c = true := by
  have hreverse : StartsWord a.reverse := by rwa [StartsWord, List.head?_reverse]
  obtain ⟨u, front, heq, hu, huword, hfront⟩ := hreverse.exists_eq_append
  refine ⟨front.reverse, u.reverse, ?_, ?_, mt List.reverse_eq_nil_iff.1 hu, fun c hc =>
    huword c (List.mem_reverse.1 hc)⟩
  · rw [← List.reverse_append, ← heq, List.reverse_reverse]
  · rintro ⟨c, hc, hword⟩
    rw [List.getLast?_reverse] at hc
    exact absurd hword (Bool.eq_false_iff.1 (hfront c hc))

/-- Code that is cut through a word has one token more in its parts. -/
theorem length_ofChars_append {a b : List Char} (ha : EndsWord a) (hb : StartsWord b) :
    (ofChars (a ++ b)).length + 1 = (ofChars a).length + (ofChars b).length := by
  obtain ⟨front, u, rfl, hfront, hu, huword⟩ := ha.exists_eq_append
  obtain ⟨v, rest, rfl, hv, hvword, hrest⟩ := hb.exists_eq_append
  have hfrontof (r : List Char) : ofChars (front ++ r) = ofChars front ++ ofChars r :=
    ofChars_append fun hcut => hfront hcut.1
  have huv : ofChars (u ++ (v ++ rest)) = ofWord (String.ofList (u ++ v)) :: ofChars rest := by
    rw [← List.append_assoc, ofChars_word_append (List.append_ne_nil_of_left_ne_nil hu v)
      (List.forall_mem_append.2 ⟨huword, hvword⟩) hrest]
  have hlone : ofChars u = [ofWord (String.ofList u)] := by
    have happend := ofChars_word_append (r := []) hu huword nofun
    rwa [List.append_nil, ofChars_nil] at happend
  rw [List.append_assoc, hfrontof, hfrontof, huv, hlone, ofChars_word_append hv hvword hrest]
  simp only [List.length_append, List.length_cons, List.length_nil]
  omega

/-! ### The result -/

/-- **Code is read up to blanks.** Code has some tokens exactly if they are readable and the code is
a spacing of them. So without its blanks it is what is written for its tokens, one after the other,
and it can be read in two parts exactly if no word is cut. -/
theorem ofCode_eq_iff_exists_spacing :
    (∀ code tokens, ofCode code = tokens ↔
      (∀ t ∈ tokens, t.IsReadable) ∧ ∃ s : Spacing, s.tokens = tokens ∧ s.chars = code.toList) ∧
    (∀ code, ((ofCode code).flatMap fun t => t.written.toList) =
      code.toList.filter fun c => !Text.isBlank c) ∧
    ∀ a b, ofCode (a ++ b) = ofCode a ++ ofCode b ↔
      ¬ (EndsWord a.toList ∧ StartsWord b.toList) := by
  refine ⟨fun code tokens => ⟨?_, ?_⟩, fun code => ?_, fun a b => ⟨?_, fun h => ?_⟩⟩
  · rintro rfl
    exact ⟨isReadable_of_mem_ofChars code.toList, exists_spacing code.toList⟩
  · rintro ⟨hread, s, rfl, hchars⟩
    rw [ofCode, ← hchars, s.ofChars_chars hread]
  · obtain ⟨s, htokens, hchars⟩ := exists_spacing code.toList
    have hread : ∀ t ∈ s.tokens, t.IsReadable := htokens ▸ isReadable_of_mem_ofChars _
    rw [ofCode, ← htokens, ← s.filter_chars hread, hchars]
  · rintro h ⟨ha, hb⟩
    have hlength := length_ofChars_append ha hb
    rw [← String.toList_append] at hlength
    have heq := congrArg List.length h
    rw [List.length_append] at heq
    simp only [ofCode] at heq
    omega
  · rw [ofCode, String.toList_append, ofChars_append h]
    rfl

end Stencil.Token
