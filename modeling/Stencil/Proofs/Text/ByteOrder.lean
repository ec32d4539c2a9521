import Mathlib.Tactic.SplitIfs
import Stencil.Dictionary

/-!
# The order of texts and of their bytes

Texts compare by code point. Written in UTF-8 they compare in the same way byte by byte: a greater
character of the same number of bytes has a greater byte at the first place where the two differ,
since its bytes are the digits of its code point, the leading ones first; and a character of more
bytes is greater and has a greater first byte.

## Main definitions

* `Stencil.Text.bytes`: the bytes of a text.
* `Stencil.Text.IsIncreasing`: a way of writing numbers by bytes that keeps their order.

## Main results

* `Stencil.Text.IsIncreasing.digit`: one more digit keeps the order.
* `Stencil.Text.utf8EncodeChar_append_lt`: the bytes of a greater character are greater.
* `Stencil.Text.lt_iff_bytes_lt`: the order of texts is the order of their bytes.
-/

namespace Stencil.Text

/-- The bytes of a text in UTF-8. -/
def bytes (s : String) : List UInt8 :=
  s.toUTF8.data.toList

theorem bytes_eq_flatMap (s : String) : bytes s = s.toList.flatMap String.utf8EncodeChar := by
  rw [bytes, String.toUTF8_eq_toByteArray, ← String.utf8Encode_toList, List.utf8Encode,
    List.toList_data_toByteArray]

/-! ### Numbers written by bytes -/

/-- Of two numbers below the bound, the greater one is written by greater bytes, whatever stands
behind them. -/
def IsIncreasing (write : Nat → List UInt8) (bound : Nat) : Prop :=
  ∀ ⦃m n : Nat⦄, m < n → n < bound → ∀ xs ys, write m ++ xs < write n ++ ys

theorem ofNat_cons_lt {a b : Nat} (hab : a < b) (hb : b < 256) (xs ys : List UInt8) :
    UInt8.ofNat a :: xs < UInt8.ofNat b :: ys :=
  List.cons_lt_cons_iff.2 (.inl ((UInt8.ofNat_lt_iff_lt (Nat.lt_trans hab hb) hb).2 hab))

/-- A number as one byte, from some byte on. -/
theorem isIncreasing_ofNat (base bound : Nat) (h : bound + base ≤ 256) :
    IsIncreasing (fun n => [UInt8.ofNat (n % bound + base)]) bound := by
  intro m n hmn hn xs ys
  have hbyte : m % bound + base < n % bound + base := by
    rw [Nat.mod_eq_of_lt hn, Nat.mod_eq_of_lt (Nat.lt_trans hmn hn)]
    omega
  have hmod : n % bound < bound := Nat.mod_lt n (Nat.zero_lt_of_lt hn)
  exact ofNat_cons_lt hbyte (by omega) xs ys

/-- One more digit behind the leading ones, written as one of the last bytes of a character. -/
theorem IsIncreasing.digit {write : Nat → List UInt8} {bound : Nat} (h : IsIncreasing write bound) :
    IsIncreasing (fun n => write (n / 64) ++ [UInt8.ofNat (n % 64 + 128)]) (bound * 64) := by
  intro m n hmn hn xs ys
  simp only [List.append_assoc]
  rcases Nat.lt_or_eq_of_le (Nat.div_le_div_right (c := 64) (Nat.le_of_lt hmn)) with hlt | heq
  · exact h hlt (by omega) _ _
  · -- The leading digits are the same, so the last one is greater.
    rw [heq]
    exact List.append_left_lt (ofNat_cons_lt (by omega) (by omega) xs ys)

/-! ### The bytes of a character -/

/-- The bytes of a greater character are greater, whatever stands behind them. -/
theorem utf8EncodeChar_append_lt {c d : Char} (h : c < d) (xs ys : List UInt8) :
    String.utf8EncodeChar c ++ xs < String.utf8EncodeChar d ++ ys := by
  have hlt : c.val.toNat < d.val.toNat := h
  have hbound : d.val.toNat < 17 * 65536 := by
    rcases d.valid with hd | ⟨-, hd⟩ <;> omega
  have htwo := (isIncreasing_ofNat 192 32 (by decide)).digit
  have hthree := (isIncreasing_ofNat 224 16 (by decide)).digit.digit
  have hfour := (isIncreasing_ofNat 240 8 (by decide)).digit.digit.digit
  simp only [Nat.div_div_eq_div_mul, List.append_assoc] at htwo hthree hfour
  simp only [String.utf8EncodeChar]
  generalize c.val.toNat = m at hlt ⊢
  generalize d.val.toNat = n at hlt hbound ⊢
  -- Only a greater character can have more bytes, and then its first byte is greater.
  split_ifs
  all_goals try omega
  · exact ofNat_cons_lt hlt (by omega) xs ys
  · exact ofNat_cons_lt (by omega) (by omega) _ _
  · exact ofNat_cons_lt (by omega) (by omega) _ _
  · exact ofNat_cons_lt (by omega) (by omega) _ _
  · exact htwo hlt (by omega) xs ys
  · exact ofNat_cons_lt (by omega) (by omega) _ _
  · exact ofNat_cons_lt (by omega) (by omega) _ _
  · exact hthree hlt (by omega) xs ys
  · exact ofNat_cons_lt (by omega) (by omega) _ _
  · exact hfour hlt (by omega) xs ys

/-! ### The bytes of a text -/

theorem flatMap_utf8EncodeChar_lt {cs ds : List Char} (h : cs < ds) :
    cs.flatMap String.utf8EncodeChar < ds.flatMap String.utf8EncodeChar := by
  induction cs generalizing ds with
  | nil =>
    cases ds with
    | nil => exact absurd h (List.lt_irrefl [])
    | cons d ds =>
      rw [List.flatMap_nil, List.flatMap_cons]
      obtain ⟨b, bs, hb⟩ := List.exists_cons_of_ne_nil (String.utf8EncodeChar_ne_nil (c := d))
      rw [hb]
      exact List.nil_lt_cons b _
  | cons c cs ih =>
    cases ds with
    | nil => exact absurd h (List.not_lt_nil _)
    | cons d ds =>
      rw [List.flatMap_cons, List.flatMap_cons]
      rcases List.cons_lt_cons_iff.1 h with hcd | ⟨rfl, hcs⟩
      · exact utf8EncodeChar_append_lt hcd _ _
      · exact List.append_left_lt (ih hcs)

theorem bytes_lt_of_lt {s t : String} (h : s < t) : bytes s < bytes t := by
  rw [bytes_eq_flatMap, bytes_eq_flatMap]
  exact flatMap_utf8EncodeChar_lt (String.lt_iff.1 h)

/-- Texts compare as their bytes do. -/
theorem lt_iff_bytes_lt {s t : String} : s < t ↔ bytes s < bytes t := by
  refine ⟨bytes_lt_of_lt, fun h => ?_⟩
  rcases Dictionary.lt_or_eq_or_gt s t with hlt | rfl | hgt
  · exact hlt
  · exact absurd h (List.lt_irrefl _)
  · exact absurd h (List.lt_asymm (bytes_lt_of_lt hgt))

end Stencil.Text
