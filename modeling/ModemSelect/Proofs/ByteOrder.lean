import Mathlib.Tactic.SplitIfs

namespace ModemSelect

/-- The bytes that spell the text. -/
def utf8 (text : String) : List UInt8 := text.toUTF8.data.toList

/-- Numbers of four digits to the base 64 are in the order of their digits. -/
theorem digits_lt {v w : Nat} (less : v < w) (small : w < 2097152) :
    v / 262144 % 8 < w / 262144 % 8 ∨ v / 262144 % 8 = w / 262144 % 8 ∧
      (v / 4096 % 64 < w / 4096 % 64 ∨ v / 4096 % 64 = w / 4096 % 64 ∧
        (v / 64 % 64 < w / 64 % 64 ∨ v / 64 % 64 = w / 64 % 64 ∧ v % 64 < w % 64)) := by
  have first : v / 64 ≤ w / 64 := Nat.div_le_div_right (Nat.le_of_lt less)
  have second : v / 64 / 64 ≤ w / 64 / 64 := Nat.div_le_div_right first
  have third : v / 64 / 64 / 64 ≤ w / 64 / 64 / 64 := Nat.div_le_div_right second
  have digits (n : Nat) : n / 4096 = n / 64 / 64 ∧ n / 262144 = n / 64 / 64 / 64 := by omega
  rw [(digits v).1, (digits v).2, (digits w).1, (digits w).2]
  omega

/-- The bytes of the lesser of two characters come first, whatever follows: where the bytes are
more the first one is greater, and where they are as many they hold the digits of the character. -/
theorem utf8EncodeChar_append_lt {c d : Char} (h : c < d) (s t : List UInt8) :
    String.utf8EncodeChar c ++ s < String.utf8EncodeChar d ++ t := by
  have less : c.val.toNat < d.val.toNat := h
  have small : d.val.toNat < 1114112 := by
    rcases d.valid with low | high
    · exact Nat.lt_trans low (by decide)
    · exact high.2
  have order := digits_lt less (Nat.lt_trans small (by decide))
  have byte (n : Nat) (h : n < 256) : (UInt8.ofNat n).toNat = n := UInt8.toNat_ofNat_of_lt' h
  unfold String.utf8EncodeChar
  dsimp only
  split_ifs <;>
    simp (disch := omega) only [List.cons_append, List.cons_lt_cons_iff, UInt8.lt_iff_toNat_lt,
      ← UInt8.toNat_inj, byte] <;>
    omega

theorem flatMap_utf8EncodeChar_lt {cs ds : List Char} (h : cs < ds) :
    cs.flatMap String.utf8EncodeChar < ds.flatMap String.utf8EncodeChar := by
  replace h := List.lex_lt.mpr h
  induction h with
  | @nil d ds =>
    obtain ⟨byte, rest, bytes⟩ :=
      List.exists_cons_of_ne_nil (String.utf8EncodeChar_ne_nil (c := d))
    rw [List.flatMap_cons, bytes]
    exact List.nil_lt_cons ..
  | rel h => exact utf8EncodeChar_append_lt h _ _
  | cons h ih => exact List.append_left_lt ih

theorem utf8_eq_flatMap (text : String) :
    utf8 text = text.toList.flatMap String.utf8EncodeChar := by
  rw [utf8, String.toUTF8, ← String.utf8Encode_toList, List.utf8Encode,
    List.toList_data_toByteArray]

/-- The order of texts is the order of their bytes. -/
theorem utf8_lt_utf8 {a b : String} : utf8 a < utf8 b ↔ a < b := by
  have mono {a b : String} (h : a < b) : utf8 a < utf8 b := by
    rw [utf8_eq_flatMap, utf8_eq_flatMap]
    exact flatMap_utf8EncodeChar_lt h
  refine ⟨fun less => Decidable.byContradiction fun not_less => ?_, mono⟩
  by_cases greater : b < a
  · exact List.lt_asymm less (mono greater)
  · cases String.le_antisymm (String.not_lt.mp greater) (String.not_lt.mp not_less)
    exact List.lt_irrefl _ less

end ModemSelect
