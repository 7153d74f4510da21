import FullTextQuery.Text.Utf8
import Mathlib.Logic.Function.Basic

namespace FullTextQuery.Text

/-!
# Texts and their bytes

The bytes of a character are those that the library gives it, so that the library decodes
them, and texts with the same bytes are the same.
-/

/-- The code points of characters end with the planes of four bytes. -/
theorem toNat_lt
    (c : Char) :
    c.toNat < 0x110000 := by
  rcases c.valid with below | ⟨-, below⟩
  · exact Nat.lt_trans below (by decide)
  · exact below

/-- The bytes of a character as the library has them. -/
theorem utf8Bytes_eq
    (c : Char) :
    utf8Bytes c = String.utf8EncodeChar c := by
  have below : c.val.toNat < 0x110000 := toNat_lt c
  unfold utf8Bytes String.utf8EncodeChar Char.toNat
  generalize c.val.toNat = n at below
  dsimp only
  by_cases one : n < 0x80
  · rw [if_pos one, if_pos (Nat.le_of_lt_succ one)]
  · rw [if_neg one, if_neg (show ¬ n ≤ 0x7f by omega)]
    by_cases two : n < 0x800
    · rw [if_pos two, if_pos (Nat.le_of_lt_succ two), Nat.mod_eq_of_lt (b := 0x20) (by omega)]
      simp only [Nat.add_comm]
    · rw [if_neg two, if_neg (show ¬ n ≤ 0x7ff by omega)]
      by_cases three : n < 0x10000
      · rw [if_pos three, if_pos (Nat.le_of_lt_succ three), Nat.mod_eq_of_lt (b := 0x10) (by omega)]
        simp only [Nat.add_comm]
      · rw [if_neg three, if_neg (show ¬ n ≤ 0xffff by omega),
          Nat.mod_eq_of_lt (b := 0x08) (by omega)]
        simp only [Nat.add_comm]

/-- The bytes of a text as the library has them. -/
theorem toByteArray_encodeUtf8
    (cs : List Char) :
    (encodeUtf8 cs).toByteArray = cs.utf8Encode := by
  have bytes : utf8Bytes = String.utf8EncodeChar := funext utf8Bytes_eq
  rw [encodeUtf8, bytes]
  rfl

/-- Texts with the same bytes are the same. -/
theorem encodeUtf8_injective : Function.Injective encodeUtf8 := by
  intro first second same
  have sameBytes : first.utf8Encode = second.utf8Encode := by
    rw [← toByteArray_encodeUtf8, ← toByteArray_encodeUtf8, same]
  have sameChars := congrArg ByteArray.utf8Decode? sameBytes
  simpa using sameChars

end FullTextQuery.Text
