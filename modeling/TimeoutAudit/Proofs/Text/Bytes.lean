import Mathlib.Tactic.SplitIfs
import TimeoutAudit.OsText

/-!
# The bytes of a text

The bytes of a text are those of its characters, one after the other (`Text.bytes_eq`).  A byte
below `0x80` stands there for a character of its own and is no part of any other one
(`Text.count_utf8EncodeChar`).
-/

set_option autoImplicit false

namespace TimeoutAudit.Text

theorem bytes_eq (text : String) : bytes text = text.toList.flatMap String.utf8EncodeChar := by
  have encoded : text.toUTF8 = text.toList.utf8Encode := String.utf8Encode_toList.symm
  rw [bytes, encoded, List.utf8Encode, List.toList_data_toByteArray]

theorem bytes_append (first second : String) :
    bytes (first ++ second) = bytes first ++ bytes second := by
  simp only [bytes_eq, String.toList_append, List.flatMap_append]

/-- A byte below `0x80` is the whole of one character, and no part of any other. -/
theorem count_utf8EncodeChar {byte : UInt8} (ascii : byte < 0x80) (value : Char) :
    (String.utf8EncodeChar value).count byte = if value = Char.ofNat byte.toNat then 1 else 0 := by
  have small : byte.toNat < 0x80 := ascii
  have point : value = Char.ofNat byte.toNat ↔ value.val.toNat = byte.toNat := by
    have valid : byte.toNat.isValidChar := .inl (by omega)
    rw [Char.ext_iff, ← UInt32.toNat_inj, Char.ofNat, dif_pos valid]
    rfl
  simp only [String.utf8EncodeChar, point]
  generalize value.val.toNat = number
  split_ifs <;> simp [List.count_cons, ← UInt8.toNat_inj] <;> omega

end TimeoutAudit.Text
