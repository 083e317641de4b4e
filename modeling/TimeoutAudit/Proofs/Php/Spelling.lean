import TimeoutAudit.Proofs.Php.DoubleQuoted
import TimeoutAudit.Proofs.Text.Lossy

/-!
# The spellings of a text between double quotes

A character can be written as itself, by a letter behind a backslash, by its code point, or byte by
byte (`Literal.Spells`); a byte is then no character by itself, only with its neighbours.  However
the characters of a text are spelled, what the body denotes are the bytes of the text
(`Literal.denotes_spelled`), and so it is read as the text
(`Literal.unescapeDouble_spelled`).
-/

set_option autoImplicit false

namespace TimeoutAudit.Php.Literal

/-- The spellings of a byte: two hexadecimal digits, or three octal ones. -/
inductive SpellsByte : UInt8 → List Char → Prop where
  | hexadecimal {byte : UInt8} {digits : List Char} (two : digits.length = 2)
      (numeral : Numeral 16 digits byte.toNat) : SpellsByte byte ('\\' :: 'x' :: digits)
  | octal {byte : UInt8} {digits : List Char} (three : digits.length = 3)
      (numeral : Numeral 8 digits byte.toNat) : SpellsByte byte ('\\' :: digits)

/-- The spellings of a character between double quotes. -/
inductive Spells : Char → List Char → Prop where
  | itself {c : Char} (plain : c ≠ '\\') : Spells c [c]
  | letter {letter c : Char} (stands : LetterEscape letter c) : Spells c ['\\', letter]
  /-- Every byte of the encoding by itself. -/
  | bytes {c : Char} {spellings : List (List Char)}
      (each : List.Forall₂ SpellsByte (String.utf8EncodeChar c) spellings) :
      Spells c spellings.flatten
  | point {c : Char} {digits : List Char} (numeral : Numeral 16 digits c.toNat)
      (nonempty : 1 ≤ digits.length) (bounded : digits.length ≤ 6) :
      Spells c ('\\' :: 'u' :: '\x7b' :: (digits ++ ['\x7d']))

/-! ## What spellings denote -/

section Denoted

variable {rest : List Char} {others : List UInt8} (after : Denotes rest others)

include after

/-- A spelling of a byte has as many digits as its numeral can have, so that what follows it,
even if it is a digit, is not drawn in. -/
theorem SpellsByte.denotes {byte : UInt8} {spelling : List Char}
    (spells : SpellsByte byte spelling) : Denotes (spelling ++ rest) (byte :: others) := by
  cases spells with
  | hexadecimal two numeral =>
      have leads : Leads 16 2 (_ ++ rest) _ byte.toNat rest :=
        ⟨rfl, numeral, List.ne_nil_of_length_pos (by omega), by omega, by omega⟩
      have escapes := Escape.hexadecimal leads
      rw [UInt8.ofNat_toNat] at escapes
      exact .escape escapes after
  | octal three numeral =>
      have leads : Leads 8 3 (_ ++ rest) _ byte.toNat rest :=
        ⟨rfl, numeral, List.ne_nil_of_length_pos (by omega), by omega, by omega⟩
      have escapes := Escape.octal leads
      rw [UInt8.ofNat_toNat] at escapes
      exact .escape escapes after

theorem denotes_spelledBytes {bytes : List UInt8} {spellings : List (List Char)}
    (each : List.Forall₂ SpellsByte bytes spellings) :
    Denotes (spellings.flatten ++ rest) (bytes ++ others) := by
  induction each with
  | nil => exact after
  | cons spells _ ih =>
      rw [List.flatten_cons, List.append_assoc]
      exact spells.denotes ih

/-- **Every spelling of a character denotes its bytes**, whatever follows. -/
theorem Spells.denotes {c : Char} {spelling : List Char} (spells : Spells c spelling) :
    Denotes (spelling ++ rest) (String.utf8EncodeChar c ++ others) := by
  cases spells with
  | itself plain => exact .char plain after
  | letter stands => exact .escape (.letter stands) after
  | bytes each => exact denotes_spelledBytes after each
  | point numeral nonempty bounded =>
      have denotes := Denotes.escape
        (Escape.point numeral (List.ne_nil_of_length_pos nonempty) bounded) after
      simpa using denotes

end Denoted

/-- However a text is spelled, its bytes are denoted. -/
theorem denotes_spelled {text : List Char} {spellings : List (List Char)}
    (spelled : List.Forall₂ Spells text spellings) :
    Denotes spellings.flatten (text.flatMap String.utf8EncodeChar) := by
  induction spelled with
  | nil => exact .nil
  | cons spells _ ih => exact spells.denotes ih

/-- **Every spelling of a text is read as the text.** -/
theorem unescapeDouble_spelled (text : String) (spellings : List (List Char))
    (spelled : List.Forall₂ Spells text.toList spellings) :
    unescapeDouble spellings.flatten = text := by
  rw [unescapeDouble, denotes_iff.mp (denotes_spelled spelled), ← Text.bytes_eq,
    Text.decodeLossy_bytes]

/-- A letter, two bytes in different bases with a digit right behind them, and a code point. -/
theorem unescapeDouble_spelled_mixed :
    unescapeDouble "\\t\\xC3\\2511\\u\x7b20aC\x7d".toList = "\té1€" := by
  have acute : Spells 'é' ["\\xC3".toList, "\\251".toList].flatten := by
    refine .bytes ?_
    rw [show String.utf8EncodeChar 'é' = [0xC3, 0xA9] from rfl]
    refine .cons (.hexadecimal rfl ⟨[12, 3], ?_, by decide, rfl⟩)
      (.cons (.octal rfl ⟨[2, 5, 1], ?_, by decide, rfl⟩) .nil)
    · exact .cons (by decide) (.cons (by decide) .nil)
    · exact .cons (by decide) (.cons (by decide) (.cons (by decide) .nil))
  have euro : Spells '€' ('\\' :: 'u' :: '\x7b' :: ("20aC".toList ++ ['\x7d'])) := by
    refine .point ⟨[2, 0, 10, 12], ?_, by decide, rfl⟩ (by decide) (by decide)
    exact .cons (by decide) (.cons (by decide) (.cons (by decide) (.cons (by decide) .nil)))
  exact unescapeDouble_spelled "\té1€" _
    (.cons (.letter .tab) (.cons acute (.cons (.itself (by decide)) (.cons euro .nil))))

end TimeoutAudit.Php.Literal
