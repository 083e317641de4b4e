import Mathlib.Data.List.TakeWhile
import Mathlib.Data.Nat.Digits.Defs
import Mathlib.Tactic.IntervalCases
import TimeoutAudit.Php.Literal
import TimeoutAudit.Proofs.Text.Glyph

/-!
# What a double-quoted body denotes

The escapes of a double-quoted body, as a relation between what is written and the bytes that it
denotes (`Literal.Denotes`).  A letter behind a backslash stands for one character, a numeral for a
byte or for a code point, and a numeral goes on for as long as it can (`Literal.Leads`).  A
backslash in front of anything else stays.

The reader of bodies follows the relation (`Literal.escape?_eq_some_iff`,
`Literal.denotes_iff`), so every body denotes bytes, and only one list of them.
-/

set_option autoImplicit false

namespace TimeoutAudit.Php.Literal

/-! ## Numerals -/

/-- A digit up to base sixteen, in either case, with its value. -/
def Digit (c : Char) (value : Nat) : Prop :=
  "0123456789abcdef".toList[value]? = some c ∨ "0123456789ABCDEF".toList[value]? = some c

instance (c : Char) (value : Nat) : Decidable (Digit c value) :=
  inferInstanceAs (Decidable (_ ∨ _))

/-- Digits of a base, the first of which weighs most, with the number that they write. -/
def Numeral (base : Nat) (digits : List Char) (number : Nat) : Prop :=
  ∃ values, List.Forall₂ Digit digits values ∧ (∀ value ∈ values, value < base) ∧
    number = Nat.ofDigits base values.reverse

/-- A text starts with a numeral of at most so many digits, which goes on for as long as it can. -/
structure Leads (base limit : Nat) (text digits : List Char) (number : Nat) (rest : List Char) :
    Prop where
  split : text = digits ++ rest
  numeral : Numeral base digits number
  nonempty : digits ≠ []
  bounded : digits.length ≤ limit
  longest : digits.length < limit → ∀ c ∈ rest.head?, ∀ value < base, ¬ Digit c value

/-- A range of digits can be gone through by code points. -/
theorem digit_of_range {first last c : Char} (offset : Nat)
    (each : ∀ point ≤ last.toNat, first.toNat ≤ point →
      Digit (Char.ofNat point) (point - first.toNat + offset))
    (range : first ≤ c ∧ c ≤ last) : Digit c (c.toNat - first.toNat + offset) := by
  have digit := each c.toNat range.2 range.1
  rwa [Char.ofNat_toNat] at digit

theorem digitValue?_eq_some_iff {c : Char} {value : Nat} :
    digitValue? c = some value ↔ Digit c value := by
  constructor
  · intro found
    simp only [digitValue?, Bool.and_eq_true, decide_eq_true_eq] at found
    split_ifs at found with decimal lower upper <;> obtain rfl := Option.some.inj found
    · exact digit_of_range 0 (by decide) decimal
    · exact digit_of_range 10 (by decide) lower
    · exact digit_of_range 10 (by decide) upper
  · intro digit
    have small : value < 16 := by
      rcases digit with found | found
      · exact (List.getElem?_eq_some_iff.mp found).1
      · exact (List.getElem?_eq_some_iff.mp found).1
    rcases digit with found | found <;>
      interval_cases value <;> obtain rfl := Option.some.inj found <;> decide

theorem isDigitOf_iff {base : Nat} {c : Char} :
    isDigitOf base c = true ↔ ∃ value < base, Digit c value := by
  simp only [isDigitOf, Option.any_eq_true, decide_eq_true_eq, digitValue?_eq_some_iff]
  exact exists_congr fun value => and_comm

/-- The value of a numeral, digit by digit from the left. -/
theorem valueOf_eq {base : Nat} {digits : List Char} {values : List Nat}
    (each : List.Forall₂ Digit digits values) :
    valueOf base digits = Nat.ofDigits base values.reverse := by
  have same : values = digits.map fun c => (digitValue? c).getD 0 := by
    induction each with
    | nil => rfl
    | cons digit _ ih => rw [List.map_cons, digitValue?_eq_some_iff.mpr digit, ← ih]; rfl
  have step : (fun number value => number * base + value) =
      fun number value : Nat => value + base * number := by
    funext number value
    rw [Nat.mul_comm, Nat.add_comm]
  rw [valueOf, Nat.ofDigits_eq_foldr, List.foldr_reverse, same, List.foldl_map]
  congr 1
  funext number c
  exact congrFun (congrFun step number) _

theorem numeral_iff {base : Nat} {digits : List Char} {number : Nat} :
    Numeral base digits number ↔
      (∀ c ∈ digits, isDigitOf base c = true) ∧ valueOf base digits = number := by
  constructor
  · rintro ⟨values, each, small, rfl⟩
    refine ⟨?_, valueOf_eq each⟩
    induction each with
    | nil => simp
    | @cons c value digits values digit each ih =>
        simp only [List.mem_cons, forall_eq_or_imp] at small ⊢
        exact ⟨isDigitOf_iff.mpr ⟨value, small.1, digit⟩, ih small.2⟩
  · rintro ⟨areDigits, rfl⟩
    have : ∃ values, List.Forall₂ Digit digits values ∧ ∀ value ∈ values, value < base := by
      induction digits with
      | nil => exact ⟨[], .nil, by simp⟩
      | cons c digits ih =>
          simp only [List.mem_cons, forall_eq_or_imp] at areDigits
          obtain ⟨value, small, digit⟩ := isDigitOf_iff.mp areDigits.1
          obtain ⟨values, each, smallToo⟩ := ih areDigits.2
          exact ⟨value :: values, .cons digit each, by simpa using ⟨small, smallToo⟩⟩
    obtain ⟨values, each, small⟩ := this
    exact ⟨values, each, small, valueOf_eq each⟩

/-! ## Numerals at the front -/

theorem takeWhile_take_eq_nil_iff {holds : Char → Bool} {count : Nat} {rest : List Char} :
    (rest.take count).takeWhile holds = [] ↔ (0 < count → ∀ c ∈ rest.head?, holds c = false) := by
  cases count with
  | zero => simp
  | succ count =>
      cases rest with
      | nil => simp
      | cons c rest => simp [List.takeWhile_cons]

/-- Digits that fit are all taken, and then nothing more if the numeral has come to its end. -/
theorem takeWhile_take_append {holds : Char → Bool} {limit : Nat} {digits rest : List Char}
    (each : ∀ c ∈ digits, holds c = true) (bounded : digits.length ≤ limit) :
    ((digits ++ rest).take limit).takeWhile holds = digits ↔
      (digits.length < limit → ∀ c ∈ rest.head?, holds c = false) := by
  rw [List.take_append, List.take_of_length_le bounded, List.takeWhile_append_of_pos each,
    List.append_right_eq_self, takeWhile_take_eq_nil_iff, Nat.sub_pos_iff_lt]

theorem isDigitOf_eq_false_iff {base : Nat} {c : Char} :
    isDigitOf base c = false ↔ ∀ value < base, ¬ Digit c value := by
  rw [Bool.eq_false_iff, ne_eq, isDigitOf_iff]
  simp

/-- **The digits that are taken are those of the numeral at the front.** -/
theorem leads_iff {base limit : Nat} {text digits rest : List Char} {number : Nat} :
    Leads base limit text digits number rest ↔
      takeDigits base limit text = (digits, rest) ∧ digits ≠ [] ∧ valueOf base digits = number := by
  constructor
  · rintro ⟨rfl, numeral, nonempty, bounded, longest⟩
    obtain ⟨areDigits, value⟩ := numeral_iff.mp numeral
    simp only [← isDigitOf_eq_false_iff] at longest
    have taken := (takeWhile_take_append areDigits bounded).mpr longest
    refine ⟨?_, nonempty, value⟩
    simp only [takeDigits, taken, List.drop_left]
  · rintro ⟨taken, nonempty, value⟩
    simp only [takeDigits, Prod.mk.injEq] at taken
    obtain ⟨front, behind⟩ := taken
    rw [front] at behind
    have isPrefix : digits <+: text.take limit := front ▸ List.takeWhile_prefix _
    have split : text = digits ++ rest := by
      rw [← behind]
      exact List.prefix_iff_eq_append.mp (isPrefix.trans (List.take_prefix _ _)) |>.symm
    have areDigits : ∀ c ∈ digits, isDigitOf base c = true := fun c member =>
      List.mem_takeWhile_imp (front ▸ member)
    have bounded : digits.length ≤ limit :=
      isPrefix.length_le.trans (List.length_take_le limit text)
    rw [split, takeWhile_take_append areDigits bounded] at front
    simp only [isDigitOf_eq_false_iff] at front
    exact ⟨split, numeral_iff.mpr ⟨areDigits, value⟩, nonempty, bounded, front⟩

/-! ## Escapes -/

/-- Escapes of one letter, with the characters that they denote. -/
inductive LetterEscape : Char → Char → Prop where
  | lineFeed : LetterEscape 'n' '\n'
  | tab : LetterEscape 't' '\t'
  | carriageReturn : LetterEscape 'r' '\r'
  | verticalTab : LetterEscape 'v' '\x0b'
  | escape : LetterEscape 'e' '\x1b'
  | formFeed : LetterEscape 'f' '\x0c'
  | backslash : LetterEscape '\\' '\\'
  | dollar : LetterEscape '$' '$'
  | quote : LetterEscape '"' '"'

/-- What follows a backslash is an escape of some bytes, and a rest.  Hexadecimal and octal numerals
denote one byte, the latter modulo 256. -/
inductive Escape : List Char → List UInt8 → List Char → Prop where
  | letter {letter c : Char} {rest : List Char} (stands : LetterEscape letter c) :
      Escape (letter :: rest) (String.utf8EncodeChar c) rest
  | hexadecimal {text digits rest : List Char} {number : Nat}
      (leads : Leads 16 2 text digits number rest) :
      Escape ('x' :: text) [UInt8.ofNat number] rest
  | octal {text digits rest : List Char} {number : Nat}
      (leads : Leads 8 3 text digits number rest) : Escape text [UInt8.ofNat number] rest
  | point {digits rest : List Char} {c : Char} (numeral : Numeral 16 digits c.toNat)
      (nonempty : digits ≠ []) (bounded : digits.length ≤ 6) :
      Escape ('u' :: '\x7b' :: (digits ++ '\x7d' :: rest)) (String.utf8EncodeChar c) rest

/-- The bytes that a double-quoted body denotes. -/
inductive Denotes : List Char → List UInt8 → Prop where
  | nil : Denotes [] []
  | char {c : Char} {rest : List Char} {bytes : List UInt8} (plain : c ≠ '\\')
      (others : Denotes rest bytes) : Denotes (c :: rest) (String.utf8EncodeChar c ++ bytes)
  | escape {text rest : List Char} {first bytes : List UInt8} (escapes : Escape text first rest)
      (others : Denotes rest bytes) : Denotes ('\\' :: text) (first ++ bytes)
  /-- A backslash that starts no escape stays. -/
  | backslash {text : List Char} {bytes : List UInt8}
      (stays : ∀ first rest, ¬ Escape text first rest) (others : Denotes text bytes) :
      Denotes ('\\' :: text) (0x5C :: bytes)

/-! ## Reading escapes -/

theorem lookup_letterEscapes_iff {letter c : Char} :
    letterEscapes.lookup letter = some c ↔ LetterEscape letter c := by
  constructor
  · intro found
    have member : (letter, c) ∈ letterEscapes := by
      obtain ⟨front, back, split, -⟩ := List.lookup_eq_some_iff.mp found
      rw [split]
      exact List.mem_append_right _ List.mem_cons_self
    simp only [letterEscapes, List.mem_cons, Prod.mk.injEq, List.not_mem_nil, or_false] at member
    rcases member with ⟨rfl, rfl⟩ | ⟨rfl, rfl⟩ | ⟨rfl, rfl⟩ | ⟨rfl, rfl⟩ | ⟨rfl, rfl⟩ | ⟨rfl, rfl⟩ |
      ⟨rfl, rfl⟩ | ⟨rfl, rfl⟩ | ⟨rfl, rfl⟩
    all_goals constructor
  · intro stands
    cases stands <;> rfl

/-- An octal digit starts no other escape. -/
theorem only_octal {first : Char} (isDigit : isDigitOf 8 first = true) :
    letterEscapes.lookup first = none ∧ first ≠ 'x' ∧ first ≠ 'u' := by
  refine ⟨?_, ?_, ?_⟩
  · rw [Option.eq_none_iff_forall_ne_some]
    intro c found
    have := lookup_letterEscapes_iff.mp found
    cases this <;> exact absurd isDigit (by decide)
  · rintro rfl
    exact absurd isDigit (by decide)
  · rintro rfl
    exact absurd isDigit (by decide)

theorem isScalar_iff {number : Nat} : isScalar number = true ↔ number.isValidChar := by
  simp [isScalar, Nat.isValidChar]

section Branches

variable {behind rest : List Char} {bytes : List UInt8}

theorem escape?_x_iff : escape? ('x' :: behind) = some (bytes, rest) ↔
    ∃ digits number, Leads 16 2 behind digits number rest ∧ bytes = [UInt8.ofNat number] := by
  have reads : escape? ('x' :: behind) = if (takeDigits 16 2 behind).1.isEmpty then none else
      some ([(valueOf 16 (takeDigits 16 2 behind).1).toUInt8], (takeDigits 16 2 behind).2) := rfl
  rw [reads]
  constructor
  · intro found
    split at found
    · cases found
    · next nonempty =>
        cases found
        rw [List.isEmpty_iff] at nonempty
        exact ⟨_, _, leads_iff.mpr ⟨rfl, nonempty, rfl⟩, rfl⟩
  · rintro ⟨digits, number, leads, rfl⟩
    obtain ⟨taken, nonempty, rfl⟩ := leads_iff.mp leads
    rw [taken, if_neg (by rwa [List.isEmpty_iff])]

theorem escape?_octal_iff {first : Char} (isDigit : isDigitOf 8 first = true) :
    escape? (first :: behind) = some (bytes, rest) ↔
      ∃ digits number, Leads 8 3 (first :: behind) digits number rest ∧
        bytes = [UInt8.ofNat number] := by
  obtain ⟨noLetter, notX, notU⟩ := only_octal isDigit
  have reads : escape? (first :: behind) =
      some ([(valueOf 8 (takeDigits 8 3 (first :: behind)).1).toUInt8],
        (takeDigits 8 3 (first :: behind)).2) := by
    simp only [escape?, noLetter, beq_iff_eq, notX, notU, isDigit, if_false, if_true]
  rw [reads]
  constructor
  · intro found
    cases found
    have nonempty : (takeDigits 8 3 (first :: behind)).1 ≠ [] := by
      simp [takeDigits, isDigit]
    exact ⟨_, _, leads_iff.mpr ⟨rfl, nonempty, rfl⟩, rfl⟩
  · rintro ⟨digits, number, leads, rfl⟩
    obtain ⟨taken, -, rfl⟩ := leads_iff.mp leads
    rw [taken]

/-- A numeral in braces ends at the closing one, which is no digit. -/
theorem leads_braced_iff {inner digits : List Char} {number : Nat} :
    Leads 16 6 inner digits number ('\x7d' :: rest) ↔
      inner = digits ++ '\x7d' :: rest ∧ Numeral 16 digits number ∧ digits ≠ [] ∧
        digits.length ≤ 6 := by
  constructor
  · intro leads
    exact ⟨leads.split, leads.numeral, leads.nonempty, leads.bounded⟩
  · rintro ⟨split, numeral, nonempty, bounded⟩
    refine ⟨split, numeral, nonempty, bounded, fun _ c ahead => ?_⟩
    obtain rfl := Option.some.inj ahead
    decide

theorem escape?_u_iff : escape? ('u' :: behind) = some (bytes, rest) ↔
    ∃ digits c, behind = '\x7b' :: (digits ++ '\x7d' :: rest) ∧ Numeral 16 digits c.toNat ∧
      digits ≠ [] ∧ digits.length ≤ 6 ∧ bytes = String.utf8EncodeChar c := by
  constructor
  · intro found
    simp only [escape?, show letterEscapes.lookup 'u' = none from rfl,
      show ('u' == 'x') = false from rfl, Bool.false_eq_true, if_false, beq_self_eq_true,
      if_true] at found
    split at found
    · next inner =>
        split at found
        · next beyond closes =>
            split at found
            · next valid =>
                cases found
                simp only [Bool.and_eq_true, Bool.not_eq_true', isScalar_iff] at valid
                obtain ⟨split, numeral, nonempty, bounded⟩ := leads_braced_iff.mp
                  (leads_iff.mpr ⟨Prod.ext rfl closes, by simpa using valid.1, rfl⟩)
                refine ⟨_, _, congrArg _ split, ?_, nonempty, bounded, rfl⟩
                have point := Glyph.val_ofNat valid.2
                rwa [Char.toNat, point]
            · cases found
        · cases found
    · cases found
  · rintro ⟨digits, c, rfl, numeral, nonempty, bounded, rfl⟩
    have leads : Leads 16 6 (digits ++ '\x7d' :: rest) digits c.toNat ('\x7d' :: rest) :=
      leads_braced_iff.mpr ⟨rfl, numeral, nonempty, bounded⟩
    obtain ⟨taken, -, value⟩ := leads_iff.mp leads
    have scalar : isScalar c.toNat = true := isScalar_iff.mpr c.valid
    simp only [escape?, show letterEscapes.lookup 'u' = none from rfl,
      show ('u' == 'x') = false from rfl, Bool.false_eq_true, if_false, beq_self_eq_true,
      if_true, taken, value, scalar, Char.ofNat_toNat]
    simp [nonempty]

end Branches

/-- **The reader of escapes follows their meaning.** -/
theorem escape?_eq_some_iff {text rest : List Char} {bytes : List UInt8} :
    escape? text = some (bytes, rest) ↔ Escape text bytes rest := by
  constructor
  · intro found
    match text with
    | [] => simp [escape?] at found
    | first :: behind =>
        cases letter : letterEscapes.lookup first with
        | some c =>
            simp only [escape?, letter] at found
            cases found
            exact .letter (lookup_letterEscapes_iff.mp letter)
        | none =>
            by_cases isX : first = 'x'
            · subst isX
              obtain ⟨digits, number, leads, rfl⟩ := escape?_x_iff.mp found
              exact .hexadecimal leads
            by_cases isU : first = 'u'
            · subst isU
              obtain ⟨digits, c, rfl, numeral, nonempty, bounded, rfl⟩ := escape?_u_iff.mp found
              exact .point numeral nonempty bounded
            cases isDigit : isDigitOf 8 first with
            | true =>
                obtain ⟨digits, number, leads, rfl⟩ := (escape?_octal_iff isDigit).mp found
                exact .octal leads
            | false => simp [escape?, letter, isX, isU, isDigit] at found
  · intro escapes
    cases escapes with
    | letter stands => simp only [escape?, lookup_letterEscapes_iff.mpr stands]
    | hexadecimal leads => exact escape?_x_iff.mpr ⟨_, _, leads, rfl⟩
    | octal leads =>
        obtain ⟨first, others, rfl⟩ := List.exists_cons_of_ne_nil leads.nonempty
        obtain rfl := leads.split
        have isDigit := (numeral_iff.mp leads.numeral).1 first List.mem_cons_self
        exact (escape?_octal_iff isDigit).mpr ⟨_, _, leads, rfl⟩
    | point numeral nonempty bounded =>
        exact escape?_u_iff.mpr ⟨_, _, rfl, numeral, nonempty, bounded, rfl⟩

/-! ## Reading bodies -/

section Bodies

variable {c : Char} {text rest : List Char} {bytes : List UInt8}

theorem denotedBytes_char (plain : c ≠ '\\') :
    denotedBytes (c :: rest) = String.utf8EncodeChar c ++ denotedBytes rest := by
  rw [denotedBytes, if_neg (by simpa using plain)]

theorem denotedBytes_escape (escapes : escape? text = some (bytes, rest)) :
    denotedBytes ('\\' :: text) = bytes ++ denotedBytes rest := by
  rw [denotedBytes, if_pos (beq_self_eq_true '\\')]
  split
  · next found =>
      rw [escapes] at found
      cases found
      rfl
  · next missing =>
      rw [escapes] at missing
      cases missing

theorem denotedBytes_backslash (stays : escape? text = none) :
    denotedBytes ('\\' :: text) = 0x5C :: denotedBytes text := by
  rw [denotedBytes, if_pos (beq_self_eq_true '\\')]
  split
  · next found =>
      rw [stays] at found
      cases found
  · rfl

theorem escape?_eq_none_iff : escape? text = none ↔ ∀ first rest, ¬ Escape text first rest := by
  simp only [← escape?_eq_some_iff, Option.eq_none_iff_forall_ne_some, ne_eq, Prod.forall]

end Bodies

/-- **The reader of bodies follows their meaning**, so a body denotes one list of bytes. -/
theorem denotes_iff {body : List Char} {bytes : List UInt8} :
    Denotes body bytes ↔ denotedBytes body = bytes := by
  constructor
  · intro denotes
    induction denotes with
    | nil => rw [denotedBytes]
    | char plain others ih => rw [denotedBytes_char plain, ih]
    | escape escapes others ih => rw [denotedBytes_escape (escape?_eq_some_iff.mpr escapes), ih]
    | backslash stays others ih => rw [denotedBytes_backslash (escape?_eq_none_iff.mpr stays), ih]
  · rintro rfl
    induction body using denotedBytes.induct with
    | case1 =>
        rw [denotedBytes]
        exact .nil
    | case2 first text isBackslash bytes rest found ih =>
        obtain rfl : first = '\\' := beq_iff_eq.mp isBackslash
        rw [denotedBytes_escape found]
        exact .escape (escape?_eq_some_iff.mp found) ih
    | case3 first text isBackslash stays ih =>
        obtain rfl : first = '\\' := beq_iff_eq.mp isBackslash
        rw [denotedBytes_backslash stays]
        exact .backslash (escape?_eq_none_iff.mp stays) ih
    | case4 first rest plain ih =>
        have plain : first ≠ '\\' := fun same => plain (beq_iff_eq.mpr same)
        rw [denotedBytes_char plain]
        exact .char plain ih

end TimeoutAudit.Php.Literal
