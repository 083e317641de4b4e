import TimeoutAudit.Text.Glyph

/-!
# The text that a string literal denotes

In single quotes only the backslash and the quote can be escaped.  In double
quotes an escape denotes bytes, and several escapes may be needed for one
character, so the body is first read as bytes (`denotedBytes`) and the bytes are
then shown as text.
-/

set_option autoImplicit false

namespace TimeoutAudit.Php.Literal

/-! ## Single quotes -/

/-- The text of a single-quoted body: `\\` and `\'` lose their backslash. -/
def unescapeSingle : List Char → List Char
  | [] => []
  | [last] => [last]
  | first :: second :: rest =>
    if first == '\\' && (second == '\\' || second == '\'') then second :: unescapeSingle rest
    else first :: unescapeSingle (second :: rest)

/-! ## Double quotes -/

/-- The value of a digit, up to base sixteen. -/
def digitValue? (c : Char) : Option Nat :=
  if '0' ≤ c && c ≤ '9' then some (c.toNat - '0'.toNat)
  else if 'a' ≤ c && c ≤ 'f' then some (c.toNat - 'a'.toNat + 10)
  else if 'A' ≤ c && c ≤ 'F' then some (c.toNat - 'A'.toNat + 10)
  else none

/-- Whether a character is a digit of the given base. -/
def isDigitOf (base : Nat) (c : Char) : Bool := (digitValue? c).any (· < base)

/-- The number written with digits of the given base. -/
def valueOf (base : Nat) (digits : List Char) : Nat :=
  digits.foldl (fun value c => value * base + (digitValue? c).getD 0) 0

/-- Digits at the front, at most `limit` of them, and the rest. -/
def takeDigits (base limit : Nat) (text : List Char) : List Char × List Char :=
  let digits := (text.take limit).takeWhile (isDigitOf base)
  (digits, text.drop digits.length)

/-- Escapes of one letter and the characters they denote. -/
def letterEscapes : List (Char × Char) :=
  [('n', '\n'), ('t', '\t'), ('r', '\r'), ('v', '\x0b'), ('e', '\x1b'), ('f', '\x0c'),
    ('\\', '\\'), ('$', '$'), ('"', '"')]

/-- Whether a number is a code point of a character. -/
def isScalar (value : Nat) : Bool := value < 0xD800 || (0xDFFF < value && value < 0x110000)

/-- The bytes of an escape, given what follows the backslash, and what is left. -/
def escape? : List Char → Option (List UInt8 × List Char)
  | [] => none
  | first :: rest =>
    match letterEscapes.lookup first with
    | some denoted => some (String.utf8EncodeChar denoted, rest)
    | none =>
      if first == 'x' then
        let (digits, after) := takeDigits 16 2 rest
        if digits.isEmpty then none else some ([(valueOf 16 digits).toUInt8], after)
      else if first == 'u' then
        match rest with
        | '{' :: inner =>
          let (digits, after) := takeDigits 16 6 inner
          match after with
          | '}' :: beyond =>
            if !digits.isEmpty && isScalar (valueOf 16 digits) then
              some (String.utf8EncodeChar (Char.ofNat (valueOf 16 digits)), beyond)
            else none
          | _ => none
        | _ => none
      else if isDigitOf 8 first then
        let (digits, after) := takeDigits 8 3 (first :: rest)
        some ([(valueOf 8 digits).toUInt8], after)
      else none

theorem takeDigits_length (base limit : Nat) (text : List Char) :
    (takeDigits base limit text).2.length ≤ text.length := by
  simp [takeDigits]

/-- An escape is never longer than what follows the backslash. -/
theorem escape?_length {text after : List Char} {bytes : List UInt8}
    (found : escape? text = some (bytes, after)) : after.length ≤ text.length := by
  match text with
  | [] => simp [escape?] at found
  | first :: rest =>
    simp only [escape?] at found
    split at found
    · simp only [Option.some.injEq, Prod.mk.injEq] at found
      simp [← found.2]
    · split at found
      · split at found
        · simp at found
        · simp only [Option.some.injEq, Prod.mk.injEq] at found
          have := takeDigits_length 16 2 rest
          simp only [← found.2, List.length_cons]
          omega
      · split at found
        · split at found
          · next inner =>
            have shorter := takeDigits_length 16 6 inner
            split at found
            · next beyond equation =>
              split at found
              · simp only [Option.some.injEq, Prod.mk.injEq] at found
                rw [equation] at shorter
                simp only [← found.2, List.length_cons] at *
                omega
              · simp at found
            · simp at found
          · simp at found
        · split at found
          · simp only [Option.some.injEq, Prod.mk.injEq] at found
            have := takeDigits_length 8 3 (first :: rest)
            simp only [← found.2]
            exact this
          · simp at found

/-- The bytes that a double-quoted body denotes.  A backslash that starts no
escape denotes itself. -/
def denotedBytes : List Char → List UInt8
  | [] => []
  | first :: rest =>
    if first == '\\' then
      match _found : escape? rest with
      | some (bytes, after) => bytes ++ denotedBytes after
      | none => String.utf8EncodeChar first ++ denotedBytes rest
    else String.utf8EncodeChar first ++ denotedBytes rest
termination_by text => text.length
decreasing_by
  · have := escape?_length _found
    simp only [List.length_cons]
    omega
  · simp
  · simp

/-- The text of a double-quoted body. -/
def unescapeDouble (body : List Char) : String := decodeLossy (denotedBytes body)

/-! ## Whole literals -/

/-- The text that a quoted literal denotes, quotation marks included in `literal`.
A `b` in front of the opening mark does not count. -/
def denoted? (literal : List Char) : Option String :=
  let quoted :=
    match literal with
    | 'b' :: rest => rest
    | 'B' :: rest => rest
    | other => other
  match quoted with
  | [] => none
  | quote :: rest =>
    if (quote == '\'' || quote == '"') && rest.getLast? == some quote then
      let inner := rest.dropLast
      some (if quote == '\'' then String.ofList (unescapeSingle inner) else unescapeDouble inner)
    else none

end TimeoutAudit.Php.Literal
