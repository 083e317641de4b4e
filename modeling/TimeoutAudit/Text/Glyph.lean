/-!
# Glyphs: bytes read as text, with nothing thrown away

A source file is a list of bytes that need not be UTF-8.  `decode` cuts it into
*glyphs*: a glyph is a character, or a longest run of bytes that begins a
character and is then broken off.  Two readings of a source are taken from the
same glyphs.  `display` puts U+FFFD in place of every broken run, so that any
source can be shown as text; `text?` gives a text only where no run is broken.
-/

set_option autoImplicit false

namespace TimeoutAudit

/-- One unit of a source text. -/
inductive Glyph where
  /-- A well-formed character. -/
  | char (value : Char)
  /-- Bytes that start a character and do not finish it, or that start none. -/
  | broken (bytes : List UInt8)
deriving DecidableEq, Repr, Inhabited

namespace Glyph

/-! ## UTF-8 -/

/-- A byte that continues a character. -/
def isContinuation (byte : UInt8) : Bool := 0x80 ≤ byte && byte ≤ 0xBF

/-- Six bits of a continuation byte. -/
def payload (byte : UInt8) : Nat := byte.toNat % 0x40

/-- The second bytes that may follow a first byte of a three-byte character. -/
def followsThree (first second : UInt8) : Bool :=
  if first == 0xE0 then 0xA0 ≤ second && second ≤ 0xBF
  else if first == 0xED then 0x80 ≤ second && second ≤ 0x9F
  else isContinuation second

/-- The second bytes that may follow a first byte of a four-byte character. -/
def followsFour (first second : UInt8) : Bool :=
  if first == 0xF0 then 0x90 ≤ second && second ≤ 0xBF
  else if first == 0xF4 then 0x80 ≤ second && second ≤ 0x8F
  else isContinuation second

/-- Cuts bytes into glyphs, from the left, each as long as it can be. -/
def decode : List UInt8 → List Glyph
  | [] => []
  | a :: afterA =>
    if a < 0x80 then .char (Char.ofNat a.toNat) :: decode afterA
    else if 0xC2 ≤ a && a ≤ 0xDF then
      match afterA with
      | [] => [.broken [a]]
      | b :: afterB =>
        if isContinuation b then
          .char (Char.ofNat (a.toNat % 0x20 * 0x40 + payload b)) :: decode afterB
        else .broken [a] :: decode (b :: afterB)
    else if 0xE0 ≤ a && a ≤ 0xEF then
      match afterA with
      | [] => [.broken [a]]
      | b :: afterB =>
        if followsThree a b then
          match afterB with
          | [] => [.broken [a, b]]
          | c :: afterC =>
            if isContinuation c then
              .char (Char.ofNat ((a.toNat % 0x10 * 0x40 + payload b) * 0x40 + payload c))
                :: decode afterC
            else .broken [a, b] :: decode (c :: afterC)
        else .broken [a] :: decode (b :: afterB)
    else if 0xF0 ≤ a && a ≤ 0xF4 then
      match afterA with
      | [] => [.broken [a]]
      | b :: afterB =>
        if followsFour a b then
          match afterB with
          | [] => [.broken [a, b]]
          | c :: afterC =>
            if isContinuation c then
              match afterC with
              | [] => [.broken [a, b, c]]
              | d :: afterD =>
                if isContinuation d then
                  .char (Char.ofNat
                    (((a.toNat % 0x08 * 0x40 + payload b) * 0x40 + payload c) * 0x40 + payload d))
                    :: decode afterD
                else .broken [a, b, c] :: decode (d :: afterD)
            else .broken [a, b] :: decode (c :: afterC)
        else .broken [a] :: decode (b :: afterB)
    else .broken [a] :: decode afterA

@[simp] theorem decode_nil : decode [] = [] := by rw [decode.eq_def]

/-- A byte below `0x80` is a character by itself. -/
theorem decode_ascii {byte : UInt8} (ascii : byte < 0x80) (rest : List UInt8) :
    decode (byte :: rest) = .char (Char.ofNat byte.toNat) :: decode rest := by
  rw [decode.eq_def]
  simp only [ascii, if_true]

/-- The glyphs of a text. -/
def ofString (text : String) : List Glyph := text.toList.map .char

/-! ## The two readings -/

/-- The character shown for a glyph: U+FFFD for a broken run. -/
def shown : Glyph → Char
  | .char value => value
  | .broken _ => '\uFFFD'

/-- The character of a glyph, when it is one. -/
def char? : Glyph → Option Char
  | .char value => some value
  | .broken _ => none

/-- Glyphs as text that can always be shown. -/
def display (glyphs : List Glyph) : String := String.ofList (glyphs.map shown)

/-- Glyphs as text, if every one of them is a character. -/
def text? (glyphs : List Glyph) : Option String := (glyphs.mapM char?).map String.ofList

/-- Whether a glyph is the given character. -/
def is (expected : Char) : Glyph → Bool
  | .char value => value == expected
  | .broken _ => false

/-- The number of line feeds among glyphs. -/
def lineFeeds (glyphs : List Glyph) : Nat := glyphs.countP (is '\n')

end Glyph

/-- Bytes as text, U+FFFD standing for every broken run of bytes. -/
def decodeLossy (bytes : List UInt8) : String := Glyph.display (Glyph.decode bytes)

end TimeoutAudit
