/-!
# Blank characters

A character is blank when it has the White_Space property of Unicode.
-/

set_option autoImplicit false

namespace TimeoutAudit.Text

/-- The White_Space property. -/
def isBlank (c : Char) : Bool :=
  ('\t' ≤ c && c ≤ '\r') || c == ' ' || c == '\u0085' || c == '\u00A0' || c == '\u1680'
    || ('\u2000' ≤ c && c ≤ '\u200A') || c == '\u2028' || c == '\u2029' || c == '\u202F'
    || c == '\u205F' || c == '\u3000'

/-- The text without blank characters in front. -/
def trimLeft (text : List Char) : List Char := text.dropWhile isBlank

/-- The text without blank characters at its end. -/
def trimRight (text : List Char) : List Char := (text.reverse.dropWhile isBlank).reverse

/-- The text without blank characters at both ends. -/
def trim (text : List Char) : List Char := trimRight (trimLeft text)

/-- Whether all of a text is blank. -/
def allBlank (text : List Char) : Bool := text.all isBlank

end TimeoutAudit.Text
