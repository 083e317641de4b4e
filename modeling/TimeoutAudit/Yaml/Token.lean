import TimeoutAudit.Yaml.Problem

/-!
# Tokens of a YAML text

A token is a mark of structure or a scalar.  Tokens that have no characters of
their own, such as the beginning of a block mapping, stand where the structure
changes.
-/

set_option autoImplicit false

namespace TimeoutAudit.Yaml

/-- How a scalar is written. -/
inductive Style where
  | plain
  | singleQuoted
  | doubleQuoted
  | literal
  | folded
deriving DecidableEq, Repr

/-- What a token is. -/
inductive TokenKind where
  | streamEnd
  | versionDirective (major minor : Nat)
  | tagDirective (handle expansion : List Char)
  | documentStart
  | documentEnd
  | blockSequenceStart
  | blockMappingStart
  | blockEnd
  | flowSequenceStart
  | flowSequenceEnd
  | flowMappingStart
  | flowMappingEnd
  | blockEntry
  | flowEntry
  | key
  | value
  | alias (name : List Char)
  | anchor (name : List Char)
  | tag (handle tail : List Char)
  | scalar (value : List Char) (style : Style)
deriving DecidableEq, Repr

/-- A token with the places of its beginning and its end. -/
structure Token where
  kind : TokenKind
  start : Mark
  stop : Mark
deriving DecidableEq, Repr

/-! ## Characters -/

def isBlank (c : Char) : Bool := c == ' ' || c == '\t'

def isBreak (c : Char) : Bool :=
  c == '\r' || c == '\n' || c == '\u0085' || c == '\u2028' || c == '\u2029'

/-- A blank, a line break or the end of the text. -/
def endsWord : Option Char → Bool
  | none => true
  | some c => isBlank c || isBreak c

/-- A line break or the end of the text. -/
def endsLine : Option Char → Bool
  | none => true
  | some c => isBreak c

/-- Characters of names: letters and digits of ASCII, hyphens and underscores. -/
def isNameChar (c : Char) : Bool := c.isAlphanum || c == '_' || c == '-'

/-- Characters that a YAML text may hold. -/
def isAllowed (c : Char) : Bool :=
  c == '\t' || c == '\n' || c == '\r' || (' ' ≤ c && c ≤ '~') || c == '\u0085'
    || ('\u00A0' ≤ c && c != '\uFFFE' && c != '\uFFFF')

/-! ## A text with a place in it -/

/-- What is left of a text, and the place where it starts. -/
structure Text where
  rest : List Char
  mark : Mark
deriving Repr

namespace Text

/-- The character a number of places ahead. -/
def ahead? (text : Text) (distance : Nat) : Option Char := (text.rest.drop distance).head?

/-- Whether the next character is the given one. -/
def isAt (text : Text) (c : Char) : Bool := text.rest.head? == some c

/-- Past a number of characters of the same line. -/
def skip (text : Text) (count : Nat) : Text :=
  ⟨text.rest.drop count, ⟨text.mark.index + count, text.mark.line, text.mark.column + count⟩⟩

/-- Past the characters of the same line that have a property. -/
def skipWhile (text : Text) (holds : Char → Bool) : Text :=
  text.skip (text.rest.takeWhile holds).length

/-- Past a line break. -/
def skipBreak (text : Text) : Text :=
  match text.rest with
  | '\r' :: '\n' :: rest => ⟨rest, ⟨text.mark.index + 2, text.mark.line + 1, 0⟩⟩
  | _ :: rest => ⟨rest, ⟨text.mark.index + 1, text.mark.line + 1, 0⟩⟩
  | [] => text

/-- The line break at the front, as it counts in a scalar. -/
def breakText (text : Text) : List Char :=
  match text.rest.head? with
  | none => []
  | some '\u2028' => ['\u2028']
  | some '\u2029' => ['\u2029']
  | some _ => ['\n']

/-- Past blanks and a comment, to the end of the line. -/
def skipToLineEnd (text : Text) : Text :=
  let unblanked := text.skipWhile isBlank
  if unblanked.isAt '#' then unblanked.skipWhile fun c => !isBreak c else unblanked

/-- Whether `---` or `...` stands alone at the start of a line here. -/
def atDocumentMark (text : Text) : Bool :=
  text.mark.column == 0
    && (text.rest.take 3 == ['-', '-', '-'] || text.rest.take 3 == ['.', '.', '.'])
    && endsWord (text.ahead? 3)

end Text

end TimeoutAudit.Yaml
