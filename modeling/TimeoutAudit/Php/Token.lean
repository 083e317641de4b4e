import TimeoutAudit.Text.Glyph

/-!
# Tokens of PHP source

A token is a piece of source with its class, the blank glyphs before it and the
row on which it starts.  Comments, and the passages of plain text between `?>`
and the next opening tag, are *extra*: they may stand between any two tokens.
-/

set_option autoImplicit false

namespace TimeoutAudit.Php

/-- The class of a token. -/
inductive Lexeme where
  /-- Plain text before the first opening tag. -/
  | text
  /-- An opening tag. -/
  | tag
  /-- A closing tag, the plain text after it and the next opening tag. -/
  | passage
  | comment
  /-- An identifier or keyword, with its lower-case spelling. -/
  | word (folded : String)
  /-- An operator, a bracket or another mark. -/
  | symbol (spelling : String)
  | integer
  | float
  /-- A whole single-quoted string. -/
  | quoted
  /-- Literal text inside an interpolated string. -/
  | content
  /-- A whole string between `<<<'LABEL'` and its label. -/
  | nowdoc
  /-- The label that ends an interpolated `<<<` string. -/
  | closingLabel
  /-- A glyph that starts no token. -/
  | unknown
deriving DecidableEq, Repr, Inhabited

/-- A piece of source with its place. -/
structure Token where
  lexeme : Lexeme
  /-- The blank glyphs before the token. -/
  gap : List Glyph
  text : List Glyph
  /-- The number of line feeds before the token. -/
  row : Nat
deriving DecidableEq, Repr, Inhabited

namespace Token

/-- Comments and passages of plain text may stand between any two tokens. -/
def isExtra (token : Token) : Bool :=
  match token.lexeme with
  | .comment | .passage => true
  | _ => false

/-- Whether a token is the given symbol. -/
def isSymbol (token : Token) (spelling : String) : Bool := token.lexeme == .symbol spelling

/-- Whether a token is the given keyword, in any casing. -/
def isKeyword (token : Token) (keyword : String) : Bool := token.lexeme == .word keyword

/-- The row on which a token ends. -/
def endRow (token : Token) : Nat := token.row + Glyph.lineFeeds token.text

/-- The source of a token, with the gap before it. -/
def source (token : Token) : List Glyph := token.gap ++ token.text

/-- The source between the start of the first token and the end of the last. -/
def span : List Token → List Glyph
  | [] => []
  | first :: others => first.text ++ others.flatMap source

end Token

end TimeoutAudit.Php
