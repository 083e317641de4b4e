import TimeoutAudit.Php.Lexer
import TimeoutAudit.Php.Grammar.Statement

/-!
# Parsing a source file

Every source has a syntax tree.  A source that does not follow the grammar has a
tree that holds a fault, and `parse` refuses it with the row of the first one.
-/

set_option autoImplicit false

namespace TimeoutAudit.Php

/-- The tree of a source that could not be read: a program with one fault. -/
def faultyProgram (fault : Fault) (row : Nat) : Node :=
  .ofKind .program [.ofToken fault.kind ⟨.unknown, [], [], row⟩]

/-- Enough nesting for any file of so many tokens. -/
def nestingBound (tokenCount : Nat) : Nat := 8 * tokenCount + 8

/-- The syntax tree of a list of tokens. -/
def treeOfTokens (input : List Token) : Node :=
  match Reader.located (Grammar.program (Grammar.rulesWithin (nestingBound input.length))) input with
  | .error (.located fault row) => faultyProgram fault row
  | .error _ => faultyProgram .error 0
  | .ok reading =>
    match reading.rest, reading.forest.getLast? with
    | [], some root => root
    | first :: _, _ => faultyProgram .error first.row
    | [], none => faultyProgram .error 0

/-- The syntax tree of a source. -/
def tree (source : List UInt8) : Node := treeOfTokens (tokens (Glyph.decode source))

/-- A file that follows the grammar. -/
structure ParsedFile where
  path : String
  source : List UInt8
  tree : Node

namespace ParsedFile

/-- The source as text that can always be shown. -/
def text (file : ParsedFile) : String := decodeLossy file.source

end ParsedFile

/-- Why a file could not be parsed. -/
inductive ParseError where
  /-- The first fault, by its line. -/
  | syntaxAt (line : Nat)
deriving DecidableEq, Repr

namespace ParseError

/-- The wording of an error. -/
def message : ParseError → String
  | .syntaxAt line => "syntax error at line " ++ toString line

end ParseError

/-- The line on which a node starts, counted from one. -/
def lineOf (node : Node) : Nat := node.row + 1

/-- Parses a source that came from the given path. -/
def parse (path : String) (source : List UInt8) : Except ParseError ParsedFile :=
  let root := tree source
  if root.hasFault then
    .error (.syntaxAt (match root.fault? with
      | some fault => lineOf fault
      | none => 1))
  else .ok ⟨path, source, root⟩

end TimeoutAudit.Php
