import TimeoutAudit.Php.Reader

/-!
# Names, types and variables

A name is one word or several joined by backslashes.  A type is built from
names; an ampersand in front of a variable belongs to the variable and not to
the type before it.
-/

set_option autoImplicit false

namespace TimeoutAudit.Php

/-- The constructs that contain each other, and so are read through `Rules`. -/
inductive Goal where
  /-- An expression of operators that bind at least as tightly as `floor`.  With
  `holes`, a destructuring pattern may stand in place of a value. -/
  | expression (floor : Nat) (holes : Bool)
  | statement
deriving DecidableEq, Repr

/-- How each recursive construct is read. -/
abbrev Rules := Goal → Reader

namespace Grammar

open Reader

/-! ## Names -/

/-- Further words of a name, each after a backslash. -/
def segments : Reader :=
  itemsUntil (fun input => !(atSymbol "\\" input && (second? input).any isWord))
    (symbol "\\" >> word .name)

/-- `Name`, `Space\Name` or `\Space\Name`. -/
def name : Reader :=
  choose (atSymbol "\\") (node .qualifiedName (symbol "\\" >> word .name >> segments)) <|
    choose (fun input => atSymbol "\\" input || (second? input).any (·.isSymbol "\\"))
      (node .qualifiedName (word .name >> segments))
      (word .name)

/-! ## Types -/

/-- Whether an ampersand joins two types here. -/
def joinsTypes (input : List Token) : Bool :=
  atSymbol "|" input
    || (atSymbol "&" input && !((second? input).any fun after =>
      after.isSymbol "$" || after.isSymbol "..." || after.isSymbol "&"))

/-- A name, or an intersection in parentheses. -/
def typeAtom : Reader :=
  choose (atSymbol "(") (symbol "(" >> joined (atSymbol "&") name >> symbol ")") name

/-- A type. -/
def type : Reader :=
  node .type (choose (atSymbol "?") (symbol "?" >> name) (joined joinsTypes typeAtom))

/-- Whether a type may start here. -/
def atType (input : List Token) : Bool :=
  (next? input).any fun first =>
    isWord first || first.isSymbol "?" || first.isSymbol "\\" || first.isSymbol "("

/-- The result type of a function, if it has one. -/
def resultType : Reader := when (atSymbol ":") (symbol ":" >> type)

/-! ## Variables -/

/-- `$name`. -/
def plainVariable : Reader := node .variable (symbol "$" >> word .name)

variable (rules : Rules)

/-- Any expression. -/
def expression : Reader := rules (.expression 0 false)

/-- An expression in braces. -/
def braced : Reader := symbol "\x7b" >> expression rules >> symbol "\x7d"

/-- `$name`, `$$name` or `${expression}`. -/
def simpleVariable : Reader :=
  choose (fun input => (second? input).any isWord) plainVariable <|
    node .dynamicVariable
      (symbol "$" >> itemsUntil (fun input => !atSymbol "$" input) (symbol "$")
        >> choose (atSymbol "\x7b") (braced rules) (word .name))

/-! ## Arguments -/

/-- Keywords that start an expression and so name no argument. -/
def neverArgumentNames : List String :=
  ["list", "new", "clone", "print", "include", "include_once", "require", "require_once", "yield"]

/-- Whether a named argument starts here. -/
def atArgumentName (input : List Token) : Bool :=
  (next? input).any isWord && (second? input).any (·.isSymbol ":")
    && !atKeywordOf neverArgumentNames input

/-- One argument: perhaps a name, then a value, a reference or a spread list. -/
def argument : Reader :=
  node .argument
    (when atArgumentName (playing .name (word .name) >> symbol ":")
      >> when (atSymbol "&") (symbolAs .referenceModifier "&")
      >> choose (atSymbol "...") (node .unpacking (symbol "..." >> expression rules))
        (expression rules))

/-- Whether the arguments are the placeholder `(...)`. -/
def atPlaceholder (input : List Token) : Bool :=
  atSymbol "..." input && (second? input).any (·.isSymbol ")")

/-- Arguments in parentheses. -/
def arguments : Reader :=
  node .arguments
    (symbol "(" >> choose atPlaceholder (symbolAs .placeholder "..." >> symbol ")")
      (listUntil ")" (argument rules)))

/-- Arguments as a part of a call. -/
def callArguments : Reader := playing .arguments (arguments rules)

/-! ## Attributes -/

/-- One group `#[...]`. -/
def attributeGroup : Reader :=
  node .attributeGroup
    (symbol "#["
      >> commas (atSymbol "]") (node .attribute (name >> when (atSymbol "(") (arguments rules)))
      >> symbol "]")

/-- Groups of attributes, as many as there are. -/
def attributes : Reader :=
  itemsUntil (fun input => !atSymbol "#[" input) (attributeGroup rules)

/-- The input behind a bracket that closes the given number of open ones. -/
def pastBrackets : Nat → List Token → List Token
  | 0, input => input
  | _, [] => []
  | depth + 1, first :: rest =>
    if first.isSymbol "[" || first.isSymbol "#[" then pastBrackets (depth + 2) rest
    else if first.isSymbol "]" then pastBrackets depth rest
    else pastBrackets (depth + 1) rest

/-- The input behind the attributes at its front; `fuel` bounds their number. -/
def pastAttributesFuel : Nat → List Token → List Token
  | 0, input => input
  | fuel + 1, input =>
    if atSymbol "#[" input then pastAttributesFuel fuel (pastBrackets 1 ((skipExtras input).drop 1))
    else input

/-- The input behind the attributes at its front. -/
def pastAttributes (input : List Token) : List Token :=
  if atSymbol "#[" input then pastAttributesFuel input.length input else input

end Grammar

end TimeoutAudit.Php
