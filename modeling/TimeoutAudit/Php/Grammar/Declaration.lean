import TimeoutAudit.Php.Grammar.Name

/-!
# Functions and classes

Signatures, closures, and the members of classes.  A declaration may follow
attributes, which are part of it.
-/

set_option autoImplicit false

namespace TimeoutAudit.Php.Grammar

open Reader

variable (rules : Rules)

/-! ## Blocks -/

/-- Whether a block, or the whole input, ends here. -/
def atBlockEnd (input : List Token) : Bool := atSymbol "\x7d" input || atEnd input

/-- Statements in braces. -/
def block : Reader :=
  node .block (symbol "\x7b" >> itemsUntil atBlockEnd (rules .statement) >> closing "\x7d")

/-! ## Signatures -/

/-- Words that qualify a member or a parameter. -/
def modifierWords : List String :=
  ["public", "protected", "private", "static", "abstract", "final", "readonly", "var"]

/-- One modifier; a visibility may be limited to writing, as in `private(set)`. -/
def modifier : Reader :=
  node .modifier
    (token (fun first => if modifierWords.any first.isKeyword then some .name else none)
      >> when (fun input => atSymbol "(" input && (second? input).any (·.isKeyword "set")
          && (third? input).any (·.isSymbol ")"))
        (symbol "(" >> keyword "set" >> symbol ")"))

/-- Modifiers, as many as there are. -/
def modifiers : Reader :=
  itemsUntil (fun input => !atKeywordOf modifierWords input) modifier

/-- A default value, if there is one. -/
def defaultValue : Reader := when (atSymbol "=") (symbol "=" >> expression rules)

/-- The body of a property hook. -/
def hookBody : Reader :=
  choose (atSymbol "=>") (symbol "=>" >> expression rules >> semicolon) <|
    choose (atSymbol "\x7b") (block rules) semicolon

/-- One parameter; property hooks may follow a promoted one. -/
def parameterWith (hooks : Reader) : Reader :=
  node .parameter
    (attributes rules >> modifiers >> when atType type
      >> when (atSymbol "&") (symbolAs .referenceModifier "&")
      >> when (atSymbol "...") (symbol "...")
      >> plainVariable >> defaultValue rules >> when (atSymbol "\x7b") hooks)

/-- Parameters in parentheses. -/
def parametersWith (hooks : Reader) : Reader :=
  node .parameters (symbol "(" >> listUntil ")" (parameterWith rules hooks))

/-- Property hooks in braces. -/
def hooks : Reader :=
  symbol "\x7b"
    >> itemsUntil atBlockEnd
      (node .propertyHook
        (attributes rules >> modifiers >> when (atSymbol "&") (symbolAs .referenceModifier "&")
          >> word .name >> when (atSymbol "(") (parametersWith rules refuse) >> hookBody rules))
    >> closing "\x7d"

/-- Parameters in parentheses. -/
def parameters : Reader := parametersWith rules (hooks rules)

/-- What follows the word `function` in a declaration, up to the body. -/
def functionHead : Reader :=
  when (atSymbol "&") (symbolAs .referenceModifier "&")
    >> word .name >> parameters rules >> resultType

/-! ## Closures -/

/-- Variables that a closure takes from outside. -/
def closureUses : Reader :=
  node .closureUses
    (keyword "use" >> symbol "("
      >> listUntil ")" (when (atSymbol "&") (symbolAs .referenceModifier "&") >> plainVariable))

/-- `function (...) {...}` and `fn (...) => ...`, after attributes and perhaps `static`. -/
def closure : Reader :=
  nodeBy (fun forest =>
      if forest.any fun child => child.isMark "=>" then .arrowFunction else .closure)
    (attributes rules >> when (atKeyword "static") (keyword "static")
      >> choose (atKeyword "fn")
        (keyword "fn" >> when (atSymbol "&") (symbolAs .referenceModifier "&")
          >> parameters rules >> resultType >> symbol "=>" >> rules (.expression 4 false))
        (keyword "function" >> when (atSymbol "&") (symbolAs .referenceModifier "&")
          >> parameters rules >> when (atKeyword "use") closureUses >> resultType >> block rules))

/-! ## Members -/

/-- `NAME = value`. -/
def constant : Reader := word .name >> symbol "=" >> expression rules

/-- Constants after the word `const`, perhaps with a type. -/
def constants : Reader :=
  keyword "const"
    >> choose (fun input => (second? input).any (·.isSymbol "=")) nothing type
    >> oneOrMore (constant rules) >> semicolon

/-- Properties with their default values, then a semicolon or hooks. -/
def properties : Reader :=
  when (fun input => !atSymbol "$" input) type
    >> oneOrMore (plainVariable >> defaultValue rules)
    >> choose (atSymbol "\x7b") (hooks rules) semicolon

/-- A method in a trait rule: `name` or `Type::name`. -/
def traitMethod : Reader := name >> when (atSymbol "::") (symbol "::" >> word .name)

/-- A rule that settles which trait's method is meant. -/
def traitRule : Reader :=
  traitMethod
    >> choose (atKeyword "insteadof") (keyword "insteadof" >> oneOrMore name)
      (keyword "as" >> when (atKeywordOf modifierWords) modifier
        >> when (fun input => (next? input).any isWord) (word .name))
    >> semicolon

/-- Traits used by a class. -/
def traitUse : Reader :=
  node .traitUse
    (keyword "use" >> oneOrMore name
      >> choose (atSymbol "\x7b")
        (symbol "\x7b" >> itemsUntil atBlockEnd traitRule >> closing "\x7d")
        semicolon)

/-- A case of an enumeration. -/
def enumCase : Reader :=
  node .enumCase
    (attributes rules >> keyword "case" >> word .name >> defaultValue rules >> semicolon)

/-- Whether a node is the given keyword. -/
def isKeywordMark (spelling : String) (child : Node) : Bool :=
  child.kind == .mark && child.label.token.any (·.isKeyword spelling)

/-- The kind of a member, by the keyword in it. -/
def memberKind (forest : List Node) : Kind :=
  if forest.any (isKeywordMark "function") then .method
  else if forest.any (isKeywordMark "const") then .constDeclaration
  else .property

/-- A constant, property or method. -/
def member : Reader :=
  nodeBy memberKind
    (attributes rules
      >> choose (fun input => atKeywordOf ["const", "function"] input) nothing
        (modifier >> modifiers)
      >> choose (atKeyword "const") (constants rules)
        (choose (atKeyword "function")
          (keyword "function" >> functionHead rules
            >> choose (atSymbol "\x7b") (block rules) semicolon)
          (properties rules)))

/-- The members of a class or, with `cases`, of an enumeration. -/
def members (cases : Bool) : Reader :=
  node .members
    (symbol "\x7b"
      >> itemsUntil atBlockEnd
        (located (choose (atKeyword "use") traitUse
          (choose (fun input => cases && atKeyword "case" (pastAttributes input)) (enumCase rules)
            (member rules))))
      >> closing "\x7d")

/-- The types that a class extends or implements. -/
def bases (introduction : String) : Reader :=
  when (atKeyword introduction) (node .bases (keyword introduction >> oneOrMore name))

/-- A class body with what stands before it. -/
def classBody : Reader := bases "extends" >> bases "implements" >> members rules false

/-! ## Declarations -/

/-- A function with its body. -/
def functionDefinition : Reader :=
  node .functionDefinition
    (attributes rules >> keyword "function" >> functionHead rules >> block rules)

/-- A class. -/
def classDeclaration : Reader :=
  node .classDeclaration
    (attributes rules >> modifiers >> keyword "class" >> word .name >> classBody rules)

/-- An interface. -/
def interfaceDeclaration : Reader :=
  node .interfaceDeclaration
    (attributes rules >> keyword "interface" >> word .name >> bases "extends"
      >> members rules false)

/-- A trait. -/
def traitDeclaration : Reader :=
  node .traitDeclaration
    (attributes rules >> keyword "trait" >> word .name >> members rules false)

/-- An enumeration. -/
def enumDeclaration : Reader :=
  node .enumDeclaration
    (attributes rules >> keyword "enum" >> word .name >> resultType >> bases "implements"
      >> members rules true)

end TimeoutAudit.Php.Grammar
