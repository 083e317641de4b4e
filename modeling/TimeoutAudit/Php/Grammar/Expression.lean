import TimeoutAudit.Php.Grammar.Declaration

/-!
# Expressions

An expression is an operand that grows to the right.  First it takes what binds
tightest: calls, members, subscripts and, if it can be written to, an
assignment.  Then it takes binary operators, each with a right operand of
tighter operators; `strength` ranks them.
-/

set_option autoImplicit false

namespace TimeoutAudit.Php.Grammar

open Reader

variable (rules : Rules)

/-! ## Strings -/

/-- A subscript inside an interpolated `$name[...]`. -/
def plainSubscript : Reader :=
  symbol "["
    >> choose (atSymbol "$") plainVariable
      (choose (atSymbol "-") (node .unary (symbol "-" >> lexeme .integer .integer))
        (choose (fun input => (next? input).any isWord) (word .name) (lexeme .integer .integer)))
    >> symbol "]"

/-- How an interpolated variable goes on. -/
def interpolationGrowth (root : Node) (input : List Token) : Option Growth :=
  if root.kind == .variable && atSymbol "[" input then
    some ⟨none, plainSubscript, fun _ => .subscript⟩
  else if root.kind == .variable && atSymbol "->" input then
    some ⟨none, symbol "->" >> word .name, fun _ => .propertyAccess⟩
  else none

/-- One part of an interpolated string. -/
def templatePart : Reader :=
  choose (atSymbol "\x7b") (braced rules) <|
    choose (atSymbol "$") (grow (simpleVariable rules) interpolationGrowth)
      (lexeme .content .stringContent)

/-- Parts of an interpolated string up to its end. -/
def template (opening : String) (ending : List Token → Bool) : Reader :=
  symbol opening >> itemsUntil ending (templatePart rules)
    >> token fun _ => some .mark

/-- Whether a labelled string ends here. -/
def atClosingLabel (input : List Token) : Bool :=
  (next? input).any fun first => first.lexeme == .closingLabel

/-! ## Arrays -/

/-- `&value` or a value in an array. -/
def elementValue : Reader :=
  choose (atSymbol "&") (node .byReference (symbol "&" >> rules (.expression 18 false)))
    (rules (.expression 0 true))

/-- One element of an array, or the hole in front of a comma. -/
def element : Reader :=
  choose (atSymbol ",") (node .hole nothing) <|
    node .arrayElement
      (choose (atSymbol "...") (node .unpacking (symbol "..." >> expression rules))
        (elementValue rules >> when (atSymbol "=>") (symbol "=>" >> elementValue rules)))

/-- An array with a hole is a pattern to be filled. -/
def arrayKind (forest : List Node) : Kind :=
  if forest.any fun child => child.kind == .hole then .pattern else .array

/-- `[...]`. -/
def bracketArray : Reader := nodeBy arrayKind (symbol "[" >> listUntil "]" (element rules))

/-- `array(...)`. -/
def wordArray : Reader :=
  node .array (keyword "array" >> symbol "(" >> listUntil ")" (element rules))

/-- `list(...)`. -/
def listPattern : Reader :=
  node .pattern (keyword "list" >> symbol "(" >> listUntil ")" (element rules))

/-! ## Operands with a keyword in front -/

/-- `(...)`. -/
def parenthesized : Reader := node .parenthesized (symbol "(" >> expression rules >> symbol ")")

/-- How the class of a new object may be computed. -/
def classGrowth (root : Node) (input : List Token) : Option Growth :=
  if root.kind == .parenthesized then none
  else if atSymbol "[" input then
    some ⟨none, symbol "[" >> expression rules >> symbol "]", fun _ => .subscript⟩
  else if atSymbol "->" input || atSymbol "?->" input then
    some ⟨some .object, anyMark >> choose (atSymbol "\x7b") (braced rules)
      (choose (atSymbol "$") (simpleVariable rules) (word .name)), fun _ => .propertyAccess⟩
  else if atSymbol "::" input then
    some ⟨some .scope, symbol "::" >> simpleVariable rules, fun _ => .staticProperty⟩
  else none

/-- The class of a new object. -/
def classReference : Reader :=
  choose (atSymbol "$") (grow (simpleVariable rules) (classGrowth rules)) <|
    choose (atSymbol "(") (parenthesized rules) <|
      choose (fun input => !atSymbol "\\" input && (second? input).any (·.isSymbol "::"))
        (grow name (classGrowth rules)) name

/-- Whether an anonymous class follows `new`. -/
def atAnonymousClass (input : List Token) : Bool :=
  atKeyword "class" input || atSymbol "#[" input
    || (atKeyword "readonly" input && (second? input).any (·.isKeyword "class"))

/-- `new Name(...)` or `new class {...}`. -/
def creation : Reader :=
  node .creation
    (keyword "new"
      >> choose atAnonymousClass
        (attributes rules >> modifiers >> keyword "class"
          >> when (atSymbol "(") (arguments rules) >> classBody rules)
        (classReference rules >> when (atSymbol "(") (arguments rules)))

/-- One arm of a `match`. -/
def matchArm : Reader :=
  node .matchArm
    (choose (atKeyword "default") (keyword "default") (commas (atSymbol "=>") (expression rules))
      >> symbol "=>" >> expression rules)

/-- `match (...) {...}`. -/
def matchExpression : Reader :=
  node .matchExpression
    (keyword "match" >> parenthesized rules >> symbol "\x7b" >> listUntil "\x7d" (matchArm rules))

/-- Whether a `yield` has no operand. -/
def atYieldEnd (input : List Token) : Bool :=
  atOneOf [";", ")", "]", ",", "\x7d", ":"] input || atEnd input
    || input.head?.any fun first => first.lexeme == .passage

/-- `yield`, with a value, a key and a value, or another generator. -/
def yieldExpression : Reader :=
  node .yield
    (keyword "yield"
      >> choose atYieldEnd nothing
        (choose (atKeyword "from") (keyword "from" >> rules (.expression 4 false))
          (rules (.expression 4 false)
            >> when (atSymbol "=>") (symbol "=>" >> rules (.expression 4 false)))))

/-- Types that a value may be cast to. -/
def castTypes : List String :=
  ["array", "binary", "bool", "boolean", "double", "float", "int", "integer", "object", "real",
    "string", "unset"]

/-- Whether a cast starts here. -/
def atCast (input : List Token) : Bool :=
  atSymbol "(" input && (third? input).any (·.isSymbol ")")
    && (second? input).any fun inner => castTypes.any inner.isKeyword

/-- `(type) value`. -/
def castExpression : Reader :=
  node .cast (symbol "(" >> word .type >> symbol ")" >> rules (.expression 18 false))

/-- A class written as a keyword: a scope in front of `::`, else a plain name. -/
def relativeClass : Reader :=
  choose (fun input => (second? input).any (·.isSymbol "::")) (word .relativeScope) (word .name)

/-- The operand that starts with the given word. -/
def wordOperand (folded : String) : Reader :=
  match folded with
  | "new" => creation rules
  | "clone" => node .clone (keyword "clone" >> rules (.expression 21 false))
  | "print" => node .print (keyword "print" >> rules (.expression 4 false))
  | "include" | "include_once" | "require" | "require_once" =>
    node .include (anyMark >> rules (.expression 4 false))
  | "yield" => yieldExpression rules
  | "throw" => node .throw (keyword "throw" >> expression rules)
  | "match" => matchExpression rules
  | "fn" | "function" => closure rules
  | "static" =>
    choose (fun input => (second? input).any fun after =>
        after.isKeyword "function" || after.isKeyword "fn")
      (closure rules) relativeClass
  | "self" | "parent" => relativeClass
  | "array" => wordArray rules
  | "list" => listPattern rules
  | "true" | "false" => word .boolean
  | "null" => word .null
  | "namespace" =>
    choose (fun input => (second? input).any (·.isSymbol "\\")) name refuse
  | _ => name

/-- The operand that starts with the given symbol. -/
def symbolOperand (spelling : String) : Reader :=
  match spelling with
  | "$" => simpleVariable rules
  | "(" => choose atCast (castExpression rules) (parenthesized rules)
  | "[" => bracketArray rules
  | "\\" => name
  | "\"" => node .template (template rules "\"" (atSymbol "\""))
  | "\x60" => node .command (template rules "\x60" (atSymbol "\x60"))
  | "<<<" => node .heredoc (template rules "<<<" atClosingLabel)
  | "!" | "~" | "+" | "-" | "@" => node .unary (anyMark >> rules (.expression 18 false))
  | "++" | "--" => node .update (anyMark >> rules (.expression 21 false))
  | "#[" => closure rules
  | _ => refuse

/-- The first part of an operand. -/
def primary : Reader := fun input =>
  match (next? input).map Token.lexeme with
  | some (.word folded) => wordOperand rules folded input
  | some (.symbol spelling) => symbolOperand rules spelling input
  | some .quoted => lexeme .quoted .string input
  | some .integer => lexeme .integer .integer input
  | some .float => lexeme .float .float input
  | some .nowdoc => lexeme .nowdoc .nowdoc input
  | _ => refuse input

/-! ## Members and calls -/

/-- Kinds of operands that are written to. -/
def isAssignable : Kind → Bool
  | .variable | .dynamicVariable | .subscript | .propertyAccess | .nullsafePropertyAccess
  | .staticProperty | .functionCall | .methodCall | .nullsafeMethodCall | .staticCall
  | .pattern | .array => true
  | _ => false

/-- Kinds of operands that have members. -/
def hasMembers : Kind → Bool
  | .variable | .dynamicVariable | .subscript | .propertyAccess | .nullsafePropertyAccess
  | .staticProperty | .functionCall | .methodCall | .nullsafeMethodCall | .staticCall
  | .array | .string | .template | .heredoc | .nowdoc | .name | .qualifiedName
  | .relativeScope | .classConstant | .parenthesized | .creation => true
  | _ => false

/-- Kinds of operands that can be called. -/
def isCallable : Kind → Bool
  | .variable | .dynamicVariable | .subscript | .functionCall | .methodCall
  | .nullsafeMethodCall | .staticCall | .array | .string | .template | .heredoc | .nowdoc
  | .name | .qualifiedName | .parenthesized => true
  | _ => false

/-- Symbols that assign to the operand in front of them. -/
def assignments : List String :=
  ["=", "+=", "-=", "*=", "/=", ".=", "%=", "**=", "??=", "&=", "|=", "^=", "<<=", ">>="]

/-- The name of a member: a word, a variable, or an expression in braces. -/
def memberName : Reader :=
  choose (atSymbol "\x7b")
    (symbol "\x7b" >> playing .name (expression rules) >> symbol "\x7d") <|
    choose (atSymbol "$") (playing .name (simpleVariable rules)) (playing .name (word .name))

/-- A member, and the arguments if it is called. -/
def memberAccess : Reader :=
  anyMark >> memberName rules >> when (atSymbol "(") (callArguments rules)

/-- Whether a member was called. -/
def isCalled (trees : List Node) : Bool := trees.getLast?.any fun last => last.kind == .arguments

/-- The kind of a member behind `::`. -/
def scopedKind (trees : List Node) : Kind :=
  if isCalled trees then .staticCall
  else if trees.any fun tree => tree.kind == .variable || tree.kind == .dynamicVariable then
    .staticProperty
  else .classConstant

/-- How an operand goes on, before any binary operator. -/
def operandGrowth (root : Node) (input : List Token) : Option Growth :=
  let kind := root.kind
  match (next? input).map Token.lexeme with
  | some (.symbol "(") =>
    if isCallable kind then some ⟨some .callee, callArguments rules, fun _ => .functionCall⟩ else none
  | some (.symbol "[") =>
    if hasMembers kind then
      some ⟨none, symbol "[" >> when (fun after => !atSymbol "]" after) (expression rules)
        >> symbol "]", fun _ => .subscript⟩
    else none
  | some (.symbol "->") =>
    if hasMembers kind then
      some ⟨some .object, memberAccess rules, fun trees =>
        if isCalled trees then .methodCall else .propertyAccess⟩
    else none
  | some (.symbol "?->") =>
    if hasMembers kind then
      some ⟨some .object, memberAccess rules, fun trees =>
        if isCalled trees then .nullsafeMethodCall else .nullsafePropertyAccess⟩
    else none
  | some (.symbol "::") =>
    if hasMembers kind then some ⟨some .scope, memberAccess rules, scopedKind⟩ else none
  | some (.symbol "++") | some (.symbol "--") =>
    if isAssignable kind && kind != .array && kind != .pattern then
      some ⟨none, anyMark, fun _ => .update⟩
    else none
  | some (.symbol spelling) =>
    if isAssignable kind && assignments.contains spelling then
      some ⟨none, anyMark >> when (atSymbol "&") (symbolAs .referenceModifier "&")
        >> rules (.expression 4 false), fun _ => .assignment⟩
    else none
  | _ => none

/-- An operand.  A pattern stands alone only where holes are allowed. -/
def operand (holes : Bool) : Reader :=
  check (fun root _ => holes || root.kind != .pattern) (grow (primary rules) (operandGrowth rules))

/-! ## Binary operators -/

/-- How tightly a binary operator binds, and the least strength of its right operand. -/
def strength : Lexeme → Option (Nat × Nat)
  | .word "or" => some (1, 2)
  | .word "xor" => some (2, 3)
  | .word "and" => some (3, 4)
  | .symbol "??" => some (6, 6)
  | .symbol "||" => some (7, 8)
  | .symbol "&&" => some (8, 9)
  | .symbol "|" => some (9, 10)
  | .symbol "^" => some (10, 11)
  | .symbol "&" => some (11, 12)
  | .symbol "==" | .symbol "!=" | .symbol "<>" | .symbol "===" | .symbol "!==" | .symbol "<=>" =>
    some (12, 13)
  | .symbol "<" | .symbol ">" | .symbol "<=" | .symbol ">=" => some (13, 14)
  | .symbol "." => some (14, 15)
  | .symbol "<<" | .symbol ">>" => some (15, 16)
  | .symbol "+" | .symbol "-" => some (16, 17)
  | .symbol "*" | .symbol "/" | .symbol "%" => some (17, 18)
  | .word "instanceof" => some (19, 20)
  | .symbol "**" => some (20, 20)
  | _ => none

/-- How an expression goes on with operators at least as tight as `floor`. -/
def operatorGrowth (floor : Nat) (_root : Node) (input : List Token) : Option Growth :=
  match (next? input).map Token.lexeme with
  | some (.symbol "?") =>
    if floor ≤ 5 then
      some ⟨none, symbol "?" >> when (fun after => !atSymbol ":" after) (expression rules)
        >> symbol ":" >> rules (.expression 6 false), fun _ => .conditional⟩
    else none
  | some found =>
    match strength found with
    | some (tightness, right) =>
      if floor ≤ tightness then
        some ⟨none, anyMark >> rules (.expression right false), fun _ => .binary⟩
      else none
    | none => none
  | none => none

/-- An expression of operators at least as tight as `floor`. -/
def expressionFrom (floor : Nat) (holes : Bool) : Reader :=
  grow (operand rules holes) (operatorGrowth rules floor)

end TimeoutAudit.Php.Grammar
