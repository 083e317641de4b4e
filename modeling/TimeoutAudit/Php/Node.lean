import TimeoutAudit.Php.Token
import TimeoutAudit.Syntax.Tree

/-!
# Syntax trees of PHP source

A node is named when it stands for a construct of the language, and anonymous
when it only holds a mark or a keyword.  Its text and its row are those of the
tokens below it.  `fault?` is the first place where reading went wrong: it
enters only those subtrees that hold a fault.
-/

set_option autoImplicit false

namespace TimeoutAudit.Php

/-- What a node of the syntax tree stands for. -/
inductive Kind where
  /-- A mark or a keyword; the only anonymous kind. -/
  | mark
  /-- Source that could not be read. -/
  | error
  /-- A mark that was expected and is not there. -/
  | missing
  | program | text | tag | passage | comment
  | name | qualifiedName | relativeScope | type
  | variable | dynamicVariable | referenceModifier
  | integer | float | boolean | null
  | string | template | stringContent | heredoc | nowdoc | command
  | array | pattern | hole | arrayElement | unpacking | byReference
  | arguments | argument | placeholder
  | functionCall | methodCall | nullsafeMethodCall | staticCall
  | propertyAccess | nullsafePropertyAccess | staticProperty | classConstant | subscript
  | creation | clone | closure | arrowFunction | matchExpression | matchArm
  | unary | update | cast | binary | conditional | assignment | parenthesized
  | include | print | yield | throw
  | attribute | attributeGroup | modifier | parameters | parameter | closureUses
  | block | emptyStatement | expressionStatement | label | ifStatement | elseClause
  | switchStatement | switchCase | whileStatement | doStatement | forStatement
  | foreachStatement | gotoStatement | jumpStatement | returnStatement | tryStatement
  | catchClause | finallyClause | declareStatement | echoStatement | exitStatement
  | unsetStatement | constDeclaration | functionDefinition | classDeclaration
  | interfaceDeclaration | traitDeclaration | enumDeclaration | namespaceDefinition
  | useDeclaration | globalDeclaration | staticDeclaration
  | bases | members | method | property | propertyHook | enumCase | traitUse
deriving DecidableEq, Repr, Inhabited

/-- The part that a child plays below its parent. -/
inductive Field where
  /-- What is called. -/
  | callee
  /-- What a member belongs to. -/
  | object
  /-- The class in front of `::`. -/
  | scope
  | name
  | arguments
deriving DecidableEq, Repr

/-- The label of a node.  Only a leaf carries a token. -/
structure Label where
  kind : Kind
  field : Option Field
  token : Option Token
deriving DecidableEq, Repr, Inhabited

/-- A node of the syntax tree. -/
abbrev Node := Tree Label

namespace Node

/-- A leaf for a token. -/
def ofToken (kind : Kind) (token : Token) : Node := .node ⟨kind, none, some token⟩ []

/-- An inner node. -/
def ofKind (kind : Kind) (children : List Node) : Node := .node ⟨kind, none, none⟩ children

/-- The leaf for an extra token. -/
def ofExtra (token : Token) : Node :=
  ofToken (if token.lexeme == .comment then .comment else .passage) token

def kind (node : Node) : Kind := node.label.kind

def isNamed (node : Node) : Bool := node.kind != .mark

/-- Comments and passages of plain text. -/
def isExtra (node : Node) : Bool := node.kind == .comment || node.kind == .passage

/-- Whether a node is the given mark. -/
def isMark (node : Node) (spelling : String) : Bool :=
  node.kind == .mark && node.label.token.any (·.isSymbol spelling)

/-- The first child that plays the given part. -/
def child? (node : Node) (field : Field) : Option Node :=
  node.children.find? fun child => child.label.field == some field

/-- The tokens below a node. -/
def tokens (node : Node) : List Token := node.collect Label.token

/-- The tokens below a list of nodes. -/
def forestTokens (forest : List Node) : List Token := Tree.collectForest Label.token forest

/-- The row on which a node starts. -/
def row (node : Node) : Nat :=
  match node.first? Label.token with
  | some token => token.row
  | none => 0

/-- The source text of a node; empty if it holds bytes that are no text. -/
def text (node : Node) : String := (Glyph.text? (Token.span node.tokens)).getD ""

/-! ## Faults -/

/-- Labels of nodes that stand for a fault of the source. -/
def isFault (label : Label) : Bool := label.kind == .error || label.kind == .missing

/-- Whether a node is a fault or has one below it. -/
def hasFault (node : Node) : Bool := node.any isFault

/-- The first fault of a tree, found without entering a subtree that has none. -/
def fault? (node : Node) : Option Node := node.findPruned isFault hasFault

end Node

end TimeoutAudit.Php
