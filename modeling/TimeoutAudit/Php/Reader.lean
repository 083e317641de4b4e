import TimeoutAudit.Php.Node

/-!
# Readers: from tokens to syntax trees

A reader takes tokens off the front of its input and returns the trees built
from them.  A `Reading` carries the fact that nothing is lost: the tokens of its
trees, followed by the tokens left over, are the input.  Every combinator keeps
that fact, so it holds of whatever the grammar builds.

An extra token in front of a construct does not belong to it: `enclose` leaves
it outside, so that a comment lies inside a node only between two of the node's
own tokens.
-/

set_option autoImplicit false

namespace TimeoutAudit.Php

open Node (forestTokens)

/-- What is wrong at a place of the source. -/
inductive Fault where
  | error
  | missing
deriving DecidableEq, Repr

/-- The kind of the node that stands for a fault. -/
def Fault.kind : Fault → Kind
  | error => .error
  | missing => .missing

/-- Why a construct could not be read. -/
inductive Failure where
  /-- The token at hand does not fit. -/
  | unexpected
  /-- A closing mark is missing in front of the given tokens. -/
  | missing (rest : List Token)
  /-- The place is known. -/
  | located (fault : Fault) (row : Nat)
deriving Repr

/-- Trees read from the front of the input. -/
structure Reading (input : List Token) where
  forest : List Node
  rest : List Token
  /-- Nothing is lost. -/
  split : forestTokens forest ++ rest = input

/-- Reads trees from the front of its input. -/
abbrev Reader := (input : List Token) → Except Failure (Reading input)

/-! ## Trees -/

/-- The trees of a construct as one node; extras in front of it stay outside. -/
def enclose (kind : Kind) (forest : List Node) : List Node :=
  forest.takeWhile Node.isExtra ++ [.ofKind kind (forest.dropWhile Node.isExtra)]

/-- Gives the trees of a construct a part to play. -/
def assign (field : Field) (forest : List Node) : List Node :=
  forest.map fun node =>
    if node.isExtra then node else node.relabel fun label => { label with field := some field }

@[simp] theorem forestTokens_nil : forestTokens [] = [] := Tree.collectForest_nil _

@[simp] theorem forestTokens_cons (node : Node) (forest : List Node) :
    forestTokens (node :: forest) = node.tokens ++ forestTokens forest :=
  Tree.collectForest_cons _ _ _

@[simp] theorem forestTokens_append (first second : List Node) :
    forestTokens (first ++ second) = forestTokens first ++ forestTokens second :=
  Tree.collectForest_append _ _ _

@[simp] theorem tokens_ofKind (kind : Kind) (children : List Node) :
    (Node.ofKind kind children).tokens = forestTokens children := by
  simp [Node.ofKind, Node.tokens, Tree.collect, forestTokens]

@[simp] theorem tokens_ofToken (kind : Kind) (token : Token) :
    (Node.ofToken kind token).tokens = [token] := by
  simp [Node.ofToken, Node.tokens, Tree.collect]

@[simp] theorem forestTokens_enclose (kind : Kind) (forest : List Node) :
    forestTokens (enclose kind forest) = forestTokens forest := by
  simp only [enclose, forestTokens_append, forestTokens_cons, tokens_ofKind, forestTokens_nil,
    List.append_nil]
  rw [← forestTokens_append, List.takeWhile_append_dropWhile]

theorem tokens_relabel_field (field : Field) (node : Node) :
    Node.tokens (node.relabel fun label => { label with field := some field }) = node.tokens := by
  cases node with
  | node label children => simp [Tree.relabel, Node.tokens, Tree.collect]

@[simp] theorem forestTokens_assign (field : Field) (forest : List Node) :
    forestTokens (assign field forest) = forestTokens forest := by
  induction forest with
  | nil => rfl
  | cons node others ih =>
    simp only [assign, List.map_cons, forestTokens_cons] at ih ⊢
    rw [ih]
    split
    · rfl
    · rw [tokens_relabel_field]

namespace Reading

/-- The node of a construct: the last of its trees. -/
def root? {input : List Token} (reading : Reading input) : Option Node := reading.forest.getLast?

/-- What is read after this belongs to the same trees. -/
def append {input : List Token} (first : Reading input) (second : Reading first.rest) :
    Reading input where
  forest := first.forest ++ second.forest
  rest := second.rest
  split := by rw [forestTokens_append, List.append_assoc, second.split, first.split]

/-- The trees changed by an operation that keeps their tokens. -/
def mapForest {input : List Token} (reading : Reading input) (change : List Node → List Node)
    (kept : ∀ forest, forestTokens (change forest) = forestTokens forest) : Reading input where
  forest := change reading.forest
  rest := reading.rest
  split := by rw [kept, reading.split]

/-- All trees as one node. -/
def enclosed {input : List Token} (reading : Reading input) (kind : Kind) : Reading input :=
  reading.mapForest (enclose kind) (forestTokens_enclose kind)

/-- All trees with a part to play. -/
def assigned {input : List Token} (reading : Reading input) (field : Field) : Reading input :=
  reading.mapForest (assign field) (forestTokens_assign field)

end Reading

namespace Reader

/-! ## Looking ahead -/

/-- The input from the next token that is not extra. -/
def skipExtras (input : List Token) : List Token := input.dropWhile Token.isExtra

/-- The next token that is not extra. -/
def next? (input : List Token) : Option Token := (skipExtras input).head?

/-- The token after the next one. -/
def second? (input : List Token) : Option Token := next? ((skipExtras input).drop 1)

/-- The token after the second one. -/
def third? (input : List Token) : Option Token :=
  next? ((skipExtras ((skipExtras input).drop 1)).drop 1)

/-- Whether the next token is the given symbol. -/
def atSymbol (spelling : String) (input : List Token) : Bool :=
  (next? input).any (·.isSymbol spelling)

/-- Whether the next token is the given keyword. -/
def atKeyword (keyword : String) (input : List Token) : Bool :=
  (next? input).any (·.isKeyword keyword)

/-- Whether the next token is one of the given symbols. -/
def atOneOf (spellings : List String) (input : List Token) : Bool := spellings.any (atSymbol · input)

/-- Whether the next token is one of the given keywords. -/
def atKeywordOf (keywords : List String) (input : List Token) : Bool :=
  keywords.any (atKeyword · input)

/-- Whether a token is a word of any kind. -/
def isWord (token : Token) : Bool :=
  match token.lexeme with
  | .word _ => true
  | _ => false

/-- Whether nothing but extras is left. -/
def atEnd (input : List Token) : Bool := (skipExtras input).isEmpty

/-! ## Single tokens -/

/-- Reads nothing. -/
def nothing : Reader := fun input => .ok ⟨[], input, by simp⟩

/-- Refuses its input. -/
def refuse : Reader := fun _ => .error .unexpected

/-- Reads one token, and the extras in front of it. -/
def token (accept : Token → Option Kind) : Reader
  | [] => .error .unexpected
  | first :: rest =>
    if first.isExtra then
      match token accept rest with
      | .error failure => .error failure
      | .ok reading => .ok {
          forest := .ofExtra first :: reading.forest
          rest := reading.rest
          split := by simp [Node.ofExtra, reading.split] }
    else
      match accept first with
      | some kind => .ok ⟨[.ofToken kind first], rest, by simp⟩
      | none => .error .unexpected

/-- Reads the extras at the front. -/
def extras : Reader
  | [] => .ok ⟨[], [], by simp⟩
  | first :: rest =>
    if first.isExtra then
      match extras rest with
      | .error failure => .error failure
      | .ok reading => .ok {
          forest := .ofExtra first :: reading.forest
          rest := reading.rest
          split := by simp [Node.ofExtra, reading.split] }
    else .ok ⟨[], first :: rest, by simp⟩

/-- Reads the given symbol. -/
def symbol (spelling : String) : Reader :=
  token fun first => if first.isSymbol spelling then some .mark else none

/-- Reads the given symbol as a node of its own. -/
def symbolAs (kind : Kind) (spelling : String) : Reader :=
  token fun first => if first.isSymbol spelling then some kind else none

/-- Reads the given keyword. -/
def keyword (spelling : String) : Reader :=
  token fun first => if first.isKeyword spelling then some .mark else none

/-- Reads any word as a node of the given kind. -/
def word (kind : Kind) : Reader := token fun first => if isWord first then some kind else none

/-- Reads any token as a mark. -/
def anyMark : Reader := token fun _ => some .mark

/-- Reads a token of the given class. -/
def lexeme (expected : Lexeme) (kind : Kind) : Reader :=
  token fun first => if first.lexeme == expected then some kind else none

/-! ## Combinations -/

/-- One reader after another. -/
def andThen (first second : Reader) : Reader := fun input =>
  match first input with
  | .error failure => .error failure
  | .ok before =>
    match second before.rest with
    | .error failure => .error failure
    | .ok after => .ok (before.append after)

instance : AndThen Reader := ⟨fun first second => first.andThen (second ())⟩

/-- What is read becomes one node, whose kind may depend on its trees. -/
def nodeBy (kind : List Node → Kind) (inner : Reader) : Reader := fun input =>
  match inner input with
  | .error failure => .error failure
  | .ok reading => .ok (reading.enclosed (kind reading.forest))

/-- What is read becomes one node. -/
def node (kind : Kind) (inner : Reader) : Reader := nodeBy (fun _ => kind) inner

/-- What is read plays a part below its parent. -/
def playing (field : Field) (inner : Reader) : Reader := fun input =>
  match inner input with
  | .error failure => .error failure
  | .ok reading => .ok (reading.assigned field)

/-- A choice made by looking at the input. -/
def choose (test : List Token → Bool) (yes no : Reader) : Reader := fun input =>
  if test input then yes input else no input

/-- Reads something only where the input calls for it. -/
def when (test : List Token → Bool) (inner : Reader) : Reader := choose test inner nothing

/-- Reads items until the input says stop, at most as many as there are steps.  The
tokens of the input are steps enough, since every item takes one. -/
def itemsWithin (stop : List Token → Bool) (item : Reader) : List Token → Reader
  | [] => choose stop nothing refuse
  | _ :: steps => choose stop nothing (item >> itemsWithin stop item steps)

/-- Reads items until the input says stop. -/
def itemsUntil (stop : List Token → Bool) (item : Reader) : Reader := fun input =>
  itemsWithin stop item input input

/-- Reads items with commas between them, and perhaps one after the last; at most as
many as there are steps. -/
def commasWithin (stop : List Token → Bool) (item : Reader) : List Token → Reader
  | [] => refuse
  | _ :: steps =>
    item >> when (atSymbol ",") (symbol "," >> choose stop nothing (commasWithin stop item steps))

/-- Reads one or more items with commas between them, and perhaps one after the
last where the input then says stop. -/
def commas (stop : List Token → Bool) (item : Reader) : Reader := fun input =>
  commasWithin stop item input input

/-- Reads items with commas between them up to a closing symbol, and the symbol. -/
def listUntil (closing : String) (item : Reader) : Reader :=
  choose (atSymbol closing) nothing (commas (atSymbol closing) item) >> symbol closing

/-- Reads one or more items with commas between them. -/
def oneOrMore (item : Reader) : Reader := commas (fun _ => false) item

/-- Reads items joined by marks, at most as many as there are steps. -/
def joinedWithin (joints : List Token → Bool) (item : Reader) : List Token → Reader
  | [] => refuse
  | _ :: steps => item >> when joints (anyMark >> joinedWithin joints item steps)

/-- Reads one or more items joined by marks at which `joints` holds. -/
def joined (joints : List Token → Bool) (item : Reader) : Reader := fun input =>
  joinedWithin joints item input input

/-! ## Constructs that grow to the right -/

/-- How a construct goes on after its first part. -/
structure Growth where
  /-- The part that the tree so far plays in the larger one. -/
  field : Option Field
  /-- Reads what follows. -/
  more : Reader
  /-- The kind of the larger tree, from what followed. -/
  kind : List Node → Kind

/-- Lets a construct grow for as long as `growth` finds a way, at most as often as
there are steps. -/
def growWithin (growth : Node → List Token → Option Growth) {input : List Token} :
    List Token → Reading input → Except Failure (Reading input)
  | [], reading => .ok reading
  | _ :: steps, reading =>
    match reading.root?.bind fun root => growth root reading.rest with
    | none => .ok reading
    | some found =>
      let left := match found.field with
        | some field => reading.assigned field
        | none => reading
      match found.more left.rest with
      | .error failure => .error failure
      | .ok right => growWithin growth steps ((left.append right).enclosed (found.kind right.forest))

/-- A construct and its growth. -/
def grow (first : Reader) (growth : Node → List Token → Option Growth) : Reader := fun input =>
  match first input with
  | .error failure => .error failure
  | .ok reading => growWithin growth reading.rest reading

/-- Refuses a construct by its node and what follows it. -/
def check (test : Node → List Token → Bool) (inner : Reader) : Reader := fun input =>
  match inner input with
  | .error failure => .error failure
  | .ok reading =>
    if reading.root?.any fun root => test root reading.rest then .ok reading else .error .unexpected

/-! ## Places of failures -/

/-- The row on which the tokens before `rest` end. -/
def rowBefore (input rest : List Token) : Nat :=
  match (input.take (input.length - rest.length)).getLast? with
  | some last => last.endRow
  | none => 0

/-- A failure inside a statement is placed at the start of the statement, and a
missing mark right after the last token that was read. -/
def located (inner : Reader) : Reader := fun input =>
  match inner input with
  | .ok reading => .ok reading
  | .error (.located fault row) => .error (.located fault row)
  | .error (.missing rest) => .error (.located .missing (rowBefore input rest))
  | .error .unexpected =>
    .error (.located .error (match next? input with
      | some first => first.row
      | none => rowBefore input []))

/-- Reads a closing symbol, whose absence is a missing mark. -/
def closing (spelling : String) : Reader := fun input =>
  if atSymbol spelling input then symbol spelling input
  else if atEnd input then .error (.missing input)
  else .error .unexpected

/-- Reads the end of a statement: a semicolon, or nothing before a closing tag. -/
def semicolon : Reader := fun input =>
  match input.dropWhile fun first => first.lexeme == .comment with
  | [] => .error (.missing input)
  | first :: _ =>
    if first.lexeme == .passage then nothing input
    else if first.isSymbol ";" then symbol ";" input
    else .error (.missing input)

end Reader

end TimeoutAudit.Php
