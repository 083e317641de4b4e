import TimeoutAudit.Php.Grammar.Statement
import TimeoutAudit.Proofs.Php.Reading

/-!
# What the rules of the grammar read

An operand that is followed by a closing mark or a separator is a whole expression
(`Reads.expression`): nothing makes it grow.  Around this stand the rules for the operands that
plain calls are made of: variables, quoted strings, names, members and arguments.
-/

set_option autoImplicit false

namespace TimeoutAudit.Php

open Reader Grammar

variable {rules : Rules} {depth floor : Nat} {holes : Bool} {input middle rest : List Token}
  {start node : Node} {forest : List Node} {first second : Token}

/-! ## Looking ahead -/

theorem atSymbol_of_symbol {spelling : String} (is : first.lexeme = .symbol spelling)
    (other : String) : atSymbol other (first :: rest) = decide (spelling = other) := by
  rw [atSymbol_cons (Token.isExtra_of_symbol is), Token.isSymbol, is, Bool.eq_iff_iff]
  simp

theorem atSymbol_of_word {folded : String} (is : first.lexeme = .word folded) (spelling : String) :
    atSymbol spelling (first :: rest) = false := by
  rw [atSymbol_cons (Token.isExtra_of_word is)]
  simp [Token.isSymbol, is]

/-! ## Enclosed forests -/

theorem enclose_cons (kind : Kind) (plain : node.isExtra = false) (forest : List Node) :
    enclose kind (node :: forest) = [.ofKind kind (node :: forest)] := by
  simp [enclose, plain]

/-- A node in the part that it plays below its parent. -/
def Node.inPart (field : Field) (node : Node) : Node :=
  node.relabel fun label => { label with field := some field }

theorem assign_singleton (field : Field) (plain : node.isExtra = false) :
    assign field [node] = [node.inPart field] := by
  simp [assign, plain, Node.inPart]

theorem Reads.asNode {reader : Reader} {kind : Kind}
    (inner : Reads reader input (start :: forest) rest) (plain : start.isExtra = false) :
    Reads (Reader.node kind reader) input [.ofKind kind (start :: forest)] rest := by
  rw [← enclose_cons kind plain]
  exact inner.nodeBy

theorem Reads.asPart {reader : Reader} {field : Field} (inner : Reads reader input [node] rest)
    (plain : node.isExtra = false) :
    Reads (Reader.playing field reader) input [node.inPart field] rest := by
  rw [← assign_singleton field plain]
  exact inner.playing

/-! ## Where expressions end -/

/-- Marks behind which an expression does not go on. -/
def closers : List String := [",", ")", "]", "=>", ";"]

/-- The input starts with a mark that ends an expression. -/
def Closes (input : List Token) : Prop :=
  ∃ first others, input = first :: others ∧ ∃ spelling ∈ closers, first.lexeme = .symbol spelling

theorem closes_cons {spelling : String} (is : first.lexeme = .symbol spelling)
    (closer : spelling ∈ closers) : Closes (first :: rest) :=
  ⟨first, rest, rfl, spelling, closer, is⟩

theorem Closes.exists_next? (closes : Closes rest) :
    ∃ spelling ∈ closers, (next? rest).map Token.lexeme = some (.symbol spelling) := by
  obtain ⟨first, others, rfl, spelling, closer, is⟩ := closes
  refine ⟨spelling, closer, ?_⟩
  rw [next?_cons (Token.isExtra_of_symbol is), Option.map_some, is]

theorem Closes.operandGrowth_eq (closes : Closes rest) (root : Node) :
    operandGrowth rules root rest = none := by
  obtain ⟨spelling, closer, next⟩ := closes.exists_next?
  simp only [closers, List.mem_cons, List.not_mem_nil, or_false] at closer
  rcases closer with rfl | rfl | rfl | rfl | rfl
  all_goals
    rw [operandGrowth, next]
    exact if_neg (by simp [assignments])

theorem Closes.operatorGrowth_eq (closes : Closes rest) (root : Node) :
    operatorGrowth rules floor root rest = none := by
  obtain ⟨spelling, closer, next⟩ := closes.exists_next?
  simp only [closers, List.mem_cons, List.not_mem_nil, or_false] at closer
  rcases closer with rfl | rfl | rfl | rfl | rfl
  all_goals
    rw [operatorGrowth, next]
    rfl

/-- **An operand in front of a closing mark is an expression.** -/
theorem Reads.expression (operand : Reads (primary (rulesWithin depth)) input [start] middle)
    (grows : Grows (operandGrowth (rulesWithin depth)) middle [start] middle [node] rest)
    (filled : node.kind ≠ .pattern) (closes : Closes rest) :
    Reads (rulesWithin (depth + 1) (.expression floor holes)) input [node] rest := by
  have whole : Reads (Grammar.operand (rulesWithin depth) holes) input [node] rest := by
    refine (operand.grow grows).check ?_
    simp [filled]
  exact whole.grow (.stop (closes.operatorGrowth_eq node))

/-- The same for an operand that does not grow at all. -/
theorem Reads.operandOnly (operand : Reads (primary (rulesWithin depth)) input [node] rest)
    (filled : node.kind ≠ .pattern) (closes : Closes rest) :
    Reads (rulesWithin (depth + 1) (.expression floor holes)) input [node] rest :=
  operand.expression (.stop (closes.operandGrowth_eq node)) filled closes

/-! ## Operands -/

theorem primary_of_symbol {spelling : String} (is : first.lexeme = .symbol spelling) :
    primary rules (first :: rest) = symbolOperand rules spelling (first :: rest) := by
  simp only [primary, next?_cons (Token.isExtra_of_symbol is), Option.map_some, is]

theorem primary_of_word {folded : String} (is : first.lexeme = .word folded) :
    primary rules (first :: rest) = wordOperand rules folded (first :: rest) := by
  simp only [primary, next?_cons (Token.isExtra_of_word is), Option.map_some, is]

/-- The tree of a variable. -/
def Node.ofVariable (dollar word : Token) : Node :=
  .ofKind .variable [.ofToken .mark dollar, .ofToken .name word]

theorem reads_variable {folded : String} (dollar : first.lexeme = .symbol "$")
    (word : second.lexeme = .word folded) :
    Reads (primary rules) (first :: second :: rest) [.ofVariable first second] rest := by
  rw [Reads, primary_of_symbol dollar]
  have named : Reads (simpleVariable rules) (first :: second :: rest) [.ofVariable first second]
      rest := by
    refine .choose_yes ?_ (.asNode ((Reads.symbol dollar).andThen (.word word)) rfl)
    rw [second?_cons (Token.isExtra_of_symbol dollar), next?_cons (Token.isExtra_of_word word)]
    simp [isWord, word]
  exact named

theorem reads_quoted (quoted : first.lexeme = .quoted) :
    Reads (primary rules) (first :: rest) [.ofToken .string first] rest := by
  have plain : first.isExtra = false := by rw [Token.isExtra, quoted]
  have read : Reads (Reader.lexeme .quoted .string) (first :: rest) [.ofToken .string first]
      rest := by
    rw [← quoted]
    exact .lexeme plain
  rw [Reads]
  simp only [primary, next?_cons plain, Option.map_some, quoted]
  exact read

/-! ## Names -/

theorem reads_name {folded : String} (word : first.lexeme = .word folded)
    (single : (next? rest).any (·.isSymbol "\\") = false) :
    Reads name (first :: rest) [.ofToken .name first] rest := by
  have plain := Token.isExtra_of_word word
  have notRooted : atSymbol "\\" (first :: rest) = false := atSymbol_of_word word "\\"
  refine .choose_no notRooted (.choose_no ?_ (.word word))
  rw [notRooted, second?_cons plain, single, Bool.or_false]

/-- The tree of a name behind a backslash. -/
def Node.ofRooted (backslash word : Token) : Node :=
  .ofKind .qualifiedName [.ofToken .mark backslash, .ofToken .name word]

theorem reads_rootedName {folded : String} (backslash : first.lexeme = .symbol "\\")
    (word : second.lexeme = .word folded) (single : atSymbol "\\" rest = false) :
    Reads name (first :: second :: rest) [.ofRooted first second] rest := by
  have segments : Reads Grammar.segments rest [] rest := by
    refine Reads.items_stop ?_
    rw [single, Bool.false_and, Bool.not_false]
  refine .choose_yes ?_ (.asNode ((Reads.symbol backslash).andThen
    ((Reads.word word).andThen segments)) rfl)
  rw [atSymbol_of_symbol backslash, decide_eq_true rfl]

/-! ## Members and calls -/

/-- The tree of arguments, as a part of a call. -/
def Node.ofArguments (children : List Node) : Node :=
  (Node.ofKind .arguments children).inPart .arguments

theorem reads_callArguments (opening : first.lexeme = .symbol "(")
    (positional : atPlaceholder input = false)
    (list : Reads (listUntil ")" (argument rules)) input forest rest) :
    Reads (callArguments rules) (first :: input)
      [.ofArguments (.ofToken .mark first :: forest)] rest := by
  have inner : Reads (arguments rules) (first :: input)
      [.ofKind .arguments (.ofToken .mark first :: forest)] rest :=
    .asNode ((Reads.symbol opening).andThen (.choose_no positional list)) rfl
  exact inner.asPart rfl

/-- The trees of a called member: its arrow, its name and its arguments. -/
theorem reads_memberAccess {folded : String} {arrow : String} {arguments : Node}
    (mark : first.lexeme = .symbol arrow) (word : second.lexeme = .word folded)
    (called : atSymbol "(" input = true)
    (list : Reads (callArguments rules) input [arguments] rest) :
    Reads (memberAccess rules) (first :: second :: input)
      [.ofToken .mark first, (Node.ofToken .name second).inPart .name, arguments] rest := by
  have named : Reads (memberName rules) (second :: input)
      [(Node.ofToken .name second).inPart .name] input := by
    refine .choose_no (atSymbol_of_word word _) (.choose_no (atSymbol_of_word word _) ?_)
    exact (Reads.word word).asPart rfl
  exact (Reads.anyMark (Token.isExtra_of_symbol mark)).andThen
    (named.andThen (.choose_yes called list))

/-- A tree grows by one part behind it. -/
theorem Grows.more {growth : Node → List Token → Option Growth} {found : Growth} {field : Field}
    {one : Token} {steps : List Token} {trees after : List Node}
    (goesOn : growth node input = some found) (playsPart : found.field = some field)
    (plain : node.isExtra = false) (reads : Reads found.more input trees middle)
    (others : Grows growth steps [.ofKind (found.kind trees) (node.inPart field :: trees)] middle
      after rest) :
    Grows growth (one :: steps) [node] input after rest := by
  refine .step goesOn reads ?_
  have extra : (node.inPart field).isExtra = false := by
    cases node
    exact plain
  rw [playsPart, Grows.part, assign_singleton field plain, List.singleton_append,
    enclose_cons _ extra]
  exact others

/-- The tree of a call of a function. -/
def Node.ofFunctionCall (callee : Node) (arguments : List Node) : Node :=
  .ofKind .functionCall [callee.inPart .callee, .ofArguments arguments]

/-- The tree of a call of a member: what it belongs to, the mark in front of it and its name. -/
def Node.ofMemberCall (kind : Kind) (field : Field) (object : Node) (mark word : Token)
    (arguments : List Node) : Node :=
  .ofKind kind [object.inPart field, .ofToken .mark mark, (Node.ofToken .name word).inPart .name,
    .ofArguments arguments]

theorem grows_functionCall {one : Token} {steps : List Token} {arguments : List Node}
    (opening : first.lexeme = .symbol "(") (callable : isCallable node.kind = true)
    (plain : node.isExtra = false)
    (list : Reads (callArguments rules) (first :: input) [.ofArguments arguments] rest)
    (closes : Closes rest) :
    Grows (operandGrowth rules) (one :: steps) [node] (first :: input)
      [.ofFunctionCall node arguments] rest := by
  have goesOn : operandGrowth rules node (first :: input) =
      some ⟨some .callee, callArguments rules, fun _ => .functionCall⟩ := by
    simp only [operandGrowth, next?_cons (Token.isExtra_of_symbol opening), Option.map_some,
      opening, callable, if_true]
  exact .more goesOn rfl plain list (.stop (closes.operandGrowth_eq _))

/-- How a member behind an arrow or a scope is called: the part that the object plays, and the kind
of the call. -/
def calledMember : String → Option (Field × Kind)
  | "->" => some (.object, .methodCall)
  | "?->" => some (.object, .nullsafeMethodCall)
  | "::" => some (.scope, .staticCall)
  | _ => none

theorem operandGrowth_member {arrow : String} {field : Field} {kind : Kind}
    (mark : first.lexeme = .symbol arrow) (how : calledMember arrow = some (field, kind))
    (members : hasMembers node.kind = true) :
    ∃ kindOf, operandGrowth rules node (first :: input) =
        some ⟨some field, memberAccess rules, kindOf⟩ ∧
      ∀ one two arguments, kindOf [one, two, .ofArguments arguments] = kind := by
  have next : (next? (first :: input)).map Token.lexeme = some (.symbol arrow) := by
    rw [next?_cons (Token.isExtra_of_symbol mark), Option.map_some, mark]
  unfold calledMember at how
  split at how
  case h_4 => cases how
  all_goals
    cases how
    simp only [operandGrowth, next, members, if_true]
    exact ⟨_, rfl, fun _ _ _ => rfl⟩

/-- An operand grows by a call of one of its members. -/
theorem grows_memberCall {one : Token} {steps : List Token} {after : List Node}
    {arguments : List Node} {arrow folded : String} {field : Field} {kind : Kind}
    (mark : first.lexeme = .symbol arrow) (how : calledMember arrow = some (field, kind))
    (members : hasMembers node.kind = true) (plain : node.isExtra = false)
    (word : second.lexeme = .word folded) (called : atSymbol "(" input = true)
    (list : Reads (callArguments rules) input [.ofArguments arguments] middle)
    (others : Grows (operandGrowth rules) steps
      [.ofMemberCall kind field node first second arguments] middle after rest) :
    Grows (operandGrowth rules) (one :: steps) [node] (first :: second :: input) after rest := by
  obtain ⟨kindOf, goesOn, kinds⟩ := operandGrowth_member mark how members
  refine .more goesOn rfl plain (reads_memberAccess mark word called list) ?_
  dsimp only
  rw [kinds]
  exact others

/-! ## Arguments and entries -/

/-- The input starts with a variable, a quoted string or an array. -/
def Opens (input : List Token) : Prop :=
  ∃ first others, input = first :: others ∧
    (first.lexeme = .symbol "$" ∨ first.lexeme = .quoted ∨ first.lexeme = .symbol "[")

theorem Opens.next? (opens : Opens input) :
    ∃ first, Reader.next? input = some first ∧
      (first.lexeme = .symbol "$" ∨ first.lexeme = .quoted ∨ first.lexeme = .symbol "[") := by
  obtain ⟨first, others, rfl, starts⟩ := opens
  refine ⟨first, next?_cons ?_, starts⟩
  rcases starts with is | is | is
  all_goals rw [Token.isExtra, is]

theorem Opens.atSymbol_eq (opens : Opens input) {spelling : String} (notVariable : spelling ≠ "$")
    (notArray : spelling ≠ "[") : atSymbol spelling input = false := by
  obtain ⟨first, next, starts⟩ := opens.next?
  rw [atSymbol, next, Option.any_some, Token.isSymbol]
  rcases starts with is | is | is
  all_goals simp [is, notVariable.symm, notArray.symm]

theorem Opens.not_word (opens : Opens input) : (Reader.next? input).any isWord = false := by
  obtain ⟨first, next, starts⟩ := opens.next?
  rw [next, Option.any_some, isWord]
  rcases starts with is | is | is
  all_goals rw [is]

theorem reads_argument (opens : Opens input) (value : Reads (expression rules) input [node] rest)
    (plain : node.isExtra = false) :
    Reads (argument rules) input [.ofKind .argument [node]] rest := by
  have unnamed : atArgumentName input = false := by
    rw [atArgumentName, opens.not_word, Bool.false_and, Bool.false_and]
  have byValue : atSymbol "&" input = false := opens.atSymbol_eq (by decide) (by decide)
  have single : atSymbol "..." input = false := opens.atSymbol_eq (by decide) (by decide)
  exact .asNode ((Reads.when_no unnamed).andThen
    ((Reads.when_no byValue).andThen (.choose_no single value))) plain

/-- The tree of an entry with a key. -/
def Node.ofEntry (key : Node) (arrow : Token) (value : Node) : Node :=
  .ofKind .arrayElement [key, .ofToken .mark arrow, value]

theorem reads_entry {key value : Node} (opensKey : Opens input)
    (readsKey : Reads (rules (.expression 0 true)) input [key] (first :: middle))
    (arrow : first.lexeme = .symbol "=>") (opensValue : Opens middle)
    (readsValue : Reads (rules (.expression 0 true)) middle [value] rest)
    (plain : key.isExtra = false) :
    Reads (element rules) input [.ofEntry key first value] rest := by
  have unmarked {input : List Token} {node : Node} {rest : List Token} (opens : Opens input)
      (reads : Reads (rules (.expression 0 true)) input [node] rest) :
      Reads (elementValue rules) input [node] rest :=
    .choose_no (opens.atSymbol_eq (by decide) (by decide)) reads
  refine .choose_no (opensKey.atSymbol_eq (by decide) (by decide)) (.asNode ?_ plain)
  refine .choose_no (opensKey.atSymbol_eq (by decide) (by decide)) ?_
  refine (unmarked opensKey readsKey).andThen (.choose_yes ?_ ((Reads.symbol arrow).andThen
    (unmarked opensValue readsValue)))
  rw [atSymbol_of_symbol arrow, decide_eq_true rfl]

theorem reads_array (opening : first.lexeme = .symbol "[")
    (list : Reads (listUntil "]" (element rules)) input forest rest)
    (filled : ∀ child ∈ forest, child.kind ≠ .hole) :
    Reads (primary rules) (first :: input) [.ofKind .array (.ofToken .mark first :: forest)]
      rest := by
  have kind : arrayKind (.ofToken .mark first :: forest) = .array := by
    rw [arrayKind, if_neg]
    simp only [List.any_eq_true, List.mem_cons, beq_iff_eq, not_exists, not_and]
    rintro child (rfl | later)
    · exact Kind.noConfusion
    · exact filled child later
  have bracketed : Reads (bracketArray rules) (first :: input)
      [.ofKind .array (.ofToken .mark first :: forest)] rest := by
    have whole : Reads (bracketArray rules) (first :: input) _ rest :=
      ((Reads.symbol opening).andThen list).nodeBy
    rwa [List.singleton_append, kind, enclose_cons .array rfl] at whole
  rw [Reads, primary_of_symbol opening]
  exact bracketed

/-! ## Statements -/

theorem reads_semicolon (ends : first.lexeme = .symbol ";") :
    Reads semicolon (first :: rest) [.ofToken .mark first] rest := by
  have same : semicolon (first :: rest) = Reader.symbol ";" (first :: rest) := by
    simp [semicolon, ends, Token.isSymbol]
  rw [Reads, same]
  exact Reads.symbol ends

/-- The tree of an expression as a statement. -/
def Node.ofStatement (expression : Node) (semicolon : Token) : Node :=
  .ofKind .expressionStatement [expression, .ofToken .mark semicolon]

theorem reads_expressionStatement (reads : Reads (expression rules) input [node] (first :: rest))
    (ends : first.lexeme = .symbol ";") (plain : node.isExtra = false) :
    Reads (expressionStatement rules) input [.ofStatement node first] rest :=
  .asNode (reads.andThen (reads_semicolon ends)) plain

theorem reads_statement_of_symbol {spelling : String} (is : first.lexeme = .symbol spelling)
    (plain : spelling ∉ ["#[", "\x7b", ";"])
    (reads : Reads (expressionStatement rules) (first :: input) forest rest) :
    Reads (statement rules) (first :: input) forest rest := by
  simp only [List.mem_cons, List.not_mem_nil, or_false, not_or] at plain
  obtain ⟨notAttribute, notBlock, notEmpty⟩ := plain
  refine .located ?_
  rw [Reads, pastAttributes, atSymbol_of_symbol is, decide_eq_false notAttribute,
    if_neg Bool.false_ne_true, next?_cons (Token.isExtra_of_symbol is), Option.map_some, is]
  split
  · next same => cases same
  · next same =>
      cases same
      exact absurd rfl notBlock
  · next same =>
      cases same
      exact absurd rfl notEmpty
  · exact reads

theorem reads_statement_of_word {folded : String} (is : first.lexeme = .word folded)
    (reads : Reads (wordStatement rules folded) (first :: input) forest rest) :
    Reads (statement rules) (first :: input) forest rest := by
  refine .located ?_
  rw [Reads, pastAttributes, atSymbol_of_word is, if_neg Bool.false_ne_true,
    next?_cons (Token.isExtra_of_word is), Option.map_some, is]
  exact reads

/-- A file is its opening tag and the statements behind it. -/
theorem reads_program (tag : first.lexeme = .tag)
    (statements : Reads (itemsUntil atEnd (rules .statement)) input forest []) :
    Reads (program rules) (first :: input) [.ofKind .program (.ofToken .tag first :: forest)]
      [] := by
  have plain : first.isExtra = false := by rw [Token.isExtra, tag]
  have noText : (next? (first :: input)).any (fun first => first.lexeme == .text) = false := by
    rw [next?_cons plain, Option.any_some, tag]
    rfl
  have goesOn : atEnd (first :: input) = false := by
    rw [atEnd, skipExtras_cons plain, List.isEmpty_cons]
  have opens : Reads (Reader.lexeme .tag .tag) (first :: input) [.ofToken .tag first] input := by
    rw [← tag]
    exact .lexeme plain
  have extras : Reads Reader.extras [] [] [] := ⟨rfl, rfl⟩
  refine .asNode (Reads.andThen (.when_no noText) ?_) rfl
  rw [← List.append_nil (_ :: forest)]
  exact (Reads.choose_no goesOn (opens.andThen statements)).andThen extras

end TimeoutAudit.Php
