import TimeoutAudit.Proofs.Php.GroundedReaders

/-!
# Every call of a file has a token

Call nodes come up at one place of the grammar: an operand grows by the arguments or the member
behind it, and these start with a mark (`Grammar.consumes_callArguments`,
`Grammar.consumes_memberAccess`).  All other rules are put together from grounded readers without
a call of their own, so instance search goes through them.  By induction on how deeply constructs
nest, the grammar builds grounded trees only (`Grammar.grounded_rulesWithin`), and so a call in a
file that was parsed has a token (`tokens_ne_nil_of_isCall`).
-/

set_option autoImplicit false

namespace TimeoutAudit.Php

namespace Grammar

open Reader

/-! ## What makes a call -/

theorem consumes_callArguments (rules : Rules) : Consumes (callArguments rules) :=
  .playing (.node (.andThen (.symbol "(")) fun _ => rfl) .arguments

theorem consumes_memberAccess (rules : Rules) : Consumes (memberAccess rules) := .andThen .anyMark

/-! ## Names and arguments -/

instance : Grounded segments := by unfold segments; infer_instance

instance : Grounded name := by unfold name; infer_instance

instance : Grounded type := by unfold type typeAtom; infer_instance

instance : Grounded resultType := by unfold resultType; infer_instance

instance : Grounded plainVariable := by unfold plainVariable; infer_instance

variable (rules : Rules) [∀ goal, Grounded (rules goal)]

instance : Grounded (expression rules) := by unfold expression; infer_instance

instance : Grounded (braced rules) := by unfold braced; infer_instance

instance : Grounded (simpleVariable rules) := by unfold simpleVariable; infer_instance

instance : Grounded (arguments rules) := by unfold arguments argument; infer_instance

instance : Grounded (attributes rules) := by unfold attributes attributeGroup; infer_instance

/-! ## Functions and classes -/

instance : Grounded (block rules) := by unfold block; infer_instance

instance : Grounded modifiers := by unfold modifiers modifier; infer_instance

instance : Grounded (defaultValue rules) := by unfold defaultValue; infer_instance

instance (hooks : Reader) [Grounded hooks] : Grounded (parametersWith rules hooks) := by
  unfold parametersWith parameterWith
  infer_instance

instance : Grounded (hooks rules) := by unfold hooks hookBody; infer_instance

instance : Grounded (parameters rules) := by unfold parameters; infer_instance

instance : Grounded (functionHead rules) := by unfold functionHead; infer_instance

instance : Grounded (closure rules) := by
  unfold closure closureUses
  refine Grounded.nodeBy fun forest => ?_
  split <;> rfl

instance : Grounded (constant rules) := by unfold constant; infer_instance

instance : Grounded (properties rules) := by unfold properties; infer_instance

instance : Grounded traitUse := by unfold traitUse traitRule traitMethod modifier; infer_instance

instance : Grounded (member rules) := by
  unfold member constants modifier
  refine Grounded.nodeBy fun forest => ?_
  unfold memberKind
  split
  · rfl
  · split <;> rfl

instance (cases : Bool) : Grounded (members rules cases) := by
  unfold members enumCase
  infer_instance

instance (introduction : String) : Grounded (bases introduction) := by unfold bases; infer_instance

instance : Grounded (classBody rules) := by unfold classBody; infer_instance

/-! ## Operands -/

instance : Growing interpolationGrowth where
  grounded root input := by
    unfold interpolationGrowth plainSubscript
    exact .of_ite (.noCall fun _ => rfl) (.of_ite (.noCall fun _ => rfl) .of_none)

instance (opening : String) (ending : List Token → Bool) :
    Grounded (template rules opening ending) := by
  unfold template templatePart
  infer_instance

instance : Grounded (elementValue rules) := by unfold elementValue; infer_instance

instance : Grounded (element rules) := by unfold element; infer_instance

instance : Grounded (bracketArray rules) := by
  unfold bracketArray
  refine Grounded.nodeBy fun forest => ?_
  unfold arrayKind
  split <;> rfl

instance : Grounded (parenthesized rules) := by unfold parenthesized; infer_instance

instance : Growing (classGrowth rules) where
  grounded root input := by
    unfold classGrowth
    split
    · exact .of_none
    · exact .of_ite (.noCall fun _ => rfl)
        (.of_ite (.noCall fun _ => rfl) (.of_ite (.noCall fun _ => rfl) .of_none))

instance : Grounded (creation rules) := by unfold creation classReference; infer_instance

instance : Grounded (matchExpression rules) := by
  unfold matchExpression matchArm
  infer_instance

instance : Grounded (yieldExpression rules) := by unfold yieldExpression; infer_instance

instance : Grounded relativeClass := by unfold relativeClass; infer_instance

instance (folded : String) : Grounded (wordOperand rules folded) := by
  unfold wordOperand wordArray listPattern
  split <;> infer_instance

instance (spelling : String) : Grounded (symbolOperand rules spelling) := by
  unfold symbolOperand castExpression
  split <;> infer_instance

instance : Grounded (primary rules) := .of_forall_input fun input => by
  unfold primary
  split <;> exact ⟨_, inferInstance, rfl⟩

/-! ## Calls -/

instance : Grounded (callArguments rules) := by unfold callArguments; infer_instance

instance : Grounded (memberAccess rules) := by unfold memberAccess memberName; infer_instance

-- Of the marks behind an operand, a parenthesis and the two arrows can make a call.
instance : Growing (operandGrowth rules) where
  grounded root input := by
    unfold operandGrowth
    dsimp only
    split
    case h_1 => exact .of_ite (.consuming (consumes_callArguments rules)) .of_none
    case h_3 => exact .of_ite (.consuming (consumes_memberAccess rules)) .of_none
    case h_4 => exact .of_ite (.consuming (consumes_memberAccess rules)) .of_none
    case h_5 => exact .of_ite (.consuming (consumes_memberAccess rules)) .of_none
    case h_9 => exact .of_none
    all_goals exact .of_ite (.noCall fun _ => rfl) .of_none

instance (holes : Bool) : Grounded (operand rules holes) := by unfold operand; infer_instance

instance (floor : Nat) : Growing (operatorGrowth rules floor) where
  grounded root input := by
    unfold operatorGrowth
    split
    · exact .of_ite (.noCall fun _ => rfl) .of_none
    · split
      · exact .of_ite (.noCall fun _ => rfl) .of_none
      · exact .of_none
    · exact .of_none

instance (floor : Nat) (holes : Bool) : Grounded (expressionFrom rules floor holes) := by
  unfold expressionFrom
  infer_instance

/-! ## Statements -/

instance (ends : List String) : Grounded (statementsUntil rules ends) := by
  unfold statementsUntil
  infer_instance

instance (ending : String) : Grounded (body rules ending) := by
  unfold body colonBody
  infer_instance

instance : Grounded (ifStatement rules) := by
  unfold ifStatement colonBranches plainBranches
  infer_instance

instance : Grounded (switchStatement rules) := by
  unfold switchStatement switchCase
  infer_instance

instance : Grounded (forStatement rules) := by unfold forStatement forPart; infer_instance

instance : Grounded (tryStatement rules) := by unfold tryStatement; infer_instance

instance : Grounded useDeclaration := by
  unfold useDeclaration importItem importClause
  infer_instance

instance : Grounded (expressionStatement rules) := by unfold expressionStatement; infer_instance

instance (folded : String) : Grounded (wordStatement rules folded) := by
  unfold wordStatement whileStatement doStatement foreachStatement withOptionalValue
    declareStatement exitStatement unsetStatement functionDefinition classDeclaration
    interfaceDeclaration traitDeclaration enumDeclaration namespaceDefinition globalDeclaration
    staticDeclaration
  split <;> infer_instance

instance : Grounded (statement rules) := by
  unfold statement
  refine @Grounded.located _ (.of_forall_input fun input => ?_)
  split <;> exact ⟨_, inferInstance, rfl⟩

instance : Grounded (program rules) := by unfold program; infer_instance

/-- **The grammar builds no call without a token**, however deeply constructs nest. -/
theorem grounded_rulesWithin : ∀ (depth : Nat) (goal : Goal), Grounded (rulesWithin depth goal)
  | 0, _ => .refuse
  | depth + 1, .expression floor holes => by
      have := grounded_rulesWithin depth
      rw [rulesWithin]
      infer_instance
  | depth + 1, .statement => by
      have := grounded_rulesWithin depth
      rw [rulesWithin]
      infer_instance

end Grammar

/-! ## Files -/

theorem grounded_treeOfTokens (input : List Token) : (treeOfTokens input).Grounded := by
  have faulty (fault : Fault) (row : Nat) : (faultyProgram fault row).Grounded := by
    refine .ofKind (fun isCall => nomatch isCall) ?_
    exact List.forall_mem_singleton.mpr (.ofToken _ _)
  have rules := Grammar.grounded_rulesWithin (nestingBound input.length)
  unfold treeOfTokens
  split
  · exact faulty _ _
  · exact faulty _ _
  · next reading read =>
      split
      · next root _ last => exact Reader.Grounded.trees read root (List.mem_of_getLast? last)
      · exact faulty _ _
      · exact faulty _ _

/-- **Every call of a file has a token.** -/
theorem tokens_ne_nil_of_isCall {path : String} {source : List UInt8} {file : ParsedFile}
    (parsed : parse path source = .ok file) {node : Node} (member : node ∈ file.tree.subtrees)
    (isCall : node.kind.isCall = true) : node.tokens ≠ [] := by
  unfold parse at parsed
  dsimp only at parsed
  split at parsed
  · cases parsed
  · cases parsed
    exact grounded_treeOfTokens _ node member isCall

end TimeoutAudit.Php
