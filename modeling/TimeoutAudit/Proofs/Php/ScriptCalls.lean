import TimeoutAudit.Proofs.Php.Places
import TimeoutAudit.Proofs.Php.ScriptReading

/-!
# Reading the calls of a script

A statement of a script is read as one tree without faults whose only call is the call that the
statement says (`Statement.reads`).  The argument goes along the source.  The trees between the
parentheses give the arguments back (`reads_argumentPieces`); a name that is free is read as a name,
not as a keyword (`reads_freeName`); and what is called is read with its list of arguments as one
node (`Target.reads`), of which `Target.CalledBy` says what the later steps use: its kind, the call
that is read off it, and that there is no call below it.
-/

set_option autoImplicit false

namespace TimeoutAudit.Php

/-! ## Nodes in their parts -/

namespace Node

variable (field : Field) (node : Node)

@[simp] theorem label_inPart :
    (node.inPart field).label = { node.label with field := some field } := by
  cases node
  rfl

@[simp] theorem children_inPart : (node.inPart field).children = node.children := by
  cases node
  rfl

@[simp] theorem kind_inPart : (node.inPart field).kind = node.kind := by
  cases node
  rfl

@[simp] theorem text_inPart : (node.inPart field).text = node.text := by
  rw [text, text, inPart, tokens_relabel_field]

@[simp] theorem receiverOf_inPart :
    CallSite.receiverOf (node.inPart field) = CallSite.receiverOf node := by
  simp only [CallSite.receiverOf, kind_inPart, text_inPart, child?, children_inPart]

theorem child?_here (kind : Kind) (others : List Node) :
    (ofKind kind (node.inPart field :: others)).child? field = some (node.inPart field) := by
  have plays : ((node.inPart field).label.field == some field) = true := by simp
  exact List.find?_cons_of_pos plays

theorem child?_later (kind : Kind) (differs : node.label.field ≠ some field) (others : List Node) :
    (ofKind kind (node :: others)).child? field = (ofKind kind others).child? field := by
  have passed : ¬(node.label.field == some field) = true := by simp [differs]
  exact List.find?_cons_of_neg passed

end Node

namespace Script

open Reader Grammar Spaced

/-! ## Arguments -/

/-- A node is that of an argument. -/
structure ArgumentAs (value : Value) (node : Node) : Prop where
  kind : node.kind = .argument
  argument : CallSite.argumentOf node = ⟨none, value.denoted⟩
  silent : node.Silent

theorem argumentAs_ofKind {value : Value} {node : Node} (readAs : value.ReadAs node) :
    ArgumentAs value (.ofKind .argument [node]) where
  kind := rfl
  argument := by
    have notName : (node.label.field == some Field.name) = false := by
      rw [readAs.plays]
      rfl
    have notModifier : node.kind ≠ .referenceModifier := by
      rw [readAs.kind]
      cases value <;> exact Kind.noConfusion
    have children : (Node.ofKind .argument [node]).children = [node] := rfl
    simp [CallSite.argumentOf, Node.child?, children, notName, notModifier, readAs.isNamed,
      readAs.denoted, bne]
  silent := by
    refine .node ?_ rfl
    intro child member
    obtain rfl := List.mem_singleton.mp member
    exact readAs.silent

/-- The trees between the parentheses of a call are those of the values. -/
structure Passes (values : List Value) (forest : List Node) : Prop where
  arguments : (forest.filter fun node => node.kind == .argument).map CallSite.argumentOf =
    values.map fun value => ⟨none, value.denoted⟩
  silent : ∀ node ∈ forest, node.Silent

theorem passes_of_forall₂ {values : List Value} {nodes forest : List Node}
    (areRight : List.Forall₂ ArgumentAs values nodes) (interleaves : Interleaves nodes forest) :
    Passes values forest where
  arguments := by
    have picked : (forest.filter fun node => node.kind == .argument) = nodes :=
      interleaves.filter_kind Kind.noConfusion
        (forall_of_forall₂ areRight fun _ _ isRight => isRight.kind)
    rw [picked, ← List.filterMap_eq_map]
    exact filterMap_of_forall₂ areRight fun _ _ isRight => congrArg some isRight.argument
  silent := interleaves.forall_mem (Node.Silent.ofToken rfl)
    (forall_of_forall₂ areRight fun _ _ isRight => isRight.silent)

theorem readsPhrase_argument {value : Value} {depth : Nat} (isRead : value.IsRead depth) :
    ReadsPhrase (argument (rulesWithin depth)) value.pieces (ArgumentAs value) := by
  refine ⟨value.opens, ?_⟩
  intro row gap rest closes
  obtain ⟨node, reads, readAs⟩ := (isRead 0 false).reads row gap rest closes
  exact ⟨_, reads_argument (value.opens row gap rest) reads readAs.isExtra,
    argumentAs_ofKind readAs⟩

/-- **The arguments of a call are read.** -/
theorem reads_argumentPieces {values : List Value} {depth : Nat}
    (areRead : ∀ value ∈ values, value.IsRead depth) (row : Nat) (rest : List Token) :
    ∃ forest, Reads (callArguments (rulesWithin depth)) (lay row (argumentPieces values) ++ rest)
      [.ofArguments forest] rest ∧ Passes values forest := by
  obtain ⟨row₁, row₂, split⟩ : ∃ row₁ row₂, lay row (argumentPieces values) =
      (ofMark [] "(").token row :: (lay row₁ (separated [] (values.map Value.pieces)) ++
        [(ofMark [] ")").token row₂]) := by
    rw [argumentPieces, lay, lay_append]
    exact ⟨_, _, rfl⟩
  have each : ∀ value ∈ values,
      ReadsPhrase (argument (rulesWithin depth)) value.pieces (ArgumentAs value) :=
    fun value member => readsPhrase_argument (areRead value member)
  obtain ⟨nodes, forest, reads, areRight, interleaves⟩ := reads_list List.mem_cons_self
    (show ((ofMark [] ")").token row₂).lexeme = .symbol ")" from rfl) each row₁
  rw [split, List.cons_append, List.append_assoc, List.singleton_append]
  have positional : atPlaceholder (lay row₁ (separated [] (values.map Value.pieces)) ++
      (ofMark [] ")").token row₂ :: rest) = false := by
    rw [atPlaceholder, Bool.and_eq_false_iff]
    left
    cases values with
    | nil => rfl
    | cons value others =>
        obtain ⟨tail, front⟩ := separated_cons [] value.pieces (others.map Value.pieces)
        rw [List.map_cons, front, lay_append, List.append_assoc]
        exact (value.opens _ _ _).atSymbol_eq (by decide) (by decide)
  exact ⟨_, reads_callArguments rfl positional reads,
    passes_of_forall₂ areRight (.mark _ interleaves)⟩

/-! ## Calls -/

section Calls

variable {callee object : Node} {arrow word : Token} {forest : List Node}

theorem child?_callee :
    (Node.ofFunctionCall callee forest).child? .callee = some (callee.inPart .callee) :=
  Node.child?_here _ _ _ _

theorem child?_functionArguments :
    (Node.ofFunctionCall callee forest).child? .arguments = some (.ofArguments forest) := by
  rw [Node.ofFunctionCall, Node.child?_later _ _ _ (by simp)]
  exact Node.child?_here _ _ _ _

section Members

variable {kind : Kind} {field : Field}

theorem child?_object :
    (Node.ofMemberCall kind field object arrow word forest).child? field =
      some (object.inPart field) :=
  Node.child?_here _ _ _ _

theorem child?_name (differs : field ≠ .name) :
    (Node.ofMemberCall kind field object arrow word forest).child? .name =
      some ((Node.ofToken .name word).inPart .name) := by
  rw [Node.ofMemberCall, Node.child?_later _ _ _ (by simpa using differs),
    Node.child?_later _ _ _ (by simp [Node.ofToken, Tree.label])]
  exact Node.child?_here _ _ _ _

theorem child?_arguments (differs : field ≠ .arguments) :
    (Node.ofMemberCall kind field object arrow word forest).child? .arguments =
      some (.ofArguments forest) := by
  rw [Node.ofMemberCall, Node.child?_later _ _ _ (by simpa using differs),
    Node.child?_later _ _ _ (by simp [Node.ofToken, Tree.label]), Node.child?_later _ _ _ (by simp)]
  exact Node.child?_here _ _ _ _

end Members

/-- The arguments of a call are read off its part for them. -/
theorem argumentsOf_eq {call : Node} (part : call.child? .arguments = some (.ofArguments forest)) :
    CallSite.argumentsOf call =
      (forest.filter fun node => node.kind == .argument).map CallSite.argumentOf := by
  rw [CallSite.argumentsOf, part]
  rfl

theorem ofNode?_functionCall (named : CallSite.isPlainName callee.kind = true) :
    CallSite.ofNode? (.ofFunctionCall callee forest) =
      some {
        kind := .function
        name := CallSite.trimLeading '\\' callee.text
        receiver := none
        arguments := (forest.filter fun node => node.kind == .argument).map CallSite.argumentOf
        line := lineOf (.ofFunctionCall callee forest) } := by
  show CallSite.ofFunctionCall? _ = _
  rw [CallSite.ofFunctionCall?, child?_callee]
  dsimp only
  rw [Node.kind_inPart, if_pos named, Node.text_inPart, argumentsOf_eq child?_functionArguments]

theorem ofNode?_methodCall {kind : Kind} (is : kind = .methodCall ∨ kind = .nullsafeMethodCall) :
    CallSite.ofNode? (.ofMemberCall kind .object object arrow word forest) =
      some {
        kind := .method
        name := (Node.ofToken .name word).text
        receiver := some (CallSite.receiverOf object)
        arguments := (forest.filter fun node => node.kind == .argument).map CallSite.argumentOf
        line := lineOf (.ofMemberCall kind .object object arrow word forest) } := by
  have called : CallSite.ofNode? (.ofMemberCall kind .object object arrow word forest) =
      CallSite.ofMethodCall? (.ofMemberCall kind .object object arrow word forest) := by
    rcases is with rfl | rfl
    · rfl
    · rfl
  have isName : (((Node.ofToken .name word).inPart .name).kind == .name) = true := rfl
  rw [called, CallSite.ofMethodCall?, child?_name (by decide)]
  dsimp only
  rw [if_pos isName, Node.text_inPart, child?_object, Option.map_some, Node.receiverOf_inPart,
    argumentsOf_eq (child?_arguments (by decide)), Option.getD_some]

theorem receiverOf_staticCall (named : CallSite.isPlainName callee.kind = true) :
    CallSite.receiverOf (.ofMemberCall .staticCall .scope callee arrow word forest) =
      .staticCall (CallSite.trimLeading '\\' callee.text) := by
  have kind :
      (Node.ofMemberCall .staticCall .scope callee arrow word forest).kind = .staticCall := rfl
  rw [CallSite.receiverOf, kind]
  dsimp only
  rw [child?_object, child?_name (by decide)]
  dsimp only
  rw [Node.kind_inPart, named, Node.text_inPart]
  rfl

end Calls

/-! ## Names as nodes -/

theorem text_ofName (row : Nat) (gap : List Glyph) (name : String) :
    (Node.ofToken .name ((ofName gap name).token row)).text = name := by
  apply text_eq
  rw [tokens_ofToken, Token.span, List.flatMap_nil, List.append_nil, Spaced.token, ofName]

/-- The text of two tokens that stand close together. -/
theorem text_ofKind_pair (kind first second : Kind) (row row' : Nat) (gap : List Glyph)
    (mark name : String) :
    (Node.ofKind kind [.ofToken first ((ofMark gap mark).token row),
      .ofToken second ((ofName [] name).token row')]).text = mark ++ name := by
  apply text_eq
  rw [tokens_ofKind, forestTokens_cons, forestTokens_cons, forestTokens_nil, tokens_ofToken,
    tokens_ofToken, ofString_append]
  simp only [List.append_nil, List.singleton_append, Token.span, List.flatMap_cons,
    List.flatMap_nil, Token.source, Spaced.token, ofMark, ofName, List.nil_append]

theorem dropWhile_identifier (identifier : Identifier) {c : Char}
    (other : (c.isAlpha || c == '_') = false) :
    identifier.text.toList.dropWhile (· == c) = identifier.text.toList := by
  have valid := identifier.valid
  unfold isIdentifier at valid
  split at valid
  · cases valid
  · next first others spelled =>
      rw [Bool.and_eq_true] at valid
      have differs : first ≠ c := by
        rintro rfl
        rw [other] at valid
        exact absurd valid.1 Bool.false_ne_true
      rw [spelled, List.dropWhile_cons_of_neg (by simpa using differs)]

theorem trimLeading_identifier (identifier : Identifier) {c : Char}
    (other : (c.isAlpha || c == '_') = false) :
    CallSite.trimLeading c identifier.text = identifier.text := by
  rw [CallSite.trimLeading, dropWhile_identifier identifier other, String.ofList_toList]

theorem trimLeading_marked (identifier : Identifier) {c : Char}
    (other : (c.isAlpha || c == '_') = false) {mark : String} (is : mark.toList = [c]) :
    CallSite.trimLeading c (mark ++ identifier.text) = identifier.text := by
  rw [CallSite.trimLeading, String.toList_append, is, List.singleton_append,
    List.dropWhile_cons_of_pos (by simp), dropWhile_identifier identifier other,
    String.ofList_toList]

theorem foldCase_eq_toLower (c : Char) : Lexer.foldCase c = c.toLower := by
  have bounds : (decide ('A' ≤ c) && decide (c ≤ 'Z')) = true ↔
      c.val ≥ 'A'.val ∧ c.val ≤ 'Z'.val := by
    rw [Bool.and_eq_true, decide_eq_true_eq, decide_eq_true_eq]
    rfl
  unfold Lexer.foldCase Char.toLower
  by_cases upper : c.val ≥ 'A'.val ∧ c.val ≤ 'Z'.val
  · have low : c.toNat ≤ 90 := upper.2
    have valid : (c.toNat + 32).isValidChar := .inl (by omega)
    rw [if_pos (bounds.mpr upper), dif_pos upper]
    apply Char.ext
    rw [← UInt32.toNat_inj, Char.ofNat, dif_pos valid, UInt32.toNat_add]
    show c.toNat + 32 = (c.toNat + 32) % 2 ^ 32
    omega
  · rw [if_neg (fun inside => upper (bounds.mp inside)), dif_neg upper]

theorem lexeme_ofName (row : Nat) (gap : List Glyph) (name : String) :
    ((ofName gap name).token row).lexeme = .word (folded name) := by
  show Lexeme.word (String.ofList ((name.toList.map Glyph.char).map _)) = _
  rw [List.map_map, folded]
  congr 3
  funext c
  exact foldCase_eq_toLower c

theorem wordOperand_of_free {rules : Rules} {folded : String} (free : folded ∉ reserved) :
    wordOperand rules folded = Grammar.name := by
  unfold wordOperand
  split
  all_goals first
    | rfl
    | exact absurd (by decide) free

theorem wordStatement_of_free {rules : Rules} {folded : String} (free : folded ∉ reserved) :
    wordStatement rules folded = choose (fun input => (second? input).any (·.isSymbol ":"))
      (node .label (word .name >> symbol ":")) (expressionStatement rules) := by
  unfold wordStatement
  split
  all_goals first
    | rfl
    | exact absurd (by decide) free

/-! ## What is called -/

/-- A node is a call of the target with the given trees between its parentheses. -/
structure Target.CalledBy (target : Target) (forest : List Node) (node : Node) : Prop where
  kind : node.kind = .functionCall ∨ node.kind = .methodCall ∨ node.kind = .nullsafeMethodCall
  call : CallSite.ofNode? node = some {
    kind := target.kind
    name := target.name
    receiver := target.receiver
    arguments := (forest.filter fun node => node.kind == .argument).map CallSite.argumentOf
    line := lineOf node }
  silent : ∀ child ∈ node.children, Node.Silent child

section Targets

variable {forest : List Node} (quiet : ∀ node ∈ forest, node.Silent)

include quiet

theorem silent_ofFunctionCall {callee : Node} (silent : (callee.inPart .callee).Silent) :
    ∀ child ∈ (Node.ofFunctionCall callee forest).children, Node.Silent child := by
  intro child member
  simp only [Node.ofFunctionCall, Node.ofKind, Tree.children, List.mem_cons, List.not_mem_nil,
    or_false] at member
  rcases member with rfl | rfl
  · exact silent
  · exact .node quiet rfl

theorem silent_ofMemberCall (kind : Kind) {object : Node} {field : Field} {mark word : Token}
    (silent : (object.inPart field).Silent) :
    ∀ child ∈ (Node.ofMemberCall kind field object mark word forest).children,
      Node.Silent child := by
  intro child member
  simp only [Node.ofMemberCall, Node.ofKind, Tree.children, List.mem_cons, List.not_mem_nil,
    or_false] at member
  rcases member with rfl | rfl | rfl | rfl
  · exact silent
  · exact .ofToken rfl mark
  · exact .leaf rfl
  · exact .node quiet rfl

/-- A call of a function, by the name that its text gives. -/
theorem calledBy_functionCall {target : Target} {callee : Node}
    (named : CallSite.isPlainName callee.kind = true) (isFunction : target.kind = .function)
    (name : CallSite.trimLeading '\\' callee.text = target.name) (alone : target.receiver = none)
    (silent : (callee.inPart .callee).Silent) :
    target.CalledBy forest (.ofFunctionCall callee forest) where
  kind := .inl rfl
  call := by rw [ofNode?_functionCall named, name, isFunction, alone]
  silent := silent_ofFunctionCall quiet silent

/-- A call of a method, by its name and what it is made on. -/
theorem calledBy_methodCall {target : Target} {kind : Kind} {object : Node} {mark word : Token}
    (is : kind = .methodCall ∨ kind = .nullsafeMethodCall) (isMethod : target.kind = .method)
    (name : (Node.ofToken .name word).text = target.name)
    (receiver : target.receiver = some (CallSite.receiverOf object))
    (silent : (object.inPart .object).Silent) :
    target.CalledBy forest (.ofMemberCall kind .object object mark word forest) where
  kind := .inr is
  call := by rw [ofNode?_methodCall is, name, isMethod, receiver]
  silent := silent_ofMemberCall quiet kind silent

end Targets

theorem reads_freeName {rules : Rules} (name : Name) (row : Nat) (gap : List Glyph) {next : Token}
    {input : List Token} {spelling : String} (is : next.lexeme = .symbol spelling)
    (notSegment : spelling ≠ "\\") :
    Reads (primary rules) ((ofName gap name.text).token row :: next :: input)
      [.ofToken .name ((ofName gap name.text).token row)] (next :: input) := by
  have word := lexeme_ofName row gap name.text
  rw [Reads, primary_of_word word, wordOperand_of_free name.free]
  refine reads_name word ?_
  rw [next?_cons (Token.isExtra_of_symbol is), Option.any_some, Token.isSymbol, is]
  simpa using notSegment

theorem receiverOf_variable (row row' : Nat) (gap : List Glyph) (object : Identifier) :
    CallSite.receiverOf (.ofVariable ((ofMark gap "$").token row)
      ((ofName [] object.text).token row')) = .variable object.text := by
  have kind : (Node.ofVariable ((ofMark gap "$").token row)
      ((ofName [] object.text).token row')).kind = .variable := rfl
  rw [CallSite.receiverOf, kind]
  dsimp only
  rw [Node.ofVariable, text_ofKind_pair, trimLeading_marked _ (by decide) (by decide)]

section Reading

variable {depth : Nat} {opening : Token} {input rest : List Token} {forest : List Node}
  (isOpening : opening.lexeme = .symbol "(")
  (list : Reads (callArguments (rulesWithin depth)) (opening :: input) [.ofArguments forest] rest)
  (quiet : ∀ node ∈ forest, node.Silent) (closes : Closes rest) (row : Nat) (gap : List Glyph)

include isOpening list quiet closes

/-- A call of a method of a variable is read, whichever arrow stands between them. -/
theorem reads_variableCall {arrow : String} {kind : Kind}
    (how : calledMember arrow = some (.object, kind))
    (is : kind = .methodCall ∨ kind = .nullsafeMethodCall) {object : Identifier} {name : Name}
    {target : Target} (isMethod : target.kind = .method) (named : target.name = name.text)
    (receiver : target.receiver = some (.variable object.text)) :
    ∃ node, Reads (rulesWithin (depth + 1) (.expression 0 false))
      (lay row [ofMark gap "$", ofName [] object.text, ofMark [] arrow, ofName [] name.text] ++
        opening :: input) [node] rest ∧
      target.CalledBy forest node := by
  have called : atSymbol "(" (opening :: input) = true := by
    rw [atSymbol_of_symbol isOpening, decide_eq_true rfl]
  have operand : Reads (primary (rulesWithin depth))
      (lay row [ofMark gap "$", ofName [] object.text, ofMark [] arrow, ofName [] name.text] ++
        opening :: input) _ _ := reads_variable rfl rfl
  have filled : kind ≠ .pattern := by
    rcases is with rfl | rfl
    · exact Kind.noConfusion
    · exact Kind.noConfusion
  refine ⟨_, operand.expression (grows_memberCall rfl how rfl rfl (lexeme_ofName _ _ _) called list
    (.stop (closes.operandGrowth_eq _))) filled closes,
    calledBy_methodCall quiet is isMethod ?_ ?_ (.pair rfl rfl rfl _ _)⟩
  · rw [text_ofName, named]
  · rw [receiverOf_variable, receiver]

/-- **A call is read**, whatever is called. -/
theorem Target.reads (target : Target) :
    ∃ node, Reads (rulesWithin (depth + 1) (.expression 0 false))
      (lay row (target.pieces gap) ++ opening :: input) [node] rest ∧
      target.CalledBy forest node := by
  have called : atSymbol "(" (opening :: input) = true := by
    rw [atSymbol_of_symbol isOpening, decide_eq_true rfl]
  cases target with
  | function name =>
      refine ⟨_, (reads_freeName name row gap isOpening (by decide)).expression
        (grows_functionCall isOpening rfl rfl list closes) Kind.noConfusion closes,
        calledBy_functionCall quiet rfl rfl ?_ rfl (.leaf rfl)⟩
      rw [text_ofName, trimLeading_identifier _ (by decide)]
      rfl
  | rooted name =>
      have single : atSymbol "\\" (opening :: input) = false := by
        rw [atSymbol_of_symbol isOpening, decide_eq_false (by decide)]
      have operand : Reads (primary (rulesWithin depth))
          (lay row ((Target.rooted name).pieces gap) ++ opening :: input) _ (opening :: input) :=
        reads_rootedName rfl (lexeme_ofName _ [] name.text) single
      refine ⟨_, operand.expression (grows_functionCall isOpening rfl rfl list closes)
        Kind.noConfusion closes, calledBy_functionCall quiet rfl rfl ?_ rfl (.pair rfl rfl rfl _ _)⟩
      rw [Node.ofRooted, text_ofKind_pair, trimLeading_marked _ (by decide) (by decide)]
      rfl
  | method object name =>
      exact reads_variableCall isOpening list quiet closes row gap rfl (.inl rfl) rfl rfl rfl
  | nullsafe object name =>
      exact reads_variableCall isOpening list quiet closes row gap rfl (.inr rfl) rfl rfl rfl
  | onStatic className factory name =>
      -- The operand grows twice: by the factory, which is called without arguments, and by the
      -- method that is called on what the factory gives.
      obtain ⟨row₁, row₂, row₃, row₄, row₅, split⟩ : ∃ row₁ row₂ row₃ row₄ row₅,
          lay row ((Target.onStatic className factory name).pieces gap) =
            (ofName gap className.text).token row :: (ofMark [] "::").token row₁ ::
              (ofName [] factory.text).token row₂ :: (lay row₃ (argumentPieces []) ++
                [(ofMark [] "->").token row₄, (ofName [] name.text).token row₅]) :=
        ⟨_, _, _, _, _, rfl⟩
      have noValues : ∀ value ∈ ([] : List Value), value.IsRead depth := nofun
      obtain ⟨inner, listInner, passes⟩ := reads_argumentPieces noValues row₃
        ((ofMark [] "->").token row₄ :: (ofName [] name.text).token row₅ :: opening :: input)
      rw [split]
      simp only [List.cons_append, List.append_assoc, List.nil_append]
      refine ⟨_, (reads_freeName className row gap rfl (by decide)).expression
        (grows_memberCall rfl rfl rfl rfl (lexeme_ofName _ _ _) rfl listInner
          (grows_memberCall rfl rfl rfl rfl (lexeme_ofName _ _ _) called list
            (.stop (closes.operandGrowth_eq _)))) Kind.noConfusion closes,
        calledBy_methodCall quiet (.inl rfl) rfl (text_ofName _ _ _) ?_ ?_⟩
      · rw [receiverOf_staticCall rfl, text_ofName, trimLeading_identifier _ (by decide)]
        rfl
      · exact .node (silent_ofMemberCall passes.silent .staticCall (.leaf rfl)) rfl

end Reading

/-! ## Statements -/

/-- A statement that starts with what is called is an expression. -/
theorem Target.dispatches (target : Target) {rules : Rules} {opening : Token}
    {input rest : List Token} {forest : List Node} {row : Nat} {gap : List Glyph}
    (isOpening : opening.lexeme = .symbol "(")
    (reads : Reads (expressionStatement rules) (lay row (target.pieces gap) ++ opening :: input)
      forest rest) :
    Reads (Grammar.statement rules) (lay row (target.pieces gap) ++ opening :: input) forest
      rest := by
  have byName (name : Name) {next : Token} {later : List Token} {spelling : String}
      (is : next.lexeme = .symbol spelling) (noLabel : spelling ≠ ":")
      (reads : Reads (expressionStatement rules)
        ((ofName gap name.text).token row :: next :: later) forest rest) :
      Reads (Grammar.statement rules) ((ofName gap name.text).token row :: next :: later) forest
        rest := by
    have word := lexeme_ofName row gap name.text
    refine reads_statement_of_word word ?_
    rw [wordStatement_of_free name.free]
    refine .choose_no ?_ reads
    rw [second?_cons (Token.isExtra_of_word word), next?_cons (Token.isExtra_of_symbol is),
      Option.any_some, Token.isSymbol, is]
    simpa using noLabel
  cases target with
  | function name => exact byName name isOpening (by decide) reads
  | rooted name => exact reads_statement_of_symbol rfl (by decide) reads
  | method object name => exact reads_statement_of_symbol rfl (by decide) reads
  | nullsafe object name => exact reads_statement_of_symbol rfl (by decide) reads
  | onStatic className factory name => exact byName className rfl (by decide) reads

theorem Target.exists_first (target : Target) (row : Nat) (gap : List Glyph) :
    ∃ first others, lay row (target.pieces gap) = first :: others ∧ first.isExtra = false ∧
      first.row = row + Glyph.lineFeeds gap := by
  cases target with
  | _ => exact ⟨_, _, rfl, rfl, rfl⟩

/-- The tree of a statement holds its call and nothing else. -/
theorem callsInPreOrder_ofStatement {target : Target} {forest : List Node} {node : Node}
    (calledBy : target.CalledBy forest node) (semicolon : Token) :
    (Node.ofStatement node semicolon).hasFault = false ∧
      callsInPreOrder (.ofStatement node semicolon) = [{
        kind := target.kind
        name := target.name
        receiver := target.receiver
        arguments := (forest.filter fun node => node.kind == .argument).map CallSite.argumentOf
        line := lineOf node }] := by
  obtain ⟨label, children⟩ := node
  have below : ∀ child ∈ children, Node.Silent child := calledBy.silent
  have sound : Node.isFault label = false := by
    have kind : label.kind = .functionCall ∨ label.kind = .methodCall ∨
        label.kind = .nullsafeMethodCall := calledBy.kind
    rw [Node.isFault]
    rcases kind with is | is | is
    all_goals rw [is]; rfl
  have semicolonSilent := Node.Silent.ofToken (show Kind.mark.isSilent = true from rfl) semicolon
  constructor
  · have soundCall := Node.hasFault_of_silent below sound
    rw [Node.ofStatement, Node.ofKind, Node.hasFault_node, List.any_cons, List.any_cons, soundCall,
      semicolonSilent.sound]
    rfl
  · have call := Node.callsInPreOrder_of_call below calledBy.call
    rw [Node.ofStatement, Node.ofKind, callsInPreOrder_node, List.flatMap_cons, List.flatMap_cons,
      call, semicolonSilent.noCalls]
    rfl

/-- **A statement is read as its call.** -/
theorem Statement.reads (statement : Statement) {depth : Nat}
    (deep : ∀ value ∈ statement.arguments, (value.pieces []).length ≤ depth) (row : Nat)
    (gap : List Glyph) (rest : List Token) :
    ∃ node, Reads (rulesWithin (depth + 2) .statement) (lay row (statement.pieces gap) ++ rest)
        [node] rest ∧
      node.hasFault = false ∧
      callsInPreOrder node = [statement.call (row + Glyph.lineFeeds gap + 1)] := by
  obtain ⟨row₁, row₂, split⟩ : ∃ row₁ row₂, lay row (statement.pieces gap) =
      lay row (statement.target.pieces gap) ++ (lay row₁ (argumentPieces statement.arguments) ++
        [(ofMark [] ";").token row₂]) := by
    rw [Statement.pieces, lay_append, lay_append]
    exact ⟨_, _, rfl⟩
  obtain ⟨opening, others, isOpening, opens⟩ : ∃ opening others, opening.lexeme = .symbol "(" ∧
      lay row₁ (argumentPieces statement.arguments) = opening :: others := ⟨_, _, rfl, rfl⟩
  obtain ⟨forest, list, passes⟩ := reads_argumentPieces
    (fun value member => value.isRead (deep value member)) row₁
    ((ofMark [] ";").token row₂ :: rest)
  rw [split, opens]
  rw [opens, List.cons_append] at list
  simp only [List.append_assoc, List.cons_append, List.nil_append]
  obtain ⟨node, reads, calledBy⟩ := statement.target.reads isOpening list passes.silent
    (closes_cons rfl (by decide)) row gap
  have plain : node.isExtra = false := by
    rw [Node.isExtra]
    rcases calledBy.kind with is | is | is
    all_goals rw [is]; rfl
  have line : lineOf node = row + Glyph.lineFeeds gap + 1 := by
    obtain ⟨first, later, starts, -, firstRow⟩ := statement.target.exists_first row gap
    have tokens : node.tokens = first :: (later ++ opening :: others) := by
      apply reads.tokens_eq
      rw [starts]
      simp
    rw [lineOf, Node.row_eq tokens, firstRow]
  obtain ⟨sound, calls⟩ := callsInPreOrder_ofStatement calledBy ((ofMark [] ";").token row₂)
  refine ⟨_, statement.target.dispatches isOpening ?_, sound, ?_⟩
  · exact reads_expressionStatement reads rfl plain
  · rw [calls, passes.arguments, line]
    rfl

end Script

end TimeoutAudit.Php
