import TimeoutAudit.Proofs.Php.Grammar
import TimeoutAudit.Proofs.Php.Script
import TimeoutAudit.Proofs.Syntax.Calls
import TimeoutAudit.Proofs.Text.Glyph

/-!
# Reading the values of a script

A value is read as one node wherever what follows it closes an expression (`Value.isRead`).  What
the node must be like is said once, by `Value.ReadAs`: it denotes the value and holds no call.
Arrays and arguments are both lists with commas, so both are read by the same argument
(`reads_list`); it leaves the nodes of the items with marks among them (`Interleaves`), which is all
that reading a call off the tree looks at.
-/

set_option autoImplicit false

namespace TimeoutAudit.Php.Script

open Reader Grammar Spaced

/-! ## Lists with commas -/

/-- A forest that has marks among the given nodes. -/
inductive Interleaves : List Node → List Node → Prop where
  | nil : Interleaves [] []
  | node (node : Node) {nodes forest : List Node} (others : Interleaves nodes forest) :
      Interleaves (node :: nodes) (node :: forest)
  | mark (token : Token) {nodes forest : List Node} (others : Interleaves nodes forest) :
      Interleaves nodes (.ofToken .mark token :: forest)

namespace Interleaves

variable {nodes forest : List Node}

theorem filter_kind (interleaves : Interleaves nodes forest) {kind : Kind} (named : kind ≠ .mark)
    (all : ∀ node ∈ nodes, node.kind = kind) :
    (forest.filter fun node => node.kind == kind) = nodes := by
  induction interleaves with
  | nil => rfl
  | node node others ih =>
      have here : node.kind = kind := all node List.mem_cons_self
      rw [List.filter_cons_of_pos (by simp [here]),
        ih fun other later => all other (List.mem_cons_of_mem _ later)]
  | mark token others ih =>
      have other : (Node.ofToken .mark token).kind ≠ kind := named.symm
      rw [List.filter_cons_of_neg (by simp [other]), ih all]

theorem forall_mem (interleaves : Interleaves nodes forest) {holds : Node → Prop}
    (marks : ∀ token, holds (.ofToken .mark token)) (all : ∀ node ∈ nodes, holds node) :
    ∀ node ∈ forest, holds node := by
  induction interleaves with
  | nil =>
      intro node member
      cases member
  | node node others ih =>
      intro other member
      rcases List.mem_cons.mp member with rfl | later
      · exact all other List.mem_cons_self
      · exact ih (fun node inside => all node (List.mem_cons_of_mem _ inside)) other later
  | mark token others ih =>
      intro other member
      rcases List.mem_cons.mp member with rfl | later
      · exact marks token
      · exact ih all other later

theorem append (interleaves : Interleaves nodes forest) {later behind : List Node}
    (others : Interleaves later behind) : Interleaves (nodes ++ later) (forest ++ behind) := by
  induction interleaves with
  | nil => exact others
  | node node _ ih => exact .node node ih
  | mark token _ ih => exact .mark token ih

end Interleaves

/-- A reader reads the phrase of an item, wherever it stands, as a node that is right for it. -/
structure ReadsPhrase (item : Reader) (phrase : Phrase) (right : Node → Prop) : Prop where
  opens : ∀ row gap rest, Opens (lay row (phrase gap) ++ rest)
  reads : ∀ row gap rest, Closes rest →
    ∃ node, Reads item (lay row (phrase gap) ++ rest) [node] rest ∧ right node

theorem separated_cons (gap : List Glyph) (phrase : Phrase) (others : List Phrase) :
    ∃ tail, separated gap (phrase :: others) = phrase gap ++ tail := by
  cases others with
  | nil => exact ⟨[], (List.append_nil _).symm⟩
  | cons next others => exact ⟨_, rfl⟩

section Lists

variable {α : Type} {phrase : α → Phrase} {reader : Reader} {right : α → Node → Prop}
  {closing : String} {last : Token} {rest : List Token}

/-- What the proofs need to know of a mark that closes a list. -/
theorem closing_facts : ∀ closing ∈ [")", "]"],
    closing ∈ closers ∧ closing ≠ "," ∧ closing ≠ "$" ∧ closing ≠ "[" := by
  decide

theorem exists_step {input steps : List Token}
    (enough : (input ++ last :: rest).length ≤ steps.length) :
    ∃ step others, steps = step :: others := by
  apply List.exists_cons_of_ne_nil
  rintro rfl
  simp at enough

/-- A list that holds something does not start with its closing mark. -/
theorem atSymbol_separated (closes : closing ∈ [")", "]"]) {first : α} {others : List α}
    (starts : ReadsPhrase reader (phrase first) (right first)) (row : Nat) (gap : List Glyph) :
    atSymbol closing (lay row (separated gap ((first :: others).map phrase)) ++ rest) = false := by
  obtain ⟨-, -, notVariable, notArray⟩ := closing_facts closing closes
  obtain ⟨tail, front⟩ := separated_cons gap (phrase first) (others.map phrase)
  rw [List.map_cons, front, lay_append, List.append_assoc]
  exact (starts.opens _ _ _).atSymbol_eq notVariable notArray

/-- Items with commas between them are read up to the closing mark. -/
theorem reads_commas (closes : closing ∈ [")", "]"]) (is : last.lexeme = .symbol closing)
    {first : α} {others : List α}
    (each : ∀ item ∈ first :: others, ReadsPhrase reader (phrase item) (right item))
    (row : Nat) (gap : List Glyph) {steps : List Token}
    (enough : (lay row (separated gap ((first :: others).map phrase)) ++ last :: rest).length ≤
      steps.length) :
    ∃ nodes forest, Reads (commasWithin (atSymbol closing) reader steps)
        (lay row (separated gap ((first :: others).map phrase)) ++ last :: rest) forest
        (last :: rest) ∧
      List.Forall₂ right (first :: others) nodes ∧ Interleaves nodes forest := by
  obtain ⟨closer, notComma, -⟩ := closing_facts closing closes
  induction others generalizing first row gap steps with
  | nil =>
      obtain ⟨step, steps, rfl⟩ := exists_step enough
      obtain ⟨node, reads, isRight⟩ := (each first List.mem_cons_self).reads row gap (last :: rest)
        (closes_cons is closer)
      refine ⟨[node], [node], .commas_last reads ?_, .cons isRight .nil, .node node .nil⟩
      rw [atSymbol_of_symbol is, decide_eq_false notComma]
  | cons next others ih =>
      obtain ⟨step, steps, rfl⟩ := exists_step enough
      have later := fun item member => each item (List.mem_cons_of_mem first member)
      obtain ⟨comma, row', isComma, split⟩ : ∃ comma row', comma.lexeme = .symbol "," ∧
          lay row (separated gap ((first :: next :: others).map phrase)) =
            lay row (phrase first gap) ++
              comma :: lay row' (separated blank ((next :: others).map phrase)) := by
        rw [List.map_cons, List.map_cons, separated, lay_append]
        exact ⟨_, _, rfl, rfl⟩
      rw [split, List.append_assoc, List.cons_append] at enough ⊢
      have goesOn : atSymbol closing
          (lay row' (separated blank ((next :: others).map phrase)) ++ last :: rest) = false :=
        atSymbol_separated closes (later next List.mem_cons_self) row' blank
      have fewer : (lay row' (separated blank ((next :: others).map phrase)) ++
          last :: rest).length ≤ steps.length := by
        rw [List.length_append, List.length_cons, List.length_cons] at enough
        omega
      obtain ⟨nodes, forest, reads, areRight, interleaves⟩ := ih later row' blank fewer
      obtain ⟨node, readsFirst, isRight⟩ := (each first List.mem_cons_self).reads row gap
        (comma :: (lay row' (separated blank ((next :: others).map phrase)) ++ last :: rest))
        (closes_cons isComma (by decide))
      exact ⟨node :: nodes, _, .commas_more readsFirst isComma goesOn reads,
        .cons isRight areRight, .node node (.mark comma interleaves)⟩

/-- **A list in brackets is read**, its items one by one and marks among them. -/
theorem reads_list (closes : closing ∈ [")", "]"]) (is : last.lexeme = .symbol closing)
    {items : List α} (each : ∀ item ∈ items, ReadsPhrase reader (phrase item) (right item))
    (row : Nat) :
    ∃ nodes forest, Reads (listUntil closing reader)
        (lay row (separated [] (items.map phrase)) ++ last :: rest) forest rest ∧
      List.Forall₂ right items nodes ∧ Interleaves nodes forest := by
  cases items with
  | nil =>
      have ends : atSymbol closing (last :: rest) = true := by
        rw [atSymbol_of_symbol is, decide_eq_true rfl]
      exact ⟨[], _, (Reads.choose_yes ends .nothing).andThen (.symbol is), .nil, .mark last .nil⟩
  | cons first others =>
      obtain ⟨nodes, forest, reads, areRight, interleaves⟩ :=
        reads_commas closes is each row [] (Nat.le_refl _)
      have goesOn : atSymbol closing
          (lay row (separated [] ((first :: others).map phrase)) ++ last :: rest) = false :=
        atSymbol_separated closes (each first List.mem_cons_self) row []
      have whole := interleaves.append (.mark last .nil)
      rw [List.append_nil] at whole
      exact ⟨nodes, _, (Reads.choose_no goesOn reads).andThen (.symbol is), areRight, whole⟩

theorem filterMap_of_forall₂ {β : Type} {items : List α} {nodes : List Node}
    (areRight : List.Forall₂ right items nodes) {read : Node → Option β} {said : α → β}
    (tells : ∀ item node, right item node → read node = some (said item)) :
    nodes.filterMap read = items.map said := by
  induction areRight with
  | nil => rfl
  | cons isRight _ ih => rw [List.filterMap_cons_some (tells _ _ isRight), ih, List.map_cons]

theorem forall_of_forall₂ {items : List α} {nodes : List Node}
    (areRight : List.Forall₂ right items nodes) {holds : Node → Prop}
    (tells : ∀ item node, right item node → holds node) : ∀ node ∈ nodes, holds node := by
  induction areRight with
  | nil =>
      intro node member
      cases member
  | cons isRight _ ih =>
      intro node member
      rcases List.mem_cons.mp member with rfl | later
      · exact tells _ _ isRight
      · exact ih node later

end Lists

/-! ## Texts of nodes -/

theorem text_eq {node : Node} {text : String}
    (spelled : Token.span node.tokens = Glyph.ofString text) : node.text = text := by
  rw [Node.text, spelled, Glyph.text?_eq_some_iff.mpr rfl, Option.getD_some]

/-! ## Values -/

/-- The kind of the node of a value. -/
def Value.nodeKind : Value → Kind
  | .variable _ => .variable
  | .string _ => .string
  | .array _ => .array

/-- A node is that of a value. -/
structure Value.ReadAs (value : Value) (node : Node) : Prop where
  kind : node.kind = value.nodeKind
  plays : node.label.field = none
  denoted : CallSite.valueOf node = value.denoted
  silent : node.Silent

theorem Value.ReadAs.isNamed {value : Value} {node : Node} (readAs : value.ReadAs node) :
    node.isNamed = true := by
  rw [Node.isNamed, readAs.kind]
  cases value <;> rfl

theorem Value.ReadAs.isExtra {value : Value} {node : Node} (readAs : value.ReadAs node) :
    node.isExtra = false := by
  rw [Node.isExtra, readAs.kind]
  cases value <;> rfl

theorem literalText?_ofToken (row : Nat) (gap : List Glyph) (text : String) :
    CallSite.literalText? (.ofToken .string ((ofLiteral gap text).token row)) = some text := by
  have spelled : (Node.ofToken .string ((ofLiteral gap text).token row)).text =
      Literal.singleQuoted text := by
    apply text_eq
    rw [tokens_ofToken, Token.span, List.flatMap_nil, List.append_nil, Spaced.token, ofLiteral]
  rw [CallSite.literalText?, spelled, Literal.denoted?_singleQuoted]
  exact if_pos rfl

theorem valueOf_ofToken (row : Nat) (gap : List Glyph) (text : String) :
    CallSite.valueOf (.ofToken .string ((ofLiteral gap text).token row)) = .literal text := by
  have kind : (Node.ofToken .string ((ofLiteral gap text).token row)).kind = .string := rfl
  rw [CallSite.valueOf, kind]
  dsimp only
  rw [literalText?_ofToken]

theorem Value.opens (value : Value) (row : Nat) (gap : List Glyph) (rest : List Token) :
    Opens (lay row (value.pieces gap) ++ rest) := by
  rcases value with name | content | entries
  · exact ⟨_, _, rfl, .inl rfl⟩
  · exact ⟨_, _, rfl, .inr (.inl rfl)⟩
  · exact ⟨_, _, rfl, .inr (.inr rfl)⟩

/-- A phrase between commas is no longer than all of them. -/
theorem exists_length_le_separated {phrases : List Phrase} {phrase : Phrase}
    (member : phrase ∈ phrases) (gap : List Glyph) :
    ∃ inFront, (phrase inFront).length ≤ (separated gap phrases).length := by
  induction phrases generalizing gap with
  | nil => cases member
  | cons first others ih =>
      obtain ⟨tail, front⟩ := separated_cons gap first others
      rcases List.mem_cons.mp member with rfl | later
      · exact ⟨gap, by rw [front, List.length_append]; omega⟩
      · cases others with
        | nil => cases later
        | cons next others =>
            obtain ⟨inFront, shorter⟩ := ih later blank
            refine ⟨inFront, ?_⟩
            rw [separated, List.length_append, List.length_cons]
            omega

theorem Value.length_pieces (value : Value) (gap gap' : List Glyph) :
    (value.pieces gap).length = (value.pieces gap').length := by
  rcases value with name | content | entries <;> rfl

theorem Value.length_pos (value : Value) (gap : List Glyph) : 0 < (value.pieces gap).length := by
  rcases value with name | content | entries <;> exact Nat.succ_pos _

theorem length_le_separated_entries {entries : List (Content × Value)} {entry : Content × Value}
    (member : entry ∈ entries) :
    (entry.2.pieces []).length + 2 ≤ (separated [] (entryPhrases entries)).length := by
  have phrase : entryPieces entry ∈ entryPhrases entries := by
    rw [entryPhrases_eq]
    exact List.mem_map_of_mem member
  obtain ⟨inFront, shorter⟩ := exists_length_le_separated phrase []
  rwa [entryPieces, List.length_cons, List.length_cons, entry.2.length_pieces blank []] at shorter

/-- A node is that of an entry of an array. -/
structure EntryAs (entry : Content × Value) (node : Node) : Prop where
  kind : node.kind = .arrayElement
  key : CallSite.elementKey? node = some entry.1.text
  silent : node.Silent

theorem elementKey?_ofEntry {key value : Node} {arrow : Token} (is : arrow.lexeme = .symbol "=>")
    (named : key.isNamed = true) :
    CallSite.elementKey? (.ofEntry key arrow value) = CallSite.plainString? key := by
  have notArrow : key.isMark "=>" = false := by
    rw [Node.isMark, Bool.and_eq_false_iff]
    exact .inl (by simpa [Node.isNamed] using named)
  have arrowMark : (Node.ofToken .mark arrow).isMark "=>" = true := by
    simp [Node.isMark, Node.ofToken, Node.kind, Tree.label, Token.isSymbol, is]
  have children : (Node.ofEntry key arrow value).children =
      [key, .ofToken .mark arrow, value] := rfl
  simp [CallSite.elementKey?, children, notArrow, arrowMark, named]

theorem entryAs_ofEntry {entry : Content × Value} {value : Node} (readAs : entry.2.ReadAs value)
    (row row' : Nat) (gap : List Glyph) :
    EntryAs entry (.ofEntry (.ofToken .string ((ofLiteral gap entry.1.text).token row))
      ((ofMark blank "=>").token row') value) where
  kind := rfl
  key := by
    rw [elementKey?_ofEntry rfl rfl]
    exact literalText?_ofToken row gap entry.1.text
  silent := by
    refine .node ?_ rfl
    intro child member
    simp only [List.mem_cons, List.not_mem_nil, or_false] at member
    rcases member with rfl | rfl | rfl
    · exact .ofToken rfl _
    · exact .ofToken rfl _
    · exact readAs.silent

/-- The node of an array, from those of its entries. -/
theorem readAs_array {entries : List (Content × Value)} {nodes forest : List Node}
    (areRight : List.Forall₂ EntryAs entries nodes) (interleaves : Interleaves nodes forest) :
    (Value.array entries).ReadAs (.ofKind .array forest) where
  kind := rfl
  plays := rfl
  denoted := by
    have elements : (forest.filter fun node => node.kind == .arrayElement) = nodes :=
      interleaves.filter_kind Kind.noConfusion
        (forall_of_forall₂ areRight fun _ _ isRight => isRight.kind)
    show ArgumentValue.options
      ((forest.filter fun node => node.kind == .arrayElement).filterMap CallSite.elementKey?) = _
    rw [elements, filterMap_of_forall₂ areRight fun _ _ isRight => isRight.key]
    rfl
  silent := by
    refine .node ?_ rfl
    exact interleaves.forall_mem (Node.Silent.ofToken rfl)
      (forall_of_forall₂ areRight fun _ _ isRight => isRight.silent)

/-- A value is read wherever expressions nest deeply enough. -/
def Value.IsRead (value : Value) (depth : Nat) : Prop :=
  ∀ floor holes, ReadsPhrase (rulesWithin depth (.expression floor holes)) value.pieces value.ReadAs

/-- An entry is read, if its value is. -/
theorem readsPhrase_entry {entry : Content × Value} {depth : Nat}
    (isRead : entry.2.IsRead (depth + 1)) :
    ReadsPhrase (element (rulesWithin (depth + 1))) (entryPieces entry) (EntryAs entry) := by
  refine ⟨fun row gap rest => ⟨_, _, rfl, .inr (.inl rfl)⟩, ?_⟩
  intro row gap rest closes
  obtain ⟨row₁, row₂, split⟩ : ∃ row₁ row₂, lay row (entryPieces entry gap) =
      (ofLiteral gap entry.1.text).token row :: (ofMark blank "=>").token row₁ ::
        lay row₂ (entry.2.pieces blank) := ⟨_, _, rfl⟩
  obtain ⟨value, reads, readAs⟩ := (isRead 0 true).reads row₂ blank rest closes
  rw [split]
  refine ⟨_, ?_, entryAs_ofEntry readAs row row₁ gap⟩
  refine reads_entry ⟨_, _, rfl, .inr (.inl rfl)⟩ ?_ rfl (entry.2.opens _ _ _) reads rfl
  exact (reads_quoted rfl).operandOnly Kind.noConfusion (closes_cons rfl (by decide))

/-- An array is read, if its entries are. -/
theorem isRead_array {entries : List (Content × Value)} {depth : Nat}
    (each : ∀ entry ∈ entries,
      ReadsPhrase (element (rulesWithin depth)) (entryPieces entry) (EntryAs entry)) :
    (Value.array entries).IsRead (depth + 1) := by
  intro floor holes
  refine ⟨Value.opens _, ?_⟩
  intro row gap rest closes
  obtain ⟨row₁, row₂, split⟩ : ∃ row₁ row₂, lay row ((Value.array entries).pieces gap) =
      (ofMark gap "[").token row :: (lay row₁ (separated [] (entries.map entryPieces)) ++
        [(ofMark [] "]").token row₂]) := by
    rw [Value.pieces, entryPhrases_eq, lay, lay_append]
    exact ⟨_, _, rfl⟩
  obtain ⟨nodes, forest, reads, areRight, interleaves⟩ :=
    reads_list (List.mem_cons_of_mem _ List.mem_cons_self)
      (show ((ofMark [] "]").token row₂).lexeme = .symbol "]" from rfl) each row₁
  rw [split, List.cons_append, List.append_assoc, List.singleton_append]
  have filled : ∀ child ∈ forest, child.kind ≠ .hole :=
    interleaves.forall_mem (fun _ => Kind.noConfusion)
      (forall_of_forall₂ areRight fun _ _ isRight => by simp [isRight.kind])
  exact ⟨_, (reads_array rfl reads filled).operandOnly Kind.noConfusion closes,
    readAs_array areRight (.mark _ interleaves)⟩

/-- **Every value is read**, however deeply its arrays nest. -/
theorem Value.isRead (value : Value) {depth : Nat} (deep : (value.pieces []).length ≤ depth) :
    value.IsRead depth := by
  have positive := value.length_pos []
  obtain ⟨depth, rfl⟩ : ∃ less, depth = less + 1 := ⟨depth - 1, by omega⟩
  -- Each array takes a level of nesting and at least two pieces, its brackets.
  induction value using Value.induction generalizing depth with
  | ofVariable name =>
      intro floor holes
      refine ⟨Value.opens _, ?_⟩
      intro row gap rest closes
      exact ⟨_, (reads_variable rfl rfl).operandOnly Kind.noConfusion closes, rfl, rfl, rfl,
        .pair rfl rfl rfl _ _⟩
  | ofString content =>
      intro floor holes
      refine ⟨Value.opens _, ?_⟩
      intro row gap rest closes
      refine ⟨_, (reads_quoted rfl).operandOnly Kind.noConfusion closes, rfl, rfl, ?_,
        .ofToken rfl _⟩
      exact valueOf_ofToken row gap content.text
  | ofArray entries ih =>
      apply isRead_array
      intro entry member
      have shorter := length_le_separated_entries member
      rw [Value.pieces, List.length_cons, List.length_append] at deep
      obtain ⟨less, rfl⟩ : ∃ less, depth = less + 1 := ⟨depth - 1, by omega⟩
      exact readsPhrase_entry (ih entry member (entry.2.length_pos []) less (by omega))

end TimeoutAudit.Php.Script
