import TimeoutAudit.Php.Parse
import TimeoutAudit.Proofs.Php.Lexer
import TimeoutAudit.Proofs.Text.Glyph

/-!
# Where nodes stand in the source

The tokens below a node of a parsed file are a run of the tokens of the file
(`Php.tokens_isInfix_of_parse`), so a node stands at a position of the source: its first
token stands there (`Php.Node.StandsAt`).  The line of a node is one more than the number of line
feed bytes before this position (`Php.Node.StandsAt.lineOf_eq`).
-/

set_option autoImplicit false

namespace TimeoutAudit

/-! ## Values below a subtree -/

namespace Tree

variable {α β : Type} (read : α → Option β)

mutual
theorem collect_isInfix : ∀ (tree : Tree α) {part : Tree α}, part ∈ tree.subtrees →
    collect read part <:+: collect read tree
  | .node value below, part, member => by
      rw [subtrees, List.mem_cons] at member
      rcases member with rfl | deeper
      · exact List.infix_rfl
      · rw [collect]
        exact (collectForest_isInfix below deeper).trans (List.suffix_append _ _).isInfix

theorem collectForest_isInfix : ∀ (forest : List (Tree α)) {part : Tree α},
    part ∈ forestSubtrees forest → collect read part <:+: collectForest read forest
  | [], part, member => by
      rw [forestSubtrees] at member
      cases member
  | first :: others, part, member => by
      rw [forestSubtrees, List.mem_append] at member
      rw [collectForest]
      rcases member with here | later
      · exact (collect_isInfix first here).trans (List.prefix_append _ _).isInfix
      · exact (collectForest_isInfix others later).trans (List.suffix_append _ _).isInfix
end

end Tree

namespace Php

/-! ## Tokens of a parsed file -/

theorem hasFault_faultyProgram (fault : Fault) (row : Nat) :
    (faultyProgram fault row).hasFault = true := by
  cases fault <;> rfl

/-- The tokens of a tree without a fault are among those that it was read from. -/
theorem tokens_treeOfTokens_isInfix {input : List Token}
    (sound : (treeOfTokens input).hasFault = false) : (treeOfTokens input).tokens <:+: input := by
  have unsound {fault : Fault} {row : Nat} : (faultyProgram fault row).hasFault ≠ false := by
    simp [hasFault_faultyProgram]
  unfold treeOfTokens at sound ⊢
  split at sound
  · exact absurd sound unsound
  · exact absurd sound unsound
  · next reading _ =>
      split at sound
      · next root consumed last =>
          -- Extras in front of the program are trees of their own, so only an infix is left.
          obtain ⟨front, split⟩ := List.getLast?_eq_some_iff.mp last
          have whole := reading.split
          rw [consumed, split, List.append_nil, forestTokens_append, forestTokens_cons,
            forestTokens_nil, List.append_nil] at whole
          exact ⟨_, [], by rw [List.append_nil, whole]⟩
      · exact absurd sound unsound
      · exact absurd sound unsound

/-- **The tokens of a node are a run of the tokens of its file.** -/
theorem tokens_isInfix_of_parse {path : String} {source : List UInt8} {file : ParsedFile}
    (parsed : parse path source = .ok file) {node : Node} (member : node ∈ file.tree.subtrees) :
    node.tokens <:+: tokens (Glyph.decode source) := by
  unfold parse at parsed
  dsimp only at parsed
  split at parsed
  · cases parsed
  · next sound =>
      cases parsed
      exact (Tree.collect_isInfix Label.token _ member).trans
        (tokens_treeOfTokens_isInfix (Bool.not_eq_true _ ▸ sound))

/-! ## Positions -/

theorem Node.row_eq {node : Node} {first : Token} {others : List Token}
    (tokens : node.tokens = first :: others) : node.row = first.row := by
  rw [Node.row, Tree.first?_eq_head?, ← Node.tokens, tokens]
  rfl

/-- A node stands at a position of a source: so many bytes come before its first token. -/
def Node.StandsAt (source : List UInt8) (node : Node) (start : Nat) : Prop :=
  ∃ front first others back,
    Php.tokens (Glyph.decode source) = front ++ first :: (others ++ back) ∧
      node.tokens = first :: others ∧
      start = (Glyph.encode (front.flatMap Token.source ++ first.gap)).length

/-- A node with tokens stands somewhere. -/
theorem exists_standsAt {path : String} {source : List UInt8} {file : ParsedFile}
    (parsed : parse path source = .ok file) {node : Node} (member : node ∈ file.tree.subtrees)
    (nonempty : node.tokens ≠ []) : ∃ start, node.StandsAt source start := by
  obtain ⟨front, back, whole⟩ := tokens_isInfix_of_parse parsed member
  obtain ⟨first, others, own⟩ := List.exists_cons_of_ne_nil nonempty
  refine ⟨_, front, first, others, back, ?_, own, rfl⟩
  rw [← whole, own, List.append_assoc, List.cons_append]

namespace Node.StandsAt

variable {source : List UInt8} {node : Node} {start : Nat}

/-- The glyphs before a node, those of the node and those after it. -/
theorem exists_split (stands : node.StandsAt source start) :
    ∃ before after, Glyph.decode source = before ++ (Token.span node.tokens ++ after) ∧
      start = (Glyph.encode before).length ∧ node.row = Glyph.lineFeeds before := by
  obtain ⟨front, first, others, back, whole, own, rfl⟩ := stands
  have laid := laid_tokens (Glyph.decode source)
  rw [whole] at laid
  obtain ⟨rest, split⟩ := laid.isPrefix
  refine ⟨_, back.flatMap Token.source ++ rest, ?_, rfl, ?_⟩
  · rw [← split, own, Token.span]
    simp only [List.flatMap_append, List.flatMap_cons, Token.source, List.append_assoc]
  · rw [Node.row_eq own, laid.row_eq, Nat.zero_add]

/-- The source of a node begins where it stands. -/
theorem isPrefix_drop (stands : node.StandsAt source start) :
    Glyph.encode (Token.span node.tokens) <+: source.drop start := by
  obtain ⟨before, after, split, rfl, -⟩ := stands.exists_split
  refine ⟨Glyph.encode after, ?_⟩
  rw [← Glyph.encode_decode source, split]
  simp only [Glyph.encode_append, List.drop_left]

/-- **The line of a node** is one more than the number of line feed bytes before it. -/
theorem lineOf_eq (stands : node.StandsAt source start) :
    lineOf node = (source.take start).count 0x0A + 1 := by
  obtain ⟨before, after, split, rfl, row⟩ := stands.exists_split
  have sound : ∀ glyph ∈ before, glyph.Sound := by
    intro glyph member
    refine Glyph.sound_of_mem_decode source ?_
    rw [split]
    exact List.mem_append_left _ member
  have taken : source.take (Glyph.encode before).length = Glyph.encode before := by
    rw [← Glyph.encode_decode source, split, Glyph.encode_append, List.take_left]
  rw [lineOf, row, taken, Glyph.lineFeeds_eq_count sound]

end Node.StandsAt

end Php

end TimeoutAudit
