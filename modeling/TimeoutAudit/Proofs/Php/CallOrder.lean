import TimeoutAudit.Proofs.Php.GroundedCalls
import TimeoutAudit.Proofs.Php.Places

/-!
# Calls come in source order

The walk meets a node before its children and the children from left to right, and the tokens
below a node are a run of the tokens of the file.  So the first tokens of the nodes come in the
order of the tokens (`Tree.pairwise_first?`), and these are in rows that never go back
(`Laid.pairwise_row`).  A call has a token, so the call sites of a file are on lines that never go
back (`pairwise_line_callSites`), and these are lines of the source (`line_bounds`).
-/

set_option autoImplicit false

namespace TimeoutAudit

/-! ## First values in pre-order -/

namespace Tree

variable {α β : Type} {read : α → Option β} {related : β → β → Prop}

theorem mem_collect_of_first? {tree part : Tree α} {value : β} (member : part ∈ tree.subtrees)
    (first : value ∈ part.first? read) : value ∈ tree.collect read := by
  rw [first?_eq_head?] at first
  exact (collect_isInfix read tree member).subset (List.mem_of_head? first)

theorem mem_collectForest_of_first? {forest : List (Tree α)} {part : Tree α} {value : β}
    (member : part ∈ forestSubtrees forest) (first : value ∈ part.first? read) :
    value ∈ collectForest read forest := by
  rw [first?_eq_head?] at first
  exact (collectForest_isInfix read forest member).subset (List.mem_of_head? first)

mutual
/-- The nodes of a tree in pre-order are related by their first values as all values are. -/
theorem pairwise_first? (refl : ∀ value, related value value) :
    ∀ tree : Tree α, (tree.collect read).Pairwise related →
      tree.subtrees.Pairwise fun one two =>
        ∀ value ∈ one.first? read, ∀ other ∈ two.first? read, related value other
  | .node label below, values => by
      rw [subtrees_node, List.pairwise_cons]
      refine ⟨fun part member value first other second => ?_, ?_⟩
      · -- The first value of the whole tree stands before all others, and may be one of them.
        have inside : other ∈ (Tree.node label below).collect read :=
          mem_collect_of_first? (by rw [subtrees_node]; exact List.mem_cons_of_mem _ member) second
        rw [first?_eq_head?] at first
        obtain ⟨rest, split⟩ := List.head?_eq_some_iff.mp first
        rw [split] at values inside
        rcases List.mem_cons.mp inside with rfl | later
        · exact refl other
        · exact List.rel_of_pairwise_cons values later
      · rw [collect, List.pairwise_append] at values
        exact pairwise_firstForest? refl below values.2.1

theorem pairwise_firstForest? (refl : ∀ value, related value value) :
    ∀ forest : List (Tree α), (collectForest read forest).Pairwise related →
      (forestSubtrees forest).Pairwise fun one two =>
        ∀ value ∈ one.first? read, ∀ other ∈ two.first? read, related value other
  | [], _ => by
      rw [forestSubtrees]
      exact .nil
  | first :: others, values => by
      rw [collectForest, List.pairwise_append] at values
      obtain ⟨here, later, across⟩ := values
      rw [forestSubtrees, List.pairwise_append]
      refine ⟨pairwise_first? refl first here, pairwise_firstForest? refl others later, ?_⟩
      intro one inFirst two inOthers value firstOne other firstTwo
      exact across value (mem_collect_of_first? inFirst firstOne) other
        (mem_collectForest_of_first? inOthers firstTwo)
end

end Tree

namespace Php

/-! ## Rows -/

namespace Laid

variable {row : Nat} {glyphs : List Glyph} {tokens : List Token}

theorem le_row (laid : Laid row glyphs tokens) : ∀ token ∈ tokens, row ≤ token.row := by
  induction laid with
  | nil row glyphs => exact fun _ member => nomatch member
  | cons row lexeme gap text rest others laid ih =>
      rintro token (_ | ⟨_, later⟩)
      · exact Nat.le_add_right _ _
      · have := ih token later
        omega

/-- The rows of tokens never go back. -/
theorem pairwise_row (laid : Laid row glyphs tokens) :
    tokens.Pairwise fun first second => first.row ≤ second.row := by
  induction laid with
  | nil row glyphs => exact .nil
  | cons row lexeme gap text rest others laid ih =>
      refine .cons (fun token later => ?_) ih
      have := laid.le_row token later
      dsimp only
      omega

end Laid

/-! ## Calls -/

theorem isCall_of_ofNode? {node : Node} {call : CallSite} (is : CallSite.ofNode? node = some call) :
    node.kind.isCall = true := by
  unfold CallSite.ofNode? at is
  split at is
  case h_4 => cases is
  all_goals
    next kind => rw [kind]

theorem line_of_ofNode? {node : Node} {call : CallSite} (is : CallSite.ofNode? node = some call) :
    call.line = lineOf node := by
  unfold CallSite.ofNode? CallSite.ofFunctionCall? CallSite.ofMethodCall? at is
  repeat' split at is
  all_goals cases is
  all_goals rfl

section Calls

variable {path : String} {source : List UInt8} {file : ParsedFile}
  (parsed : parse path source = .ok file)

include parsed

/-- The line of a call is that of its first token. -/
theorem exists_first?_of_ofNode? {node : Node} (member : node ∈ file.tree.subtrees)
    {call : CallSite} (is : CallSite.ofNode? node = some call) :
    ∃ token ∈ node.first? Label.token, call.line = token.row + 1 := by
  obtain ⟨first, others, own⟩ :=
    List.exists_cons_of_ne_nil (tokens_ne_nil_of_isCall parsed member (isCall_of_ofNode? is))
  refine ⟨first, ?_, ?_⟩
  · rw [Tree.first?_eq_head?, ← Node.tokens, own]
    rfl
  · rw [line_of_ofNode? is, lineOf, Node.row_eq own]

/-- **The lines of the call sites never go back.** -/
theorem pairwise_line_callSites :
    (callSites file).Pairwise fun first second => first.line ≤ second.line := by
  have rows : (file.tree.collect Label.token).Pairwise fun first second =>
      first.row ≤ second.row :=
    (laid_tokens (Glyph.decode source)).pairwise_row.sublist
      (tokens_isInfix_of_parse parsed (Tree.mem_subtrees_self file.tree)).sublist
  rw [callSites_eq, callsInPreOrder_eq, List.pairwise_filterMap]
  refine (Tree.pairwise_first? (by simp) file.tree rows).imp_of_mem ?_
  intro one two oneInside twoInside ordered call isCall other isOther
  obtain ⟨token, first, line⟩ := exists_first?_of_ofNode? parsed oneInside isCall
  obtain ⟨otherToken, second, otherLine⟩ := exists_first?_of_ofNode? parsed twoInside isOther
  rw [line, otherLine]
  exact Nat.add_le_add_right (ordered token first otherToken second) 1

/-- **A call site is on a line of the source.** -/
theorem line_bounds {call : CallSite} (member : call ∈ callSites file) :
    1 ≤ call.line ∧ call.line ≤ 1 + source.count 0x0A := by
  rw [callSites_eq, callsInPreOrder_eq, List.mem_filterMap] at member
  obtain ⟨node, inside, is⟩ := member
  have nonempty := tokens_ne_nil_of_isCall parsed inside (isCall_of_ofNode? is)
  obtain ⟨start, stands⟩ := exists_standsAt parsed inside nonempty
  have before : (source.take start).count 0x0A ≤ source.count 0x0A :=
    (List.take_sublist start source).count_le 0x0A
  rw [line_of_ofNode? is, stands.lineOf_eq]
  omega

end Calls

end Php

end TimeoutAudit
