import Mathlib.Data.List.Basic
import TimeoutAudit.Proofs.Syntax.PreOrder

/-!
# The calls of a tree, node by node

The calls of a tree are the call at its root and those of its children (`callsInPreOrder_node`).
A tree is silent if it holds neither a call nor a fault; above silent trees, a node that is no call
is silent (`Php.Node.Silent.node`), and a call is the only one
(`Php.Node.callsInPreOrder_of_call`).
-/

set_option autoImplicit false

namespace TimeoutAudit

namespace Tree

variable {α : Type}

theorem forestSubtrees_eq (forest : List (Tree α)) :
    forestSubtrees forest = forest.flatMap subtrees := by
  induction forest with
  | nil => simp only [forestSubtrees, List.flatMap_nil]
  | cons first others ih => rw [forestSubtrees, ih, List.flatMap_cons]

theorem mem_subtrees_node {part : Tree α} {label : α} {children : List (Tree α)} :
    part ∈ (node label children).subtrees ↔
      part = node label children ∨ ∃ child ∈ children, part ∈ child.subtrees := by
  rw [subtrees_node, List.mem_cons, forestSubtrees_eq, List.mem_flatMap]

theorem mem_subtrees_self (tree : Tree α) : tree ∈ tree.subtrees := by
  cases tree with
  | node label children => exact mem_subtrees_node.mpr (.inl rfl)

theorem anyForest_eq (holds : α → Bool) (forest : List (Tree α)) :
    anyForest holds forest = forest.any (any holds) := by
  induction forest with
  | nil => simp only [anyForest, List.any_nil]
  | cons first others ih => rw [anyForest, ih, List.any_cons]

end Tree

/-! ## Calls -/

open Php (Node Label)

/-- A mark is no call, so the calls of a tree are those among all of its nodes. -/
theorem callsInPreOrder_eq (root : Node) :
    callsInPreOrder root = root.subtrees.filterMap CallSite.ofNode? := by
  rw [callsInPreOrder, List.filterMap_filter]
  apply List.filterMap_congr
  intro node _
  cases named : node.isNamed with
  | true => rfl
  | false =>
      have mark : node.kind = .mark := by simpa [Node.isNamed] using named
      rw [CallSite.ofNode?, mark]
      rfl

/-- The calls of a node are the call that it is and the calls of its children. -/
theorem callsInPreOrder_node (label : Label) (children : List Node) :
    callsInPreOrder (.node label children) =
      (CallSite.ofNode? (.node label children)).toList ++ children.flatMap callsInPreOrder := by
  have below : children.flatMap callsInPreOrder =
      (Tree.forestSubtrees children).filterMap CallSite.ofNode? := by
    rw [Tree.forestSubtrees_eq, List.filterMap_flatMap]
    apply List.flatMap_congr
    intro child _
    exact callsInPreOrder_eq child
  rw [below, callsInPreOrder_eq, Tree.subtrees_node]
  cases call : CallSite.ofNode? (.node label children) with
  | none => rw [List.filterMap_cons_none call, Option.toList_none, List.nil_append]
  | some found => rw [List.filterMap_cons_some call, Option.toList_some, List.singleton_append]

/-! ## Silent trees -/

namespace Php

/-- A tree that holds neither a call nor a fault. -/
structure Node.Silent (node : Node) : Prop where
  sound : node.hasFault = false
  noCalls : callsInPreOrder node = []

/-- Kinds of nodes that are neither calls nor faults. -/
def Kind.isSilent : Kind → Bool
  | .error | .missing | .functionCall | .methodCall | .nullsafeMethodCall => false
  | _ => true

theorem Node.hasFault_node (label : Label) (children : List Node) :
    Node.hasFault (.node label children) = (Node.isFault label || children.any Node.hasFault) := by
  rw [hasFault, Tree.any, Tree.anyForest_eq]
  rfl

section Silence

variable {label : Label} {children : List Node} (below : ∀ child ∈ children, child.Silent)

include below

theorem Node.flatMap_calls_of_silent : children.flatMap callsInPreOrder = [] := by
  rw [List.flatMap_eq_nil_iff]
  intro child member
  exact (below child member).noCalls

theorem Node.hasFault_of_silent (sound : Node.isFault label = false) :
    Node.hasFault (.node label children) = false := by
  rw [hasFault_node, sound, Bool.false_or, List.any_eq_false]
  intro child member
  rw [(below child member).sound]
  exact Bool.false_ne_true

theorem Node.Silent.node (quiet : label.kind.isSilent = true) :
    Node.Silent (.node label children) := by
  have sound : Node.isFault label = false ∧ CallSite.ofNode? (.node label children) = none := by
    obtain ⟨kind, field, token⟩ := label
    cases kind
    all_goals first
      | exact ⟨rfl, rfl⟩
      | cases quiet
  refine ⟨hasFault_of_silent below sound.1, ?_⟩
  rw [callsInPreOrder_node, sound.2, flatMap_calls_of_silent below]
  rfl

/-- A call above silent trees is the only one. -/
theorem Node.callsInPreOrder_of_call {call : CallSite}
    (is : CallSite.ofNode? (.node label children) = some call) :
    callsInPreOrder (.node label children) = [call] := by
  rw [callsInPreOrder_node, is, flatMap_calls_of_silent below]
  rfl

end Silence

theorem Node.Silent.leaf {label : Label} (quiet : label.kind.isSilent = true) :
    Node.Silent (.node label []) :=
  .node (fun _ member => nomatch member) quiet

theorem Node.Silent.ofToken {kind : Kind} (quiet : kind.isSilent = true) (token : Token) :
    (Node.ofToken kind token).Silent :=
  .leaf quiet

theorem Node.Silent.pair {label : Label} (quiet : label.kind.isSilent = true) {first second : Kind}
    (quietFirst : first.isSilent = true) (quietSecond : second.isSilent = true) (one two : Token) :
    Node.Silent (.node label [Node.ofToken first one, Node.ofToken second two]) := by
  refine .node ?_ quiet
  intro child member
  simp only [List.mem_cons, List.not_mem_nil, or_false] at member
  rcases member with rfl | rfl
  · exact .ofToken quietFirst one
  · exact .ofToken quietSecond two

end Php

end TimeoutAudit
