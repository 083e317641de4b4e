import TimeoutAudit.Php.Parse
import TimeoutAudit.Proofs.Syntax.Calls

/-!
# The first fault

The search for a fault does not enter a subtree that a flag says is free of faults.  It finds what a
search of the whole pre-order finds, as long as no subtree with a fault lacks the flag
(`Tree.findPruned_eq_find?`).  The flag of the parser marks exactly the subtrees with a fault
(`Php.Node.hasFault_iff`).

So a tree that is flagged has a first fault, the search finds this one, and a source with such a
tree is refused with the line of it (`Php.first_fault_reported`).
-/

set_option autoImplicit false

namespace TimeoutAudit

namespace Tree

variable {α : Type} {wanted : α → Bool} {worth : Tree α → Bool}

mutual
theorem any_eq (holds : α → Bool) : ∀ tree : Tree α,
    tree.any holds = tree.subtrees.any fun part => holds part.label
  | .node value below => by
      rw [any, subtrees, List.any_cons, anyForest_eq_any holds below, label]

theorem anyForest_eq_any (holds : α → Bool) : ∀ forest : List (Tree α),
    anyForest holds forest = (forestSubtrees forest).any fun part => holds part.label
  | [] => by rw [anyForest, forestSubtrees, List.any_nil]
  | first :: others => by
      rw [anyForest, forestSubtrees, List.any_append, any_eq holds first,
        anyForest_eq_any holds others]
end

/-- No tree that holds something wanted is passed over. -/
def Reaches (wanted : α → Bool) (worth : Tree α → Bool) (parts : List (Tree α)) : Prop :=
  ∀ part ∈ parts, (∃ below ∈ part.subtrees, wanted below.label = true) → worth part = true

theorem Reaches.append {first second : List (Tree α)}
    (reaches : Reaches wanted worth (first ++ second)) :
    Reaches wanted worth first ∧ Reaches wanted worth second :=
  List.forall_mem_append.mp reaches

mutual
/-- **Pruning loses nothing:** the search finds the first wanted node of the pre-order. -/
theorem findPruned_eq_find? : ∀ tree : Tree α, Reaches wanted worth tree.subtrees →
    tree.findPruned wanted worth = tree.subtrees.find? fun part => wanted part.label
  | .node value below, reaches => by
      have deeper : Reaches wanted worth (forestSubtrees below) :=
        fun part member => reaches part (by rw [subtrees]; exact List.mem_cons_of_mem _ member)
      rw [findPruned, subtrees, List.find?_cons, label]
      cases here : wanted value with
      | true => rfl
      | false =>
          rw [if_neg Bool.false_ne_true]
          by_cases entered : worth (.node value below) = true
          · rw [if_pos entered, findPrunedForest_eq_find? below deeper]
          · -- Something wanted below would be a reason to enter.
            rw [if_neg entered, eq_comm, List.find?_eq_none]
            intro part member isWanted
            refine entered (reaches _ (mem_subtrees_self _) ⟨part, ?_, isWanted⟩)
            rw [subtrees]
            exact List.mem_cons_of_mem _ member

theorem findPrunedForest_eq_find? : ∀ forest : List (Tree α),
    Reaches wanted worth (forestSubtrees forest) →
    findPrunedForest wanted worth forest =
      (forestSubtrees forest).find? fun part => wanted part.label
  | [], _ => by rw [findPrunedForest, forestSubtrees, List.find?_nil]
  | first :: others, reaches => by
      rw [forestSubtrees] at reaches
      obtain ⟨inFirst, inOthers⟩ := reaches.append
      rw [findPrunedForest, forestSubtrees, List.find?_append, findPruned_eq_find? first inFirst,
        findPrunedForest_eq_find? others inOthers]
      cases (subtrees first).find? fun part => wanted part.label with
      | none => rfl
      | some found => rfl
end

end Tree

namespace Php

/-- A node has a fault exactly if it is one or one is below it. -/
theorem Node.hasFault_iff (node : Node) :
    node.hasFault = true ↔ ∃ part ∈ node.subtrees, isFault part.label = true := by
  rw [hasFault, Tree.any_eq, List.any_eq_true]

/-- **The fault that is reported is the first one.**  If a flag stands exactly at the nodes that are
a fault or have one below them, then a tree with the flag has a first fault in pre-order, the search
by this flag finds it, and a source with this tree is refused with the line of it. -/
theorem first_fault_reported {flag : Node → Bool} {root : Node}
    (exact : ∀ node ∈ root.subtrees,
      flag node = true ↔ ∃ part ∈ node.subtrees, Node.isFault part.label = true)
    (faulty : flag root = true) :
    ∃ (before : List Node) (fault : Node) (after : List Node),
      root.subtrees = before ++ fault :: after ∧
      Node.isFault fault.label = true ∧
      (∀ node ∈ before, Node.isFault node.label = false) ∧
      root.findPruned Node.isFault flag = some fault ∧
      ∀ path source, tree source = root →
        parse path source = .error (.syntaxAt (Node.row fault + 1)) := by
  have existing : ∃ part ∈ root.subtrees, Node.isFault part.label = true :=
    (exact root (Tree.mem_subtrees_self root)).mp faulty
  have flagged : root.findPruned Node.isFault flag =
      root.subtrees.find? fun part => Node.isFault part.label :=
    Tree.findPruned_eq_find? root fun node member => (exact node member).mpr
  have parsed : root.fault? = root.subtrees.find? fun part => Node.isFault part.label :=
    Tree.findPruned_eq_find? root fun node _ => (Node.hasFault_iff node).mpr
  obtain ⟨fault, found⟩ := Option.isSome_iff_exists.mp (List.find?_isSome.mpr existing)
  obtain ⟨isFault, before, after, split, sound⟩ := List.find?_eq_some_iff_append.mp found
  refine ⟨before, fault, after, split, isFault, ?_, flagged.trans found, ?_⟩
  · intro node member
    simpa using sound node member
  · rintro path source rfl
    have hasFault : (tree source).hasFault = true := (Node.hasFault_iff _).mpr existing
    rw [parse, hasFault, parsed, found]
    rfl

/-- A tree with a fault below a sound statement and another one behind it. -/
def crookedTree : Node :=
  .ofKind .program [
    .ofKind .expressionStatement [.ofToken .mark ⟨.unknown, [], [], 0⟩],
    .ofKind .block [.ofKind .arguments [.ofToken .missing ⟨.unknown, [], [], 4⟩]],
    .ofToken .error ⟨.unknown, [], [], 7⟩]

/-- A file whose third line breaks off. -/
def brokenSource : List UInt8 := "<?php\nf();\n$a = g(\n".toUTF8.toList

/-- In a tree with two faults the first one is found, and a file with a fault is refused with its
line. -/
theorem first_fault_reported_samples :
    ((∀ node ∈ crookedTree.subtrees, Node.hasFault node = true ↔
        ∃ part ∈ node.subtrees, Node.isFault part.label = true) ∧
      crookedTree.hasFault = true ∧
      ∃ fault ∈ crookedTree.subtrees, crookedTree.fault? = some fault ∧ Node.row fault = 4) ∧
    (∀ node ∈ (tree brokenSource).subtrees, Node.hasFault node = true ↔
        ∃ part ∈ node.subtrees, Node.isFault part.label = true) ∧
      (tree brokenSource).hasFault = true ∧ parse "a.php" brokenSource = .error (.syntaxAt 3) := by
  have exact (root : Node) : ∀ node ∈ root.subtrees, Node.hasFault node = true ↔
      ∃ part ∈ node.subtrees, Node.isFault part.label = true :=
    fun node _ => Node.hasFault_iff node
  have crooked : crookedTree.hasFault = true := by decide
  have broken : (tree brokenSource).hasFault = true := by decide +kernel
  obtain ⟨before, fault, after, split, -, -, found, -⟩ :=
    first_fault_reported (exact crookedTree) crooked
  obtain ⟨-, other, -, -, -, -, foundInFile, told⟩ :=
    first_fault_reported (exact (tree brokenSource)) broken
  have row : crookedTree.fault?.map Node.row = some 4 := by decide
  have otherRow : (tree brokenSource).fault?.map Node.row = some 2 := by decide +kernel
  rw [Node.fault?, found] at row
  rw [Node.fault?, foundInFile] at otherRow
  refine ⟨⟨exact crookedTree, crooked, fault, ?_, found, Option.some.inj row⟩, exact _, broken, ?_⟩
  · rw [split]
    exact List.mem_append_cons_self
  · rw [told "a.php" brokenSource rfl, Option.some.inj otherRow]

end Php

end TimeoutAudit
