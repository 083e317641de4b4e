import TimeoutAudit.Syntax.Tree

/-!
# Positions in a tree

A position says which child to go to, level by level, and leads to one subtree at most
(`Tree.at?`).  An occurrence is a subtree together with its position.  The occurrences of a tree are
listed as the tree is built, each before those below it and those from left to right
(`Tree.occurrences`).

Every position that leads somewhere is listed (`Tree.mem_occurrences_iff`), and the positions are
listed in their lexicographic order (`Tree.positions_pairwise`), so none is listed twice.
-/

set_option autoImplicit false

namespace TimeoutAudit

variable {α : Type}

/-- A subtree, and the way to it from the root. -/
structure Occurrence (α : Type) where
  position : List Nat
  tree : Tree α

/-- The same subtree, seen from further up. -/
def Occurrence.under (front : List Nat) (occurrence : Occurrence α) : Occurrence α :=
  ⟨front ++ occurrence.position, occurrence.tree⟩

theorem Occurrence.under_under (front back : List Nat) (occurrence : Occurrence α) :
    (occurrence.under back).under front = occurrence.under (front ++ back) := by
  rw [under, under, under, List.append_assoc]

namespace Tree

/-- The subtree at a position. -/
def at? : List Nat → Tree α → Option (Tree α)
  | [], tree => some tree
  | index :: rest, tree => tree.children[index]?.bind (at? rest)

mutual
/-- The occurrences in a tree, the tree itself first. -/
def occurrences : Tree α → List (Occurrence α)
  | .node label below => ⟨[], .node label below⟩ :: forestOccurrences 0 below

/-- The occurrences in neighbouring trees, the first of which has the given index. -/
def forestOccurrences (index : Nat) : List (Tree α) → List (Occurrence α)
  | [] => []
  | first :: others =>
    (occurrences first).map (Occurrence.under [index]) ++ forestOccurrences (index + 1) others
end

mutual
/-- The trees that occur are the subtrees in pre-order. -/
theorem map_tree_occurrences : ∀ tree : Tree α,
    tree.occurrences.map Occurrence.tree = tree.subtrees
  | .node label below => by
      rw [occurrences, List.map_cons, map_tree_forestOccurrences 0 below, subtrees]

theorem map_tree_forestOccurrences : ∀ (index : Nat) (forest : List (Tree α)),
    (forestOccurrences index forest).map Occurrence.tree = forestSubtrees forest
  | _, [] => by rw [forestOccurrences, forestSubtrees, List.map_nil]
  | index, first :: others => by
      have same : Occurrence.tree ∘ Occurrence.under [index] = Occurrence.tree (α := α) := rfl
      rw [forestOccurrences, forestSubtrees, List.map_append, List.map_map, same,
        map_tree_occurrences first, map_tree_forestOccurrences (index + 1) others]
end

/-! ## Every position -/

mutual
/-- **Every position that leads somewhere is listed,** with the subtree that it leads to. -/
theorem mem_occurrences_iff : ∀ (tree : Tree α) (occurrence : Occurrence α),
    occurrence ∈ tree.occurrences ↔ at? occurrence.position tree = some occurrence.tree
  | .node label below, ⟨[], found⟩ => by
      have deeper : (⟨[], found⟩ : Occurrence α) ∉ forestOccurrences 0 below := by
        rw [mem_forestOccurrences_iff]
        rintro ⟨step, rest, child, starts, -⟩
        cases starts
      rw [occurrences, List.mem_cons, or_iff_left deeper, Occurrence.mk.injEq, at?,
        Option.some.injEq, and_iff_right rfl]
      exact eq_comm
  | .node label below, ⟨index :: rest, found⟩ => by
      have notHere : (⟨index :: rest, found⟩ : Occurrence α) ≠ ⟨[], .node label below⟩ :=
        fun same => nomatch congrArg Occurrence.position same
      rw [occurrences, List.mem_cons, or_iff_right notHere, mem_forestOccurrences_iff, at?,
        Option.bind_eq_some_iff]
      constructor
      · rintro ⟨step, others, child, starts, isChild, leads⟩
        obtain ⟨rfl, rfl⟩ := List.cons.inj starts
        exact ⟨child, by rwa [Nat.zero_add], leads⟩
      · rintro ⟨child, isChild, leads⟩
        exact ⟨index, rest, child, by rw [Nat.zero_add], isChild, leads⟩

theorem mem_forestOccurrences_iff : ∀ (index : Nat) (forest : List (Tree α))
    (occurrence : Occurrence α), occurrence ∈ forestOccurrences index forest ↔
      ∃ step rest child, occurrence.position = (index + step) :: rest ∧
        forest[step]? = some child ∧ at? rest child = some occurrence.tree
  | index, [], occurrence => by
      simp [forestOccurrences]
  | index, first :: others, ⟨position, found⟩ => by
      rw [forestOccurrences, List.mem_append, mem_forestOccurrences_iff (index + 1) others]
      refine Iff.trans (or_congr ?_ ?_) Nat.or_exists_add_one
      · -- The first tree has the index itself.
        simp only [List.mem_map, mem_occurrences_iff first, Nat.add_zero]
        constructor
        · rintro ⟨⟨rest, tree⟩, leads, same⟩
          cases same
          exact ⟨rest, first, rfl, rfl, leads⟩
        · rintro ⟨rest, child, rfl, isFirst, leads⟩
          cases isFirst
          exact ⟨⟨rest, found⟩, leads, rfl⟩
      · simp only [List.getElem?_cons_succ, Nat.add_right_comm index 1, Nat.add_assoc]
end

/-! ## Order -/

mutual
/-- **Positions are listed in their lexicographic order.** -/
theorem positions_pairwise : ∀ tree : Tree α,
    (tree.occurrences.map Occurrence.position).Pairwise (· < ·)
  | .node label below => by
      rw [occurrences, List.map_cons, List.pairwise_cons]
      refine ⟨fun position member => ?_, forestPositions_pairwise 0 below⟩
      obtain ⟨occurrence, inside, rfl⟩ := List.mem_map.mp member
      obtain ⟨step, rest, -, starts, -⟩ := (mem_forestOccurrences_iff 0 below occurrence).mp inside
      rw [starts]
      exact List.nil_lt_cons _ _

theorem forestPositions_pairwise : ∀ (index : Nat) (forest : List (Tree α)),
    ((forestOccurrences index forest).map Occurrence.position).Pairwise (· < ·)
  | _, [] => by
      rw [forestOccurrences]
      exact .nil
  | index, first :: others => by
      have within := List.pairwise_map.mp (positions_pairwise first)
      rw [forestOccurrences, List.map_append, List.pairwise_append]
      refine ⟨?_, forestPositions_pairwise (index + 1) others, ?_⟩
      · rw [List.map_map, List.pairwise_map]
        exact within.imp fun before => List.cons_lt_cons_iff.mpr (.inr ⟨rfl, before⟩)
      · intro position here later there
        simp only [List.map_map, List.mem_map] at here there
        obtain ⟨occurrence, -, rfl⟩ := here
        obtain ⟨other, inside, rfl⟩ := there
        obtain ⟨step, rest, -, starts, -⟩ :=
          (mem_forestOccurrences_iff (index + 1) others other).mp inside
        rw [starts]
        exact List.cons_lt_cons_iff.mpr (.inl (by omega))
end

end Tree

end TimeoutAudit
