import TimeoutAudit.CallSite
import TimeoutAudit.Proofs.Syntax.Positions

/-!
# The walk of a cursor is the pre-order of the tree

A cursor only knows its node and the way back to the root.  What the walk has
still to visit can be read off it: the occurrences at and below its node, then,
level by level, those below the siblings on the right (`Cursor.remaining`).  Going
to the next node takes exactly one occurrence off that list
(`Cursor.remaining_next?`), so the walk from a cursor lists what `visit` says of it
(`Cursor.walk_eq`), and the walk from the root lists the subtrees in pre-order
(`Tree.walk_eq`).

For a file this says that `callSites` are the calls among the named nodes, in
pre-order (`callSites_eq`), and that a visit which looks at calls only sees exactly
those (`Php.ParsedFile.walk_bind_ofNode?`).
-/

set_option autoImplicit false

namespace TimeoutAudit

variable {α β : Type}

theorem Tree.subtrees_node (label : α) (children : List (Tree α)) :
    (Tree.node label children).subtrees =
      .node label children :: Tree.forestSubtrees children := by
  simp only [Tree.subtrees]

namespace Cursor

/-! ## What is left of a walk -/

/-- The way down through levels. -/
def wayOf (above : List (Level α)) : List Nat :=
  (above.map fun level => level.before.length).reverse

theorem wayOf_cons (level : Level α) (above : List (Level α)) :
    wayOf (level :: above) = wayOf above ++ [level.before.length] :=
  List.reverse_cons

/-- The node under a cursor, with its position in the whole tree. -/
def occurrence (cursor : Cursor α) : Occurrence α := ⟨wayOf cursor.above, cursor.focus⟩

/-- The occurrences right of a way, as the walk comes to them. -/
def pendingOccurrences : List (Level α) → List (Occurrence α)
  | [] => []
  | level :: above =>
    (Tree.forestOccurrences (level.before.length + 1) level.after).map
        (Occurrence.under (wayOf above)) ++
      pendingOccurrences above

/-- The occurrences that a walk from a cursor comes to. -/
def remaining (cursor : Cursor α) : List (Occurrence α) :=
  cursor.focus.occurrences.map (Occurrence.under (wayOf cursor.above)) ++
    pendingOccurrences cursor.above

/-- The first child that is left and its siblings lie at the end of the way to their parent. -/
theorem remaining_child (label : α) (before : List (Tree α)) (child : Tree α)
    (others : List (Tree α)) (above : List (Level α)) :
    remaining ⟨child, ⟨label, before, others⟩ :: above⟩ =
      (Tree.forestOccurrences before.length (child :: others)).map
          (Occurrence.under (wayOf above)) ++
        pendingOccurrences above := by
  have deeper : Occurrence.under (wayOf above) ∘ Occurrence.under [before.length] =
      Occurrence.under (α := α) (wayOf above ++ [before.length]) :=
    funext fun occurrence => occurrence.under_under _ _
  rw [remaining, pendingOccurrences, wayOf_cons, Tree.forestOccurrences, List.map_append,
    List.map_map, deeper, List.append_assoc]

/-- Climbing finds the first occurrence that is pending, and fails only when there is none. -/
theorem pendingOccurrences_climb? : ∀ (above : List (Level α)) (focus : Tree α),
    pendingOccurrences above = (climb? focus above).elim [] remaining
  | [], focus => by simp only [climb?, pendingOccurrences, Option.elim_none]
  | ⟨label, before, []⟩ :: above, focus => by
      simp only [climb?, nextSibling?, pendingOccurrences, Tree.forestOccurrences, List.map_nil,
        List.nil_append]
      exact pendingOccurrences_climb? above _
  | ⟨label, before, next :: others⟩ :: above, focus => by
      simp only [climb?, nextSibling?, remaining_child, pendingOccurrences, List.length_cons,
        Option.elim_some]

/-- The next node of the walk is the first occurrence that is left after this one. -/
theorem remaining_next? (cursor : Cursor α) :
    cursor.remaining = cursor.occurrence :: cursor.next?.elim [] remaining := by
  have root (above : List (Level α)) (focus : Tree α) :
      Occurrence.under (wayOf above) ⟨[], focus⟩ = occurrence ⟨focus, above⟩ := by
    rw [Occurrence.under, List.append_nil, occurrence]
  obtain ⟨⟨label, below⟩, above⟩ := cursor
  cases below with
  | nil =>
      simp only [next?, firstChild?, remaining, Tree.occurrences, Tree.forestOccurrences,
        List.map_cons, List.map_nil, List.cons_append, List.nil_append, root]
      exact congrArg _ (pendingOccurrences_climb? above _)
  | cons child others =>
      simp only [next?, firstChild?, remaining_child, List.length_nil, Option.elim_some]
      simp only [remaining, Tree.occurrences, List.map_cons, List.cons_append, root]

/-- The walk from a cursor visits its node, what is below it and what is right of
its path, in this order. -/
theorem walk_eq (visit : Tree α → Option β) (cursor : Cursor α) :
    cursor.walk visit = (cursor.remaining.map Occurrence.tree).filterMap visit := by
  -- The walk recurses along `next?`, which is how what is left shrinks.
  induction cursor using Cursor.walk.induct with
  | case1 cursor ih =>
      rw [walk, remaining_next?, List.map_cons]
      have first (others : List (Tree α)) :
          (cursor.occurrence.tree :: others).filterMap visit =
            (visit cursor.focus).toList ++ others.filterMap visit := by
        cases here : visit cursor.focus with
        | none => simp [occurrence, here]
        | some seen => simp [occurrence, here]
      rw [first]
      split
      case h_1 last =>
        simp only [last, Option.elim_none, List.map_nil, List.filterMap_nil]
      case h_2 there moved => simp only [moved, Option.elim_some, ih there moved]

end Cursor

theorem Tree.remaining_atRoot (tree : Tree α) :
    (Cursor.atRoot tree).remaining = tree.occurrences := by
  have same : Occurrence.under (α := α) [] = id := rfl
  rw [Cursor.remaining, Cursor.atRoot, Cursor.pendingOccurrences, List.append_nil]
  exact (congrArg (List.map · tree.occurrences) same).trans (List.map_id _)

/-- **A walk visits every node of a tree once, in pre-order.** -/
theorem Tree.walk_eq (visit : Tree α → Option β) (tree : Tree α) :
    tree.walk visit = tree.subtrees.filterMap visit := by
  rw [Tree.walk, Cursor.walk_eq, Tree.remaining_atRoot, Tree.map_tree_occurrences]

/-! ## Call sites -/

open Php (Node ParsedFile)

/-- The calls among the named nodes of a syntax tree, in pre-order. -/
def callsInPreOrder (root : Node) : List CallSite :=
  (root.subtrees.filter Node.isNamed).filterMap CallSite.ofNode?

theorem callSites_eq (file : ParsedFile) : callSites file = callsInPreOrder file.tree := by
  rw [callSites, ParsedFile.walk, Tree.walk_eq, callsInPreOrder, List.filterMap_filter]

/-- A visit that looks at calls only meets the call sites in pre-order. -/
theorem Php.ParsedFile.walk_bind_ofNode? (file : ParsedFile)
    (judge : CallSite → Option β) :
    (file.walk fun node => (CallSite.ofNode? node).bind judge) =
      (callsInPreOrder file.tree).filterMap judge := by
  rw [ParsedFile.walk, Tree.walk_eq, callsInPreOrder, List.filterMap_filterMap,
    List.filterMap_filter]

end TimeoutAudit
