import TimeoutAudit.Proofs.Syntax.PreOrder

/-!
# The loop of a walk, move by move

A walk is a loop of single moves.  A cursor that comes to a node visits it and goes down to its
first child; where there is none, it leaves the node to the right, and where there is nothing on the
right either, it goes up and leaves the parent in the same way, until it is at the root
(`Cursor.Visits`).

The loop comes to an end from every cursor, after the occurrences at and below its node and those
right of the way to it (`Cursor.exists_visits`), and it has no choice (`Cursor.Visits.unique`).
`Php.ParsedFile.walk_visits_named` says this of a file: the loop comes to every position in the
syntax tree once, in order, and what is gathered is what the visit says of the named nodes.
-/

set_option autoImplicit false

namespace TimeoutAudit

variable {α : Type}

namespace Cursor

/-! ## Moves -/

/-- Whether a cursor comes to a node, or is done with it and what is below. -/
inductive Phase where
  | arriving
  | leaving

/-- The nodes that the loop visits from a cursor on until it ends. -/
inductive Visits : Phase → Cursor α → List (Cursor α) → Prop
  | descend {here child : Cursor α} {rest : List (Cursor α)} (down : here.firstChild? = some child)
      (onward : Visits .arriving child rest) : Visits .arriving here (here :: rest)
  | turn {here : Cursor α} {rest : List (Cursor α)} (leaf : here.firstChild? = none)
      (onward : Visits .leaving here rest) : Visits .arriving here (here :: rest)
  | advance {here sibling : Cursor α} {rest : List (Cursor α)}
      (right : here.nextSibling? = some sibling) (onward : Visits .arriving sibling rest) :
      Visits .leaving here rest
  | climb {here parent : Cursor α} {rest : List (Cursor α)} (last : here.nextSibling? = none)
      (up : here.parent? = some parent) (onward : Visits .leaving parent rest) :
      Visits .leaving here rest
  | finish {here : Cursor α} (last : here.nextSibling? = none) (top : here.parent? = none) :
      Visits .leaving here []

/-- The loop has no choice. -/
theorem Visits.unique {phase : Phase} {here : Cursor α} {stops others : List (Cursor α)}
    (visits : Visits phase here stops) (again : Visits phase here others) : stops = others := by
  induction visits generalizing others with
  | descend down _ ih =>
      cases again with
      | descend downAgain onward =>
          obtain rfl := Option.some.inj (down.symm.trans downAgain)
          rw [ih onward]
      | turn leaf _ => cases down.symm.trans leaf
  | turn leaf _ ih =>
      cases again with
      | descend down _ => cases leaf.symm.trans down
      | turn _ onward => rw [ih onward]
  | advance right _ ih =>
      cases again with
      | advance rightAgain onward =>
          obtain rfl := Option.some.inj (right.symm.trans rightAgain)
          exact ih onward
      | climb last _ _ => cases right.symm.trans last
      | finish last _ => cases right.symm.trans last
  | climb last up _ ih =>
      cases again with
      | advance right _ => cases last.symm.trans right
      | climb _ upAgain onward =>
          obtain rfl := Option.some.inj (up.symm.trans upAgain)
          exact ih onward
      | finish _ top => cases up.symm.trans top
  | finish last top =>
      cases again with
      | advance right _ => cases last.symm.trans right
      | climb _ up _ => cases top.symm.trans up
      | finish _ _ => rfl

/-- Leaving a node, the loop climbs until there is a next sibling. -/
theorem Visits.of_climb? : ∀ (above : List (Level α)) (focus : Tree α) (rest : List (Cursor α)),
    (match climb? focus above with
      | none => rest = []
      | some there => Visits .arriving there rest) →
    Visits .leaving ⟨focus, above⟩ rest
  | [], _, _, ended => by
      obtain rfl : _ = [] := ended
      exact .finish rfl rfl
  | ⟨_, _, []⟩ :: above, _, rest, onward => .climb rfl rfl (of_climb? above _ rest onward)
  | ⟨_, _, _ :: _⟩ :: _, _, _, onward => .advance rfl onward

/-! ## The whole loop -/

/-- **The loop ends from every cursor,** and until then it comes to everything that remains. -/
theorem exists_visits (cursor : Cursor α) :
    ∃ stops, Visits .arriving cursor stops ∧ stops.map occurrence = cursor.remaining := by
  -- What is left of the walk shrinks along `next?`, on which the walk itself recurses.
  induction cursor using Cursor.walk.induct with
  | case1 cursor ih =>
      have onward : ∃ rest, rest.map occurrence = cursor.next?.elim [] remaining ∧
          (match cursor.next? with
          | none => rest = []
          | some there => Visits .arriving there rest) := by
        cases moved : cursor.next? with
        | none => exact ⟨[], rfl, rfl⟩
        | some there =>
            obtain ⟨rest, visits, all⟩ := ih there moved
            exact ⟨rest, all, visits⟩
      obtain ⟨rest, all, visits⟩ := onward
      refine ⟨cursor :: rest, ?_, by rw [List.map_cons, all, ← remaining_next?]⟩
      cases down : cursor.firstChild? with
      | some child =>
          rw [next?, down] at visits
          exact .descend down visits
      | none =>
          rw [next?, down] at visits
          exact .turn down (.of_climb? cursor.above cursor.focus rest visits)

end Cursor

/-- **A walk visits every named node once, parents before children.**  The loop of the cursor's
moves ends after the occurrences of the syntax tree, which are all positions that lead somewhere, in
their lexicographic order and so each once.  The visit is called for the named ones among these
subtrees, in pre-order, and for nothing else. -/
theorem Php.ParsedFile.walk_visits_named (file : ParsedFile) :
    (∃ stops : List (Cursor Label),
      Cursor.Visits .arriving (.atRoot file.tree) stops ∧
      (∀ others, Cursor.Visits .arriving (.atRoot file.tree) others → others = stops) ∧
      stops.map Cursor.occurrence = file.tree.occurrences) ∧
    (∀ position node, ⟨position, node⟩ ∈ file.tree.occurrences ↔
      file.tree.at? position = some node) ∧
    (file.tree.occurrences.map Occurrence.position).Pairwise (· < ·) ∧
    file.tree.occurrences.map Occurrence.tree = file.tree.subtrees ∧
    ∀ {β : Type} (visit : Node → Option β),
      file.walk visit = (file.tree.subtrees.filter Node.isNamed).filterMap visit := by
  refine ⟨?_, ?_, Tree.positions_pairwise file.tree, Tree.map_tree_occurrences file.tree, ?_⟩
  · obtain ⟨stops, visits, all⟩ := Cursor.exists_visits (.atRoot file.tree)
    exact ⟨stops, visits, fun others again => again.unique visits,
      all.trans (Tree.remaining_atRoot file.tree)⟩
  · exact fun position node => Tree.mem_occurrences_iff file.tree ⟨position, node⟩
  · intro β visit
    rw [ParsedFile.walk, Tree.walk_eq, List.filterMap_filter]

end TimeoutAudit
