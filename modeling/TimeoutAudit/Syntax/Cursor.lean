import TimeoutAudit.Syntax.Tree

/-!
# Walking a tree with a cursor

A cursor is a node of a tree together with the way back to the root.  It moves
to the first child, to the next sibling and to the parent, and keeps no other
record of where it has been.  `walk` visits a whole tree by these three moves
alone.  The walk ends because each move leaves fewer nodes ahead of the cursor:
`ahead_next?` is the decrease, and `walk` recurses on it.
-/

set_option autoImplicit false

namespace TimeoutAudit

/-- A level above a cursor: the parent's label and the siblings on both sides. -/
structure Level (α : Type) where
  label : α
  /-- Siblings on the left, nearest first. -/
  before : List (Tree α)
  /-- Siblings on the right, nearest first. -/
  after : List (Tree α)

/-- A node of a tree, with the levels from it up to the root. -/
structure Cursor (α : Type) where
  focus : Tree α
  above : List (Level α)

namespace Cursor

variable {α β : Type}

/-- The cursor at the root of a tree. -/
def atRoot (tree : Tree α) : Cursor α := ⟨tree, []⟩

/-! ## Moves -/

/-- Down to the leftmost child. -/
def firstChild? : Cursor α → Option (Cursor α)
  | ⟨.node _ [], _⟩ => none
  | ⟨.node label (child :: others), above⟩ => some ⟨child, ⟨label, [], others⟩ :: above⟩

/-- Right to the next sibling. -/
def nextSibling? : Cursor α → Option (Cursor α)
  | ⟨_, []⟩ => none
  | ⟨_, ⟨_, _, []⟩ :: _⟩ => none
  | ⟨focus, ⟨label, before, next :: others⟩ :: above⟩ =>
    some ⟨next, ⟨label, focus :: before, others⟩ :: above⟩

/-- Up to the parent. -/
def parent? : Cursor α → Option (Cursor α)
  | ⟨_, []⟩ => none
  | ⟨focus, ⟨label, before, after⟩ :: above⟩ =>
    some ⟨.node label (before.reverse ++ focus :: after), above⟩

/-- Up, level by level, until there is a next sibling to go to. -/
def climb? : Tree α → List (Level α) → Option (Cursor α)
  | _, [] => none
  | focus, level :: above =>
    match nextSibling? ⟨focus, level :: above⟩ with
    | some sibling => some sibling
    | none => climb? (.node level.label (level.before.reverse ++ focus :: level.after)) above

/-- The next node of the walk: the first child, else the nearest next sibling
of the node or of a node above it. -/
def next? (cursor : Cursor α) : Option (Cursor α) :=
  match cursor.firstChild? with
  | some child => some child
  | none => climb? cursor.focus cursor.above

/-! ## Nodes still ahead -/

/-- The nodes right of the path to the cursor. -/
def rightOf : List (Level α) → Nat
  | [] => 0
  | level :: above => Tree.forestSize level.after + rightOf above

/-- The nodes below the cursor and right of its path. -/
def ahead (cursor : Cursor α) : Nat :=
  Tree.forestSize cursor.focus.children + rightOf cursor.above

theorem ahead_climb? : ∀ (above : List (Level α)) (focus : Tree α) (there : Cursor α),
    climb? focus above = some there → ahead there < rightOf above
  | [], focus, there, moved => by simp [climb?] at moved
  | ⟨label, before, []⟩ :: above, focus, there, moved => by
    simp only [climb?, nextSibling?] at moved
    have := ahead_climb? above _ there moved
    simp only [rightOf, Tree.forestSize]
    omega
  | ⟨label, before, next :: others⟩ :: above, focus, there, moved => by
    simp only [climb?, nextSibling?, Option.some.injEq] at moved
    subst moved
    simp only [ahead, rightOf, Tree.forestSize]
    rw [Tree.size_eq next]
    omega

/-- Every step of the walk leaves fewer nodes ahead. -/
theorem ahead_next? (here there : Cursor α) (moved : here.next? = some there) :
    there.ahead < here.ahead := by
  match here, moved with
  | ⟨.node label [], above⟩, moved =>
    simp only [next?, firstChild?] at moved
    have here : ahead (⟨.node label [], above⟩ : Cursor α) = rightOf above := by
      simp [ahead, Tree.children, Tree.forestSize]
    rw [here]
    exact ahead_climb? above _ there moved
  | ⟨.node label (child :: others), above⟩, moved =>
    simp only [next?, firstChild?, Option.some.injEq] at moved
    subst moved
    simp only [ahead, rightOf, Tree.children, Tree.forestSize]
    rw [Tree.size_eq child]
    simp only [Tree.children]
    omega

/-! ## The walk -/

/-- Visits the node under the cursor and every node after it, gathering what
`visit` says of each. -/
def walk (visit : Tree α → Option β) (cursor : Cursor α) : List β :=
  (visit cursor.focus).toList ++
    match _moved : cursor.next? with
    | none => []
    | some there => walk visit there
termination_by cursor.ahead
decreasing_by exact ahead_next? _ _ _moved

end Cursor

/-- What `visit` says of the nodes of a tree, as a cursor meets them. -/
def Tree.walk {α β : Type} (visit : Tree α → Option β) (tree : Tree α) : List β :=
  (Cursor.atRoot tree).walk visit

end TimeoutAudit
