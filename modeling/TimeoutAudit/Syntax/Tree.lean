/-!
# Ordered trees

A syntax tree is an ordered tree of labels.  `subtrees` lists its nodes as a
reader meets them, each before its children and the children from left to
right.  `findPruned` looks for the first node with a property, and skips every
subtree that a second property says is not worth entering.
-/

set_option autoImplicit false

namespace TimeoutAudit

/-- A tree whose nodes carry a label and an ordered list of children. -/
inductive Tree (α : Type) where
  | node (label : α) (children : List (Tree α))
deriving Repr

namespace Tree

variable {α β : Type}

/-- The label at the root. -/
def label : Tree α → α
  | .node value _ => value

/-- The trees directly below the root. -/
def children : Tree α → List (Tree α)
  | .node _ below => below

/-- A tree without children. -/
def leaf (value : α) : Tree α := .node value []

instance [Inhabited α] : Inhabited (Tree α) := ⟨leaf default⟩

/-- The same tree with another label at the root. -/
def relabel (change : α → α) : Tree α → Tree α
  | .node value below => .node (change value) below

/-! ## Pre-order -/

mutual
/-- The subtrees of a tree in pre-order, the tree itself first. -/
def subtrees : Tree α → List (Tree α)
  | .node value below => .node value below :: forestSubtrees below

/-- The subtrees of a list of trees, tree by tree. -/
def forestSubtrees : List (Tree α) → List (Tree α)
  | [] => []
  | first :: others => subtrees first ++ forestSubtrees others
end

mutual
/-- The number of nodes. -/
def size : Tree α → Nat
  | .node _ below => 1 + forestSize below

/-- The number of nodes of a list of trees. -/
def forestSize : List (Tree α) → Nat
  | [] => 0
  | first :: others => size first + forestSize others
end

theorem size_eq (tree : Tree α) : tree.size = 1 + forestSize tree.children := by
  cases tree with
  | node value below => simp [size, children]

@[simp] theorem forestSize_append (first second : List (Tree α)) :
    forestSize (first ++ second) = forestSize first + forestSize second := by
  induction first with
  | nil => simp [forestSize]
  | cons head others ih => simp [forestSize, ih, Nat.add_assoc]

/-! ## Values at the leaves -/

mutual
/-- What `read` finds at the labels of a tree, in pre-order. -/
def collect (read : α → Option β) : Tree α → List β
  | .node value below => (read value).toList ++ collectForest read below

/-- What `read` finds at the labels of a list of trees. -/
def collectForest (read : α → Option β) : List (Tree α) → List β
  | [] => []
  | first :: others => collect read first ++ collectForest read others
end

@[simp] theorem collectForest_nil (read : α → Option β) : collectForest read [] = [] := by
  simp [collectForest]

@[simp] theorem collectForest_cons (read : α → Option β) (first : Tree α)
    (others : List (Tree α)) :
    collectForest read (first :: others) = collect read first ++ collectForest read others := by
  simp [collectForest]

@[simp] theorem collectForest_append (read : α → Option β) (first second : List (Tree α)) :
    collectForest read (first ++ second) = collectForest read first ++ collectForest read second := by
  induction first with
  | nil => simp
  | cons head others ih => simp [ih]

mutual
/-- The first value that `read` finds in pre-order. -/
def first? (read : α → Option β) : Tree α → Option β
  | .node value below =>
    match read value with
    | some found => some found
    | none => firstForest? read below

/-- The first value that `read` finds in a list of trees. -/
def firstForest? (read : α → Option β) : List (Tree α) → Option β
  | [] => none
  | head :: others =>
    match first? read head with
    | some found => some found
    | none => firstForest? read others
end

mutual
theorem first?_eq_head? (read : α → Option β) :
    ∀ tree : Tree α, first? read tree = (collect read tree).head?
  | .node value below => by
    cases found : read value with
    | none => simp [first?, collect, found, firstForest?_eq_head? read below]
    | some seen => simp [first?, collect, found]

theorem firstForest?_eq_head? (read : α → Option β) :
    ∀ forest : List (Tree α), firstForest? read forest = (collectForest read forest).head?
  | [] => by simp [firstForest?]
  | head :: others => by
    have here := first?_eq_head? read head
    have there := firstForest?_eq_head? read others
    cases gathered : collect read head with
    | nil => simp [firstForest?, here, there, gathered]
    | cons value values => simp [firstForest?, here, gathered]
end

/-! ## Search -/

mutual
/-- Whether a label of the tree has the property. -/
def any (holds : α → Bool) : Tree α → Bool
  | .node value below => holds value || anyForest holds below

/-- Whether a label of one of the trees has the property. -/
def anyForest (holds : α → Bool) : List (Tree α) → Bool
  | [] => false
  | first :: others => any holds first || anyForest holds others
end

mutual
/-- The first subtree in pre-order whose root is `wanted`.  A subtree below
which `worth` says that there is nothing is not entered. -/
def findPruned (wanted : α → Bool) (worth : Tree α → Bool) : Tree α → Option (Tree α)
  | .node value below =>
    if wanted value then some (.node value below)
    else if worth (.node value below) then findPrunedForest wanted worth below
    else none

/-- The same search through a list of trees, stopping at the first hit. -/
def findPrunedForest (wanted : α → Bool) (worth : Tree α → Bool) :
    List (Tree α) → Option (Tree α)
  | [] => none
  | first :: others =>
    match findPruned wanted worth first with
    | some found => some found
    | none => findPrunedForest wanted worth others
end

end Tree

end TimeoutAudit
