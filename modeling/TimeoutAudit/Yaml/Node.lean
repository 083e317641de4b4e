import TimeoutAudit.Yaml.Token

/-!
# Nodes of a YAML document

A document is a tree of scalars, sequences and mappings.  An alias stands for a
node that carries an anchor, so a document also knows its anchored nodes.  Where a
problem keeps the rest of a document from being read, the tree ends in a broken
node.
-/

set_option autoImplicit false

namespace TimeoutAudit.Yaml

/-- A node of a document. -/
inductive Node where
  | scalar (mark : Mark) (style : Style) (tag : Option (List Char)) (value : List Char)
  | sequence (mark : Mark) (items : List Node)
  | mapping (mark : Mark) (entries : List (Node × Node))
  /-- Stands for the anchored node with a number. -/
  | alias (mark : Mark) (anchor : Nat)
  /-- Stands where reading failed. -/
  | broken
deriving Repr, Inhabited

namespace Node

/-- A plain scalar without characters: what stands where nothing is written. -/
def nothing (mark : Mark) : Node := .scalar mark .plain none []

mutual
/-- Whether a node was read to its end. -/
def isWhole : Node → Bool
  | .broken => false
  | .scalar _ _ _ _ => true
  | .alias _ _ => true
  | .sequence _ items => areWhole items
  | .mapping _ entries => areWholeEntries entries

/-- Whether all nodes were read to their ends. -/
def areWhole : List Node → Bool
  | [] => true
  | node :: rest => node.isWhole && areWhole rest

/-- Whether all keys and values were read to their ends. -/
def areWholeEntries : List (Node × Node) → Bool
  | [] => true
  | (key, value) :: rest => key.isWhole && value.isWhole && areWholeEntries rest
end

end Node

/-- A document as far as it could be read. -/
structure Document where
  /-- The node at the top; a text without a document has none. -/
  root : Option Node
  /-- The anchored nodes by their numbers. -/
  anchored : List (Nat × Node)
  /-- What kept the rest of the document from being read. -/
  problem : Option Problem
  /-- Whether anything but the end of the text follows. -/
  hasSuccessor : Bool
deriving Repr

/-- The node itself, or the one that an alias stands for. -/
def Document.resolve (document : Document) : Node → Node
  | .alias _ anchor => (document.anchored.lookup anchor).getD .broken
  | node => node

end TimeoutAudit.Yaml
