import TimeoutAudit.FileTree.Resolve

/-!
# Walking a directory

A walk meets the files below a directory in order: names are ordered in every
directory, and what is in a directory comes in its place.  Links are followed,
except that a link to a directory which the walk is inside of would never end, and
a link that leads nowhere is no file.  Both are reported.  Names that are texts and
start with a dot are passed over; a name that is no text is not.
-/

set_option autoImplicit false

namespace TimeoutAudit.FileTree

/-- What a walk cannot enter.  Names are those below the directory of the walk. -/
inductive WalkError where
  | unusable (names : List OsText) (reason : OsError)
  /-- A link to a directory that the walk is inside of. -/
  | loop (names ancestor : List OsText)
deriving DecidableEq, Repr

/-- What a walk meets. -/
inductive Encounter where
  | file (names : List OsText)
  | unreadable (error : WalkError)
deriving DecidableEq, Repr

/-- The path to an entry below a directory. -/
def pathBelow (root : OsText) (names : List OsText) : OsText := names.foldl Path.join root

/-- The wording of an error. -/
def WalkError.message (root : OsText) : WalkError → String
  | unusable names reason =>
    "IO error for operation on " ++ decodeLossy (pathBelow root names) ++ ": " ++ reason.message
  | loop names ancestor =>
    "File system loop found: " ++ decodeLossy (pathBelow root names)
      ++ " points to an ancestor " ++ decodeLossy (pathBelow root ancestor)

/-- Whether a name is passed over.  A name that is no text is not hidden, whatever its
first byte is. -/
def isHidden (name : OsText) : Bool :=
  (name.text?.map fun text => text.toList.head? == some '.').getD false

/-- A directory that a walk is inside of: where it is, and the names to it. -/
structure Opened where
  location : Location
  names : List OsText
deriving DecidableEq, Repr

/-- Walks the directory that was opened last.  `depth` bounds how far down. -/
def walkWithin (tree : FileTree) (root : OsText) : Nat → Opened → List Opened → List Encounter
  | 0, _, _ => []
  | depth + 1, directory, above =>
    (tree.names directory.location).flatMap fun name =>
      let names := directory.names ++ [name]
      let enter (location : Location) : List Encounter :=
        if isHidden name then []
        else walkWithin tree root depth ⟨location, names⟩ (directory :: above)
      let file : List Encounter := if isHidden name then [] else [.file names]
      match tree.entry? (directory.location ++ [name]) with
      | none => []
      | some (.file _) => file
      | some (.directory _) => enter (directory.location ++ [name])
      | some (.link _) =>
        match tree.resolve (pathBelow root names) with
        | .error reason => [.unreadable (.unusable names reason)]
        | .ok target =>
          match tree.entry? target with
          | some (.directory _) =>
            match (directory :: above).find? fun opened => opened.location == target with
            | some opened => [.unreadable (.loop names opened.names)]
            | none => enter target
          | _ => file

/-- Walks the directory that a path leads to.  Between two links a walk goes down the
tree, and a link leads to a directory that the walk is not inside of, so the depth is
bounded by the square of the number of entries. -/
def walk (tree : FileTree) (root : OsText) (location : Location) : List Encounter :=
  let size := tree.root.size
  tree.walkWithin root ((size + 1) * (size + 1)) ⟨location, []⟩ []

end TimeoutAudit.FileTree
