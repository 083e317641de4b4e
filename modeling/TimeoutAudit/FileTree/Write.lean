import TimeoutAudit.FileTree.Resolve

/-!
# Changes to a file tree

Directories are created with those above them, and files are written through
links.  What was created before an error stays, so every operation gives the tree
that is left.
-/

set_option autoImplicit false

namespace TimeoutAudit.FileTree

/-- Creates one entry where nothing is yet.  A link in the last place is something. -/
def create (tree : FileTree) (path : OsText) (entry : Entry) : Except OsError FileTree :=
  match tree.spot false path with
  | .error error => .error error
  | .ok (.present _) => .error .alreadyExists
  | .ok (.absent directory name _) => .ok (tree.put (directory ++ [name]) entry)

/-- Creates a directory. -/
def createDirectory (tree : FileTree) (path : OsText) : Except OsError FileTree :=
  tree.create path (.directory [])

/-- Creates a directory at the second try, or finds that there is one. -/
def ensureDirectory (tree : FileTree) (path : OsText) : FileTree × Option OsError :=
  match tree.createDirectory path with
  | .ok created => (created, none)
  | .error error => (tree, if tree.isDirectory path then none else some error)

/-- Creates a directory and those above it; `depth` bounds how many there are. -/
def createAllWithin : Nat → FileTree → OsText → FileTree × Option OsError
  | 0, tree, _ => (tree, none)
  | depth + 1, tree, path =>
    if path.isEmpty then (tree, none)
    else
      match tree.createDirectory path with
      | .ok created => (created, none)
      | .error .notFound =>
        match Path.parent? path with
        | none => (tree, some .notFound)
        | some parent =>
          match createAllWithin depth tree parent with
          | (partly, some error) => (partly, some error)
          | (ready, none) => ready.ensureDirectory path
      | .error error => (tree, if tree.isDirectory path then none else some error)

/-- Creates a directory and those above it. -/
def createDirectories (tree : FileTree) (path : OsText) : FileTree × Option OsError :=
  createAllWithin ((Path.segments path).length + 1) tree path

/-- Writes a file, which need not exist.  A directory cannot be written, nor a file
that does not exist if a slash follows its name. -/
def writeFile (tree : FileTree) (path : OsText) (content : List UInt8) :
    Except OsError FileTree :=
  match tree.spot true path with
  | .error error => .error error
  | .ok (.absent directory name slashed) =>
    if slashed then .error .isDirectory else .ok (tree.put (directory ++ [name]) (.file content))
  | .ok (.present location) =>
    match tree.entry? location with
    | some (.file _) => .ok (tree.put location (.file content))
    | _ => .error .isDirectory

end TimeoutAudit.FileTree
