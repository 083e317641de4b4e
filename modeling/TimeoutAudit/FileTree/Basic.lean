import TimeoutAudit.Path

/-!
# File trees

A file tree is a value: directories with files, further directories and symbolic
links in them, and the place of the working directory.  Names are bytes, as the system
has them.  A location is the list of names from the root to an entry.  A directory's
names are listed without repetition and in the order of their bytes, however the tree
came about.
-/

set_option autoImplicit false

namespace TimeoutAudit

/-- What a name in a directory stands for. -/
inductive Entry where
  | file (content : List UInt8)
  | directory (entries : List (OsText × Entry))
  | link (target : OsText)
deriving Repr, Inhabited

/-- Names from the root to an entry. -/
abbrev Location := List OsText

namespace Entry

/-- The entry with a name in a directory. -/
def child? (entry : Entry) (name : OsText) : Option Entry :=
  match entry with
  | .directory entries => entries.lookup name
  | _ => none

/-- The entry at a location, seen from another one. -/
def at? (entry : Entry) : Location → Option Entry
  | [] => some entry
  | name :: rest =>
    match entry.child? name with
    | some child => child.at? rest
    | none => none

/-- Replaces the value of a key, or adds the key at the end. -/
def replace {α : Type} (name : OsText) (value : α) : List (OsText × α) → List (OsText × α)
  | [] => [(name, value)]
  | (other, old) :: rest =>
    if other == name then (name, value) :: rest else (other, old) :: replace name value rest

/-- Puts an entry at a location whose directory exists; otherwise nothing changes. -/
def put (new : Entry) : Location → Entry → Entry
  | [], _ => new
  | [name], .directory entries => .directory (replace name new entries)
  | name :: rest, .directory entries =>
    match entries.lookup name with
    | some child => .directory (replace name (put new rest child) entries)
    | none => .directory entries
  | _, other => other

mutual
/-- The number of entries in and below an entry, itself included. -/
def size : Entry → Nat
  | .file _ => 1
  | .link _ => 1
  | .directory entries => 1 + sizeOfAll entries

/-- The number of entries in and below several entries. -/
def sizeOfAll : List (OsText × Entry) → Nat
  | [] => 0
  | (_, entry) :: rest => entry.size + sizeOfAll rest
end

end Entry

/-- A tree of files with a working directory. -/
structure FileTree where
  root : Entry
  /-- The working directory. -/
  here : Location
deriving Repr, Inhabited

namespace FileTree

/-- The entry at a location. -/
def entry? (tree : FileTree) (location : Location) : Option Entry := tree.root.at? location

/-- Puts an entry at a location whose directory exists. -/
def put (tree : FileTree) (location : Location) (entry : Entry) : FileTree :=
  { tree with root := entry.put location tree.root }

/-- The names in a directory, in the order of their bytes. -/
def names (tree : FileTree) (location : Location) : List OsText :=
  match tree.entry? location with
  | some (.directory entries) =>
    (entries.map Prod.fst).eraseDups.mergeSort fun first second => decide (first ≤ second)
  | _ => []

/-- The path of a location. -/
def absolutePath (location : Location) : OsText := Path.slash :: Path.joined location

/-- A tree with an empty working directory. -/
def emptyAt (here : Location) : FileTree where
  root := here.foldr (fun name below => .directory [(name, below)]) (.directory [])
  here := here

end FileTree

end TimeoutAudit
