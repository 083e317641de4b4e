import TimeoutAudit.FileTree.Basic

/-!
# Where paths lead

A path is followed segment by segment from the root or from the working directory.
A symbolic link is replaced by its target, up to a limit on the number of links in
one path.  The last segment may be missing where something can be created.
-/

set_option autoImplicit false

namespace TimeoutAudit

/-- Why a path cannot be used. -/
inductive OsError where
  | notFound
  | alreadyExists
  | notDirectory
  | isDirectory
  | nameTooLong
  | tooManyLinks
deriving DecidableEq, Repr

/-- The wording of an error, with its number. -/
def OsError.message : OsError → String
  | notFound => "No such file or directory (os error 2)"
  | alreadyExists => "File exists (os error 17)"
  | notDirectory => "Not a directory (os error 20)"
  | isDirectory => "Is a directory (os error 21)"
  | nameTooLong => "File name too long (os error 36)"
  | tooManyLinks => "Too many levels of symbolic links (os error 40)"

namespace FileTree

/-- How far a path leads without a link that has to be followed. -/
inductive Progress where
  | arrived (location : Location)
  /-- Only the last name is missing; a slash may follow it. -/
  | missing (directory : Location) (name : OsText) (slashed : Bool)
  /-- A link in a directory, and the segments behind it. -/
  | link (directory : Location) (target : OsText) (rest : List OsText)
  | failed (error : OsError)

/-- The greatest number of bytes of a name. -/
def nameLimit : Nat := 255

/-- Follows segments from a location up to the first link.  A link in the last place
is an end of its own unless it has to be followed. -/
def advance (tree : FileTree) (followLast : Bool) : Location → List OsText → Progress
  | current, [] => .arrived current
  | current, segment :: rest =>
    match tree.entry? current with
    | some (.directory entries) =>
      if Path.isIdle segment then advance tree followLast current rest
      else if segment == Path.up then advance tree followLast current.dropLast rest
      else if nameLimit < segment.length then .failed .nameTooLong
      else
        match entries.lookup segment with
        | none =>
          if rest.all List.isEmpty then .missing current segment (!rest.isEmpty)
          else .failed .notFound
        | some (.link target) =>
          if rest.isEmpty && !followLast then .arrived (current ++ [segment])
          else .link current target rest
        | some _ => advance tree followLast (current ++ [segment]) rest
    | _ => .failed .notDirectory

/-- The end of a path. -/
inductive Spot where
  | present (location : Location)
  /-- Nothing yet, but the directory it would be in exists. -/
  | absent (directory : Location) (name : OsText) (slashed : Bool)
deriving DecidableEq, Repr

/-- The most links that one path may lead through. -/
def linkLimit : Nat := 40

/-- Where a path starts. -/
def startOf (tree : FileTree) (path : OsText) : Location :=
  if Path.isAbsolute path then [] else tree.here

/-- Follows segments and links. -/
def follow (tree : FileTree) (followLast : Bool) (links : Nat) (current : Location)
    (segments : List OsText) : Except OsError Spot :=
  match tree.advance followLast current segments with
  | .arrived location => .ok (.present location)
  | .missing directory name slashed => .ok (.absent directory name slashed)
  | .failed error => .error error
  | .link directory target rest =>
    match links with
    | 0 => .error .tooManyLinks
    | left + 1 =>
      let start := if Path.isAbsolute target then [] else directory
      follow tree followLast left start (Path.segments target ++ rest)

/-- The end of a path. -/
def spot (tree : FileTree) (followLast : Bool) (path : OsText) : Except OsError Spot :=
  if path.isEmpty then .error .notFound
  else tree.follow followLast linkLimit (tree.startOf path) (Path.segments path)

/-- The location that a path leads to. -/
def resolve (tree : FileTree) (path : OsText) : Except OsError Location :=
  match tree.spot true path with
  | .ok (.present location) => .ok location
  | .ok (.absent _ _ _) => .error .notFound
  | .error error => .error error

/-- The entry that a path leads to. -/
def lookup (tree : FileTree) (path : OsText) : Except OsError Entry :=
  match tree.resolve path with
  | .error error => .error error
  | .ok location =>
    match tree.entry? location with
    | some entry => .ok entry
    | none => .error .notFound

/-- Whether a path leads anywhere. -/
def hasPath (tree : FileTree) (path : OsText) : Bool := (tree.lookup path).toOption.isSome

/-- Whether a path leads to a file. -/
def isFile (tree : FileTree) (path : OsText) : Bool :=
  match tree.lookup path with
  | .ok (.file _) => true
  | _ => false

/-- Whether a path leads to a directory. -/
def isDirectory (tree : FileTree) (path : OsText) : Bool :=
  match tree.lookup path with
  | .ok (.directory _) => true
  | _ => false

/-- The bytes of the file that a path leads to. -/
def read (tree : FileTree) (path : OsText) : Except OsError (List UInt8) :=
  match tree.lookup path with
  | .error error => .error error
  | .ok (.file content) => .ok content
  | .ok (.directory _) => .error .isDirectory
  | .ok (.link _) => .error .notFound

end FileTree

end TimeoutAudit
