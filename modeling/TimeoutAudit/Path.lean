import TimeoutAudit.OsText

/-!
# Paths

A path is a string of bytes; slashes divide it into segments.  Empty segments and `.`
lead nowhere, so two paths can name the same place.  Only a `.` at the very front of a
relative path is kept as a component of its own.
-/

set_option autoImplicit false

namespace TimeoutAudit.Path

/-! ## Segments -/

/-- The byte between two segments. -/
def slash : UInt8 := 0x2F

/-- The byte in front of an extension. -/
def dot : UInt8 := 0x2E

/-- The segment that stays where it is. -/
def here : OsText := [dot]

/-- The segment that goes one step up. -/
def up : OsText := [dot, dot]

/-- The parts of a path between slashes; there is always at least one. -/
def segments (path : OsText) : List OsText := path.splitOn slash

/-- Segments with slashes between them. -/
def joined (parts : List OsText) : OsText := [slash].intercalate parts

/-- A segment that leads nowhere. -/
def isIdle (segment : OsText) : Bool := segment.isEmpty || segment == here

/-- The segments that lead somewhere. -/
def steps (path : OsText) : List OsText := (segments path).filter fun segment => !isIdle segment

/-- Whether a path starts at the root. -/
def isAbsolute (path : OsText) : Bool := path.head? == some slash

/-- Whether a path starts with a `.` of its own. -/
def startsHere (path : OsText) : Bool := (segments path).head? == some here

/-! ## Parts of paths -/

/-- What is left of segments behind a number of those that lead somewhere. -/
def afterSteps : Nat → List OsText → List OsText
  | 0, rest => rest
  | _, [] => []
  | count + 1, segment :: rest =>
    if isIdle segment then afterSteps (count + 1) rest else afterSteps count rest

/-- Segments without idle ones at both ends. -/
def trimIdle (rest : List OsText) : List OsText :=
  ((rest.dropWhile isIdle).reverse.dropWhile isIdle).reverse

/-- The part of a path below a base, as it is written; none if it is not below it. -/
def below? (base path : OsText) : Option OsText :=
  if isAbsolute base == isAbsolute path && startsHere base == startsHere path
      && (steps base).isPrefixOf (steps path) then
    some (joined (trimIdle (afterSteps (steps base).length (segments path))))
  else none

/-- The path one step up, as it is written; the root has none. -/
def parent? (path : OsText) : Option OsText :=
  let front := if isAbsolute path then [slash] else if startsHere path then [dot, slash] else []
  let body := if front.isEmpty then segments path else (segments path).tail
  match body.reverse.dropWhile isIdle with
  | [] => if startsHere path then some [] else none
  | _ :: before =>
    match (before.dropWhile isIdle).reverse with
    | [] => some (if front == [dot, slash] then here else front)
    | kept => some (front ++ joined kept)

/-- What stands behind the last dot of a name, if something stands in front of it. -/
def extensionOf? (name : OsText) : Option OsText :=
  let behind := name.reverse.takeWhile (· != dot)
  let rest := name.reverse.drop behind.length
  if name == up || rest.length ≤ 1 then none else some behind.reverse

/-- A path with another one behind it, which replaces it if it is absolute. -/
def join (path other : OsText) : OsText :=
  if isAbsolute other then other
  else if path.isEmpty || path.getLast? == some slash then path ++ other
  else path ++ slash :: other

/-- The text of a path as it is shown to someone at a base: what lies below the base
starts with `./` and has slashes for backslashes, and any other text stays as it is. -/
def shown (base : OsText) (path : String) : String :=
  if base.isEmpty then path
  else
    match below? base path with
    | some rest =>
      "./" ++ String.ofList ((decodeLossy rest).toList.map fun c => if c == '\\' then '/' else c)
    | none => path

end TimeoutAudit.Path
