import TimeoutAudit.FileTree.Walk
import TimeoutAudit.Log
import TimeoutAudit.Settings.Validity

/-!
# Which files are audited

A path to a file names that file.  A path to a directory names the files below it
whose extension is `php` and whose path from there no pattern excludes.
-/

set_option autoImplicit false

namespace TimeoutAudit

namespace Audit

open FileTree (Encounter pathBelow)

/-- Why no files can be listed. -/
inductive CollectError where
  | inaccessible (path : OsText) (reason : OsError)
  | invalid (defect : Settings.Defect)
deriving DecidableEq, Repr

/-- The wording of an error. -/
def CollectError.message : CollectError → String
  | inaccessible path reason => "cannot access path " ++ decodeLossy path ++ ": " ++ reason.message
  | invalid defect => defect.message

/-- The extension of the files that are audited. -/
def extension : String := "php"

/-- The path of an entry from the directory of a walk on. -/
def relativePath (names : List OsText) : OsText := Path.joined names

/-- Whether names lead to a file with the right extension. -/
def isSource (names : List OsText) : Bool :=
  ((names.getLast?.bind Path.extensionOf?).bind OsText.text?) == some extension

/-- The file of an encounter, if it is audited. -/
def selected? (exclusion : PathFilter) (root : OsText) : Encounter → Option OsText
  | .file names =>
    if isSource names && !exclusion.matchesPath (relativePath names) then
      some (pathBelow root names)
    else none
  | .unreadable _ => none

/-- What the log says about an encounter. -/
def encounterLog? (exclusion : PathFilter) (root : OsText) : Encounter → Option LogEntry
  | .file names =>
    if isSource names && exclusion.matchesPath (relativePath names) then
      some ⟨.debug, "excluded " ++ decodeLossy (relativePath names)⟩
    else none
  | .unreadable error => some ⟨.warn, "skipping unreadable entry: " ++ error.message root⟩

/-- Files to audit, with what the log says about listing them. -/
structure Collection where
  files : List OsText
  log : List LogEntry
deriving DecidableEq, Repr

/-- The files that a path names. -/
def collect (settings : Settings) (tree : FileTree) (root : OsText) :
    Except CollectError Collection :=
  match tree.resolve root with
  | .error reason => .error (.inaccessible root reason)
  | .ok location =>
    match tree.entry? location with
    | some (.directory _) =>
      match settings.exclusion with
      | .error defect => .error (.invalid defect)
      | .ok exclusion =>
        let encounters := tree.walk root location
        .ok ⟨encounters.filterMap (selected? exclusion root),
          encounters.filterMap (encounterLog? exclusion root)⟩
    | _ => .ok ⟨[root], []⟩

end Audit

end TimeoutAudit
