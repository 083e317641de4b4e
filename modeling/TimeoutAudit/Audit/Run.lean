import TimeoutAudit.Audit.Collect
import TimeoutAudit.AuditResult
import TimeoutAudit.Detector

/-!
# Auditing files

Every file is parsed, and one detector after another walks it.  A file that cannot
be read or parsed is skipped.  Results and the log name a file by the text that can be
shown for its path.  With one job the same detectors are used for all
files in turn; with several, every file has detectors of its own.
-/

set_option autoImplicit false

namespace TimeoutAudit

namespace Audit

/-! ## One file -/

/-- Why a file is skipped. -/
inductive SkipReason where
  | unreadable (reason : OsError)
  | faulty (error : Php.ParseError)
deriving DecidableEq, Repr

/-- The wording of a reason. -/
def SkipReason.message : SkipReason → String
  | unreadable reason => "cannot read file: " ++ reason.message
  | faulty error => error.message

/-- What became of a file. -/
inductive Outcome where
  | skipped (reason : SkipReason)
  | scanned (issues : List Issue) (suppressed : List SuppressedIssue)
deriving DecidableEq, Repr

/-- A file and what became of it. -/
structure FileReport where
  file : String
  outcome : Outcome
deriving DecidableEq, Repr

namespace FileReport

/-- The result that a file contributes. -/
def result (report : FileReport) : AuditResult :=
  match report.outcome with
  | .skipped reason => { skipped := [⟨report.file, reason.message⟩] }
  | .scanned issues suppressed => { issues := issues, suppressed := suppressed, scanned := 1 }

/-- What the log says about a file. -/
def log (report : FileReport) : LogEntry :=
  match report.outcome with
  | .skipped reason => ⟨.warn, "skipping " ++ report.file ++ ": " ++ reason.message⟩
  | .scanned issues suppressed =>
    ⟨.debug, report.file ++ ": " ++ toString issues.length ++ " issue(s), "
      ++ toString suppressed.length ++ " suppressed"⟩

end FileReport

/-- Parses the file that a path leads to. -/
def parseFile (tree : FileTree) (path : OsText) : Except SkipReason Php.ParsedFile :=
  match tree.read path with
  | .error reason => .error (.unreadable reason)
  | .ok source =>
    match Php.parse (decodeLossy path) source with
    | .error error => .error (.faulty error)
    | .ok file => .ok file

/-- Lets every detector walk a file, takes out what it found and resets it. -/
def detect (file : Php.ParsedFile) : List Detector → List Issue × List Detector
  | [] => ([], [])
  | detector :: rest =>
    let (found, emptied) := (detector.traverse file).take
    let (others, after) := detect file rest
    (found.map (Issue.mk file.path) ++ others, emptied.reset :: after)

/-- Audits a file with the given detectors, and returns them as they are afterwards. -/
def auditFile (tree : FileTree) (path : OsText) (detectors : List Detector) :
    FileReport × List Detector :=
  let name := decodeLossy path
  match parseFile tree path with
  | .error reason => (⟨name, .skipped reason⟩, detectors)
  | .ok file =>
    let (issues, after) := detect file detectors
    let (active, silenced) := Suppression.split (suppressions name file.text) issues
    (⟨name, .scanned active silenced⟩, after)

/-! ## Several files -/

/-- Audits one file after another with the same detectors. -/
def inTurn (tree : FileTree) : List Detector → List OsText → List FileReport
  | _, [] => []
  | detectors, path :: rest =>
    let (report, after) := auditFile tree path detectors
    report :: inTurn tree after rest

/-- Audits every file with detectors of its own. -/
def apart (tree : FileTree) (settings : DetectorSettings) (paths : List OsText) :
    List FileReport :=
  paths.map fun path => (auditFile tree path settings.detectors).1

/-- The reports of files, in their order. -/
def reports (settings : Settings) (jobs : Nat) (tree : FileTree) (paths : List OsText) :
    List FileReport :=
  if jobs == 1 then inTurn tree settings.detectors.detectors paths
  else apart tree settings.detectors paths

/-- An audit: the paths of the files, what was found, and the log. -/
structure Run where
  paths : List OsText
  result : AuditResult
  log : List LogEntry
deriving DecidableEq, Repr

/-- The files of an audit, as they are shown. -/
def Run.files (run : Run) : List String := run.paths.map decodeLossy

/-- Audits the given files. -/
def auditFiles (settings : Settings) (jobs : Nat) (tree : FileTree) (paths : List OsText) : Run :=
  let found := reports settings jobs tree paths
  ⟨paths, .mergeAll (found.map FileReport.result), found.map FileReport.log⟩

/-- Audits the files that a path names. -/
def audit (settings : Settings) (jobs : Nat) (tree : FileTree) (root : OsText) :
    Except CollectError Run :=
  match collect settings tree root with
  | .error error => .error error
  | .ok collection =>
    let run := auditFiles settings jobs tree collection.files
    let heading : LogEntry :=
      ⟨.debug, "analyzing " ++ toString collection.files.length ++ " file(s) under "
        ++ decodeLossy root⟩
    .ok { run with log := collection.log ++ heading :: run.log }

end Audit

end TimeoutAudit
