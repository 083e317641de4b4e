import TimeoutAudit.Audit.Run
import TimeoutAudit.CommandLine.Arguments
import TimeoutAudit.FileTree.Write
import TimeoutAudit.Report.Json
import TimeoutAudit.Report.Pretty
import TimeoutAudit.Settings.Decode
import TimeoutAudit.Settings.Template

/-!
# Commands

`check` audits the files that a path names and reports what it found.  `init`
writes a file with all settings, unless there is one.  Commands act on a file tree
as a value: a check leaves it as it is, and an init gives the tree that is left.  A
path that was given as text is taken by its bytes, and a path is shown by its text.
-/

set_option autoImplicit false

namespace TimeoutAudit.CommandLine

/-- What a command leaves behind. -/
structure Outcome where
  exitCode : Nat
  stdout : String
  stderr : String
  log : List LogEntry
deriving DecidableEq, Repr

/-- The exit code of a command that did what it was asked to. -/
def exitSuccess : Nat := 0

/-- The exit code of a check that found something. -/
def exitFailed : Nat := 1

/-- The exit code of a command that could not do what it was asked to. -/
def exitError : Nat := 2

/-- The outcome of a command that stops at an error. -/
def Outcome.failed (message : String) (log : List LogEntry) : Outcome :=
  ⟨exitError, "", "Error: " ++ message ++ "\n", log⟩

/-! ## Settings -/

/-- Names of settings files, in the order in which they are looked for. -/
def settingsNames : List String := ["timeoutguard.yaml", ".timeoutguard.yaml"]

/-- The settings file in the working directory. -/
def discover? (tree : FileTree) : Option OsText :=
  (settingsNames.map fun name => Path.join Path.here (Text.bytes name)).find? fun path =>
    tree.isFile path

/-- Why settings cannot be loaded. -/
inductive LoadError where
  | unreadable (reason : OsError)
  /-- The bytes of the file are no text. -/
  | notText
  | undecodable (error : Settings.DecodeError)
deriving Repr

/-- The wording of an error. -/
def LoadError.message : LoadError → String
  | unreadable reason => reason.message
  | notText => "stream did not contain valid UTF-8"
  | undecodable error => error.message

/-- The settings in a file. -/
def loadFile (tree : FileTree) (path : OsText) : Except LoadError Settings :=
  match tree.read path with
  | .error reason => .error (.unreadable reason)
  | .ok content =>
    match Glyph.text? (Glyph.decode content) with
    | none => .error .notText
    | some text =>
      match Settings.ofText text with
      | .error error => .error (.undecodable error)
      | .ok settings => .ok settings

/-- The file that settings come from: the one that is named, or one that is found. -/
def settingsPath? (tree : FileTree) (named : Option String) : Option OsText :=
  match named with
  | some path => some (path : OsText)
  | none => discover? tree

/-- What the log says about the settings file. -/
def settingsLog (path : Option OsText) : LogEntry :=
  match path with
  | some found => ⟨.debug, "using config " ++ decodeLossy found⟩
  | none =>
    ⟨.debug, "no config file found (looked for " ++ String.intercalate ", " settingsNames
      ++ "), using defaults"⟩

/-- The settings to use, or why there are none. -/
def loadSettings (tree : FileTree) (path : Option OsText) : Except String Settings :=
  match path with
  | none => .ok {}
  | some found =>
    match loadFile tree found with
    | .error error => .error ("cannot load config " ++ decodeLossy found ++ ": " ++ error.message)
    | .ok settings =>
      match settings.defect? with
      | some defect => .error ("invalid config: " ++ defect.message)
      | none => .ok settings

/-! ## Check -/

/-- A form of report. -/
inductive Format where
  | pretty
  | json
deriving DecidableEq, Repr

/-- The form with a name. -/
def Format.ofName? (name : String) : Option Format :=
  if name == "pretty" then some .pretty else if name == "json" then some .json else none

/-- The report of a result, as seen from the working directory. -/
def render (tree : FileTree) (colour detailed : Bool) (result : AuditResult) : Format → String
  | .json => Report.Json.text result
  | .pretty => Report.Pretty.text colour detailed (FileTree.absolutePath tree.here) result

/-- The exit code of a check. -/
def exitCodeOf (failOnSkipped : Bool) (result : AuditResult) : Nat :=
  if result.hasIssues || (failOnSkipped && !result.skipped.isEmpty) then exitFailed
  else exitSuccess

/-- Audits the location of a path and reports the result. -/
def checkLocation (tree : FileTree) (colour : Bool) (arguments : CheckArguments)
    (format : Format) (settings : Settings) (log : List LogEntry) (path : OsText) : Outcome :=
  match Audit.audit settings arguments.jobs tree path with
  | .error error => .failed error.message log
  | .ok run =>
    let nothing : List LogEntry :=
      if run.result.scanned == 0 && run.result.skipped.isEmpty then
        [⟨.warn, "no PHP files found under " ++ decodeLossy path⟩]
      else []
    ⟨exitCodeOf arguments.failOnSkipped run.result,
      render tree colour arguments.showSuppressed run.result format, "",
      log ++ run.log ++ nothing⟩

/-- Checks the files that a path names. -/
def check (tree : FileTree) (colour : Bool) (arguments : CheckArguments) : Outcome :=
  match Format.ofName? arguments.format with
  | none =>
    .failed ("invalid format " ++ Text.quoted arguments.format ++ ", must be 'pretty' or 'json'") []
  | some format =>
    let source := settingsPath? tree arguments.config
    let log := [settingsLog source]
    match loadSettings tree source with
    | .error message => .failed message log
    | .ok settings =>
      match tree.resolve arguments.path with
      | .error reason =>
        .failed ("cannot access path " ++ Text.quoted arguments.path ++ ": " ++ reason.message) log
      | .ok location =>
        checkLocation tree colour arguments format settings log (FileTree.absolutePath location)

/-! ## Init -/

/-- What is said after a settings file was written. -/
def nextSteps (output : String) : String :=
  String.join ([
    "Created " ++ output,
    "",
    "Next steps:",
    "  1. Edit " ++ output ++ " to match your client variable names",
    "  2. Run: timeoutguard check . --config " ++ output].map (· ++ "\n"))

/-- The directory that a settings file needs, if it is not the working directory. -/
def neededDirectory? (output : OsText) : Option OsText :=
  (Path.parent? output).filter fun parent => !parent.isEmpty && parent != Path.here

/-- The tree with the directory that a settings file needs. -/
def prepare (tree : FileTree) (output : OsText) : FileTree × Option OsError :=
  match neededDirectory? output with
  | none => (tree, none)
  | some parent => tree.createDirectories parent

/-- Writes a settings file, unless its path leads to something. -/
def init (tree : FileTree) (arguments : InitArguments) : FileTree × Outcome :=
  let output := arguments.output
  if tree.hasPath output then
    (tree, ⟨exitError, "",
      "Error: file already exists: " ++ output
        ++ "\nRemove it or use --output to specify a different path\n", []⟩)
  else
    match prepare tree output with
    | (partly, some error) => (partly, .failed ("failed to create directory: " ++ error.message) [])
    | (ready, none) =>
      match ready.writeFile output Settings.template.toUTF8.toList with
      | .error error => (ready, .failed ("failed to write config: " ++ error.message) [])
      | .ok written => (written, ⟨exitSuccess, nextSteps output, "", []⟩)

/-- Runs a command on a file tree. -/
def run (tree : FileTree) (colour : Bool) : Command → FileTree × Outcome
  | .check arguments => (tree, check tree colour arguments)
  | .init arguments => init tree arguments

end TimeoutAudit.CommandLine
