import TimeoutAudit.CommandLine.Run

/-!
# The program

Commands act on a file tree as a value.  The program loads the part of the disk
that a command can look at, runs the command on it, prints what it leaves behind
and writes the settings file that it made.  It meets the disk by the texts of names.
-/

set_option autoImplicit false

namespace TimeoutAudit.Program

/-! ## Loading -/

/-- A link target that leads nowhere. -/
def nowhere : OsText := [0]

/-- The location of what a path leads to on the disk. -/
def locate? (path : OsText) : IO (Option Location) :=
  try return some (Path.steps (Text.bytes (← IO.FS.realPath (decodeLossy path)).toString))
  catch _ => return none

/-- Adds an entry with the directories above it. -/
def place (tree : FileTree) (location : Location) (entry : Entry) : FileTree :=
  if (tree.entry? location).isSome then tree
  else
    let ready := (tree.createDirectories (FileTree.absolutePath location.dropLast)).1
    ready.put location entry

/-- The entry of a directory on the disk, without what is below it. -/
def loadEntry (directory : Location) (name : OsText) (withContent : Bool) : IO (Option Entry) := do
  let path :=
    (IO.FS.DirEntry.mk (decodeLossy (FileTree.absolutePath directory)) (decodeLossy name)).path
  try
    match (← path.symlinkMetadata).type with
    | .dir => return some (.directory [])
    | .symlink =>
      let target ← locate? (Text.bytes path.toString)
      return some (.link ((target.map FileTree.absolutePath).getD nowhere))
    | _ =>
      if withContent then return some (.file (← IO.FS.readBinFile path).toList)
      else return some (.file [])
  catch _ => return none

/-- Adds what a path leads through, segment by segment. -/
def loadPath (tree : FileTree) (path : OsText) : IO FileTree := do
  let mut loaded := tree
  let mut written := if Path.isAbsolute path then [Path.slash] else Path.here
  for segment in Path.segments path do
    if !Path.isIdle segment then
      if segment != Path.up then
        if let some directory ← locate? written then
          if let some entry ← loadEntry directory segment true then
            loaded := place loaded (directory ++ [segment]) entry
      written := Path.join written segment
      if let some location ← locate? written then
        if let some name := location.getLast? then
          if let some entry ← loadEntry location.dropLast name true then
            loaded := place loaded location entry
  return loaded

/-- Adds everything below a directory, and below the directories that links lead to. -/
partial def loadBelow (tree : FileTree) (location : Location) : IO FileTree := do
  let directory ← IO.FS.realPath (decodeLossy (FileTree.absolutePath location))
  let mut loaded := tree
  for found in ← (try directory.readDir catch _ => pure #[]) do
    let name := Text.bytes found.fileName
    let below := location ++ [name]
    if (loaded.entry? below).isNone then
      if let some entry ← loadEntry location name (Audit.isSource below) then
        loaded := place loaded below entry
        match entry with
        | .directory _ => loaded ← loadBelow loaded below
        | .link target =>
          if let some reached ← locate? target then
            if (loaded.entry? reached).isNone then
              loaded ← loadPath loaded target
              if loaded.isDirectory target then loaded ← loadBelow loaded reached
        | .file _ => pure ()
  return loaded

/-- The part of the disk that a command can look at. -/
def load (command : CommandLine.Command) : IO FileTree := do
  let here := (← locate? Path.here).getD []
  let start := FileTree.emptyAt here
  match command with
  | .init arguments => loadPath start arguments.output
  | .check arguments =>
    let mut loaded := start
    for path in arguments.path :: arguments.config.toList ++ CommandLine.settingsNames do
      loaded ← loadPath loaded path
    match loaded.resolve arguments.path with
    | .error _ => return loaded
    | .ok location =>
      if loaded.isDirectory arguments.path then return ← loadBelow loaded location
      else return loaded

/-! ## Running -/

/-- Writes the settings file of a command that made one. -/
def store (command : CommandLine.Command) (outcome : CommandLine.Outcome) : IO Unit := do
  match command with
  | .check _ => return
  | .init arguments =>
    if outcome.exitCode == CommandLine.exitSuccess then
      if let some parent := CommandLine.neededDirectory? arguments.output then
        IO.FS.createDirAll (decodeLossy parent)
      IO.FS.writeBinFile arguments.output Settings.template.toUTF8

/-- Runs a command, and gives its exit code. -/
def execute (invocation : CommandLine.Invocation) : IO UInt32 := do
  let tree ← load invocation.command
  let colour := (← (← IO.getStdout).isTty) && (← IO.getEnv "NO_COLOR").isNone
  let outcome := (CommandLine.run tree colour invocation.command).2
  for entry in outcome.log do
    if invocation.verbose || entry.level == .warn then IO.eprintln entry.text
  IO.eprint outcome.stderr
  store invocation.command outcome
  IO.print outcome.stdout
  return outcome.exitCode.toUInt32

/-- How the program is called. -/
def usage : String := "Usage: timeoutguard [--verbose] <check PATH | init> [OPTIONS]"

end TimeoutAudit.Program

/-- Runs the command that the arguments name. -/
def main (arguments : List String) : IO UInt32 := do
  match TimeoutAudit.CommandLine.parse arguments with
  | .ok invocation => TimeoutAudit.Program.execute invocation
  | .error error =>
    if error.exitCode == 0 then IO.println TimeoutAudit.Program.usage
    else IO.eprintln TimeoutAudit.Program.usage
    return error.exitCode.toUInt32
