/-!
# Command line arguments

A command line names a command and its options.  An option has a long name, most
have a letter as well, and a value stands behind it or is attached to it.  What
follows `--` is no option.  Arguments are taken in turn, so the first mistake is
reported; a value is looked at when the next option comes or the line ends.  All
arguments are texts, those that are paths as well.
-/

set_option autoImplicit false

namespace TimeoutAudit.CommandLine

/-! ## What a command line says -/

/-- What to check, and how. -/
structure CheckArguments where
  path : String
  format : String := "pretty"
  config : Option String := none
  /-- One job works through the files in turn. -/
  jobs : Nat := 1
  showSuppressed : Bool := false
  failOnSkipped : Bool := false
deriving DecidableEq, Repr

/-- What to write. -/
structure InitArguments where
  output : String := "timeoutguard.yaml"
deriving DecidableEq, Repr

/-- What to do. -/
inductive Command where
  | check (arguments : CheckArguments)
  | init (arguments : InitArguments)
deriving DecidableEq, Repr

/-- A command, and whether the log is wanted. -/
structure Invocation where
  verbose : Bool
  command : Command
deriving DecidableEq, Repr

/-- Why a command line names no command. -/
inductive UsageError where
  /-- A path is missing. -/
  | missingArgument
  /-- There are no arguments at all. -/
  | nothingAsked
  | missingCommand
  | unknownCommand
  | unknownArgument
  /-- A value is missing, or is empty where it may not be. -/
  | missingValue
  | invalidValue
  /-- An option is given twice. -/
  | repeatedOption
  /-- A value is attached to an option that has none. -/
  | unwantedValue
  | helpWanted
  | versionWanted
deriving DecidableEq, Repr

/-- The exit code; a wish for help or for the version is no failure. -/
def UsageError.exitCode : UsageError → Nat
  | helpWanted => 0
  | versionWanted => 0
  | _ => 2

/-! ## Options -/

/-- What an argument can set. -/
inductive Slot where
  | verbose
  | help
  | version
  | format
  | config
  | jobs
  | showSuppressed
  | failOnSkipped
  | output
  /-- The path to check, which is no option. -/
  | path
deriving DecidableEq, Repr

namespace Slot

/-- The long name of an option. -/
def long : Slot → String
  | verbose => "verbose"
  | help => "help"
  | version => "version"
  | format => "format"
  | config => "config"
  | jobs => "jobs"
  | showSuppressed => "show-suppressed"
  | failOnSkipped => "fail-on-skipped"
  | output => "output"
  | path => ""

/-- The letter of an option. -/
def letter? : Slot → Option Char
  | verbose => some 'v'
  | help => some 'h'
  | version => some 'V'
  | format => some 'f'
  | config => some 'c'
  | jobs => some 'j'
  | output => some 'o'
  | showSuppressed => none
  | failOnSkipped => none
  | path => none

/-- Whether an option has a value. -/
def takesValue : Slot → Bool
  | format => true
  | config => true
  | jobs => true
  | output => true
  | path => true
  | _ => false

end Slot

/-- The part of a command line: in front of the command, or behind one. -/
inductive Level where
  | top
  | check
  | init
deriving DecidableEq, Repr

namespace Level

/-- The options of a level. -/
def options : Level → List Slot
  | top => [.verbose, .help, .version]
  | check => [.verbose, .help, .format, .config, .jobs, .showSuppressed, .failOnSkipped]
  | init => [.verbose, .help, .output]

/-- The option with a long name. -/
def ofLong? (level : Level) (name : List Char) : Option Slot :=
  level.options.find? fun slot => slot.long.toList == name

/-- The option with a letter. -/
def ofLetter? (level : Level) (letter : Char) : Option Slot :=
  level.options.find? fun slot => slot.letter? == some letter

end Level

/-! ## Values -/

/-- What has been set. -/
structure Draft where
  verbose : Bool := false
  format : Option String := none
  config : Option String := none
  jobs : Option Nat := none
  showSuppressed : Bool := false
  failOnSkipped : Bool := false
  output : Option String := none
  path : Option String := none
deriving DecidableEq, Repr

/-- A number of jobs: digits, with an optional plus sign, below 2 to the 64th. -/
def jobs? (text : List Char) : Option Nat :=
  let digits :=
    match text with
    | '+' :: rest => rest
    | other => other
  if digits.isEmpty || !digits.all Char.isDigit then none
  else
    let value := digits.foldl (fun known digit => known * 10 + (digit.toNat - 48)) 0
    if value < UInt64.size then some value else none

/-- A path, which may not be empty. -/
def pathValue (text : String) : Except UsageError String :=
  if text.isEmpty then .error .missingValue else .ok text

/-- Sets a slot that is still free. -/
def once {α : Type} (taken : Bool) (value : Except UsageError α) : Except UsageError α :=
  if taken then .error .repeatedOption else value

namespace Draft

/-- Sets an option without a value. -/
def setFlag (draft : Draft) : Slot → Except UsageError Draft
  | .help => .error .helpWanted
  | .version => .error .versionWanted
  | .verbose => once draft.verbose (.ok { draft with verbose := true })
  | .showSuppressed => once draft.showSuppressed (.ok { draft with showSuppressed := true })
  | .failOnSkipped => once draft.failOnSkipped (.ok { draft with failOnSkipped := true })
  | _ => .ok draft

/-- Sets a value. -/
def setValue (draft : Draft) (slot : Slot) (text : String) : Except UsageError Draft :=
  match slot with
  | .format => once draft.format.isSome (.ok { draft with format := some text })
  | .config => once draft.config.isSome
      ((pathValue text).map fun path => { draft with config := some path })
  | .output => once draft.output.isSome
      ((pathValue text).map fun path => { draft with output := some path })
  | .path => once draft.path.isSome
      ((pathValue text).map fun path => { draft with path := some path })
  | .jobs => once draft.jobs.isSome
      (match jobs? text.toList with
        | some count => .ok { draft with jobs := some count }
        | none => .error .invalidValue)
  | _ => .ok draft

end Draft

/-! ## Reading a level -/

/-- What has been read of a level. -/
structure Progress where
  draft : Draft := {}
  /-- The latest slot that takes a value, and its value if it has come. -/
  pending : Option (Slot × Option String) := none
  /-- Whether a path has come. -/
  hasPath : Bool := false
  /-- Whether `--` has come. -/
  trailing : Bool := false
deriving DecidableEq, Repr

namespace Progress

/-- Sets the value that is pending. -/
def settle (progress : Progress) : Except UsageError Progress :=
  match progress.pending with
  | none => .ok progress
  | some (_, none) => .error .missingValue
  | some (slot, some text) =>
    (progress.draft.setValue slot text).map fun draft =>
      { progress with draft := draft, pending := none }

/-- Takes an option without a value. -/
def takeFlag (progress : Progress) (slot : Slot) : Except UsageError Progress := do
  let settled ← progress.settle
  let draft ← settled.draft.setFlag slot
  return { settled with draft := draft }

/-- Takes an option whose value comes next. -/
def expectValue (progress : Progress) (slot : Slot) : Except UsageError Progress := do
  let settled ← progress.settle
  return { settled with pending := some (slot, none) }

/-- Takes an option with its value. -/
def takeValue (progress : Progress) (slot : Slot) (text : List Char) :
    Except UsageError Progress := do
  let settled ← progress.settle
  let draft ← settled.draft.setValue slot (String.ofList text)
  return { settled with draft := draft }

/-- Takes an option with a long name, behind the two hyphens. -/
def takeLong (level : Level) (progress : Progress) (text : List Char) :
    Except UsageError Progress :=
  let name := text.takeWhile (· != '=')
  let behind := text.dropWhile (· != '=')
  match level.ofLong? name with
  | none => .error .unknownArgument
  | some slot =>
    match behind with
    | [] => if slot.takesValue then progress.expectValue slot else progress.takeFlag slot
    | _ :: value =>
      if slot.takesValue then progress.takeValue slot value else .error .unwantedValue

/-- Takes letters behind one hyphen: options without a value, and then perhaps one
with a value, which is attached if anything follows. -/
def takeLetters (level : Level) : Progress → List Char → Except UsageError Progress
  | progress, [] => .ok progress
  | progress, letter :: rest =>
    match level.ofLetter? letter with
    | none => .error .unknownArgument
    | some slot =>
      if slot.takesValue then
        match rest with
        | [] => progress.expectValue slot
        | '=' :: value => progress.takeValue slot value
        | value => progress.takeValue slot value
      else
        match progress.takeFlag slot with
        | .error error => .error error
        | .ok taken => takeLetters level taken rest

/-- What an argument looks like. -/
inductive Shape where
  /-- `--` alone. -/
  | divider
  | long (text : List Char)
  | letters (text : List Char)
  | word
deriving DecidableEq, Repr

/-- The shape of an argument. -/
def shape (argument : String) : Shape :=
  match argument.toList with
  | ['-', '-'] => .divider
  | '-' :: '-' :: text => .long text
  | '-' :: letter :: rest => .letters (letter :: rest)
  | _ => .word

/-- Takes a word that is no option: the path, which only `check` has. -/
def takeWord (level : Level) (progress : Progress) (word : String) :
    Except UsageError Progress :=
  if level == .check && !progress.hasPath then do
    let settled ← progress.settle
    return { settled with pending := some (.path, some word), hasPath := true }
  else .error .unknownArgument

/-- Takes one argument. -/
def take (level : Level) (progress : Progress) (argument : String) :
    Except UsageError Progress :=
  if progress.trailing then progress.takeWord level argument
  else
    match shape argument with
    | .divider => .ok { progress with trailing := true }
    | .long text => progress.takeLong level text
    | .letters text => progress.takeLetters level text
    | .word =>
      match progress.pending with
      | some (slot, none) => .ok { progress with pending := some (slot, some argument) }
      | _ => progress.takeWord level argument

end Progress

/-- Reads the arguments behind a command. -/
def readLevel (level : Level) : Progress → List String → Except UsageError Draft
  | progress, [] => progress.settle.map Progress.draft
  | progress, argument :: rest =>
    match progress.take level argument with
    | .error error => .error error
    | .ok taken => readLevel level taken rest

/-! ## Commands -/

/-- The arguments of a check. -/
def checkOf (draft : Draft) : Except UsageError CheckArguments :=
  match draft.path with
  | none => .error .missingArgument
  | some path => .ok {
      path := path
      format := draft.format.getD "pretty"
      config := draft.config
      jobs := draft.jobs.getD 1
      showSuppressed := draft.showSuppressed
      failOnSkipped := draft.failOnSkipped }

/-- The word for a command. -/
inductive CommandWord where
  | check
  | init
  | help
deriving DecidableEq, Repr

/-- The command that a word names. -/
def commandWord? (word : String) : Option CommandWord :=
  if word == "check" || word == "analyze" then some .check
  else if word == "init" then some .init
  else if word == "help" then some .help
  else none

/-- Help is given on commands, which have no commands of their own. -/
def readHelp : List String → UsageError
  | [] => .helpWanted
  | [word] => if (commandWord? word).isSome then .helpWanted else .unknownCommand
  | _ => .unknownCommand

/-- Reads the arguments of a command.  The log is wanted if either part says so. -/
def readCommand (verbose : Bool) (rest : List String) : CommandWord → Except UsageError Invocation
  | .help => .error (readHelp rest)
  | .check => do
    let draft ← readLevel .check {} rest
    let arguments ← checkOf draft
    return ⟨verbose || draft.verbose, .check arguments⟩
  | .init => do
    let draft ← readLevel .init {} rest
    return ⟨verbose || draft.verbose, .init { output := draft.output.getD "timeoutguard.yaml" }⟩

/-- Reads what stands in front of the command, and the command. -/
def readTop : Progress → List String → Except UsageError Invocation
  | progress, [] => .error (if progress.draft.verbose then .missingCommand else .nothingAsked)
  | progress, argument :: rest =>
    match commandWord? argument with
    | some word =>
      if progress.trailing then .error .unknownArgument
      else readCommand progress.draft.verbose rest word
    | none =>
      if progress.trailing || Progress.shape argument == .word then .error .unknownCommand
      else
        match progress.take .top argument with
        | .error error => .error error
        | .ok taken => readTop taken rest

/-- Reads a command line. -/
def parse (arguments : List String) : Except UsageError Invocation := readTop {} arguments

end TimeoutAudit.CommandLine
