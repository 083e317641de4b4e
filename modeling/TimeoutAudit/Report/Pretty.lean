import TimeoutAudit.AuditResult
import TimeoutAudit.Path
import TimeoutAudit.Text.Quoted

/-!
# The report for readers

Issues stand below the file they are in, files in the order in which they first
occur.  A suggestion is shown below the first issue of its library and type that
has one.  Skipped files, suppressed issues and a summary follow.
-/

set_option autoImplicit false

namespace TimeoutAudit.Report.Pretty

/-! ## Colours -/

/-- How a piece of text stands out. -/
inductive Emphasis where
  | green
  | boldRed
  | blue
  | yellow
  | dimmed
  | bold
deriving DecidableEq, Repr

/-- The escape sequence that starts an emphasis. -/
def Emphasis.opening : Emphasis → List Char
  | green => "\x1b[32m".toList
  | boldRed => "\x1b[1;31m".toList
  | blue => "\x1b[34m".toList
  | yellow => "\x1b[33m".toList
  | dimmed => "\x1b[2m".toList
  | bold => "\x1b[1m".toList

/-- The escape sequence that ends every emphasis. -/
def closing : List Char := "\x1b[0m".toList

/-- Text in which an emphasis starts again wherever it would end.  `seen` counts the
characters of the ending sequence that stand in front; only its first character can
start it. -/
def resumed (opening : List Char) : Nat → List Char → List Char
  | _, [] => []
  | seen, c :: rest =>
    if closing[seen]? == some c then
      if seen + 1 == closing.length then c :: opening ++ resumed opening 0 rest
      else c :: resumed opening (seen + 1) rest
    else c :: resumed opening (if closing.head? == some c then 1 else 0) rest

/-- Text with an emphasis, where colours are wanted. -/
def paint (colour : Bool) (emphasis : Emphasis) (text : String) : String :=
  if colour then
    String.ofList (emphasis.opening ++ resumed emphasis.opening 0 text.toList ++ closing)
  else text

/-! ## Issues -/

/-- A file with its issues. -/
structure Group where
  file : String
  issues : List Issue
deriving DecidableEq, Repr

/-- Adds an issue to the group of its file, or to a new group at the end. -/
def addToGroups (issue : Issue) : List Group → List Group
  | [] => [⟨issue.file, [issue]⟩]
  | group :: rest =>
    if group.file == issue.file then ⟨group.file, group.issues ++ [issue]⟩ :: rest
    else group :: addToGroups issue rest

/-- Issues by file, files in the order in which they first occur. -/
def groupByFile (issues : List Issue) : List Group :=
  issues.foldl (fun groups issue => addToGroups issue groups) []

/-- The sign of a severity. -/
def marker : Severity → String
  | .critical => "🔴"
  | .high => "⚠️"
  | .medium => "🟡"
  | .low => "ℹ️"

/-- A text with every line indented. -/
def indented (spaces : Nat) (text : String) : String :=
  String.intercalate "\n" ((Text.lines text.toList).map fun line =>
    String.ofList (List.replicate spaces ' ' ++ line))

/-- The line of an issue. -/
def issueLine (colour : Bool) (issue : Issue) : String :=
  let finding := issue.finding
  "  " ++ marker finding.severity ++ " Line " ++ toString finding.line ++ ": " ++ finding.message
    ++ " (" ++ finding.library.label ++ " " ++ paint colour .dimmed finding.method ++ ")"

/-- What a suggestion is shown once for. -/
def topic (issue : Issue) : Library × IssueType := (issue.finding.library, issue.finding.type)

/-- Whether the suggestion of an issue is shown, given the topics that had theirs. -/
def showsSuggestion (shown : List (Library × IssueType)) (issue : Issue) : Bool :=
  !issue.finding.suggestion.isEmpty && !shown.contains (topic issue)

/-- The lines of issues, and the topics that have had their suggestion afterwards. -/
def issueLines (colour : Bool) :
    List (Library × IssueType) → List Issue → List String × List (Library × IssueType)
  | shown, [] => ([], shown)
  | shown, issue :: rest =>
    let shows := showsSuggestion shown issue
    let suggestion := if shows then ["", indented 4 issue.finding.suggestion] else []
    let (others, after) := issueLines colour (if shows then topic issue :: shown else shown) rest
    (issueLine colour issue :: suggestion ++ "" :: others, after)

/-- The lines of groups. -/
def groupLines (colour : Bool) (base : OsText) :
    List (Library × IssueType) → List Group → List String
  | _, [] => []
  | shown, group :: rest =>
    let (lines, after) := issueLines colour shown group.issues
    ("📄 " ++ paint colour .blue (Path.shown base group.file)) :: lines ++ "" ::
      groupLines colour base after rest

/-! ## Sections -/

/-- The first line, which says how many issues there are, and the issues. -/
def issueSection (colour : Bool) (base : OsText) (issues : List Issue) : List String :=
  if issues.isEmpty then
    ["✅ " ++ paint colour .green "No issues found! All HTTP calls have timeout configuration."]
  else
    ("❌ " ++ paint colour .boldRed ("Found " ++ toString issues.length ++ " issue(s):")) :: "" ::
      groupLines colour base [] (groupByFile issues)

/-- The files that were skipped. -/
def skippedSection (colour : Bool) (base : OsText) (skipped : List SkippedFile) : List String :=
  if skipped.isEmpty then []
  else
    ("⏭️  " ++ paint colour .yellow
        ("Skipped " ++ toString skipped.length ++ " file(s) that could not be parsed:"))
      :: skipped.map (fun file =>
        "  " ++ Path.shown base file.file ++ " " ++ paint colour .dimmed ("(" ++ file.reason ++ ")"))
      ++ [""]

/-- The lines of an issue that is silenced. -/
def suppressedLines (colour : Bool) (base : OsText) (entry : SuppressedIssue) : List String :=
  let finding := entry.issue.finding
  let file := Path.shown base entry.issue.file
  let place :=
    if entry.suppression.scope == .file then file ++ ":* (file)"
    else file ++ ":" ++ toString finding.line
  ("  " ++ place ++ " (" ++ finding.library.label ++ " " ++ finding.method ++ ")")
    :: (if entry.suppression.reason.isEmpty then []
      else ["    " ++ paint colour .dimmed ("reason: " ++ Text.quoted entry.suppression.reason)])

/-- The issues that are silenced, or only how many there are. -/
def suppressedSection (colour detailed : Bool) (base : OsText)
    (suppressed : List SuppressedIssue) : List String :=
  if suppressed.isEmpty then []
  else
    paint colour .dimmed ("Suppressed (" ++ toString suppressed.length ++ "):")
      :: (if detailed then suppressed.flatMap (suppressedLines colour base)
        else ["  " ++ paint colour .dimmed "(use --show-suppressed to see details)"])
      ++ [""]

/-- The line between the issues and their summary. -/
def ruler : String := String.ofList (List.replicate 35 '━')

/-- The number of issues of every severity. -/
def summarySection (colour : Bool) (result : AuditResult) : List String :=
  if result.issues.isEmpty then []
  else
    ruler :: paint colour .bold "Summary:"
      :: result.counts.map (fun entry =>
        "  " ++ marker entry.1 ++ " " ++ entry.1.title ++ ": " ++ toString entry.2)
      ++ ["", "💡 Tip: Add timeouts to prevent hanging requests that can block your application."]

/-- The lines of the report; paths below the base are shown as seen from there. -/
def lines (colour detailed : Bool) (base : OsText) (result : AuditResult) : List String :=
  issueSection colour base result.issues ++ skippedSection colour base result.skipped
    ++ suppressedSection colour detailed base result.suppressed ++ summarySection colour result

/-- The text of the report. -/
def text (colour detailed : Bool) (base : OsText) (result : AuditResult) : String :=
  String.join ((lines colour detailed base result).map (· ++ "\n"))

end TimeoutAudit.Report.Pretty
