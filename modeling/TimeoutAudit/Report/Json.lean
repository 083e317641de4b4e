import TimeoutAudit.AuditResult
import TimeoutAudit.JsonValue

/-!
# The JSON report

The report for programs.  It holds every issue, every suppressed issue with the
suppression that silences it, and every skipped file; the last two lists and empty
reasons are left out if there is nothing in them.
-/

set_option autoImplicit false

namespace TimeoutAudit.Report.Json

/-- An issue. -/
def issue (issue : Issue) : JsonValue :=
  let finding := issue.finding
  .object [("file", .text issue.file), ("line", .number finding.line),
    ("type", .text finding.type.name), ("library", .text finding.library.label),
    ("method", .text finding.method), ("severity", .text finding.severity.name),
    ("message", .text finding.message), ("suggestion", .text finding.suggestion)]

/-- A suppression, beside the issue that names its file. -/
def suppression (suppression : Suppression) : JsonValue :=
  .object ([("rule", .text suppression.rule)]
    ++ (if suppression.reason.isEmpty then [] else [("reason", .text suppression.reason)])
    ++ [("line", .number suppression.line), ("type", .text suppression.scope.name)])

/-- An issue and what silences it. -/
def suppressed (entry : SuppressedIssue) : JsonValue :=
  .object [("issue", issue entry.issue), ("suppression", suppression entry.suppression)]

/-- A skipped file. -/
def skipped (file : SkippedFile) : JsonValue :=
  .object [("file", .text file.file), ("reason", .text file.reason)]

/-- The numbers of issues. -/
def summary (result : AuditResult) : JsonValue :=
  .object [("total", .number result.issues.length),
    ("by_severity", .object (result.counts.map fun entry => (entry.1.name, .number entry.2)))]

/-- A list that is left out if it is empty. -/
def section? {α : Type} (name : String) (encode : α → JsonValue) (entries : List α) :
    List (String × JsonValue) :=
  if entries.isEmpty then [] else [(name, .array (entries.map encode))]

/-- The report of a result. -/
def report (result : AuditResult) : JsonValue :=
  .object ([("summary", summary result), ("issues", .array (result.issues.map issue))]
    ++ section? "suppressed" suppressed result.suppressed
    ++ section? "skipped" skipped result.skipped)

/-- The text of the report. -/
def text (result : AuditResult) : String := (report result).render ++ "\n"

end TimeoutAudit.Report.Json
