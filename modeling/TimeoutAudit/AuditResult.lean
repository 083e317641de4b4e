import TimeoutAudit.Suppression.Basic

/-!
# Results of an audit

What an audit of some files has found.  Results of parts are merged in order, and
the empty result is neutral.
-/

set_option autoImplicit false

namespace TimeoutAudit

/-- What an audit has found. -/
structure AuditResult where
  issues : List Issue := []
  /-- Issues that a suppression silences. -/
  suppressed : List SuppressedIssue := []
  /-- Files that could not be read or parsed. -/
  skipped : List SkippedFile := []
  /-- How many files were looked at. -/
  scanned : Nat := 0
deriving DecidableEq, Repr, Inhabited

namespace AuditResult

/-- The result of an audit of no files. -/
def empty : AuditResult := {}

/-- Two results one after the other. -/
def merge (first second : AuditResult) : AuditResult where
  issues := first.issues ++ second.issues
  suppressed := first.suppressed ++ second.suppressed
  skipped := first.skipped ++ second.skipped
  scanned := first.scanned + second.scanned

/-- Several results one after the other. -/
def mergeAll (results : List AuditResult) : AuditResult := results.foldl merge empty

/-- Whether there is an issue that nothing silences. -/
def hasIssues (result : AuditResult) : Bool := !result.issues.isEmpty

/-- Counts one more of a severity; the gravest stands first. -/
def countOne (severity : Severity) : List (Severity × Nat) → List (Severity × Nat)
  | [] => [(severity, 1)]
  | (other, number) :: rest =>
    if other == severity then (other, number + 1) :: rest
    else if severity.isGraver other then (severity, 1) :: (other, number) :: rest
    else (other, number) :: countOne severity rest

/-- The number of issues of every severity that occurs, the gravest first. -/
def counts (result : AuditResult) : List (Severity × Nat) :=
  result.issues.foldl (fun numbers issue => countOne issue.finding.severity numbers) []

end AuditResult

end TimeoutAudit
