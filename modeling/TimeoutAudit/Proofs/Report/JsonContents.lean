import Mathlib.Data.List.Forall2
import TimeoutAudit.Proofs.Report.JsonReading
import TimeoutAudit.Report.Json

/-!
# What the JSON report holds

The text of a report can be decoded: fields are looked up by their names, a list that was left out
is empty, and so is a reason that was left out (`Report.Json.decode?_text`).  So two results with
the same report have the same issues, the same skipped files, and the same suppressed issues, up to
the file of a suppression, which the report leaves to the issue (`Report.Json.text_loses_nothing`).
-/

set_option autoImplicit false

namespace TimeoutAudit.Report.Json

/-! ## Contents -/

/-- A suppressed issue as far as the report holds it. -/
structure SuppressedEntry where
  issue : Issue
  rule : String
  reason : String
  line : Nat
  scope : Scope
deriving DecidableEq, Repr

/-- What a report holds. -/
structure Contents where
  issues : List Issue
  suppressed : List SuppressedEntry
  skipped : List SkippedFile
deriving DecidableEq, Repr

/-- A suppressed issue without the file of its suppression. -/
def entry (entry : SuppressedIssue) : SuppressedEntry where
  issue := entry.issue
  rule := entry.suppression.rule
  reason := entry.suppression.reason
  line := entry.suppression.line
  scope := entry.suppression.scope

/-- What the report of a result holds. -/
def contents (result : AuditResult) : Contents where
  issues := result.issues
  suppressed := result.suppressed.map entry
  skipped := result.skipped

/-! ## Decoding -/

/-- The field of an object with a name. -/
def field? (name : String) : JsonValue → Option JsonValue
  | .object fields => fields.lookup name
  | _ => none

/-- The text in a field. -/
def textField? (name : String) (value : JsonValue) : Option String :=
  match field? name value with
  | some (.text text) => some text
  | _ => none

/-- The number in a field. -/
def numberField? (name : String) (value : JsonValue) : Option Nat :=
  match field? name value with
  | some (.number number) => some number
  | _ => none

/-- The list in a field, which is empty if there is no such field. -/
def listField? {α : Type} (name : String) (decode? : JsonValue → Option α) (value : JsonValue) :
    Option (List α) :=
  match field? name value with
  | some (.array items) => items.mapM decode?
  | none => some []
  | _ => none

/-- An issue. -/
def decodeIssue? (value : JsonValue) : Option Issue := do
  return {
    file := ← textField? "file" value
    finding := {
      line := ← numberField? "line" value
      type := ← (textField? "type" value).bind IssueType.ofName?
      library := ← (textField? "library" value).bind Library.ofLabel?
      method := ← textField? "method" value
      severity := ← (textField? "severity" value).bind Severity.ofName?
      message := ← textField? "message" value
      suggestion := ← textField? "suggestion" value } }

/-- A suppressed issue.  A reason that is missing is empty. -/
def decodeSuppressed? (value : JsonValue) : Option SuppressedEntry := do
  let suppression ← field? "suppression" value
  return {
    issue := ← (field? "issue" value).bind decodeIssue?
    rule := ← textField? "rule" suppression
    reason := (textField? "reason" suppression).getD ""
    line := ← numberField? "line" suppression
    scope := ← (textField? "type" suppression).bind Scope.ofName? }

/-- A skipped file. -/
def decodeSkipped? (value : JsonValue) : Option SkippedFile := do
  return { file := ← textField? "file" value, reason := ← textField? "reason" value }

/-- What the text of a report holds. -/
def decode? (text : String) : Option Contents := do
  let report ← JsonReader.parse? text
  return {
    issues := ← listField? "issues" decodeIssue? report
    suppressed := ← listField? "suppressed" decodeSuppressed? report
    skipped := ← listField? "skipped" decodeSkipped? report }

theorem decodeIssue?_issue (given : Issue) : decodeIssue? (issue given) = some given := by
  obtain ⟨file, line, type, library, method, severity, message, suggestion⟩ := given
  have typeBack : IssueType.ofName? type.name = some type := by cases type; rfl
  have libraryBack : Library.ofLabel? library.label = some library := by cases library <;> rfl
  have severityBack : Severity.ofName? severity.name = some severity := by cases severity <;> rfl
  simp [decodeIssue?, issue, textField?, numberField?, field?, List.lookup_cons, typeBack,
    libraryBack, severityBack]

theorem decodeSuppressed?_suppressed (given : SuppressedIssue) :
    decodeSuppressed? (suppressed given) = some (entry given) := by
  obtain ⟨silenced, rule, reason, file, line, scope⟩ := given
  have scopeBack : Scope.ofName? scope.name = some scope := by cases scope <;> rfl
  by_cases none : reason = ""
  · simp [decodeSuppressed?, suppressed, suppression, entry, textField?, numberField?, field?,
      List.lookup_cons, decodeIssue?_issue, scopeBack, none]
  · simp [decodeSuppressed?, suppressed, suppression, entry, textField?, numberField?, field?,
      List.lookup_cons, decodeIssue?_issue, scopeBack, none]

theorem decodeSkipped?_skipped (given : SkippedFile) :
    decodeSkipped? (skipped given) = some given := by
  simp [decodeSkipped?, skipped, textField?, field?, List.lookup_cons]

/-- Entries are decoded one by one. -/
theorem mapM_encode {α β γ : Type} {encode : α → γ} {decode? : γ → Option β} {view : α → β}
    (back : ∀ entry, decode? (encode entry) = some (view entry)) (entries : List α) :
    (entries.map encode).mapM decode? = some (entries.map view) := by
  have each : decode? ∘ encode = fun entry => pure (view entry) := funext back
  rw [List.mapM_map, each, List.mapM_pure]
  rfl

/-- A list is decoded where it stands, and where it was left out because it is empty. -/
theorem listField?_encode {α β : Type} {name : String} {encode : α → JsonValue}
    {decode? : JsonValue → Option β} {view : α → β}
    (back : ∀ entry, decode? (encode entry) = some (view entry)) {entries : List α}
    {value : JsonValue}
    (holds : field? name value = some (.array (entries.map encode)) ∨
      field? name value = none ∧ entries = []) :
    listField? name decode? value = some (entries.map view) := by
  unfold listField?
  rcases holds with stands | ⟨leftOut, rfl⟩
  · rw [stands]
    exact mapM_encode back entries
  · rw [leftOut]
    rfl

/-- What stands in a section, or that it was left out. -/
theorem lookup_section? {α : Type} (name other : String) (encode : α → JsonValue)
    (entries : List α) (rest : List (String × JsonValue)) :
    (section? name encode entries ++ rest).lookup other =
      if other = name ∧ entries ≠ [] then some (.array (entries.map encode))
      else rest.lookup other := by
  unfold section?
  cases entries with
  | nil => simp
  | cons first others =>
      by_cases same : other = name
      · simp [same]
      · simp [List.lookup_cons, beq_eq_false_iff_ne.mpr same, same]

/-- **The report of every result can be decoded.** -/
theorem decode?_text (result : AuditResult) : decode? (text result) = some (contents result) := by
  have parsed : JsonReader.parse? (text result) = some (report result) :=
    JsonReader.parse?_render (report result) (by decide)
  have sections (name : String) (notSummary : name ≠ "summary") (notIssues : name ≠ "issues") :
      field? name (report result) =
        (section? "suppressed" suppressed result.suppressed ++
          (section? "skipped" skipped result.skipped ++ [])).lookup name := by
    simp [field?, report, List.lookup_cons, beq_eq_false_iff_ne.mpr notSummary,
      beq_eq_false_iff_ne.mpr notIssues]
  have issues : listField? "issues" decodeIssue? (report result) = some (result.issues.map id) :=
    listField?_encode decodeIssue?_issue (.inl (by simp [field?, report, List.lookup_cons]))
  have suppressed : listField? "suppressed" decodeSuppressed? (report result) =
      some (result.suppressed.map entry) := by
    refine listField?_encode decodeSuppressed?_suppressed ?_
    rw [sections _ (by decide) (by decide), lookup_section?, lookup_section?]
    by_cases none : result.suppressed = [] <;> simp [none]
  have skipped : listField? "skipped" decodeSkipped? (report result) =
      some (result.skipped.map id) := by
    refine listField?_encode decodeSkipped?_skipped ?_
    rw [sections _ (by decide) (by decide), lookup_section?, lookup_section?]
    by_cases none : result.skipped = [] <;> simp [none]
  rw [List.map_id] at issues skipped
  simp [decode?, parsed, issues, suppressed, skipped, contents]

/-- **The report loses nothing.**  What it holds can be decoded from its text, so that two results
with the same text have the same issues and skipped files, and their suppressed issues are the same
one by one, with the rule, the reason, the line and the scope of each suppression. -/
theorem text_loses_nothing :
    (∀ result, decode? (text result) = some (contents result)) ∧
    ∀ first second, text first = text second →
      first.issues = second.issues ∧ first.skipped = second.skipped ∧
        List.Forall₂ (fun one other : SuppressedIssue =>
          one.issue = other.issue ∧ one.suppression.rule = other.suppression.rule ∧
            one.suppression.reason = other.suppression.reason ∧
            one.suppression.line = other.suppression.line ∧
            one.suppression.scope = other.suppression.scope)
          first.suppressed second.suppressed := by
  refine ⟨decode?_text, fun first second same => ?_⟩
  have decoded := congrArg decode? same
  rw [decode?_text, decode?_text] at decoded
  have held := Option.some.inj decoded
  refine ⟨congrArg Contents.issues held, congrArg Contents.skipped held, ?_⟩
  have entries : List.Forall₂ (· = ·) (first.suppressed.map entry) (second.suppressed.map entry) :=
    List.forall₂_eq_eq_eq ▸ congrArg Contents.suppressed held
  rw [List.forall₂_map_left_iff, List.forall₂_map_right_iff] at entries
  refine entries.imp fun one other alike => ?_
  exact ⟨congrArg SuppressedEntry.issue alike, congrArg SuppressedEntry.rule alike,
    congrArg SuppressedEntry.reason alike, congrArg SuppressedEntry.line alike,
    congrArg SuppressedEntry.scope alike⟩

/-- An issue with a quotation mark, a backslash and control characters in its texts. -/
def awkwardIssue : Issue :=
  ⟨"a\\b\"c\x01.php", ⟨3, .missingTimeout, .curl, "curl_exec", .high, "\x1f\n", "größer"⟩⟩

/-- A result with a suppression without a reason, and one whose reason looks like a field. -/
def awkward (scanned : Nat) : AuditResult where
  issues := [awkwardIssue]
  suppressed := [⟨awkwardIssue, "*", "", "a.php", 2, .nextLine⟩,
    ⟨awkwardIssue, "missing_timeout", "\", \"line\": 0", "a.php", 0, .file⟩]
  scanned := scanned

/-- The contents are decoded; the number of files is not among them. -/
theorem text_loses_nothing_awkward :
    decode? (text (awkward 1)) = some
      ⟨[awkwardIssue], [⟨awkwardIssue, "*", "", 2, .nextLine⟩,
        ⟨awkwardIssue, "missing_timeout", "\", \"line\": 0", 0, .file⟩], []⟩ ∧
      (awkward 1).issues = (awkward 2).issues :=
  ⟨text_loses_nothing.1 (awkward 1), (text_loses_nothing.2 (awkward 1) (awkward 2) rfl).1⟩

end TimeoutAudit.Report.Json
