import TimeoutAudit.Proofs.Suppression.ReadBack
import TimeoutAudit.Proofs.Suppression.Split

/-!
# The line that a plain directive covers

A plain directive is meant for the line that it shares with other text, and for the next line if it
is alone on its own.  A block comment can have text on both sides (`Directive.InlineIgnore`), but
only the text in front of it is looked at: with text behind it alone, the directive covers the next
line and leaves its own (`Suppression.ignore_silences_iff`, `Suppression.ignore_before_text`).
-/

set_option autoImplicit false

namespace TimeoutAudit

open Text (allBlank Trimmed)

namespace Directive

/-! ## A comment between two texts -/

/-- No line of a text has a directive. -/
def Absent (text : List Char) : Prop :=
  ∀ line ∈ Text.lines text, ∀ style, find? style line = none

instance (text : List Char) : Decidable (Absent text) :=
  decidable_of_iff
    (∀ line ∈ Text.lines text, ∀ style ∈ Suppression.styles, find? style line = none)
    ⟨fun none line member style => none line member style (Suppression.mem_styles style),
      fun none line member style _ => none line member style⟩

/-- A plain directive in a block comment, with the text around it on its line. -/
structure InlineIgnore where
  before : List Char
  rule : List Char
  reason : List Char
  after : List Char
  known : rule = "*".toList ∨ rule = "missing_timeout".toList
  trimmed : Trimmed reason
  unclosed : ¬ blockEnd <:+: reason
  noMarkerBefore : ¬ marker <:+: before
  noMarkerReason : ¬ marker <:+: reason
  noMarkerAfter : ¬ marker <:+: after
  single : '\n' ∉ before ∧ '\n' ∉ reason ∧ '\n' ∉ after

namespace InlineIgnore

variable (comment : InlineIgnore)

/-- The line of the comment. -/
def line : List Char :=
  comment.before ++ "/* timeoutguard:ignore ".toList ++ comment.rule ++ " - ".toList ++
    comment.reason ++ " */".toList ++ comment.after

/-- The comment taken apart. -/
def written : Written where
  before := comment.before
  style := .block
  opening := [' ']
  keyword := .ignore
  spacing := [' ']
  rule := comment.rule
  reason := some ⟨[' '], [' '], comment.reason⟩
  closing := [' ']
  after := comment.after

theorem text_written : comment.written.text = comment.line := by
  have opening : "/* timeoutguard:ignore ".toList =
      ['/', '*', ' '] ++ (marker ++ (Keyword.ignore.spelling ++ [' '])) := by decide
  have dash : " - ".toList = [' ', '-', ' '] := by decide
  have closing : " */".toList = [' ', '*', '/'] := by decide
  simp [Written.text, Written.comment, Written.tail, Written.dashed, Written.ending, Comment.text,
    Comment.opened, written, line, opening, dash, closing, CommentStyle.opener, blockEnd]

theorem isRule_rule : IsRule comment.rule ∧ ':' ∉ comment.rule ∧ '\n' ∉ comment.rule := by
  rcases comment.known with every | one
  · rw [every]
    decide
  · rw [one]
    decide

theorem written_wellFormed : comment.written.WellFormed where
  single := by
    rw [text_written]
    simp [line, comment.isRule_rule, comment.single]
  before := comment.noMarkerBefore
  opening := rfl
  spacing := List.cons_ne_nil _ _
  spacingBlank := rfl
  rule := comment.isRule_rule.1
  noMarker := noMarker_of_notMem comment.isRule_rule.2.1
  reason := by
    rintro _ ⟨⟩
    exact ⟨List.cons_ne_nil _ _, rfl, rfl, comment.trimmed, comment.noMarkerReason⟩
  closing := rfl
  enclosed _ := {
    reason := by
      rintro _ ⟨⟩
      exact comment.unclosed
    closing := nofun
    after := comment.noMarkerAfter }

end InlineIgnore

end Directive

namespace Suppression

open Directive (InlineIgnore)

/-! ## Lines without directives -/

section Absent

variable {file : String} {inHeader : Bool} {number : Nat}

theorem onLine?_eq_none {line : List Char} (none : ∀ style, Directive.find? style line = none) :
    onLine? file inHeader number line = .none := by
  rw [onLine?, List.findSome?_eq_none_iff]
  intro style _
  rw [none style, Option.bind_none]

theorem fromLines_eq_nil {lines : List (List Char)}
    (none : ∀ line ∈ lines, ∀ style, Directive.find? style line = none) :
    fromLines file inHeader number lines = [] := by
  induction lines generalizing inHeader number with
  | nil => rfl
  | cons line others ih =>
      rw [fromLines, onLine?_eq_none (none line List.mem_cons_self),
        ih fun other member => none other (List.mem_cons_of_mem _ member)]
      rfl

theorem Place.earlier_eq_nil {place : Place} (above : Directive.Absent place.above) :
    place.earlier file = [] := by
  rw [Place.earlier, suppressions, String.toList_ofList]
  exact fromLines_eq_nil above

theorem Place.later_eq_nil {place : Place} (below : Directive.Absent place.below) :
    place.later file inHeader = [] := by
  refine fromLines_eq_nil fun line member => below line ?_
  rcases place.begins with none | feed
  · rwa [none] at member ⊢
  · obtain ⟨rest, split⟩ := List.head?_eq_some_iff.mp feed
    have first := Text.lines_append_lineFeed (List.not_mem_nil (a := '\n')) rest
    rw [split] at member ⊢
    rw [List.nil_append] at first
    exact first ▸ List.mem_cons_of_mem _ member

end Absent

/-! ## The covered line -/

/-- The issues of a file that suppressions silence are those on a line. -/
def SilencesLine (suppressions : List Suppression) (file : String) (number : Nat) : Prop :=
  ∀ issues : List Issue, (∀ issue ∈ issues, issue.file = file) →
    (split suppressions issues).2.map SuppressedIssue.issue =
      issues.filter fun issue => issue.finding.line = number

/-- The line that a suppression for one line is about. -/
def reached (suppression : Suppression) : Nat :=
  if suppression.scope = .nextLine then suppression.line + 1 else suppression.line

/-- A suppression for one line, for an issue of its file that it names, is about one line. -/
theorem matches_iff_reached {suppression : Suppression} {issue : Issue}
    (own : issue.file = suppression.file)
    (named : suppression.rule = "*" ∨ suppression.rule = issue.finding.type.name)
    (numbered : suppression.scope ≠ .file) :
    suppression.Matches issue ↔ issue.finding.line = suppression.reached := by
  unfold reached
  constructor
  · rintro ⟨-, -, isFile | ⟨same, line⟩ | ⟨next, line⟩⟩
    · exact absurd isFile numbered
    · rw [if_neg (by simp [same]), line]
    · rw [if_pos next, line]
  · intro line
    refine ⟨own, named, ?_⟩
    cases scope : suppression.scope with
    | file => exact absurd scope numbered
    | line => exact .inr (.inl ⟨rfl, by simpa [scope] using line⟩)
    | nextLine => exact .inr (.inr ⟨rfl, by simpa [scope] using line⟩)

/-- A suppression for one line silences what is on this line and on no other. -/
theorem silencesLine_singleton_iff {suppression : Suppression} {number : Nat}
    (known : suppression.rule = "*" ∨ suppression.rule = "missing_timeout")
    (numbered : suppression.scope ≠ .file) :
    SilencesLine [suppression] suppression.file number ↔ number = suppression.reached := by
  have silenced (issue : Issue) (own : issue.file = suppression.file) :
      silences [suppression] issue = decide (issue.finding.line = suppression.reached) := by
    have named : suppression.rule = "*" ∨ suppression.rule = issue.finding.type.name := by
      cases issue.finding.type
      exact known
    rw [Bool.eq_iff_iff, silences_iff, decide_eq_true_eq, ← matches_iff_reached own named numbered]
    simp only [List.mem_singleton, exists_eq_left]
  constructor
  · intro silences
    -- An issue on the line that is reached is silenced, so it is on the line that was named.
    let issue : Issue := ⟨suppression.file,
      ⟨suppression.reached, .missingTimeout, .curl, "curl_exec", .high, "", ""⟩⟩
    have one := silences [issue] (by simp [issue])
    rw [split_eq, map_issue_attributed, List.filter_singleton, silenced issue rfl] at one
    by_contra other
    simp [issue, Ne.symm other] at one
  · rintro rfl issues own
    rw [split_eq, map_issue_attributed]
    exact List.filter_congr fun issue member => silenced issue (own issue member)

/-- Among lines without directives, the comment contributes all that there is. -/
theorem suppressions_inlineIgnore (file : String) {place : Place} (comment : InlineIgnore)
    (above : Directive.Absent place.above) (below : Directive.Absent place.below) :
    suppressions file (place.content comment.line) =
      [asked file place.number comment.written.directive] := by
  have wellFormed := comment.written_wellFormed
  obtain ⟨read, unended⟩ := wellFormed.directive?_comment
  have accepted : Accepted .ignore place comment.written.comment.text := nofun
  have contributed := place.suppressions_comment file wellFormed.sole wellFormed.single unended
  rw [read, Option.bind_some, ofDirective?_of_accepted accepted, Place.earlier_eq_nil above,
    Place.later_eq_nil below] at contributed
  rw [← comment.text_written, Directive.Written.text, contributed]
  rfl

/-- **Which line a plain directive covers.**  In a block comment with text in front of it, the
directive silences the issues on its own line, and without such text those on the next line.  So it
is about the line that it shares with other text, or about the next one if there is no other text,
if and only if there is text in front of the comment or none behind it. -/
theorem ignore_silences_iff (file : String) (place : Place) (comment : InlineIgnore)
    (above : Directive.Absent place.above) (below : Directive.Absent place.below) :
    let found := suppressions file (place.content comment.line)
    (∀ number, SilencesLine found file number ↔
      number = if allBlank comment.before then place.number + 1 else place.number) ∧
    (SilencesLine found file
        (if allBlank comment.before && allBlank comment.after then place.number + 1
          else place.number) ↔
      (allBlank comment.before = true → allBlank comment.after = true)) := by
  intro found
  have covered (number : Nat) : SilencesLine found file number ↔
      number = if allBlank comment.before then place.number + 1 else place.number := by
    have known : String.ofList comment.rule = "*" ∨
        String.ofList comment.rule = "missing_timeout" := by
      rcases comment.known with every | one
      · exact .inl (by rw [every, String.ofList_toList])
      · exact .inr (by rw [one, String.ofList_toList])
    have scope : (asked file place.number comment.written.directive).scope =
        if allBlank comment.before then .nextLine else .line := rfl
    have target : (asked file place.number comment.written.directive).reached =
        if allBlank comment.before then place.number + 1 else place.number := by
      rw [reached, scope]
      cases allBlank comment.before <;> rfl
    have numbered : (asked file place.number comment.written.directive).scope ≠ .file := by
      rw [scope]
      cases allBlank comment.before <;> simp
    simp only [found, suppressions_inlineIgnore file comment above below]
    rw [← target]
    exact silencesLine_singleton_iff known numbered
  refine ⟨covered, ?_⟩
  rw [covered]
  cases allBlank comment.before <;> cases allBlank comment.after <;> simp

/-- A place on the second line, between the opening tag and a call. -/
def aboveCall : Place :=
  ⟨"<?php\n".toList, "\ncurl_exec($c);\n".toList, .inr rfl, .inr rfl⟩

/-- A comment with the given texts before and behind it, which have no colon. -/
def inline (before after : String) (noColon : ':' ∉ before.toList ∧ ':' ∉ after.toList)
    (single : '\n' ∉ before.toList ∧ '\n' ∉ after.toList) : InlineIgnore where
  before := before.toList
  rule := "*".toList
  reason := "x".toList
  after := after.toList
  known := .inl rfl
  trimmed := by decide
  unclosed := by decide
  noMarkerBefore := Directive.noMarker_of_notMem noColon.1
  noMarkerReason := Directive.noMarker_of_notMem (by decide)
  noMarkerAfter := Directive.noMarker_of_notMem noColon.2
  single := ⟨single.1, by decide, single.2⟩

/-- Between two calls the comment covers its own line, and alone on the line the next one. -/
theorem ignore_silences_iff_inline :
    SilencesLine (suppressions "a.php"
      (aboveCall.content (inline "f(); " " g();" (by decide) (by decide)).line)) "a.php" 2 ∧
    SilencesLine (suppressions "a.php"
      (aboveCall.content (inline "\t" "" (by decide) (by decide)).line)) "a.php" 3 := by
  have absent : Directive.Absent aboveCall.above ∧ Directive.Absent aboveCall.below := by
    decide +kernel
  constructor
  · exact ((ignore_silences_iff "a.php" aboveCall _ absent.1 absent.2).1 2).mpr (by decide +kernel)
  · exact ((ignore_silences_iff "a.php" aboveCall _ absent.1 absent.2).1 3).mpr (by decide +kernel)

/-- **A plain directive in front of a call is not about this call** but about the next line. -/
theorem ignore_before_text :
    ¬ ∀ (file : String) (place : Place) (comment : InlineIgnore),
      Directive.Absent place.above → Directive.Absent place.below →
      SilencesLine (suppressions file (place.content comment.line)) file
        (if allBlank comment.before && allBlank comment.after then place.number + 1
          else place.number) := by
  intro every
  have absent : Directive.Absent aboveCall.above ∧ Directive.Absent aboveCall.below := by
    decide +kernel
  have shared := every "a.php" aboveCall (inline "" " curl_exec($d);" (by decide) (by decide))
    absent.1 absent.2 (issuesOn [2, 3]) (by decide)
  revert shared
  decide +kernel

end Suppression

end TimeoutAudit
