import TimeoutAudit.Proofs.Suppression.Placement
import TimeoutAudit.Proofs.Suppression.Tail

/-!
# Directives are read back

A directive can be written with any blanks around its parts, in each style of comments, behind any
text that has no marker (`Directive.Written`).  It is read back as it was written, whatever stands
around its line: the line contributes one suppression with the rule and the reason of the directive
(`Suppression.suppressions_written`).

Only a directive for a whole file can be without effect: it is accepted within some lines of the
top, and further down as long as everything so far belongs to the header
(`Suppression.late_file_directive`).
-/

set_option autoImplicit false

namespace TimeoutAudit

open Text (isBlank allBlank Trimmed dropReturn)

namespace Directive

/-! ## Directives as they are written -/

/-- A reason, with the blanks before and behind its dash. -/
structure WrittenReason where
  lead : List Char
  gap : List Char
  text : List Char

/-- A directive with everything on its line. -/
structure Written where
  /-- The text in front of the comment. -/
  before : List Char
  style : CommentStyle
  /-- What is between the opening of the comment and the marker. -/
  opening : List Char
  keyword : Keyword
  /-- What is between the keyword and the rule. -/
  spacing : List Char
  rule : List Char
  reason : Option WrittenReason
  /-- What is behind the last part of the directive. -/
  closing : List Char
  /-- The text behind a block comment; a comment of another style runs to the end of the line. -/
  after : List Char

namespace Written

variable (written : Written)

/-- The text of the reason, if there is one. -/
def reasonText : List Char := (written.reason.map WrittenReason.text).getD []

/-- The reason with its dash. -/
def dashed : List Char :=
  match written.reason with
  | none => []
  | some reason => reason.lead ++ '-' :: (reason.gap ++ reason.text)

/-- What is behind the last part of a comment of a style, up to the end of the line. -/
def ending : List Char :=
  match written.style with
  | .block => written.closing ++ (blockEnd ++ written.after)
  | _ => written.closing

/-- Everything behind the rule. -/
def tail : List Char := written.dashed ++ written.ending

/-- The comment of a directive. -/
def comment : Comment where
  before := written.before
  style := written.style
  gap := written.opening
  body := written.keyword.spelling ++ (written.spacing ++ (written.rule ++ written.tail))

/-- The line of a directive. -/
def text : List Char := written.comment.text

/-- The directive without the blanks. -/
def directive : Directive :=
  ⟨written.before, written.keyword, written.rule, written.reasonText⟩

end Written

/-- Blanks stand before the dash of a reason and may stand behind it; the text has none at its
ends. -/
structure WrittenReason.WellFormed (reason : WrittenReason) : Prop where
  lead : reason.lead ≠ []
  leadBlank : allBlank reason.lead = true
  gap : allBlank reason.gap = true
  trimmed : Trimmed reason.text
  noMarker : ¬ marker <:+: reason.text

namespace Written

/-- What a block comment asks for: the reason has no closing mark, a blank stands behind a rule
without a reason, and what follows the comment has no marker. -/
structure Enclosed (written : Written) : Prop where
  reason : ∀ reason ∈ written.reason, ¬ blockEnd <:+: reason.text
  closing : written.reason = none → written.closing ≠ []
  after : ¬ marker <:+: written.after

/-- A directive that is written as it should be, on one line and with one marker. -/
structure WellFormed (written : Written) : Prop where
  single : '\n' ∉ written.text
  before : ¬ marker <:+: written.before
  opening : allBlank written.opening = true
  spacing : written.spacing ≠ []
  spacingBlank : allBlank written.spacing = true
  rule : IsRule written.rule
  noMarker : ¬ marker <:+: written.rule
  reason : ∀ reason ∈ written.reason, reason.WellFormed
  closing : allBlank written.closing = true
  enclosed : written.style = .block → written.Enclosed

variable {written : Written}

/-! ## One marker -/

/-- Blanks may be missing in front of something that keeps markers apart by itself. -/
theorem noMarker_append_gap {first gap rest : List Char} (blank : allBlank gap = true)
    (before : ¬ marker <:+: first)
    (behind : ∀ front, ¬ marker <:+: front → ¬ marker <:+: front ++ rest) :
    ¬ marker <:+: first ++ (gap ++ rest) := by
  by_cases none : gap = []
  · subst none
    exact behind first before
  · exact noMarker_append_blank none blank before (behind [] noMarker_nil)

namespace WellFormed

variable (wellFormed : written.WellFormed)

include wellFormed

theorem noMarker_ending {first : List Char} (before : ¬ marker <:+: first) :
    ¬ marker <:+: first ++ written.ending := by
  unfold ending
  split
  · next block =>
      have foreign : '*' ∉ marker ∧ '/' ∉ marker := by decide
      refine noMarker_append_gap wellFormed.closing before fun front none => ?_
      exact noMarker_append_cons foreign.1 none
        (noMarker_append_cons foreign.2 noMarker_nil (wellFormed.enclosed block).after)
  · have unclosed : ¬ marker <:+: first ++ (written.closing ++ []) :=
      noMarker_append_gap wellFormed.closing before fun front none => by rwa [List.append_nil]
    rwa [List.append_nil] at unclosed

theorem noMarker_tail : ¬ marker <:+: written.rule ++ written.tail := by
  cases given : written.reason with
  | none => simpa [tail, dashed, given] using wellFormed.noMarker_ending wellFormed.noMarker
  | some reason =>
      obtain ⟨lead, leadBlank, gap, -, noMarker⟩ := wellFormed.reason reason given
      have behindDash := noMarker_append_cons (show '-' ∉ marker by decide) noMarker_nil
        (noMarker_blank_append gap (wellFormed.noMarker_ending noMarker))
      simpa [tail, dashed, given] using
        noMarker_append_blank lead leadBlank wellFormed.noMarker behindDash

/-- The marker of a directive is the only one on its line. -/
theorem sole : written.comment.Sole where
  gap := wellFormed.opening
  before := wellFormed.before
  body := by
    have spelling : ¬ marker <:+: written.keyword.spelling :=
      noMarker_of_notMem (by cases written.keyword <;> decide)
    exact noMarker_append_blank wellFormed.spacing wellFormed.spacingBlank spelling
      wellFormed.noMarker_tail

/-! ## Reading -/

theorem separate_tail : Separate written.tail := by
  cases given : written.reason with
  | some reason =>
      have isReason := wellFormed.reason reason given
      rw [tail, dashed, given]
      simpa using separate_append isReason.leadBlank isReason.lead _
  | none =>
      rw [tail, dashed, given, List.nil_append, ending]
      split
      · next block =>
          exact separate_append wellFormed.closing ((wellFormed.enclosed block).closing given) _
      · intro c first
        exact Text.allBlank_iff.mp wellFormed.closing c (List.mem_of_mem_head? first)

theorem openTail_tail (line : written.style ≠ .block) :
    openTail written.rule written.tail = (written.rule, written.reasonText) := by
  have ending : written.ending = written.closing := by
    unfold Written.ending
    split
    · next block => exact absurd block line
    · rfl
  cases given : written.reason with
  | none =>
      have nothing : Text.trimLeft written.closing = [] :=
        Text.trimLeft_eq_nil_iff.mpr wellFormed.closing
      rw [tail, ending, dashed, given, List.nil_append, openTail_undashed (by simp [nothing]),
        reasonText, given]
      rfl
  | some reason =>
      obtain ⟨-, leadBlank, gap, trimmed, -⟩ := wellFormed.reason reason given
      rw [tail, ending, dashed, given, List.append_assoc, List.cons_append,
        openTail_dashed leadBlank, Text.trim_around trimmed gap wellFormed.closing, reasonText,
        given]
      rfl

/-- In a block comment the reason is read up to the closing mark, whatever follows the comment. -/
theorem closedReason?_dashed_append (block : written.style = .block) (rest : List Char) :
    closedReason? (written.dashed ++ (written.closing ++ (blockEnd ++ rest))) =
      some written.reasonText := by
  cases given : written.reason with
  | none =>
      rw [dashed, given, reasonText, given]
      exact closedReason?_closed wellFormed.closing rest
  | some reason =>
      obtain ⟨-, leadBlank, gap, trimmed, -⟩ := wellFormed.reason reason given
      have noEnd := (wellFormed.enclosed block).reason reason given
      rw [dashed, given, reasonText, given, List.append_assoc, List.cons_append, List.append_assoc]
      exact closedReason?_dashed leadBlank gap trimmed noEnd wellFormed.closing rest

/-- A directive is read with its rule and its reason, also where the carriage return at the end of
the line is not. -/
theorem tail?_tail : tail? written.style written.rule written.tail =
      some (written.rule, written.reasonText) ∧
    tail? written.style written.rule (dropReturn written.tail) =
      some (written.rule, written.reasonText) := by
  by_cases block : written.style = .block
  · have closed (rest : List Char) : tail? written.style written.rule
        (written.dashed ++ (written.closing ++ (blockEnd ++ rest))) =
          some (written.rule, written.reasonText) := by
      rw [block]
      exact closedTail?_of_reason wellFormed.rule.nonempty
        (wellFormed.closedReason?_dashed_append block rest)
    have whole : written.tail =
        written.dashed ++ (written.closing ++ (blockEnd ++ written.after)) := by
      rw [tail, ending, block]
    have marked : blockEnd ≠ [] ∧ blockEnd.getLast? ≠ some '\r' := by decide
    have front : (written.dashed ++ (written.closing ++ blockEnd)).getLast? ≠ some '\r' := by
      rw [← List.append_assoc, List.getLast?_append_of_ne_nil _ marked.1]
      exact marked.2
    have kept := Text.dropReturn_append front written.after
    simp only [List.append_assoc] at kept
    rw [whole, kept]
    exact ⟨closed written.after, closed (dropReturn written.after)⟩
  · have line (after : List Char) :
        tail? written.style written.rule after = some (openTail written.rule after) := by
      unfold tail?
      split
      · next isBlock => exact absurd isBlock block
      · rfl
    rw [line, line, openTail_dropReturn, wellFormed.openTail_tail block]
    exact ⟨rfl, rfl⟩

/-- **What is written is read back.** -/
theorem directive?_comment : written.comment.directive? = some written.directive ∧
    written.comment.withoutReturn.directive? = written.comment.directive? := by
  have read : written.comment.directive? = some written.directive := by
    rw [Comment.directive?, comment, behindMarker?_written _ _ wellFormed.spacingBlank
      wellFormed.spacing wellFormed.rule wellFormed.separate_tail, wellFormed.tail?_tail.1]
    rfl
  refine ⟨read, ?_⟩
  rw [read, Comment.directive?, Comment.withoutReturn, comment]
  simp only
  rw [behindMarker?_dropReturn _ _ wellFormed.spacingBlank wellFormed.spacing wellFormed.rule
    wellFormed.separate_tail, wellFormed.tail?_tail.2]
  rfl

end WellFormed

end Written

end Directive

namespace Suppression

open Directive (Written)

/-- A directive is accepted at a place, unless it is for the whole file, far from the top and below
something that does not belong to the header. -/
def Accepted (keyword : Keyword) (place : Place) (line : List Char) : Prop :=
  keyword = .ignoreFile → place.number ≤ headerLines ∨ place.inHeader line = true

instance (keyword : Keyword) (place : Place) (line : List Char) :
    Decidable (Accepted keyword place line) :=
  inferInstanceAs (Decidable (_ → _))

/-- The suppression that a directive asks for on a line. -/
def asked (file : String) (number : Nat) (directive : Directive) : Suppression where
  rule := String.ofList directive.rule
  reason := String.ofList directive.reason
  file := file
  line := if directive.keyword = .ignoreFile then 0 else number
  scope :=
    match directive.keyword with
    | .ignore => if allBlank directive.before then .nextLine else .line
    | .ignoreNextLine => .nextLine
    | .ignoreFile => .file

section Directives

variable {file : String} {place : Place} {line : List Char} {directive : Directive}

/-- A directive that is accepted gives what it asks for. -/
theorem ofDirective?_of_accepted (accepted : Accepted directive.keyword place line) :
    ofDirective? file (place.inHeader line) place.number directive =
      some (asked file place.number directive) := by
  obtain ⟨before, keyword, rule, reason⟩ := directive
  cases keyword with
  | ignore => cases blank : allBlank before <;> simp [ofDirective?, scope?, asked, blank]
  | ignoreNextLine => simp [ofDirective?, scope?, asked]
  | ignoreFile =>
      rcases accepted rfl with near | header
      · simp [ofDirective?, scope?, asked, near]
      · simp [ofDirective?, scope?, asked, header]

/-- A directive that is not accepted gives nothing. -/
theorem ofDirective?_of_refused (refused : ¬ Accepted directive.keyword place line) :
    ofDirective? file (place.inHeader line) place.number directive = none := by
  obtain ⟨before, keyword, rule, reason⟩ := directive
  rw [Accepted, Classical.not_imp, not_or] at refused
  obtain ⟨rfl, far, below⟩ := refused
  simp [ofDirective?, scope?, far, below]

end Directives

/-- **Well-formed directives are read back.**  Whatever the content is, the line of a directive that
is accepted there contributes one suppression, with the rule and the reason as they are written; and
the line of a directive that is not accepted contributes none.  The other suppressions are those
of the lines above, which do not depend on this line, and of the lines below. -/
theorem suppressions_written (file : String) (place : Place) (written : Written)
    (wellFormed : written.WellFormed) :
    let earlier := place.earlier file
    let later := place.later file (place.inHeader written.text)
    (Accepted written.keyword place written.text →
      suppressions file (place.content written.text) =
        earlier ++ asked file place.number written.directive :: later) ∧
    (¬ Accepted written.keyword place written.text →
      suppressions file (place.content written.text) = earlier ++ later) ∧
    (∀ suppression ∈ earlier, suppression.scope ≠ .file → suppression.line < place.number) ∧
    ∀ suppression ∈ later, suppression.scope ≠ .file → place.number < suppression.line := by
  intro earlier later
  obtain ⟨read, unended⟩ := wellFormed.directive?_comment
  have contributed := place.suppressions_comment file wellFormed.sole wellFormed.single unended
  rw [read, Option.bind_some] at contributed
  refine ⟨fun accepted => ?_, fun refused => ?_, fun suppression => Place.line_of_mem_earlier,
    fun suppression => Place.line_of_mem_later⟩
  · rw [Written.text, contributed, ofDirective?_of_accepted accepted]
    rfl
  · rw [Written.text, contributed, ofDirective?_of_refused refused]
    rfl

/-- A block comment right behind a slash, with little space around a reason that has a dash, a
slash and a star of its own; the line ends with a carriage return. -/
def crowded : Written where
  before := "$c->get($u); /".toList
  style := .block
  opening := ['\u00A0']
  keyword := .ignore
  spacing := [' ', '\t']
  rule := "missing_timeout".toList
  reason := some ⟨[' '], [], "- a/ *b".toList⟩
  closing := []
  after := " // x\r".toList

/-- A place below the opening tag. -/
def belowTag : Place := ⟨"<?php\n".toList, "\n?>".toList, by decide, by decide⟩

theorem crowded_wellFormed : crowded.WellFormed where
  single := by decide +kernel
  before := Directive.noMarker_of_notMem (by decide +kernel)
  opening := by decide +kernel
  spacing := List.cons_ne_nil _ _
  spacingBlank := by decide +kernel
  rule := by decide +kernel
  noMarker := Directive.noMarker_of_notMem (by decide +kernel)
  reason := by
    rintro _ ⟨⟩
    exact ⟨List.cons_ne_nil _ _, by decide +kernel, rfl, by decide +kernel,
      Directive.noMarker_of_notMem (by decide +kernel)⟩
  closing := rfl
  enclosed _ := {
    reason := by
      rintro _ ⟨⟩
      decide +kernel
    closing := nofun
    after := Directive.noMarker_of_notMem (by decide +kernel) }

/-- The directive is read back from its line, which is the second one. -/
theorem suppressions_written_crowded :
    belowTag.content crowded.text =
      "<?php\n$c->get($u); //*\u00A0timeoutguard:ignore \tmissing_timeout -- a/ *b*/ // x\r\n?>" ∧
    suppressions "a.php" (belowTag.content crowded.text) =
      [⟨"missing_timeout", "- a/ *b", "a.php", 2, .line⟩] := by
  obtain ⟨read, -⟩ := suppressions_written "a.php" belowTag crowded crowded_wellFormed
  refine ⟨by decide +kernel, (read nofun).trans ?_⟩
  decide +kernel

/-- **A directive for the whole file can be without effect:** on the eleventh line, below a
statement, it contributes nothing. -/
theorem late_file_directive :
    ¬ ∀ (file : String) (place : Place) (written : Written), written.WellFormed →
      suppressions file (place.content written.text) =
        place.earlier file ++ asked file place.number written.directive ::
          place.later file (place.inHeader written.text) := by
  intro every
  let place : Place :=
    ⟨"<?php\n$a = 1;\n\n\n\n\n\n\n\n\n".toList, ['\n'], by decide, by decide⟩
  let written : Written :=
    ⟨[], .slashes, [' '], .ignoreFile, [' '], "missing_timeout".toList, none, [], []⟩
  have wellFormed : written.WellFormed := by
    refine ⟨by decide, ?_, by decide, by decide, by decide, by decide, ?_, ?_, by decide, ?_⟩
    · exact Directive.noMarker_nil
    · exact Directive.noMarker_of_notMem (by decide)
    · rintro _ ⟨⟩
    · rintro ⟨⟩
  have missing : suppressions "a.php" (place.content written.text) = [] := by decide +kernel
  have claimed := every "a.php" place written wellFormed
  rw [missing] at claimed
  simp at claimed

end Suppression

end TimeoutAudit
