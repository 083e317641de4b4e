import TimeoutAudit.Proofs.Suppression.ReadBack
import TimeoutAudit.Proofs.Suppression.Shape

/-!
# Directives for a whole file

A directive for a whole file is accepted within some lines of the top.  Further down it is accepted
as long as every line belongs to the header, its own line included: blank lines, comments and
opening tags (`Suppression.HeaderLine`).  The two conditions are all there is
(`Suppression.scope?_eq_file_iff`), so that below a line that does not belong to the header nothing
but the number of a line counts, whatever the lines in between look like.

`Suppression.file_directives_accepted` states this for the lines of a content that ask for the whole
file and for nothing else (`Directive.AsksForFile`).
-/

set_option autoImplicit false

namespace TimeoutAudit

open Text (trim)

namespace Directive

/-- The line has a directive, in some style, and none that is for less than the whole file. -/
def AsksForFile (line : List Char) : Prop :=
  (∃ style directive, find? style line = some directive) ∧
    ∀ style directive, find? style line = some directive → directive.keyword = .ignoreFile

/-- A directive for the whole file that is written as it should be, in a comment of any style, is
all that its line asks for. -/
theorem Written.WellFormed.asksForFile {written : Written} (wellFormed : written.WellFormed)
    (whole : written.keyword = .ignoreFile) : AsksForFile written.text := by
  have read (style : CommentStyle) : find? style written.text =
      if style = written.style then some written.directive else none := by
    rw [Written.text, wellFormed.sole.find?_text, wellFormed.directive?_comment.1]
    rfl
  refine ⟨⟨written.style, written.directive, by rw [read, if_pos rfl]⟩, ?_⟩
  intro style directive found
  rw [read] at found
  split at found
  · cases found
    exact whole
  · cases found

end Directive

namespace Suppression

variable {file : String} {inHeader : Bool} {number : Nat} {line : List Char}

/-! ## Lines of the header -/

/-- A line that is blank or, behind blanks, starts with an opening tag or as a comment does. -/
def HeaderLine (line : List Char) : Prop :=
  trim line = [] ∨ ∃ beginning ∈ ["<?php", "//", "#", "/*", "*"], beginning.toList <+: trim line

theorem isHeaderLine_iff : isHeaderLine (trim line) = true ↔ HeaderLine line := by
  simp only [isHeaderLine, headerBeginnings, Bool.or_eq_true, List.isEmpty_iff, List.any_eq_true,
    List.isPrefixOf_iff_prefix, HeaderLine, List.mem_cons, List.not_mem_nil, or_false,
    exists_eq_or_imp, exists_eq_left]

theorem allHeader_iff {lines : List (List Char)} :
    allHeader lines = true ↔ ∀ line ∈ lines, HeaderLine line := by
  simp only [allHeader, List.all_eq_true, isHeaderLine_iff]

instance (line : List Char) : Decidable (HeaderLine line) := decidable_of_iff _ isHeaderLine_iff

/-! ## Acceptance -/

/-- **A directive has the whole file as its scope** if it asks for it where this is accepted. -/
theorem scope?_eq_file_iff {directive : Directive} :
    scope? directive inHeader number = some .file ↔
      directive.keyword = .ignoreFile ∧ (inHeader = true ∨ number ≤ headerLines) := by
  unfold scope?
  cases directive.keyword with
  | ignore => cases Text.allBlank directive.before <;> simp
  | ignoreNextLine => simp
  | ignoreFile => cases inHeader <;> simp

theorem scope_of_ofDirective? {directive : Directive} {suppression : Suppression}
    (asked : ofDirective? file inHeader number directive = some suppression) :
    scope? directive inHeader number = some suppression.scope := by
  obtain ⟨scope, accepted, rfl⟩ := Option.map_eq_some_iff.mp asked
  exact accepted

/-- What is accepted for a whole file is near the top or in the header. -/
theorem accepted_of_onLine? {suppression : Suppression}
    (read : onLine? file inHeader number line = some suppression)
    (whole : suppression.scope = .file) : inHeader = true ∨ number ≤ headerLines := by
  obtain ⟨style, directive, -, asked⟩ := exists_of_onLine? read
  have scope := scope_of_ofDirective? asked
  rw [whole] at scope
  exact (scope?_eq_file_iff.mp scope).2

/-- A line that asks for the whole file is given it where this is accepted. -/
theorem exists_onLine? (asks : Directive.AsksForFile line)
    (accepted : inHeader = true ∨ number ≤ headerLines) :
    ∃ suppression, onLine? file inHeader number line = some suppression ∧
      suppression.scope = .file := by
  obtain ⟨⟨style, directive, found⟩, whole⟩ := asks
  -- Some style gives a suppression, so the first one that does gives one, too.
  have some : (onLine? file inHeader number line).isSome = true := by
    have scope := scope?_eq_file_iff.mpr ⟨whole style directive found, accepted⟩
    rw [onLine?, List.isSome_findSome?, List.any_eq_true]
    refine ⟨style, mem_styles style, ?_⟩
    rw [found, Option.bind_some, scope]
    rfl
  obtain ⟨suppression, read⟩ := Option.isSome_iff_exists.mp some
  obtain ⟨other, otherDirective, otherFound, asked⟩ := exists_of_onLine? read
  have scope := scope_of_ofDirective? asked
  rw [scope?_eq_file_iff.mpr ⟨whole other otherDirective otherFound, accepted⟩] at scope
  exact ⟨suppression, read, (Option.some.inj scope).symm⟩

/-- **Where directives for a whole file are accepted.**  The suppressions of a content are what its
lines contribute.  A line that asks for the whole file, as a directive in a comment of any style
does, contributes a suppression with this scope if and only if it is one of the first ten or all
lines down to it belong to the header.  So from a line on that does not belong to the header, no
line but the first ten contributes one, whatever is written there. -/
theorem file_directives_accepted (file content : String) :
    let lines := Text.lines content.toList
    suppressions file content =
      (List.range lines.length).filterMap (contributed? file lines) ∧
    (∀ written : Directive.Written, written.WellFormed → written.keyword = .ignoreFile →
      Directive.AsksForFile written.text) ∧
    (∀ (position : Nat) (line : List Char), lines[position]? = some line →
      Directive.AsksForFile line →
      ((∃ suppression, contributed? file lines position = some suppression ∧
          suppression.scope = .file) ↔
        position + 1 ≤ 10 ∨ ∀ above ∈ lines.take (position + 1), HeaderLine above)) ∧
    ∀ (earlier position : Nat) (line : List Char), lines[earlier]? = some line →
      ¬ HeaderLine line → earlier ≤ position → 10 < position + 1 →
      ∀ suppression, contributed? file lines position = some suppression →
        suppression.scope ≠ .file := by
  intro lines
  have accepted (position : Nat) (suppression : Suppression)
      (contributed : contributed? file lines position = some suppression)
      (whole : suppression.scope = .file) :
      position + 1 ≤ 10 ∨ ∀ above ∈ lines.take (position + 1), HeaderLine above := by
    obtain ⟨line, -, read⟩ := Option.bind_eq_some_iff.mp contributed
    rw [← allHeader_iff]
    exact (accepted_of_onLine? read whole).symm
  refine ⟨fromLines_eq_contributed file lines,
    fun written wellFormed whole => wellFormed.asksForFile whole,
    fun position line stands asks => ⟨?_, ?_⟩, ?_⟩
  · rintro ⟨suppression, contributed, whole⟩
    exact accepted position suppression contributed whole
  · intro near
    rw [← allHeader_iff] at near
    rw [contributed?, stands, Option.bind_some]
    exact exists_onLine? asks near.symm
  · intro earlier position line stands foreign before far suppression contributed whole
    rcases accepted position suppression contributed whole with near | header
    · omega
    · have above : (lines.take (position + 1))[earlier]? = some line := by
        rwa [List.getElem?_take_of_lt (by omega)]
      exact foreign (header line (List.mem_of_getElem? above))

/-- A directive for the whole file, alone on its line. -/
def wholeFile : Directive.Written :=
  ⟨[], .slashes, [' '], .ignoreFile, [' '], "missing_timeout".toList, none, [], []⟩

theorem wholeFile_wellFormed : wholeFile.WellFormed where
  single := by decide +kernel
  before := Directive.noMarker_nil
  opening := by decide
  spacing := List.cons_ne_nil _ _
  spacingBlank := by decide
  rule := by decide +kernel
  noMarker := Directive.noMarker_of_notMem (by decide +kernel)
  reason := by
    rintro _ ⟨⟩
  closing := rfl
  enclosed := nofun

/-- Eleven lines, the second of which is given, with a directive for the whole file below. -/
def belowEleven (second : String) : String :=
  "<?php\n" ++ second ++ "\n\n\n\n\n\n\n\n\n  * x\n" ++ String.ofList wholeFile.text

/-- On the twelfth line the directive is accepted below a comment, and not below a statement. -/
theorem file_directives_accepted_belowEleven :
    (∃ suppression,
      contributed? "a.php" (Text.lines (belowEleven "# header").toList) 11 = some suppression ∧
        suppression.scope = .file) ∧
    ∀ suppression,
      contributed? "a.php" (Text.lines (belowEleven "f();").toList) 11 = some suppression →
        suppression.scope ≠ .file := by
  obtain ⟨-, asks, accepted, -⟩ := file_directives_accepted "a.php" (belowEleven "# header")
  obtain ⟨-, -, -, refused⟩ := file_directives_accepted "a.php" (belowEleven "f();")
  constructor
  · refine (accepted 11 wholeFile.text (by decide +kernel)
      (asks wholeFile wholeFile_wellFormed rfl)).mpr (.inr ?_)
    decide +kernel
  · exact refused 1 11 "f();".toList (by decide +kernel) (by decide +kernel) (by decide)
      (by decide)

end Suppression

end TimeoutAudit
