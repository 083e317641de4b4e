import TimeoutAudit.Proofs.Suppression.Placement
import TimeoutAudit.Proofs.Suppression.Tail

/-!
# The suppressions of a content, line by line

Reading goes through the lines with the number of the next one and with what is known of the
header.  Both can be told from the lines above, so that every line contributes by itself
(`Suppression.contributed?`), nothing or one suppression, and the suppressions of a content are
these contributions in the order of the lines (`Suppression.fromLines_eq_contributed`).  What is
below a line has no influence on its contribution (`Suppression.contributed?_append`).

`Suppression.suppressions_shape` says what these suppressions are like and that a longer content
has the same ones at its beginning.
-/

set_option autoImplicit false

namespace TimeoutAudit.Suppression

open Directive (IsRule)
open Text (trim Trimmed Ended)

variable {file : String} {inHeader : Bool} {number : Nat} {line : List Char}
  {suppression : Suppression}

/-! ## What a line contributes -/

/-- What the line in a place contributes.  It belongs to the header if all lines down to it do. -/
def contributed? (file : String) (lines : List (List Char)) (position : Nat) :
    Option Suppression :=
  lines[position]?.bind
    (onLine? file (allHeader (lines.take (position + 1))) (position + 1))

/-- What a line contributes does not depend on what follows. -/
theorem contributed?_append {first : List (List Char)} {position : Nat}
    (inside : position < first.length) (file : String) (second : List (List Char)) :
    contributed? file (first ++ second) position = contributed? file first position := by
  rw [contributed?, contributed?, List.getElem?_append_left inside,
    List.take_append_of_le_length inside]

theorem contributed?_concat (file : String) (above : List (List Char)) (line : List Char) :
    contributed? file (above ++ [line]) above.length =
      onLine? file (allHeader (above ++ [line])) (above.length + 1) line := by
  have whole : (above ++ [line]).take (above.length + 1) = above ++ [line] :=
    List.take_of_length_le (by simp)
  rw [contributed?, whole, List.getElem?_concat_length, Option.bind_some]

/-- **Every line contributes by itself,** in the order of the lines. -/
theorem fromLines_eq_contributed (file : String) (lines : List (List Char)) :
    fromLines file true 1 lines =
      (List.range lines.length).filterMap (contributed? file lines) := by
  -- The last line is added: the lines above it keep their contributions.
  induction lines using List.reverseRecOn with
  | nil => rfl
  | append_singleton above line ih =>
      have kept : (List.range above.length).filterMap (contributed? file (above ++ [line])) =
          (List.range above.length).filterMap (contributed? file above) :=
        List.filterMap_congr fun position member =>
          contributed?_append (List.mem_range.mp member) file [line]
      have last : fromLines file (true && allHeader above) (1 + above.length) [line] =
          (contributed? file (above ++ [line]) above.length).toList := by
        have header : allHeader (above ++ [line]) =
            (allHeader above && isHeaderLine (trim line)) := by simp [allHeader]
        rw [fromLines, fromLines, List.append_nil, Bool.true_and, contributed?_concat, header,
          Nat.add_comm 1]
      rw [fromLines_append, ih, last, List.length_append, List.length_singleton, List.range_succ,
        List.filterMap_append, kept]
      cases added : contributed? file (above ++ [line]) above.length <;> simp [added]

/-! ## What a suppression is like -/

/-- A suppression on a line is asked for by a directive that is found there in some style. -/
theorem exists_of_onLine? (read : onLine? file inHeader number line = some suppression) :
    ∃ style directive, Directive.find? style line = some directive ∧
      ofDirective? file inHeader number directive = some suppression := by
  obtain ⟨style, -, found⟩ := List.exists_of_findSome?_eq_some read
  obtain ⟨directive, found, asked⟩ := Option.bind_eq_some_iff.mp found
  exact ⟨style, directive, found, asked⟩

/-- The parts of a suppression that are copied from the file and from a directive. -/
structure Copied (file : String) (suppression : Suppression) : Prop where
  file : suppression.file = file
  rule : IsRule suppression.rule.toList
  reason : Trimmed suppression.reason.toList

theorem copied_of_onLine? (read : onLine? file inHeader number line = some suppression) :
    Copied file suppression := by
  obtain ⟨style, directive, found, asked⟩ := exists_of_onLine? read
  obtain ⟨isRule, trimmed⟩ := Directive.isRule_of_find? found
  obtain ⟨scope, -, rfl⟩ := Option.map_eq_some_iff.mp asked
  exact ⟨rfl, by rwa [String.toList_ofList], by rwa [String.toList_ofList]⟩

/-- A contribution is copied from its line and bears its number, unless it is for the file. -/
theorem copied_of_contributed? {lines : List (List Char)} {position : Nat}
    (contributed : contributed? file lines position = some suppression) :
    position < lines.length ∧ Copied file suppression ∧
      suppression.line = if suppression.scope = .file then 0 else position + 1 := by
  obtain ⟨line, stands, read⟩ := Option.bind_eq_some_iff.mp contributed
  exact ⟨(List.getElem?_eq_some_iff.mp stands).1, copied_of_onLine? read, line_of_onLine? read⟩

/-- Suppressions that bear a line bear greater and greater ones. -/
theorem contributed_increasing (file : String) (lines : List (List Char)) :
    (((List.range lines.length).filterMap (contributed? file lines)).filter
      fun suppression => suppression.scope ≠ .file).Pairwise
        fun first second => first.line < second.line := by
  rw [List.pairwise_filter, List.pairwise_filterMap]
  refine List.pairwise_lt_range.imp fun {earlier later} less first firstRead second secondRead
    firstNumbered secondNumbered => ?_
  have firstLine := (copied_of_contributed? firstRead).2.2
  have secondLine := (copied_of_contributed? secondRead).2.2
  rw [if_neg (by simpa using firstNumbered)] at firstLine
  rw [if_neg (by simpa using secondNumbered)] at secondLine
  omega

/-- Reading a longer content begins with what was read before. -/
theorem suppressions_prefix (file : String) {content : String} (ended : Ended content.toList)
    (continuation : String) :
    suppressions file content <+: suppressions file (content ++ continuation) := by
  rw [suppressions, suppressions, String.toList_append, Text.lines_append ended, fromLines_append]
  exact List.prefix_append _ _

/-- **What the suppressions of a content are like.**  Every line contributes one or none, in the
order of the lines.  All of them are for the given file, with a word as the rule and a trimmed
reason.  Those for the whole file bear no line; the others bear greater and greater numbers of
lines of the content.  Whatever follows a content that ends with a line break, its suppressions come
first and are the same. -/
theorem suppressions_shape (file content : String) :
    let lines := Text.lines content.toList
    let found := suppressions file content
    found = (List.range lines.length).filterMap (contributed? file lines) ∧
    (∀ suppression ∈ found, suppression.file = file ∧ suppression.rule ≠ "" ∧
      (∀ c ∈ suppression.rule.toList, Text.isBlank c = false) ∧
      trim suppression.reason.toList = suppression.reason.toList) ∧
    (∀ suppression ∈ found, suppression.scope = .file → suppression.line = 0) ∧
    (∀ suppression ∈ found, suppression.scope ≠ .file →
      1 ≤ suppression.line ∧ suppression.line ≤ lines.length) ∧
    (found.filter fun suppression => suppression.scope ≠ .file).Pairwise
      (fun first second => first.line < second.line) ∧
    ∀ continuation : String, Ended content.toList →
      found <+: suppressions file (content ++ continuation) := by
  intro lines found
  have byLine : found = (List.range lines.length).filterMap (contributed? file lines) :=
    fromLines_eq_contributed file lines
  have read : ∀ suppression ∈ found,
      ∃ position, contributed? file lines position = some suppression := by
    intro suppression member
    rw [byLine, List.mem_filterMap] at member
    obtain ⟨position, -, contributed⟩ := member
    exact ⟨position, contributed⟩
  refine ⟨byLine, fun suppression member => ?_, fun suppression member isFile => ?_,
    fun suppression member numbered => ?_, ?_,
    fun continuation ended => suppressions_prefix file ended continuation⟩
  · obtain ⟨position, contributed⟩ := read suppression member
    obtain ⟨-, copied, -⟩ := copied_of_contributed? contributed
    refine ⟨copied.file, fun empty => copied.rule.nonempty ?_, copied.rule.solid,
      Text.trim_eq_self copied.reason⟩
    rw [empty, String.toList_empty]
  · obtain ⟨position, contributed⟩ := read suppression member
    obtain ⟨-, -, line⟩ := copied_of_contributed? contributed
    rwa [if_pos isFile] at line
  · obtain ⟨position, contributed⟩ := read suppression member
    obtain ⟨inside, -, line⟩ := copied_of_contributed? contributed
    rw [if_neg numbered] at line
    omega
  · rw [byLine]
    exact contributed_increasing file lines

/-- Directives for the whole file and for a line. -/
def twoDirectives : String :=
  "<?php // timeoutguard:ignore-file * - all\ncurl_exec($c); # timeoutguard:ignore slow -  x \r\n"

/-- The directives of a content are read in the same way if more follows; the second one bears the
number of its line. -/
theorem suppressions_shape_twoDirectives :
    suppressions "a.php" twoDirectives =
      [⟨"*", "all", "a.php", 0, .file⟩, ⟨"slow", "x", "a.php", 2, .line⟩] ∧
    suppressions "a.php" twoDirectives <+:
      suppressions "a.php" (twoDirectives ++ "/* timeoutguard:ignore-file b */") := by
  obtain ⟨-, -, -, -, -, continued⟩ := suppressions_shape "a.php" twoDirectives
  exact ⟨by decide +kernel, continued _ (by decide +kernel)⟩

end TimeoutAudit.Suppression
