import TimeoutAudit.Proofs.Suppression.Comment
import TimeoutAudit.Proofs.Suppression.Lines

/-!
# A line at a place of a content

The suppressions of a content are read line by line, with two things carried along: the number of
the line, and whether all lines so far belong to the header (`Suppression.fromLines_append`).  So
what is read above a line does not depend on the line, what is read below depends on whether the
line belongs to the header, and the line itself contributes the suppression that is on it
(`Suppression.Place.suppressions_content`).
-/

set_option autoImplicit false

namespace TimeoutAudit.Suppression

open Text (trim lines dropReturn Ended)

/-- Whether all lines belong to the header of a file. -/
def allHeader (lines : List (List Char)) : Bool := lines.all fun line => isHeaderLine (trim line)

/-- **Reading goes on where it stopped,** with the number of the next line and whether all lines
before it belong to the header. -/
theorem fromLines_append (file : String) (inHeader : Bool) (number : Nat)
    (first second : List (List Char)) :
    fromLines file inHeader number (first ++ second) =
      fromLines file inHeader number first ++
        fromLines file (inHeader && allHeader first) (number + first.length) second := by
  induction first generalizing inHeader number with
  | nil => simp [fromLines, allHeader]
  | cons line others ih =>
      have header : (inHeader && allHeader (line :: others)) =
          ((inHeader && isHeaderLine (trim line)) && allHeader others) := by
        simp [allHeader, Bool.and_assoc]
      have count : number + (line :: others).length = number + 1 + others.length := by
        rw [List.length_cons]
        omega
      rw [List.cons_append, fromLines, ih, fromLines, header, count, List.append_assoc]

/-- A place for a line in a content: ended lines above it, and what follows, from the line feed
on. -/
structure Place where
  above : List Char
  below : List Char
  ended : Ended above
  begins : below = [] ∨ below.head? = some '\n'

namespace Place

variable (place : Place)

/-- The content with a line at the place. -/
def content (line : List Char) : String := String.ofList (place.above ++ (line ++ place.below))

/-- The number of the line at the place, counted by line feeds. -/
def number : Nat := place.above.count '\n' + 1

/-- Whether all lines down to the place belong to the header, the one that stands there
included. -/
def inHeader (line : List Char) : Bool := allHeader (lines place.above) && isHeaderLine (trim line)

/-- The line at the place as it is read. -/
def asRead (line : List Char) : List Char :=
  if place.below = [] then line else dropReturn line

/-- The suppressions on the lines above the place. -/
def earlier (file : String) : List Suppression := suppressions file (String.ofList place.above)

/-- The suppressions on the lines below the place, given whether the header goes on. -/
def later (file : String) (inHeader : Bool) : List Suppression :=
  fromLines file inHeader (place.number + 1) (lines place.below.tail)

variable {place}

theorem trim_asRead (line : List Char) : trim (place.asRead line) = trim line := by
  unfold asRead
  split
  · rfl
  · exact Text.trim_dropReturn line

/-- From the place on, the line is read first. -/
theorem lines_from {line : List Char} (single : '\n' ∉ line) (some : line ≠ []) :
    lines (line ++ place.below) = place.asRead line :: lines place.below.tail := by
  rcases place.begins with none | feed
  · rw [none, List.append_nil, Text.lines_of_notMem single some, asRead, if_pos none]
    rfl
  · cases below : place.below with
    | nil => simp [below] at feed
    | cons c rest =>
        obtain rfl : c = '\n' := by simpa [below] using feed
        rw [Text.lines_append_lineFeed single, asRead, if_neg (by simp [below])]
        rfl

/-- **What a line contributes to the suppressions of a content.** -/
theorem suppressions_content (file : String) {line : List Char} (single : '\n' ∉ line)
    (some : line ≠ []) :
    suppressions file (place.content line) =
      place.earlier file ++
        ((onLine? file (place.inHeader line) place.number (place.asRead line)).toList ++
          place.later file (place.inHeader line)) := by
  have number : 1 + (lines place.above).length = place.number := by
    rw [Text.length_lines place.ended, Place.number]
    omega
  rw [suppressions, content, String.toList_ofList, Text.lines_append place.ended,
    lines_from single some, fromLines_append, number, Bool.true_and, fromLines, trim_asRead,
    earlier, suppressions, String.toList_ofList]
  rfl

/-- What is read above the place bears the number of a line above, if any. -/
theorem line_of_mem_earlier {file : String} {suppression : Suppression}
    (member : suppression ∈ place.earlier file) (numbered : suppression.scope ≠ .file) :
    suppression.line < place.number := by
  obtain ⟨position, line, inHeader, found, read⟩ := exists_of_mem_fromLines member
  have stands := line_of_onLine? read
  rw [if_neg numbered] at stands
  obtain ⟨inside, -⟩ := List.getElem?_eq_some_iff.mp found
  rw [String.toList_ofList, Text.length_lines place.ended] at inside
  rw [stands, number]
  omega

/-- What is read below the place bears the number of a line below, if any. -/
theorem line_of_mem_later {file : String} {inHeader : Bool} {suppression : Suppression}
    (member : suppression ∈ place.later file inHeader) (numbered : suppression.scope ≠ .file) :
    place.number < suppression.line := by
  obtain ⟨position, line, stillHeader, found, read⟩ := exists_of_mem_fromLines member
  have stands := line_of_onLine? read
  rw [if_neg numbered] at stands
  omega

/-- **What a comment with a single marker contributes:** its directive, if it has one that is
accepted at the place.  A carriage return at the end of the line is no part of the comment. -/
theorem suppressions_comment (file : String) {comment : Directive.Comment} (sole : comment.Sole)
    (single : '\n' ∉ comment.text)
    (unended : comment.withoutReturn.directive? = comment.directive?) :
    suppressions file (place.content comment.text) =
      place.earlier file ++
        ((comment.directive?.bind
            (ofDirective? file (place.inHeader comment.text) place.number)).toList ++
          place.later file (place.inHeader comment.text)) := by
  have some : comment.text ≠ [] := by
    unfold Directive.Comment.text Directive.Comment.opened
    cases comment.style with
    | block => simp [CommentStyle.opener]
    | slashes => simp [CommentStyle.opener]
    | hash => simp [CommentStyle.opener]
  rw [suppressions_content file single some, asRead]
  split
  · rw [onLine?_text sole]
  · rw [← comment.text_withoutReturn, onLine?_text sole.withoutReturn, unended]

end Place

end TimeoutAudit.Suppression
