import TimeoutAudit.Proofs.Suppression.ReadBack

/-!
# Styles of comments compared

The same directive can be written in a line comment of either style and in a block comment
(`Directive.styled`).  The two styles of line comments are always read alike.  A block comment is
read like them if nothing follows the rule, or a dash; but if free text follows the rule, a line
comment is read without a reason, and the block comment is not, or with another rule
(`Directive.tail?_block_ne`).

So the styles agree exactly where there is no such text or the directive is refused in any case
(`Suppression.styles_agree_iff`).
-/

set_option autoImplicit false

namespace TimeoutAudit

open Text (isBlank trimLeft trimRight trim allBlank Trimmed dropReturn)

namespace Directive

variable {style : CommentStyle} {keyword : Keyword} {rule tail : List Char}

/-- What follows the rule of a directive in a comment of a style. -/
def styledTail (style : CommentStyle) (tail : List Char) : List Char :=
  ' ' :: (tail ++ if style = .block then ' ' :: blockEnd else [])

/-- The comment of a directive in a style, alone on its line. -/
def styled (style : CommentStyle) (keyword : Keyword) (rule tail : List Char) : Comment where
  before := []
  style := style
  gap := [' ']
  body := keyword.spelling ++ ([' '] ++ (rule ++ styledTail style tail))

/-- Text behind a rule that every style reads: nothing, or a dash and a reason. -/
def Regular (tail : List Char) : Prop :=
  allBlank tail = true ∨ (trimLeft tail).head? = some '-'

instance (tail : List Char) : Decidable (Regular tail) :=
  inferInstanceAs (Decidable (allBlank tail = true ∨ (trimLeft tail).head? = some '-'))

theorem styled_sole (noMarkerRule : ¬ marker <:+: rule) (noMarkerTail : ¬ marker <:+: tail) :
    (styled style keyword rule tail).Sole where
  gap := rfl
  before := noMarker_nil
  body := by
    have spelling : ¬ marker <:+: keyword.spelling :=
      noMarker_of_notMem (by cases keyword <;> decide)
    have blank : ' ' ∉ marker := notMem_marker_of_blank (by decide)
    have closed : ¬ marker <:+: tail ++ if style = .block then ' ' :: blockEnd else [] := by
      split
      · exact noMarker_append_cons blank noMarkerTail (noMarker_of_notMem (by decide))
      · rwa [List.append_nil]
    exact noMarker_append_cons blank spelling (noMarker_append_cons blank noMarkerRule closed)

theorem separate_styledTail : Separate (styledTail style tail) := by
  rintro c ⟨⟩
  decide

/-- What is read in a comment of a style, alone on its line. -/
theorem directive?_styled (isRule : IsRule rule) :
    (styled style keyword rule tail).directive? =
      (tail? style rule (styledTail style tail)).map fun found =>
        ⟨[], keyword, found.1, found.2⟩ := by
  rw [Comment.directive?, styled, behindMarker?_written _ _ (by decide) (by simp) isRule
    separate_styledTail, Option.map_map]
  rfl

/-- A carriage return at the end of the line makes no difference in any style. -/
theorem directive?_styled_withoutReturn (isRule : IsRule rule) :
    (styled style keyword rule tail).withoutReturn.directive? =
      (styled style keyword rule tail).directive? := by
  have alike : tail? style rule (dropReturn (styledTail style tail)) =
      tail? style rule (styledTail style tail) := by
    cases style with
    | block =>
        have closed : dropReturn (styledTail .block tail) = styledTail .block tail := by
          have last : (styledTail .block tail).getLast? ≠ some '\r' := by
            simp [styledTail, blockEnd, List.getLast?_cons, List.getLast?_append]
          simp [dropReturn, last]
        rw [closed]
    | slashes => exact congrArg some (openTail_dropReturn rule _)
    | hash => exact congrArg some (openTail_dropReturn rule _)
  rw [directive?_styled isRule, Comment.directive?, Comment.withoutReturn, styled]
  simp only
  rw [behindMarker?_dropReturn _ _ (by decide) (by simp) isRule separate_styledTail, alike,
    Option.map_map]
  rfl

/-! ## Reading in both ways -/

theorem tail?_slashes :
    tail? .slashes rule (styledTail .slashes tail) = some (openTail rule (' ' :: tail)) := by
  simp [tail?, styledTail]

/-- **A block comment is read like a line comment** if nothing follows the rule, or a dash. -/
theorem tail?_block_eq (isRule : IsRule rule) (noEnd : ¬ blockEnd <:+: tail)
    (regular : Regular tail) :
    tail? .block rule (styledTail .block tail) = some (openTail rule (' ' :: tail)) := by
  rcases regular with blank | dash
  · have nothing : trimLeft (' ' :: tail) = [] :=
      Text.trimLeft_eq_nil_iff.mpr (Text.allBlank_cons.mpr ⟨by decide, blank⟩)
    have closing : allBlank (' ' :: (tail ++ [' '])) = true :=
      Text.allBlank_cons.mpr ⟨by decide, Text.allBlank_append.mpr ⟨blank, by decide⟩⟩
    have read := closedReason?_closed closing []
    rw [openTail_undashed (by simp [nothing])]
    refine closedTail?_of_reason isRule.nonempty ?_
    simpa [styledTail] using read
  · obtain ⟨lead, leadBlank, split⟩ := Text.exists_trimLeft tail
    obtain ⟨behind, starts⟩ := List.head?_eq_some_iff.mp dash
    obtain ⟨gap, text, closing, gapBlank, trimmed, closingBlank, rfl⟩ := Text.exists_trimmed behind
    rw [starts] at split
    have noEndText : ¬ blockEnd <:+: text := fun inside =>
      noEnd (inside.trans ⟨lead ++ '-' :: gap, closing, by rw [split]; simp⟩)
    have leads : allBlank (' ' :: lead) = true := Text.allBlank_cons.mpr ⟨by decide, leadBlank⟩
    have closes : allBlank (closing ++ [' ']) = true :=
      Text.allBlank_append.mpr ⟨closingBlank, by decide⟩
    have read := closedReason?_dashed leads gapBlank trimmed noEndText closes []
    have open' : openTail rule (' ' :: tail) = (rule, text) := by
      rw [split, ← List.cons_append, openTail_dashed leads,
        Text.trim_around trimmed gapBlank closingBlank]
    rw [open']
    refine closedTail?_of_reason isRule.nonempty ?_
    simpa [styledTail, split] using read

/-- **Free text behind the rule of a block comment keeps it from being read,** at least with this
rule. -/
theorem tail?_block_ne (noEnd : ¬ blockEnd <:+: tail) (irregular : ¬ Regular tail)
    {reason : List Char} : tail? .block rule (styledTail .block tail) ≠ some (rule, reason) := by
  obtain ⟨visible, noDash⟩ := not_or.mp irregular
  intro read
  have visible' : ¬ allBlank (' ' :: tail) = true := fun blank =>
    visible (Text.allBlank_cons.mp blank).2
  have noDash' : (trimLeft (' ' :: tail)).head? ≠ some '-' := by
    rwa [← List.singleton_append, Text.trimLeft_append_of_blank (by decide)]
  have noEnd' : ¬ blockEnd <:+: ' ' :: tail := by
    rw [List.infix_cons_iff]
    rintro (atFront | inside)
    · exact absurd (List.cons_prefix_cons.mp atFront).1 (by decide)
    · exact noEnd inside
  have closing : allBlank [' '] = true := by decide
  have stuck := closedReason?_undashed visible' noDash' noEnd' closing []
  have stuck' : closedReason? (styledTail .block tail) = none := by simpa [styledTail] using stuck
  exact absurd (closedTail?_shorter stuck' read) (Nat.lt_irrefl _)

/-- A comment that is alone on its line belongs to the header, whatever its style is. -/
theorem isHeaderLine_styled :
    Suppression.isHeaderLine (trim (styled style keyword rule tail).text) = true := by
  have visible := Comment.trimmed_opener style
  have front (rest : List Char) : trim (style.opener ++ rest) = style.opener ++ trimRight rest := by
    rw [trim, Text.trimLeft_eq_self, Text.trimRight_append visible.back]
    cases style <;> exact visible.front
  rw [Comment.text, Comment.opened, styled, List.nil_append, List.append_assoc, front]
  cases style <;> simp [Suppression.isHeaderLine, Suppression.headerBeginnings, CommentStyle.opener]

end Directive

namespace Suppression

open Directive (styled styledTail tail? openTail Regular IsRule marker blockEnd)

variable {file : String} {place : Place} {style : CommentStyle} {keyword : Keyword}
  {rule tail : List Char}

/-- Whether the header goes on behind a comment does not depend on its style. -/
theorem Place.inHeader_styled : place.inHeader (styled style keyword rule tail).text =
    allHeader (Text.lines place.above) := by
  rw [Place.inHeader, Directive.isHeaderLine_styled, Bool.and_true]

/-- What the directive of a comment contributes, if the comment is alone on its line. -/
def contribution? (file : String) (place : Place) (keyword : Keyword) (rule tail : List Char)
    (style : CommentStyle) : Option Suppression :=
  (tail? style rule (styledTail style tail)).bind fun found =>
    ofDirective? file (allHeader (Text.lines place.above)) place.number
      ⟨[], keyword, found.1, found.2⟩

theorem suppressions_styled (isRule : IsRule rule) (noMarkerRule : ¬ marker <:+: rule)
    (noMarkerTail : ¬ marker <:+: tail) (single : '\n' ∉ tail) :
    suppressions file (place.content (styled style keyword rule tail).text) =
      place.earlier file ++ ((contribution? file place keyword rule tail style).toList ++
        place.later file (allHeader (Text.lines place.above))) := by
  have onOneLine : '\n' ∉ (styled style keyword rule tail).text := by
    have solid : '\n' ∉ rule := fun inside => absurd (isRule.solid _ inside) (by decide)
    have fixed : '\n' ∉ style.opener ∧ '\n' ∉ marker ∧ '\n' ∉ keyword.spelling := by
      cases style <;> cases keyword <;> decide
    have closed : '\n' ∉ styledTail style tail := by
      cases style <;> simp [styledTail, blockEnd, single]
    simp [Directive.Comment.text, Directive.Comment.opened, styled, fixed, solid, closed]
  rw [place.suppressions_comment file (Directive.styled_sole noMarkerRule noMarkerTail) onOneLine
    (Directive.directive?_styled_withoutReturn isRule), Directive.directive?_styled isRule,
    Place.inHeader_styled, Option.bind_map]
  rfl

/-- A line comment contributes what it asks for, with the rule that it names. -/
theorem contribution?_slashes : contribution? file place keyword rule tail .slashes =
    ofDirective? file (allHeader (Text.lines place.above)) place.number
      ⟨[], keyword, rule, (openTail rule (' ' :: tail)).2⟩ := by
  have named : openTail rule (' ' :: tail) = (rule, (openTail rule (' ' :: tail)).2) := by
    unfold openTail
    split <;> rfl
  rw [contribution?, Directive.tail?_slashes, Option.bind_some, named]

/-- **A block comment contributes the same** if and only if it is read, with the same rule, or would
be refused anyway. -/
theorem contribution?_block_eq_iff (isRule : IsRule rule) (noEnd : ¬ blockEnd <:+: tail) :
    contribution? file place keyword rule tail .block =
        contribution? file place keyword rule tail .slashes ↔
      Regular tail ∨ ¬ Accepted keyword place (styled .slashes keyword rule tail).text := by
  by_cases regular : Regular tail
  · refine iff_of_true ?_ (.inl regular)
    rw [contribution?, Directive.tail?_block_eq isRule noEnd regular, contribution?,
      Directive.tail?_slashes]
  by_cases accepted : Accepted keyword place (styled .slashes keyword rule tail).text
  · refine iff_of_false (fun same => ?_) (not_or.mpr ⟨regular, not_not.mpr accepted⟩)
    have given (rule reason : List Char) :
        ofDirective? file (allHeader (Text.lines place.above)) place.number
            ⟨[], keyword, rule, reason⟩ =
          some (asked file place.number ⟨[], keyword, rule, reason⟩) := by
      rw [← Place.inHeader_styled]
      exact ofDirective?_of_accepted accepted
    rw [contribution?_slashes, given, contribution?, Option.bind_eq_some_iff] at same
    obtain ⟨⟨found, reason⟩, read, same⟩ := same
    rw [given] at same
    obtain rfl : found = rule :=
      String.ofList_injective (congrArg Suppression.rule (Option.some.inj same))
    exact Directive.tail?_block_ne noEnd regular read
  · refine iff_of_true ?_ (.inr accepted)
    have nothing (rule reason : List Char) :
        ofDirective? file (allHeader (Text.lines place.above)) place.number
          ⟨[], keyword, rule, reason⟩ = none := by
      rw [← Place.inHeader_styled]
      exact ofDirective?_of_refused accepted
    simp [contribution?, nothing]

/-- **Where the styles agree.**  A directive with the same rule and the same text behind it, put
into a line comment of either style, gives the same suppressions.  In a block comment it gives them
if and only if nothing or a dash follows the rule, or the directive is refused at its place. -/
theorem styles_agree_iff (file : String) (place : Place) (keyword : Keyword)
    (rule tail : List Char) (isRule : IsRule rule) (noMarkerRule : ¬ marker <:+: rule)
    (noMarkerTail : ¬ marker <:+: tail) (noEnd : ¬ blockEnd <:+: tail) (single : '\n' ∉ tail) :
    let read (style : CommentStyle) :=
      suppressions file (place.content (styled style keyword rule tail).text)
    read .hash = read .slashes ∧
      (read .block = read .slashes ↔
        Regular tail ∨ ¬ Accepted keyword place (styled .slashes keyword rule tail).text) := by
  intro read
  have agree (style other : CommentStyle) : read style = read other ↔
      contribution? file place keyword rule tail style =
        contribution? file place keyword rule tail other := by
    simp only [read, suppressions_styled isRule noMarkerRule noMarkerTail single]
    rw [List.append_cancel_left_eq, List.append_cancel_right_eq]
    refine ⟨fun same => ?_, congrArg Option.toList⟩
    simpa using congrArg List.head? same
  rw [agree, agree]
  exact ⟨rfl, contribution?_block_eq_iff isRule noEnd⟩

/-- A place of its own for a line. -/
def alone : Place := ⟨[], ['\n'], by decide, by decide⟩

/-- The suppressions of a sample line in a style, with a text behind the rule. -/
def sample (style : CommentStyle) (tail : String) : List Suppression :=
  suppressions "a.php"
    (alone.content (styled style .ignore "missing_timeout".toList tail.toList).text)

/-- The styles agree on a dash and a reason, and disagree on free text. -/
theorem styles_agree_iff_sample :
    sample .block "- legacy client" = sample .slashes "- legacy client" ∧
      sample .block "legacy client" ≠ sample .slashes "legacy client" := by
  have agree (tail : String) (noColon : ':' ∉ tail.toList) (noEnd : ¬ blockEnd <:+: tail.toList)
      (single : '\n' ∉ tail.toList) :
      sample .block tail = sample .slashes tail ↔ Regular tail.toList ∨ ¬ Accepted .ignore alone
        (styled .slashes .ignore "missing_timeout".toList tail.toList).text :=
    (styles_agree_iff "a.php" alone .ignore _ _ (by decide +kernel)
      (Directive.noMarker_of_notMem (by decide +kernel)) (Directive.noMarker_of_notMem noColon)
      noEnd single).2
  constructor
  · refine (agree _ ?_ ?_ ?_).mpr (.inl ?_) <;> decide +kernel
  · refine fun same => absurd ((agree _ ?_ ?_ ?_).mp same) ?_ <;> decide +kernel

/-- **A block comment is not read like a line comment** where free text follows the rule. -/
theorem styles_disagree :
    ¬ ∀ (file : String) (place : Place) (keyword : Keyword) (rule tail : List Char),
      IsRule rule → ¬ blockEnd <:+: rule → ¬ marker <:+: rule →
      ¬ blockEnd <:+: tail → ¬ marker <:+: tail → '\n' ∉ tail →
      suppressions file (place.content (styled .block keyword rule tail).text) =
        suppressions file (place.content (styled .slashes keyword rule tail).text) := by
  intro every
  have same : sample .block "legacy client" = sample .slashes "legacy client" := by
    refine every "a.php" alone .ignore _ _ (by decide +kernel) (by decide +kernel) ?_
      (by decide +kernel) ?_ (by decide +kernel)
    · exact Directive.noMarker_of_notMem (by decide +kernel)
    · exact Directive.noMarker_of_notMem (by decide +kernel)
  have block : sample .block "legacy client" = [] := by decide +kernel
  have slashes : sample .slashes "legacy client" =
      [⟨"missing_timeout", "", "a.php", 1, .nextLine⟩] := by decide +kernel
  rw [block, slashes] at same
  cases same

end Suppression

end TimeoutAudit
