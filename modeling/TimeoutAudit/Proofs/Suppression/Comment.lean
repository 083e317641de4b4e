import TimeoutAudit.Proofs.Text.Blank
import TimeoutAudit.Suppression.Basic

/-!
# Lines with one directive

A directive can only be read where its marker stands.  On a line with a single marker
(`Directive.Comment.Sole`) this is one place, whatever the text around it looks like: the marker
does not overlap with itself (`Directive.eq_of_append_marker`), so a comment in which something
could be read has its marker there, the blanks before the marker are those of the line, and the mark
before them tells the style of the comment (`Directive.Comment.Sole.of_here?`).

So a line with a single marker is read in the style of its own comment, and what is read depends on
the text behind the marker (`Directive.Comment.Sole.find?_text`, `Suppression.onLine?_text`).
-/

set_option autoImplicit false

namespace TimeoutAudit

open Text (isBlank trimLeft trimRight allBlank)

namespace Directive

/-! ## Parts without the marker -/

theorem notMem_marker_of_blank {c : Char} (blank : isBlank c = true) : c ∉ marker := by
  intro member
  have visible : marker.all (fun letter => !isBlank letter) = true := by decide
  have notBlank := List.all_eq_true.mp visible c member
  rw [blank] at notBlank
  cases notBlank

/-- A text has no marker if it falls into parts without one at a character that no marker has. -/
theorem noMarker_append_cons {c : Char} (foreign : c ∉ marker) {first second : List Char}
    (before : ¬ marker <:+: first) (behind : ¬ marker <:+: second) :
    ¬ marker <:+: first ++ c :: second := by
  rw [List.infix_append_iff_ne_nil, List.infix_cons_iff]
  rintro (inFirst | (atFront | inSecond) | ⟨left, right, -, some, split, -, atFront⟩)
  · exact before inFirst
  · exact foreign (by rw [(List.cons_prefix_cons.mp atFront).1.symm]; decide)
  · exact behind inSecond
  · obtain ⟨d, rest, rfl⟩ := List.exists_cons_of_ne_nil some
    obtain ⟨rfl, -⟩ := List.cons_prefix_cons.mp atFront
    exact foreign (by rw [split]; simp)

theorem noMarker_of_notMem {text : List Char} (noColon : ':' ∉ text) : ¬ marker <:+: text :=
  fun inside => noColon (inside.subset (by decide))

theorem noMarker_nil : ¬ marker <:+: [] := noMarker_of_notMem List.not_mem_nil

theorem noMarker_blank_append {gap rest : List Char} (blank : allBlank gap = true)
    (behind : ¬ marker <:+: rest) : ¬ marker <:+: gap ++ rest := by
  induction gap with
  | nil => exact behind
  | cons c gap ih =>
      obtain ⟨isBlank, blank⟩ := Text.allBlank_cons.mp blank
      exact noMarker_append_cons (notMem_marker_of_blank isBlank) noMarker_nil (ih blank)

/-- Blanks divide a text into parts. -/
theorem noMarker_append_blank {first gap rest : List Char} (some : gap ≠ [])
    (blank : allBlank gap = true) (before : ¬ marker <:+: first) (behind : ¬ marker <:+: rest) :
    ¬ marker <:+: first ++ (gap ++ rest) := by
  obtain ⟨c, gap, rfl⟩ := List.exists_cons_of_ne_nil some
  obtain ⟨isBlank, blank⟩ := Text.allBlank_cons.mp blank
  exact noMarker_append_cons (notMem_marker_of_blank isBlank) before
    (noMarker_blank_append blank behind)

theorem noMarker_opener_append (style : CommentStyle) {first rest : List Char}
    (before : ¬ marker <:+: first) (behind : ¬ marker <:+: rest) :
    ¬ marker <:+: first ++ style.opener ++ rest := by
  have foreign : '/' ∉ marker ∧ '*' ∉ marker ∧ '#' ∉ marker := by decide
  rw [List.append_assoc]
  cases style with
  | block =>
      exact noMarker_append_cons foreign.1 before
        (noMarker_append_cons foreign.2.1 noMarker_nil behind)
  | slashes =>
      exact noMarker_append_cons foreign.1 before
        (noMarker_append_cons foreign.1 noMarker_nil behind)
  | hash => exact noMarker_append_cons foreign.2.2 before behind

/-! ## One place for the marker -/

/-- A marker that starts behind another one starts behind all of it. -/
theorem marker_prefix_of_overlap {skipped rest other : List Char} (some : skipped ≠ [])
    (same : skipped ++ (marker ++ rest) = marker ++ other) : marker <+: skipped := by
  have unbordered : ∀ size < marker.length, 0 < size → ¬ marker.drop size <+: marker := by decide
  by_cases long : marker.length ≤ skipped.length
  · exact List.prefix_of_prefix_length_le ⟨other, rfl⟩ ⟨_, same⟩ long
  · have short : skipped <+: marker :=
      List.prefix_of_prefix_length_le ⟨_, same⟩ ⟨other, rfl⟩ (by omega)
    obtain ⟨left, split⟩ := short
    have rests : marker ++ rest = left ++ other := by
      have whole : skipped ++ (marker ++ rest) = skipped ++ (left ++ other) := by
        rw [same, ← List.append_assoc, split]
      exact List.append_cancel_left whole
    have border : left <+: marker :=
      List.prefix_of_prefix_length_le ⟨other, rests.symm⟩ ⟨rest, rfl⟩ (by rw [← split]; simp)
    refine absurd border ?_
    have dropped : marker.drop skipped.length = left := by rw [← split, List.drop_left]
    exact dropped ▸ unbordered skipped.length (by omega) (List.length_pos_iff.mpr some)

/-- **In a text with a single marker, the marker has one place.** -/
theorem eq_of_append_marker {first rest other otherRest : List Char}
    (before : ¬ marker <:+: first) (behind : ¬ marker <:+: rest)
    (same : first ++ (marker ++ rest) = other ++ (marker ++ otherRest)) :
    first = other ∧ rest = otherRest := by
  rcases List.append_eq_append_iff.mp same with ⟨skipped, rfl, onward⟩ | ⟨skipped, rfl, onward⟩
  · by_cases none : skipped = []
    · subst none
      exact ⟨(List.append_nil first).symm, List.append_cancel_left onward⟩
    · obtain ⟨left, rfl⟩ := marker_prefix_of_overlap none onward.symm
      rw [List.append_assoc, List.append_cancel_left_eq] at onward
      exact absurd ⟨left, otherRest, by rw [List.append_assoc, onward]⟩ behind
  · by_cases none : skipped = []
    · subst none
      exact ⟨List.append_nil other, (List.append_cancel_left onward).symm⟩
    · have inside := marker_prefix_of_overlap none onward.symm
      exact absurd (inside.isInfix.trans (List.suffix_append _ _).isInfix) before

/-! ## Comments -/

theorem strip?_eq_some_iff {beginning text rest : List Char} :
    strip? beginning text = some rest ↔ text = beginning ++ rest := by
  unfold strip?
  split
  · next starts =>
      obtain ⟨left, rfl⟩ := List.isPrefixOf_iff_prefix.mp starts
      simp
  · next differs =>
      constructor
      · intro impossible
        cases impossible
      · rintro rfl
        exact absurd (List.isPrefixOf_iff_prefix.mpr (List.prefix_append _ _)) differs

theorem strip?_append (beginning rest : List Char) :
    strip? beginning (beginning ++ rest) = some rest :=
  strip?_eq_some_iff.mpr rfl

/-- The directive in the text behind a marker. -/
def behindMarker? (style : CommentStyle) (body : List Char) :
    Option (Keyword × List Char × List Char) :=
  (keyword? body).bind fun (keyword, tail) =>
    let rule := tail.takeWhile fun c => !isBlank c
    let after := tail.dropWhile fun c => !isBlank c
    if rule.isEmpty then none
    else
      match style with
      | .block => (closedTail? rule.reverse after).map fun found => (keyword, found)
      | _ => some (keyword, openTail rule after)

theorem here?_eq (style : CommentStyle) (text : List Char) :
    here? style text = (strip? style.opener text).bind fun inside =>
      (strip? marker (trimLeft inside)).bind (behindMarker? style) := rfl

/-- Where a directive is read, a comment is opened and the marker follows. -/
theorem exists_of_here? {style : CommentStyle} {text : List Char}
    {found : Keyword × List Char × List Char} (read : here? style text = some found) :
    ∃ gap body, allBlank gap = true ∧ text = style.opener ++ gap ++ (marker ++ body) := by
  rw [here?_eq, Option.bind_eq_some_iff] at read
  obtain ⟨inside, opened, read⟩ := read
  obtain ⟨body, marked, -⟩ := Option.bind_eq_some_iff.mp read
  obtain ⟨gap, blank, split⟩ := Text.exists_trimLeft inside
  rw [strip?_eq_some_iff] at opened marked
  exact ⟨gap, body, blank, by rw [opened, split, marked, List.append_assoc]⟩

/-- A directive that is found on a line is read from the place behind its front. -/
theorem exists_of_find? {style : CommentStyle} {line : List Char} {directive : Directive}
    (found : find? style line = some directive) :
    ∃ text, line = directive.before ++ text ∧
      here? style text = some (directive.keyword, directive.rule, directive.reason) := by
  induction line generalizing directive with
  | nil => cases found
  | cons c rest ih =>
      rw [find?] at found
      split at found
      · next keyword rule reason here =>
          cases found
          exact ⟨c :: rest, rfl, here⟩
      · obtain ⟨later, foundLater, rfl⟩ := Option.map_eq_some_iff.mp found
        obtain ⟨text, split, here⟩ := ih foundLater
        exact ⟨text, by rw [split, List.cons_append], here⟩

/-- A comment on a line, cut where the marker of its directive stands. -/
structure Comment where
  /-- The text of the line in front of the comment. -/
  before : List Char
  style : CommentStyle
  /-- What is between the opening of the comment and the marker. -/
  gap : List Char
  /-- The text of the line behind the marker. -/
  body : List Char

namespace Comment

variable (comment : Comment)

/-- A comment as it is written, with what is behind it. -/
def opened : List Char := comment.style.opener ++ comment.gap ++ (marker ++ comment.body)

/-- The line of a comment. -/
def text : List Char := comment.before ++ comment.opened

/-- The directive of a comment. -/
def directive? : Option Directive :=
  (behindMarker? comment.style comment.body).map fun (keyword, rule, reason) =>
    ⟨comment.before, keyword, rule, reason⟩

/-- The marker of a comment follows its opening and is the only one on the line. -/
structure Sole : Prop where
  gap : allBlank comment.gap = true
  before : ¬ marker <:+: comment.before
  body : ¬ marker <:+: comment.body

variable {comment}

/-- What opens a comment ends with a mark of its style. -/
theorem opener_injective {style other : CommentStyle} {front otherFront : List Char}
    (same : front ++ style.opener = otherFront ++ other.opener) :
    style = other ∧ front = otherFront := by
  have last := congrArg List.getLast? same
  have alike : style = other := by
    cases style <;> cases other <;> simp [CommentStyle.opener] at last ⊢
  subst alike
  exact ⟨rfl, List.append_cancel_right same⟩

theorem trimmed_opener (style : CommentStyle) : Text.Trimmed style.opener := by
  cases style <;> decide

theorem trimRight_opener_append (front : List Char) (style : CommentStyle) {gap : List Char}
    (blank : allBlank gap = true) :
    trimRight (front ++ style.opener ++ gap) = front ++ style.opener := by
  have nonempty : style.opener ≠ [] := by cases style <;> decide
  rw [Text.trimRight_append_of_blank _ blank]
  refine Text.trimRight_eq_self ?_
  rw [List.getLast?_append_of_ne_nil _ nonempty]
  exact (trimmed_opener style).back

namespace Sole

variable (sole : comment.Sole)

include sole

/-- **A directive is read where the comment is opened, and in its style.** -/
theorem of_here? {style : CommentStyle} {front text : List Char}
    (whole : front ++ text = comment.text) {found : Keyword × List Char × List Char}
    (read : here? style text = some found) : style = comment.style ∧ front = comment.before := by
  obtain ⟨gap, body, blank, rfl⟩ := exists_of_here? read
  have same : (comment.before ++ comment.style.opener ++ comment.gap) ++
      (marker ++ comment.body) = (front ++ style.opener ++ gap) ++ (marker ++ body) := by
    simpa [text, opened, List.append_assoc] using whole.symm
  have none : ¬ marker <:+: comment.before ++ comment.style.opener ++ comment.gap := by
    refine noMarker_opener_append comment.style sole.before ?_
    simpa using noMarker_blank_append sole.gap noMarker_nil
  obtain ⟨fronts, -⟩ := eq_of_append_marker none sole.body same
  have opened := congrArg trimRight fronts
  rw [trimRight_opener_append _ _ sole.gap, trimRight_opener_append _ _ blank] at opened
  obtain ⟨alike, before⟩ := opener_injective opened
  exact ⟨alike.symm, before.symm⟩

theorem here?_opened : here? comment.style comment.opened =
    behindMarker? comment.style comment.body := by
  have front : trimLeft (marker ++ comment.body) = marker ++ comment.body := by
    refine Text.trimLeft_eq_self ?_
    rw [List.head?_append_of_ne_nil _ (show marker ≠ [] by decide)]
    exact (show Text.Trimmed marker by decide).front
  rw [here?_eq, opened, List.append_assoc, strip?_append, Option.bind_some,
    Text.trimLeft_append_of_blank sole.gap, front, strip?_append, Option.bind_some]

omit sole in
/-- Where no directive starts, none is found. -/
theorem find?_eq_none {style : CommentStyle} {line : List Char}
    (nowhere : ∀ front text, front ++ text = line → here? style text = none) :
    find? style line = none := by
  induction line with
  | nil => rfl
  | cons c rest ih =>
      rw [find?, nowhere [] (c :: rest) rfl,
        ih fun front text whole => nowhere (c :: front) text (by rw [List.cons_append, whole])]
      rfl

omit sole in
/-- Where no directive starts in the front of a line, the first one is that of the rest. -/
theorem find?_append {style : CommentStyle} {before rest : List Char}
    (nowhere : ∀ front text, front ++ text = before ++ rest → front.length < before.length →
      here? style text = none) :
    find? style (before ++ rest) =
      (find? style rest).map fun found => { found with before := before ++ found.before } := by
  induction before with
  | nil => simp
  | cons c before ih =>
      have onward := ih fun front text whole shorter =>
        nowhere (c :: front) text (by rw [List.cons_append, whole, List.cons_append])
          (by simpa using shorter)
      rw [List.cons_append, find?, nowhere [] (c :: (before ++ rest)) rfl (by simp), onward,
        Option.map_map]
      rfl

/-- **A line with a single marker is read in the style of its comment,** from where the comment is
opened. -/
theorem find?_text (style : CommentStyle) :
    find? style comment.text = if style = comment.style then comment.directive? else none := by
  by_cases alike : style = comment.style
  · subst alike
    rw [if_pos rfl, text, find?_append fun front text whole shorter => ?_]
    · obtain ⟨c, rest, split⟩ : ∃ c rest, comment.opened = c :: rest := by
        rw [opened]
        cases comment.style with
        | block => exact ⟨_, _, rfl⟩
        | slashes => exact ⟨_, _, rfl⟩
        | hash => exact ⟨_, _, rfl⟩
      have here := sole.here?_opened
      rw [split] at here
      have later : find? comment.style rest = none := by
        refine find?_eq_none fun front text whole => Option.eq_none_iff_forall_ne_some.mpr ?_
        intro found read
        have inside : (comment.before ++ c :: front) ++ text = comment.text := by
          rw [Comment.text, split, ← whole, List.append_assoc, List.cons_append]
        obtain ⟨-, before⟩ := sole.of_here? inside read
        simpa using congrArg List.length before
      rw [split, find?, here, directive?]
      cases behindMarker? comment.style comment.body with
      | none => simp [later]
      | some found => simp
    · refine Option.eq_none_iff_forall_ne_some.mpr fun found read => ?_
      obtain ⟨-, rfl⟩ := sole.of_here? whole read
      exact absurd shorter (Nat.lt_irrefl _)
  · rw [if_neg alike]
    refine find?_eq_none fun front text whole => Option.eq_none_iff_forall_ne_some.mpr ?_
    intro found read
    exact alike (sole.of_here? whole read).1

end Sole

/-! ## Carriage returns -/

/-- The comment without a carriage return at the end of its line. -/
def withoutReturn (comment : Comment) : Comment :=
  { comment with body := Text.dropReturn comment.body }

theorem text_withoutReturn (comment : Comment) :
    comment.withoutReturn.text = Text.dropReturn comment.text := by
  have colon : marker ≠ [] ∧ marker.getLast? ≠ some '\r' := by decide
  have front : (comment.before ++ (comment.style.opener ++ comment.gap) ++ marker).getLast? ≠
      some '\r' := by
    rw [List.getLast?_append_of_ne_nil _ colon.1]
    exact colon.2
  have kept := Text.dropReturn_append front comment.body
  simp only [List.append_assoc] at kept
  simp only [text, opened, withoutReturn, List.append_assoc, kept]

theorem Sole.withoutReturn (sole : comment.Sole) : comment.withoutReturn.Sole where
  gap := sole.gap
  before := sole.before
  body inside := sole.body (inside.trans (Text.dropReturn_prefix comment.body).isInfix)

end Comment

end Directive

namespace Suppression

/-- Every style is tried. -/
theorem mem_styles (style : CommentStyle) : style ∈ styles := by
  cases style <;> decide

/-- The suppression that a directive gives on its line, if it is accepted there. -/
def ofDirective? (file : String) (inHeader : Bool) (number : Nat) (directive : Directive) :
    Option Suppression :=
  (scope? directive inHeader number).map fun scope => {
    rule := String.ofList directive.rule
    reason := String.ofList directive.reason
    file := file
    line := if scope == .file then 0 else number
    scope := scope }

/-- **The suppression on a line with a single marker** is that of its directive. -/
theorem onLine?_text {comment : Directive.Comment} (sole : comment.Sole) (file : String)
    (inHeader : Bool) (number : Nat) :
    onLine? file inHeader number comment.text =
      comment.directive?.bind (ofDirective? file inHeader number) := by
  have others (style : CommentStyle) :
      (Directive.find? style comment.text).bind (ofDirective? file inHeader number) =
        if style = comment.style then comment.directive?.bind (ofDirective? file inHeader number)
        else none := by
    rw [sole.find?_text]
    split <;> rfl
  calc onLine? file inHeader number comment.text
      = styles.findSome? fun style =>
          (Directive.find? style comment.text).bind (ofDirective? file inHeader number) := rfl
    _ = comment.directive?.bind (ofDirective? file inHeader number) := by
      simp only [others]
      cases comment.style <;> cases comment.directive?.bind (ofDirective? file inHeader number) <;>
        rfl

end Suppression

end TimeoutAudit
