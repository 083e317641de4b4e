import TimeoutAudit.Proofs.Suppression.Comment

/-!
# What follows the marker of a directive

Behind the marker stand a keyword, blanks, and the rule up to the next blank
(`Directive.behindMarker?_written`).  What follows the rule is read in two ways: to the end of the
line (`Directive.openTail`), or up to the closing mark of a block comment
(`Directive.closedReason?`).  Both read a reason behind a dash.  Without a dash the first reads no
reason whatever follows, and the second reads nothing at all unless the closing mark is next
(`Directive.closedReason?_undashed`); the rule must then give up characters, and what is read, if
anything, has a shorter rule (`Directive.closedTail?_shorter`).

In each of these ways a word is read as the rule and a trimmed text as the reason
(`Directive.isRule_of_find?`).
-/

set_option autoImplicit false

namespace TimeoutAudit.Directive

open Text (isBlank trimLeft trim allBlank Trimmed dropReturn)

/-! ## Keyword and rule -/

/-- **A keyword is read up to the blank behind it.**  The longer ones start with the shortest, but
go on with a dash. -/
theorem keyword?_written (keyword : Keyword) {c : Char} (blank : isBlank c = true)
    (rest : List Char) :
    keyword? (keyword.spelling ++ c :: rest) = some (keyword, trimLeft rest) := by
  have noDash : c ≠ '-' := by
    rintro rfl
    cases blank
  have short : Keyword.spelling .ignore = ['i', 'g', 'n', 'o', 'r', 'e'] := by decide
  have file : Keyword.spelling .ignoreFile =
      ['i', 'g', 'n', 'o', 'r', 'e', '-', 'f', 'i', 'l', 'e'] := by decide
  have next : Keyword.spelling .ignoreNextLine =
      ['i', 'g', 'n', 'o', 'r', 'e', '-', 'n', 'e', 'x', 't', '-', 'l', 'i', 'n', 'e'] := by decide
  cases keyword with
  | ignore => simp [keyword?, Keyword.all, strip?, short, file, next, blank, noDash.symm]
  | ignoreNextLine => simp [keyword?, Keyword.all, strip?, file, next, blank]
  | ignoreFile => simp [keyword?, Keyword.all, strip?, file, blank]

/-- A rule as it can stand in a directive. -/
structure IsRule (rule : List Char) : Prop where
  nonempty : rule ≠ []
  solid : ∀ c ∈ rule, isBlank c = false

theorem isRule_iff {rule : List Char} :
    IsRule rule ↔ rule ≠ [] ∧ rule.all (fun c => !isBlank c) = true := by
  constructor
  · rintro ⟨nonempty, solid⟩
    exact ⟨nonempty, by simpa using solid⟩
  · rintro ⟨nonempty, solid⟩
    exact ⟨nonempty, by simpa using solid⟩

instance (rule : List Char) : Decidable (IsRule rule) := decidable_of_iff _ isRule_iff.symm

/-- What can follow a rule: nothing, or a blank. -/
def Separate (after : List Char) : Prop := ∀ c ∈ after.head?, isBlank c = true

theorem Separate.dropReturn {after : List Char} (separate : Separate after) :
    Separate (dropReturn after) := by
  intro c first
  obtain ⟨rest, whole⟩ := Text.dropReturn_prefix after
  refine separate c ?_
  rw [← whole, List.head?_append, Option.mem_def, first]
  rfl

theorem separate_append {gap : List Char} (blank : allBlank gap = true) (some : gap ≠ [])
    (rest : List Char) : Separate (gap ++ rest) := by
  intro c first
  rw [List.head?_append_of_ne_nil _ some] at first
  exact Text.allBlank_iff.mp blank c (List.mem_of_mem_head? first)

/-- What is read in a comment of a style, given the keyword and what follows the rule. -/
def tail? (style : CommentStyle) (rule after : List Char) : Option (List Char × List Char) :=
  match style with
  | .block => closedTail? rule.reverse after
  | _ => some (openTail rule after)

/-- **A directive is read from its keyword to its rule,** and on from there. -/
theorem behindMarker?_written (style : CommentStyle) (keyword : Keyword)
    {spacing rule after : List Char} (blank : allBlank spacing = true) (some : spacing ≠ [])
    (isRule : IsRule rule) (separate : Separate after) :
    behindMarker? style (keyword.spelling ++ (spacing ++ (rule ++ after))) =
      (tail? style rule after).map fun found => (keyword, found) := by
  obtain ⟨c, spacing, rfl⟩ := List.exists_cons_of_ne_nil some
  obtain ⟨isBlank, blank⟩ := Text.allBlank_cons.mp blank
  have front : trimLeft (rule ++ after) = rule ++ after := by
    refine Text.trimLeft_eq_self fun letter first => ?_
    rw [List.head?_append_of_ne_nil _ isRule.nonempty] at first
    exact isRule.solid letter (List.mem_of_mem_head? first)
  have solid : ∀ letter ∈ rule, (!Text.isBlank letter) = true := by simpa using isRule.solid
  have taken : (rule ++ after).takeWhile (fun letter => !Text.isBlank letter) = rule := by
    rw [List.takeWhile_append_of_pos solid]
    cases after with
    | nil => simp
    | cons d rest => simp [separate d rfl]
  have dropped : (rule ++ after).dropWhile (fun letter => !Text.isBlank letter) = after := by
    rw [List.dropWhile_append_of_pos solid]
    cases after with
    | nil => rfl
    | cons d rest => simp [separate d rfl]
  rw [behindMarker?, List.cons_append, keyword?_written keyword isBlank, Option.bind_some,
    Text.trimLeft_append_of_blank blank, front]
  simp only [taken, dropped, List.isEmpty_iff, isRule.nonempty, if_false]
  cases style with
  | block => rfl
  | slashes => rfl
  | hash => rfl

/-- The same without a carriage return at the end of the line. -/
theorem behindMarker?_dropReturn (style : CommentStyle) (keyword : Keyword)
    {spacing rule after : List Char} (blank : allBlank spacing = true) (some : spacing ≠ [])
    (isRule : IsRule rule) (separate : Separate after) :
    behindMarker? style (dropReturn (keyword.spelling ++ (spacing ++ (rule ++ after)))) =
      (tail? style rule (dropReturn after)).map fun found => (keyword, found) := by
  have solidEnd : (keyword.spelling ++ (spacing ++ rule)).getLast? ≠ .some '\r' := by
    rw [← List.append_assoc, List.getLast?_append_of_ne_nil _ isRule.nonempty]
    intro isReturn
    exact absurd (isRule.solid _ (List.mem_of_getLast? isReturn)) (by decide)
  have kept := Text.dropReturn_append solidEnd after
  simp only [List.append_assoc] at kept
  rw [kept, behindMarker?_written style keyword blank some isRule separate.dropReturn]

/-! ## To the end of the line -/

theorem openTail_dashed {lead behind : List Char} (blank : allBlank lead = true)
    (rule : List Char) : openTail rule (lead ++ '-' :: behind) = (rule, trim behind) := by
  rw [openTail, Text.trimLeft_append_of_blank blank, Text.trimLeft_eq_self (by simp; decide)]
  rfl

theorem openTail_undashed {after : List Char} (noDash : (trimLeft after).head? ≠ some '-')
    (rule : List Char) : openTail rule after = (rule, []) := by
  unfold openTail
  split
  · next reason starts => simp [starts] at noDash
  · rfl

/-- A carriage return at the end of the line makes no difference. -/
theorem openTail_dropReturn (rule after : List Char) :
    openTail rule (dropReturn after) = openTail rule after := by
  by_cases dash : (trimLeft after).head? = some '-'
  · obtain ⟨lead, blank, split⟩ := Text.exists_trimLeft after
    obtain ⟨behind, starts⟩ := List.head?_eq_some_iff.mp dash
    rw [starts] at split
    have kept : dropReturn after = lead ++ '-' :: dropReturn behind := by
      have visible : (lead ++ ['-']).getLast? ≠ some '\r' := by simp
      rw [split]
      simpa using Text.dropReturn_append visible behind
    rw [kept, split, openTail_dashed blank, openTail_dashed blank, Text.trim_dropReturn]
  · have stillNone : (trimLeft (dropReturn after)).head? ≠ some '-' := by
      intro starts
      refine dash ?_
      obtain ⟨rest, whole⟩ := Text.dropReturn_prefix after
      have visible : ¬ allBlank (dropReturn after) = true := by
        rw [← Text.trimLeft_eq_nil_iff]
        intro none
        simp [none] at starts
      rw [← whole, Text.trimLeft_append visible, List.head?_append, starts]
      rfl
    rw [openTail_undashed dash, openTail_undashed stillNone]

/-! ## To the closing mark -/

/-- In front of a text that holds no closing mark, none is next. -/
theorem not_blockEnd_prefix {text closing : List Char} (visible : ¬ allBlank text = true)
    (noEnd : ¬ blockEnd <:+: text) (blank : allBlank closing = true) (rest : List Char) :
    ¬ blockEnd <+: trimLeft (text ++ (closing ++ (blockEnd ++ rest))) := by
  rw [Text.trimLeft_append visible]
  obtain ⟨gap, -, split⟩ := Text.exists_trimLeft text
  cases kept : trimLeft text with
  | nil => exact absurd (Text.trimLeft_eq_nil_iff.mp kept) visible
  | cons first others =>
      rw [kept] at split
      intro next
      obtain ⟨rfl, slash⟩ := List.cons_prefix_cons.mp next
      cases others with
      | cons second others =>
          obtain ⟨rfl, -⟩ := List.cons_prefix_cons.mp slash
          exact noEnd ⟨gap, others, by rw [split]; simp [blockEnd]⟩
      | nil =>
          cases closing with
          | nil => exact absurd (List.cons_prefix_cons.mp slash).1 (by decide)
          | cons c closing =>
              obtain ⟨rfl, -⟩ := List.cons_prefix_cons.mp slash
              exact absurd (Text.allBlank_cons.mp blank).1 (by decide)

theorem visible_of_back {c : Char} {text : List Char}
    (back : ∀ last ∈ (c :: text).getLast?, isBlank last = false) :
    ¬ allBlank (c :: text) = true := by
  intro blank
  have last := List.getLast?_eq_some_getLast (List.cons_ne_nil c text)
  have visible := back _ last
  rw [Text.allBlank_iff.mp blank _ (List.mem_of_getLast? last)] at visible
  cases visible

theorem trimLeft_closing {closing : List Char} (blank : allBlank closing = true)
    (rest : List Char) : trimLeft (closing ++ (blockEnd ++ rest)) = blockEnd ++ rest := by
  rw [Text.trimLeft_append_of_blank blank]
  exact Text.trimLeft_eq_self (by simp [blockEnd]; decide)

/-- **A text is read up to the closing mark,** without the blanks before it. -/
theorem untilBlockEnd?_append {text closing : List Char} (noEnd : ¬ blockEnd <:+: text)
    (back : ∀ c ∈ text.getLast?, isBlank c = false) (blank : allBlank closing = true)
    (rest : List Char) :
    untilBlockEnd? (text ++ (closing ++ (blockEnd ++ rest))) = some text := by
  induction text with
  | nil =>
      have next : blockEnd.isPrefixOf (trimLeft (closing ++ (blockEnd ++ rest))) = true := by
        rw [trimLeft_closing blank, List.isPrefixOf_iff_prefix]
        exact List.prefix_append _ _
      cases closing with
      | nil => simpa [untilBlockEnd?, blockEnd] using next
      | cons c closing =>
          rw [List.nil_append, List.cons_append, untilBlockEnd?]
          exact if_pos next
  | cons c text ih =>
      have notNext := not_blockEnd_prefix (visible_of_back back) noEnd blank rest
      have onward : untilBlockEnd? (text ++ (closing ++ (blockEnd ++ rest))) = some text := by
        refine ih (fun inside => noEnd (List.infix_cons inside)) fun last isLast => ?_
        cases text with
        | nil => cases isLast
        | cons second text => exact back last (by simpa using isLast)
      rw [← List.isPrefixOf_iff_prefix, List.cons_append] at notNext
      rw [List.cons_append, untilBlockEnd?, if_neg notNext, onward]
      rfl

/-- Where the closing mark is next, there is no reason. -/
theorem closedReason?_closed {closing : List Char} (blank : allBlank closing = true)
    (rest : List Char) : closedReason? (closing ++ (blockEnd ++ rest)) = some [] := by
  rw [closedReason?, trimLeft_closing blank]
  simp [blockEnd]

/-- A reason stands between a dash and the closing mark. -/
theorem closedReason?_dashed {lead gap text closing : List Char} (leadBlank : allBlank lead = true)
    (gapBlank : allBlank gap = true) (trimmed : Trimmed text) (noEnd : ¬ blockEnd <:+: text)
    (blank : allBlank closing = true) (rest : List Char) :
    closedReason? (lead ++ '-' :: (gap ++ (text ++ (closing ++ (blockEnd ++ rest))))) =
      some text := by
  have dash : trimLeft (lead ++ '-' :: (gap ++ (text ++ (closing ++ (blockEnd ++ rest))))) =
      '-' :: (gap ++ (text ++ (closing ++ (blockEnd ++ rest)))) := by
    rw [Text.trimLeft_append_of_blank leadBlank]
    exact Text.trimLeft_eq_self (by simp; decide)
  have read : untilBlockEnd? (trimLeft (gap ++ (text ++ (closing ++ (blockEnd ++ rest))))) =
      some text := by
    rw [Text.trimLeft_append_of_blank gapBlank]
    cases text with
    | nil =>
        rw [List.nil_append, trimLeft_closing blank]
        exact untilBlockEnd?_append noEnd trimmed.back (show allBlank [] = true from rfl) rest
    | cons c text =>
        rw [Text.trimLeft_eq_self fun first same => trimmed.front first (by simpa using same)]
        exact untilBlockEnd?_append noEnd trimmed.back blank rest
  rw [closedReason?, dash]
  simp only [read, Option.map_some, Text.trim_eq_self trimmed]

/-- **Free text between a rule and the closing mark cannot be read.** -/
theorem closedReason?_undashed {text closing : List Char} (visible : ¬ allBlank text = true)
    (noDash : (trimLeft text).head? ≠ some '-') (noEnd : ¬ blockEnd <:+: text)
    (blank : allBlank closing = true) (rest : List Char) :
    closedReason? (text ++ (closing ++ (blockEnd ++ rest))) = none := by
  have notNext := not_blockEnd_prefix visible noEnd blank rest
  rw [Text.trimLeft_append visible] at notNext
  unfold closedReason?
  rw [Text.trimLeft_append visible]
  split
  · next reason starts =>
      have some : trimLeft text ≠ [] := fun none => visible (Text.trimLeft_eq_nil_iff.mp none)
      have first := congrArg List.head? starts
      rw [List.head?_append_of_ne_nil _ some] at first
      exact absurd first noDash
  · exact if_neg (by rwa [List.isPrefixOf_iff_prefix])

/-! ## The rule of a block comment -/

/-- A rule that can be followed is read whole. -/
theorem closedTail?_of_reason {rule after reason : List Char} (nonempty : rule ≠ [])
    (read : closedReason? after = some reason) :
    closedTail? rule.reverse after = some (rule, reason) := by
  obtain ⟨last, earlier, split⟩ := List.exists_cons_of_ne_nil (List.reverse_ne_nil_iff.mpr nonempty)
  rw [split, closedTail?, read, ← split, List.reverse_reverse]

theorem trimmed_of_closedReason? {after reason : List Char}
    (read : closedReason? after = some reason) : Trimmed reason := by
  unfold closedReason? at read
  split at read
  · obtain ⟨text, -, rfl⟩ := Option.map_eq_some_iff.mp read
    exact Text.trimmed_trim text
  · split at read
    · cases read
      exact Text.trimmed_trim []
    · cases read

/-- What is read as the rule of a block comment is the front of the rule, and not nothing. -/
theorem prefix_of_closedTail? {letters after rule reason : List Char}
    (read : closedTail? letters after = some (rule, reason)) :
    rule ≠ [] ∧ rule <+: letters.reverse ∧ Trimmed reason := by
  induction letters generalizing after with
  | nil => cases read
  | cons last earlier ih =>
      unfold closedTail? at read
      split at read
      · next closed =>
          cases read
          exact ⟨by simp, List.prefix_rfl, trimmed_of_closedReason? closed⟩
      · obtain ⟨nonempty, front, trimmed⟩ := ih read
        refine ⟨nonempty, front.trans ?_, trimmed⟩
        rw [List.reverse_cons]
        exact List.prefix_append _ _

/-- **A rule that cannot be followed gives up characters.** -/
theorem closedTail?_shorter {rule after found reason : List Char}
    (stuck : closedReason? after = none)
    (read : closedTail? rule.reverse after = some (found, reason)) :
    found.length < rule.length := by
  cases letters : rule.reverse with
  | nil =>
      rw [letters] at read
      cases read
  | cons last earlier =>
      rw [letters, closedTail?, stuck] at read
      have shorter := (prefix_of_closedTail? read).2.1.length_le
      have size := congrArg List.length letters
      rw [List.length_reverse] at size shorter
      rw [List.length_cons] at size
      omega

/-! ## What can be read -/

/-- **A rule is a word and a reason is trimmed,** whatever they were read from. -/
theorem isRule_of_tail? {style : CommentStyle} {rule after found reason : List Char}
    (isRule : IsRule rule) (read : tail? style rule after = some (found, reason)) :
    IsRule found ∧ Trimmed reason := by
  unfold tail? at read
  split at read
  · obtain ⟨nonempty, front, trimmed⟩ := prefix_of_closedTail? read
    rw [List.reverse_reverse] at front
    exact ⟨⟨nonempty, fun c member => isRule.solid c (front.subset member)⟩, trimmed⟩
  · rw [Option.some.injEq, openTail] at read
    split at read
    · cases read
      exact ⟨isRule, Text.trimmed_trim _⟩
    · cases read
      exact ⟨isRule, Text.trimmed_trim []⟩

theorem isRule_of_behindMarker? {style : CommentStyle} {body rule reason : List Char}
    {keyword : Keyword} (read : behindMarker? style body = some (keyword, rule, reason)) :
    IsRule rule ∧ Trimmed reason := by
  obtain ⟨⟨word, tail⟩, -, read⟩ := Option.bind_eq_some_iff.mp read
  simp only at read
  split at read
  · cases read
  · next nonempty =>
      have isRule : IsRule (tail.takeWhile fun c => !isBlank c) :=
        ⟨by simpa using nonempty, fun c member => by simpa using List.mem_takeWhile_imp member⟩
      have asTail : (tail? style (tail.takeWhile fun c => !isBlank c)
          (tail.dropWhile fun c => !isBlank c)).map (fun found => (word, found)) =
            some (keyword, rule, reason) := by
        rw [← read]
        cases style with
        | block => rfl
        | slashes => rfl
        | hash => rfl
      obtain ⟨found, tailRead, same⟩ := Option.map_eq_some_iff.mp asTail
      cases same
      exact isRule_of_tail? isRule tailRead

/-- The directives that are found on a line have a word as their rule and a trimmed reason. -/
theorem isRule_of_find? {style : CommentStyle} {line : List Char} {directive : Directive}
    (found : find? style line = some directive) :
    IsRule directive.rule ∧ Trimmed directive.reason := by
  obtain ⟨text, -, here⟩ := exists_of_find? found
  rw [here?_eq] at here
  obtain ⟨inside, -, here⟩ := Option.bind_eq_some_iff.mp here
  obtain ⟨body, -, read⟩ := Option.bind_eq_some_iff.mp here
  exact isRule_of_behindMarker? read

end TimeoutAudit.Directive
