import Mathlib.Data.List.Basic
import Mathlib.Data.List.Induction
import Mathlib.Data.List.TakeWhile
import TimeoutAudit.Text.Blank
import TimeoutAudit.Text.Lines

/-!
# Blanks around a text

A text is trimmed when it neither starts nor ends with a blank (`Text.Trimmed`).  Every text is a
trimmed one with blanks around it (`Text.exists_trimmed`), and trimming takes exactly these away
(`Text.trim_around`).
-/

set_option autoImplicit false

namespace TimeoutAudit.Text

theorem allBlank_iff {text : List Char} : allBlank text = true ↔ ∀ c ∈ text, isBlank c = true :=
  List.all_eq_true

theorem allBlank_append {first second : List Char} :
    allBlank (first ++ second) = true ↔ allBlank first = true ∧ allBlank second = true := by
  rw [allBlank, List.all_append, Bool.and_eq_true]
  rfl

theorem allBlank_cons {c : Char} {text : List Char} :
    allBlank (c :: text) = true ↔ isBlank c = true ∧ allBlank text = true := by
  rw [allBlank, List.all_cons, Bool.and_eq_true]
  rfl

/-- A text that neither starts nor ends with a blank. -/
structure Trimmed (text : List Char) : Prop where
  front : ∀ c ∈ text.head?, isBlank c = false
  back : ∀ c ∈ text.getLast?, isBlank c = false

theorem trimmed_iff {text : List Char} :
    Trimmed text ↔ text.head?.all (fun c => !isBlank c) = true ∧
      text.getLast?.all (fun c => !isBlank c) = true := by
  simp only [Option.all_eq_true, Bool.not_eq_true']
  exact ⟨fun trimmed => ⟨trimmed.front, trimmed.back⟩, fun ⟨front, back⟩ => ⟨front, back⟩⟩

instance (text : List Char) : Decidable (Trimmed text) := decidable_of_iff _ trimmed_iff.symm

/-! ## Blanks in front -/

theorem trimLeft_eq_nil_iff {text : List Char} : trimLeft text = [] ↔ allBlank text = true := by
  rw [trimLeft, List.dropWhile_eq_nil_iff, allBlank_iff]

theorem trimLeft_append_of_blank {gap : List Char} (blank : allBlank gap = true)
    (rest : List Char) : trimLeft (gap ++ rest) = trimLeft rest :=
  List.dropWhile_append_of_pos (allBlank_iff.mp blank)

theorem trimLeft_eq_self {text : List Char} (front : ∀ c ∈ text.head?, isBlank c = false) :
    trimLeft text = text := by
  cases text with
  | nil => rfl
  | cons c rest => exact List.dropWhile_cons_of_neg (by simp [front c rfl])

/-- Where something is not blank, blanks in front of it are all that is taken away. -/
theorem trimLeft_append {text : List Char} (visible : ¬ allBlank text = true) (rest : List Char) :
    trimLeft (text ++ rest) = trimLeft text ++ rest := by
  have some : text.dropWhile isBlank ≠ [] := fun none => visible (trimLeft_eq_nil_iff.mp none)
  rw [trimLeft, List.dropWhile_append, if_neg (by simpa using some)]
  rfl

theorem exists_trimLeft (text : List Char) :
    ∃ gap, allBlank gap = true ∧ text = gap ++ trimLeft text :=
  ⟨text.takeWhile isBlank, List.all_takeWhile, List.takeWhile_append_dropWhile.symm⟩

theorem trimLeft_front (text : List Char) : ∀ c ∈ (trimLeft text).head?, isBlank c = false := by
  intro c first
  have visible := List.head?_dropWhile_not isBlank text
  rw [show (text.dropWhile isBlank).head? = some c from first] at visible
  simpa using visible

/-! ## Blanks behind -/

theorem trimRight_append_of_blank (text : List Char) {gap : List Char}
    (blank : allBlank gap = true) : trimRight (text ++ gap) = trimRight text := by
  rw [trimRight, List.reverse_append]
  have reversed : allBlank gap.reverse = true := by simpa [allBlank] using blank
  exact congrArg List.reverse (trimLeft_append_of_blank reversed text.reverse)

theorem trimRight_eq_self {text : List Char} (back : ∀ c ∈ text.getLast?, isBlank c = false) :
    trimRight text = text := by
  have front : ∀ c ∈ text.reverse.head?, isBlank c = false := by simpa using back
  rw [trimRight, show text.reverse.dropWhile isBlank = text.reverse from trimLeft_eq_self front,
    List.reverse_reverse]

/-- Nothing is taken away before something that is not blank. -/
theorem trimRight_append {first : List Char} (back : ∀ c ∈ first.getLast?, isBlank c = false)
    (rest : List Char) : trimRight (first ++ rest) = first ++ trimRight rest := by
  by_cases blank : allBlank rest = true
  · have nothing : trimRight rest = [] := by
      simpa [trimRight] using trimRight_append_of_blank [] blank
    rw [trimRight_append_of_blank first blank, trimRight_eq_self back, nothing, List.append_nil]
  · have visible : ¬ allBlank rest.reverse = true := by simpa [allBlank] using blank
    calc trimRight (first ++ rest)
        = (trimLeft (rest.reverse ++ first.reverse)).reverse := by
          rw [trimRight, List.reverse_append, trimLeft]
      _ = (trimLeft rest.reverse ++ first.reverse).reverse := by rw [trimLeft_append visible]
      _ = first ++ trimRight rest := by
          rw [List.reverse_append, List.reverse_reverse, trimRight, trimLeft]

/-! ## Blanks on both sides -/

/-- **Trimming takes away the blanks around a trimmed text.** -/
theorem trim_around {before text behind : List Char} (trimmed : Trimmed text)
    (beforeBlank : allBlank before = true) (behindBlank : allBlank behind = true) :
    trim (before ++ text ++ behind) = text := by
  rw [trim, List.append_assoc, trimLeft_append_of_blank beforeBlank]
  cases text with
  | nil =>
      rw [List.nil_append, trimLeft_eq_nil_iff.mpr behindBlank]
      rfl
  | cons c rest =>
      rw [trimLeft_eq_self fun first same => trimmed.front first (by simpa using same),
        trimRight_append_of_blank _ behindBlank, trimRight_eq_self trimmed.back]

theorem trim_eq_self {text : List Char} (trimmed : Trimmed text) : trim text = text := by
  rw [trim, trimLeft_eq_self trimmed.front, trimRight_eq_self trimmed.back]

/-- Every text is a trimmed one with blanks around it. -/
theorem exists_trimmed (text : List Char) :
    ∃ before kept behind, allBlank before = true ∧ Trimmed kept ∧ allBlank behind = true ∧
      text = before ++ kept ++ behind := by
  obtain ⟨before, beforeBlank, split⟩ := exists_trimLeft text
  obtain ⟨behind, behindBlank, rest⟩ := exists_trimLeft (trimLeft text).reverse
  have kept : trimLeft text = (trimLeft (trimLeft text).reverse).reverse ++ behind.reverse := by
    rw [← List.reverse_append, ← rest, List.reverse_reverse]
  refine ⟨before, (trimLeft (trimLeft text).reverse).reverse, behind.reverse, beforeBlank,
    ⟨fun c first => ?_, fun c last => ?_⟩, by simpa [allBlank] using behindBlank, ?_⟩
  · refine trimLeft_front text c ?_
    rw [kept, List.head?_append, Option.mem_def, first]
    rfl
  · exact trimLeft_front (trimLeft text).reverse c (by simpa using last)
  · rw [List.append_assoc, ← kept]
    exact split

/-- What trimming leaves is trimmed. -/
theorem trimmed_trim (text : List Char) : Trimmed (trim text) := by
  obtain ⟨before, kept, behind, beforeBlank, trimmed, behindBlank, rfl⟩ := exists_trimmed text
  rwa [trim_around trimmed beforeBlank behindBlank]

/-! ## Carriage returns -/

/-- A carriage return at the end of a line is none of the front of the line. -/
theorem dropReturn_append {front : List Char} (back : front.getLast? ≠ some '\r')
    (rest : List Char) : dropReturn (front ++ rest) = front ++ dropReturn rest := by
  cases rest using List.reverseRecOn with
  | nil => simp [dropReturn, back]
  | append_singleton rest last =>
      by_cases isReturn : last = '\r'
      · simp [dropReturn, isReturn, ← List.append_assoc]
      · simp [dropReturn, isReturn, ← List.append_assoc]

theorem dropReturn_prefix (line : List Char) : dropReturn line <+: line := by
  unfold dropReturn
  split
  · exact List.dropLast_prefix line
  · exact List.prefix_rfl

/-- Trimming takes a carriage return away, too. -/
theorem trim_dropReturn (line : List Char) : trim (dropReturn line) = trim line := by
  unfold dropReturn
  split
  · next isReturn =>
      obtain ⟨before, kept, behind, beforeBlank, trimmed, behindBlank, split⟩ :=
        exists_trimmed line.dropLast
      have whole : line = line.dropLast ++ ['\r'] :=
        (List.dropLast_append_getLast? _ (by simpa using isReturn)).symm
      have alsoBlank : allBlank (behind ++ ['\r']) = true :=
        allBlank_append.mpr ⟨behindBlank, by decide⟩
      rw [split, trim_around trimmed beforeBlank behindBlank, whole, split,
        List.append_assoc _ behind, trim_around trimmed beforeBlank alsoBlank]
  · rfl

end TimeoutAudit.Text
