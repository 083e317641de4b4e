import TimeoutAudit.Path

/-!
# The extension of a name

A name has an extension if it has a dot with something in front of it, and the extension is what
follows the last dot (`Path.extensionOf?_eq_some_iff`).
-/

set_option autoImplicit false

namespace TimeoutAudit.Path

theorem drop_length_takeWhile (bytes : OsText) :
    bytes.drop (bytes.takeWhile (· != dot)).length = bytes.dropWhile (· != dot) := by
  induction bytes with
  | nil => rfl
  | cons first rest ih =>
      by_cases isDot : first = dot
      · simp [isDot]
      · simpa [isDot] using ih

/-- Bytes are cut at the first dot. -/
theorem cut_at_dot {front : OsText} (noDot : dot ∉ front) (rest : OsText) :
    (front ++ dot :: rest).takeWhile (· != dot) = front ∧
      (front ++ dot :: rest).dropWhile (· != dot) = dot :: rest := by
  induction front with
  | nil => simp
  | cons first others ih =>
      simp only [List.mem_cons, not_or] at noDot
      simp [Ne.symm noDot.1, ih noDot.2]

/-- Where more than one byte is left behind the first dot, the bytes are cut in three. -/
theorem exists_cut_at_dot {bytes : OsText} (long : 1 < (bytes.dropWhile (· != dot)).length) :
    ∃ stem, stem ≠ [] ∧ bytes = bytes.takeWhile (· != dot) ++ dot :: stem := by
  have whole : bytes.takeWhile (· != dot) ++ bytes.dropWhile (· != dot) = bytes :=
    List.takeWhile_append_dropWhile
  have head := List.head?_dropWhile_not (· != dot) bytes
  cases rest : bytes.dropWhile (· != dot) with
  | nil => simp [rest] at long
  | cons byte stem =>
      rw [rest] at whole head long
      obtain rfl : byte = dot := by simpa using head
      refine ⟨stem, ?_, whole.symm⟩
      rintro rfl
      simp at long

/-- **The extension is what follows the last dot,** if something stands in front of the dot. -/
theorem extensionOf?_eq_some_iff {name extension : OsText} :
    extensionOf? name = some extension ↔
      name ≠ up ∧ dot ∉ extension ∧ ∃ stem, stem ≠ [] ∧ name = stem ++ dot :: extension := by
  unfold extensionOf?
  simp only [drop_length_takeWhile]
  constructor
  · intro found
    split at found
    · cases found
    · next long =>
        simp only [Bool.or_eq_true, beq_iff_eq, decide_eq_true_eq, not_or, Nat.not_le] at long
        obtain ⟨stem, nonempty, cut⟩ := exists_cut_at_dot long.2
        obtain rfl := Option.some.inj found
        refine ⟨long.1, ?_, stem.reverse, by simpa using nonempty, ?_⟩
        · rw [List.mem_reverse]
          intro member
          simpa using List.all_eq_true.mp List.all_takeWhile dot member
        · rw [← List.reverse_inj]
          simpa using cut
  · rintro ⟨notUp, noDot, stem, nonempty, rfl⟩
    have reversed : (stem ++ dot :: extension).reverse =
        extension.reverse ++ dot :: stem.reverse := by
      simp
    obtain ⟨taken, left⟩ := cut_at_dot (show dot ∉ extension.reverse by simpa using noDot)
      stem.reverse
    rw [reversed, taken, left, if_neg]
    · simp
    · have some : 0 < stem.length := List.length_pos_iff.mpr nonempty
      simp only [Bool.or_eq_true, beq_iff_eq, decide_eq_true_eq, not_or, List.length_cons,
        List.length_reverse]
      exact ⟨notUp, by omega⟩

end TimeoutAudit.Path
