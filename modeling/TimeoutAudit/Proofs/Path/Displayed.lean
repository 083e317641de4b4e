import TimeoutAudit.Proofs.Path.Below
import TimeoutAudit.Proofs.Text.Lines
import TimeoutAudit.Proofs.Text.Lossy

/-!
# Paths by the texts that are shown for them

Results name a file by the text that is shown for its path.  Slashes stay where they are, so this
text is the path of the names as they are shown (`Path.displayed_joined`), and those that lead
nowhere are the same (`Path.isIdle_displayed`).  A path that is a text is shown as it is, and so are
its segments (`Path.displayed_of_mem_segments`).
-/

set_option autoImplicit false

namespace TimeoutAudit.Path

/-- The text that is shown for a path, as a path. -/
def displayed (path : OsText) : OsText := decodeLossy path

theorem displayed_bytes (text : String) : displayed text = text := by
  rw [displayed, Text.decodeLossy_bytes]

/-- A byte below `0x80` stands in the text as often as in the path. -/
theorem count_displayed {byte : UInt8} (ascii : byte < 0x80) (path : OsText) :
    (displayed path).count byte = path.count byte := by
  rw [← Text.count_decodeLossy ascii, ← Text.count_decodeLossy ascii, displayed,
    Text.decodeLossy_bytes]

theorem slash_mem_displayed_iff {path : OsText} : slash ∈ displayed path ↔ slash ∈ path := by
  rw [← List.count_pos_iff, ← List.count_pos_iff, count_displayed (by decide)]

theorem displayed_eq_iff {path : OsText} {text : String} (clean : '\uFFFD' ∉ text.toList) :
    displayed path = text ↔ path = text := by
  rw [displayed, Text.bytes_inj, Text.decodeLossy_eq_iff clean]

theorem displayed_eq_nil_iff {path : OsText} : displayed path = [] ↔ path = [] :=
  displayed_eq_iff (show '\uFFFD' ∉ "".toList by decide)

/-! ## Names -/

theorem displayed_append_slash (before after : OsText) :
    displayed (before ++ slash :: after) = displayed before ++ slash :: displayed after := by
  have text : decodeLossy (before ++ slash :: after) =
      decodeLossy before ++ ("/" ++ decodeLossy after) := by
    rw [← String.toList_inj, Text.toList_decodeLossy_append (by decide), String.toList_append,
      String.toList_append]
    rfl
  rw [displayed, text, Text.bytes_append, Text.bytes_append]
  rfl

/-- **A path is shown by its names, each as it is shown.** -/
theorem displayed_joined (names : List OsText) :
    displayed (joined names) = joined (names.map displayed) := by
  induction names with
  | nil => decide
  | cons first others ih =>
      cases others with
      | nil => rw [List.map_singleton, joined_singleton, joined_singleton]
      | cons second rest =>
          rw [joined_cons_cons, displayed_append_slash, ih]
          exact (joined_cons_cons _ _ _).symm

theorem segments_displayed (path : OsText) :
    segments (displayed path) = (segments path).map displayed := by
  rw [← congrArg displayed (joined_segments path), displayed_joined, segments_joined]
  · simpa using segments_ne_nil path
  · rw [List.forall_mem_map]
    exact fun segment member => slash_mem_displayed_iff.not.mpr
      (noSlash_of_mem_segments segment member)

/-- **The segments of a text are shown as they are.** -/
theorem displayed_of_mem_segments {path : OsText} (isText : displayed path = path) :
    ∀ segment ∈ segments path, displayed segment = segment := by
  have same := segments_displayed path
  rw [isText] at same
  exact List.map_eq_map_iff.mp (same.symm.trans (List.map_id _).symm)

theorem isIdle_displayed (segment : OsText) : isIdle (displayed segment) = isIdle segment := by
  have empty : (displayed segment).isEmpty = segment.isEmpty := by
    rw [Bool.eq_iff_iff, List.isEmpty_iff, List.isEmpty_iff, displayed_eq_nil_iff]
  have stays : (displayed segment == here) = (segment == here) := by
    rw [Bool.eq_iff_iff, beq_iff_eq, beq_iff_eq]
    exact displayed_eq_iff (show '\uFFFD' ∉ ".".toList by decide)
  rw [isIdle, isIdle, empty, stays]

theorem Moving.displayed {names : List OsText} (moving : Moving names) :
    Moving (names.map displayed) := by
  intro part member
  obtain ⟨name, inside, rfl⟩ := List.mem_map.mp member
  rw [isIdle_displayed]
  exact moving name inside

end TimeoutAudit.Path
