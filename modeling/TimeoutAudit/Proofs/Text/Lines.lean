import TimeoutAudit.Proofs.Text.Glyph
import TimeoutAudit.Text.Lines

/-!
# Lines of a decoded source

A line feed is the same in the bytes of a source and in the text that is shown for it: there are
as many (`Text.count_lineFeed`), and between them stands the same
(`Text.segments_decodeLossy`), whatever characters were broken off right before a line feed.  So
the lines of the text are found by cutting the bytes (`Text.getElem?_lines_decodeLossy`).
-/

set_option autoImplicit false

namespace TimeoutAudit.Text

open Glyph (decode)

theorem toList_decodeLossy (source : List UInt8) :
    (decodeLossy source).toList = (decode source).map Glyph.shown :=
  String.toList_ofList

theorem shown_eq_iff {glyph : Glyph} {letter : Char} (clean : letter ≠ '\uFFFD') :
    glyph.shown = letter ↔ glyph.is letter = true := by
  cases glyph with
  | char value => simp [Glyph.shown, Glyph.is]
  | broken run => simp [Glyph.shown, Glyph.is, clean.symm]

/-- A text has a character that is one byte as often as the bytes that it is shown for. -/
theorem count_decodeLossy {byte : UInt8} (ascii : byte < 0x80) (source : List UInt8) :
    (decodeLossy source).toList.count (Char.ofNat byte.toNat) = source.count byte := by
  have clean : Char.ofNat byte.toNat ≠ '\uFFFD' := by
    have small : byte.toNat < 0x80 := ascii
    intro same
    have point : byte.toNat = 0xFFFD := by
      rw [← Glyph.val_ofNat (.inl (by omega) : byte.toNat.isValidChar), same]
      rfl
    omega
  rw [toList_decodeLossy, ← Glyph.count_decode ascii, List.count, List.countP_map]
  refine List.countP_congr fun glyph _ => ?_
  rw [Function.comp_apply, beq_iff_eq, shown_eq_iff clean]

/-- **A text has as many line feeds as the bytes that it is shown for.** -/
theorem count_lineFeed (source : List UInt8) :
    (decodeLossy source).toList.count '\n' = source.count 0x0A :=
  count_decodeLossy (show (0x0A : UInt8) < 0x80 by decide) source

/-- A character that is one byte stands between two parts of a text that are shown by themselves. -/
theorem toList_decodeLossy_append {byte : UInt8} (ascii : byte < 0x80)
    (before after : List UInt8) :
    (decodeLossy (before ++ byte :: after)).toList =
      (decodeLossy before).toList ++ Char.ofNat byte.toNat :: (decodeLossy after).toList := by
  simp only [toList_decodeLossy, Glyph.decode_append_ascii ascii, List.map_append, List.map_cons,
    Glyph.shown]

/-! ## Parts between line feeds -/

theorem segments_of_notMem {line : List Char} (single : '\n' ∉ line) : segments line = [line] := by
  induction line with
  | nil => rfl
  | cons letter rest ih =>
      rw [List.mem_cons, not_or] at single
      simp [segments, Ne.symm single.1, ih single.2]

theorem segments_append_lineFeed {line : List Char} (single : '\n' ∉ line) (rest : List Char) :
    segments (line ++ '\n' :: rest) = line :: segments rest := by
  induction line with
  | nil => simp [segments]
  | cons letter others ih =>
      rw [List.mem_cons, not_or] at single
      simp [segments, Ne.symm single.1, ih single.2]

theorem lineFeed_notMem_decodeLossy {source : List UInt8} (single : 0x0A ∉ source) :
    '\n' ∉ (decodeLossy source).toList := by
  rw [← List.count_eq_zero, count_lineFeed, List.count_eq_zero]
  exact single

/-- **The parts of the text are the parts of the bytes,** decoded one by one. -/
theorem segments_decodeLossy (source : List UInt8) :
    segments (decodeLossy source).toList =
      (source.splitOn 0x0A).map fun segment => (decodeLossy segment).toList := by
  -- Both sides are cut at the first line feed, and the rest is shorter.
  by_cases several : 0x0A ∈ source
  · obtain ⟨before, after, rfl, single⟩ := List.eq_append_cons_of_mem several
    have text : (decodeLossy (before ++ 0x0A :: after)).toList =
        (decodeLossy before).toList ++ '\n' :: (decodeLossy after).toList :=
      toList_decodeLossy_append (by decide) before after
    rw [text, segments_append_lineFeed (lineFeed_notMem_decodeLossy single),
      segments_decodeLossy after, List.splitOn_append_cons_self_of_not_mem single, List.map_cons]
  · rw [segments_of_notMem (lineFeed_notMem_decodeLossy several), List.splitOn_eq_singleton several,
      List.map_singleton]
termination_by source.length

/-! ## Lines -/

/-- A line is a part, without the carriage return at its end if a line feed follows. -/
theorem getElem?_linesOfSegments {parts : List (List Char)} {position : Nat} {line : List Char}
    (found : (linesOfSegments parts)[position]? = some line) :
    ∃ part, parts[position]? = some part ∧
      line = if position + 1 < parts.length then dropReturn part else part := by
  induction parts generalizing position with
  | nil => simp [linesOfSegments] at found
  | cons first others ih =>
      cases others with
      | nil =>
          unfold linesOfSegments at found
          split at found
          · simp at found
          · cases position with
            | zero => exact ⟨first, rfl, by simpa using found.symm⟩
            | succ position => simp at found
      | cons second others =>
          cases position with
          | zero => exact ⟨first, rfl, by simpa [linesOfSegments] using found.symm⟩
          | succ position =>
              obtain ⟨part, stands, same⟩ := ih (by simpa [linesOfSegments] using found)
              exact ⟨part, by simpa using stands, by simpa using same⟩

theorem segments_ne_nil (text : List Char) : segments text ≠ [] := by
  fun_cases segments text <;> simp_all

/-- A line that a line feed ends is read without a carriage return at its end. -/
theorem lines_append_lineFeed {line : List Char} (single : '\n' ∉ line) (rest : List Char) :
    lines (line ++ '\n' :: rest) = dropReturn line :: lines rest := by
  rw [lines, segments_append_lineFeed single, lines]
  obtain ⟨part, others, split⟩ := List.exists_cons_of_ne_nil (segments_ne_nil rest)
  rw [split]
  rfl

/-- The last line is read as it is, unless there is nothing in it. -/
theorem lines_of_notMem {line : List Char} (single : '\n' ∉ line) (some : line ≠ []) :
    lines line = [line] := by
  rw [lines, segments_of_notMem single, linesOfSegments, if_neg (by simpa using some)]

/-- A text that is made of lines that are ended. -/
def Ended (text : List Char) : Prop := text = [] ∨ text.getLast? = some '\n'

instance (text : List Char) : Decidable (Ended text) :=
  inferInstanceAs (Decidable (text = [] ∨ text.getLast? = some '\n'))

theorem Ended.cases {text : List Char} (ended : Ended text) :
    text = [] ∨ ∃ line rest, '\n' ∉ line ∧ text = line ++ '\n' :: rest ∧ Ended rest := by
  rcases ended with none | last
  · exact .inl none
  · obtain ⟨line, rest, rfl, single⟩ := List.eq_append_cons_of_mem (List.mem_of_getLast? last)
    refine .inr ⟨line, rest, single, rfl, ?_⟩
    cases rest with
    | nil => exact .inl rfl
    | cons c others => exact .inr (by simpa using last)

/-- **The lines below ended lines are read by themselves.** -/
theorem lines_append {text : List Char} (ended : Ended text) (rest : List Char) :
    lines (text ++ rest) = lines text ++ lines rest := by
  rcases ended.cases with rfl | ⟨line, others, single, rfl, othersEnded⟩
  · rfl
  · rw [List.append_assoc, List.cons_append, lines_append_lineFeed single,
      lines_append_lineFeed single, lines_append othersEnded rest, List.cons_append]
termination_by text.length
decreasing_by simp_all; omega

/-- Ended lines are as many as line feeds. -/
theorem length_lines {text : List Char} (ended : Ended text) :
    (lines text).length = text.count '\n' := by
  rcases ended.cases with rfl | ⟨line, others, single, rfl, othersEnded⟩
  · rfl
  · rw [lines_append_lineFeed single, List.length_cons, length_lines othersEnded,
      List.count_append, List.count_eq_zero.mpr single, List.count_cons_self, Nat.zero_add]
termination_by text.length
decreasing_by simp_all; omega

/-- **A line of the text is a part of the bytes,** decoded, without the carriage return at its end
if a line feed follows. -/
theorem getElem?_lines_decodeLossy {source : List UInt8} {position : Nat} {line : List Char}
    (found : (lines (decodeLossy source).toList)[position]? = some line) :
    ∃ segment, (source.splitOn 0x0A)[position]? = some segment ∧
      line = if position + 1 < (source.splitOn 0x0A).length then
          dropReturn (decodeLossy segment).toList
        else (decodeLossy segment).toList := by
  rw [lines, segments_decodeLossy] at found
  obtain ⟨part, stands, same⟩ := getElem?_linesOfSegments found
  rw [List.length_map] at same
  rw [List.getElem?_map, Option.map_eq_some_iff] at stands
  obtain ⟨segment, stands, rfl⟩ := stands
  exact ⟨segment, stands, same⟩

end TimeoutAudit.Text
