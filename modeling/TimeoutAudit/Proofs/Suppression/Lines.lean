import TimeoutAudit.Proofs.Php.Places
import TimeoutAudit.Proofs.Text.Lines
import TimeoutAudit.Suppression.Basic

/-!
# Directives and nodes count lines alike

Directives are looked for in the text that is shown for a source, line by line, and nodes are found
in its bytes.  Both count the same lines: a directive that is not for a whole file bears the number
of the line that it was read from, and the nodes that stand on this line have the same number
(`Suppression.directive_lines`).  A directive for a whole file bears no line.
-/

set_option autoImplicit false

namespace TimeoutAudit.Suppression

open Php (lineOf)

/-- A directive is read from some line, with the number of this line. -/
theorem exists_of_mem_fromLines {file : String} {inHeader : Bool} {number : Nat}
    {lines : List (List Char)} {directive : Suppression}
    (member : directive ∈ fromLines file inHeader number lines) :
    ∃ position line stillHeader, lines[position]? = some line ∧
      onLine? file stillHeader (number + position) line = some directive := by
  induction lines generalizing inHeader number with
  | nil => cases member
  | cons first others ih =>
      rw [fromLines, List.mem_append, Option.mem_toList] at member
      rcases member with here | later
      · exact ⟨0, first, _, rfl, here⟩
      · obtain ⟨position, line, stillHeader, found, read⟩ := ih later
        rw [Nat.add_right_comm] at read
        exact ⟨position + 1, line, stillHeader, found, read⟩

/-- The line of a directive is that from which it was read, or none. -/
theorem line_of_onLine? {file : String} {inHeader : Bool} {number : Nat} {line : List Char}
    {directive : Suppression} (read : onLine? file inHeader number line = some directive) :
    directive.line = if directive.scope = .file then 0 else number := by
  obtain ⟨style, -, found⟩ := List.exists_of_findSome?_eq_some read
  simp only [Option.bind_eq_some_iff, Option.map_eq_some_iff] at found
  obtain ⟨recognized, -, scope, -, rfl⟩ := found
  simp

/-- **Directives and nodes count lines alike.**  A source and the text that is shown for it have the
same line feeds, and every line of the text is the part of the bytes in its place, decoded, without
the carriage return at its end if a line feed follows.  The nodes of a parsed file stand at
positions of the source, and the line of a node counts the line feed bytes before it.  A directive
is read from a line of the text and, unless it is for the whole file, bears its number, so that it
has the line of a node if and only if the node stands on this line. -/
theorem directive_lines (path : String) (source : List UInt8) :
    let lines := Text.lines (decodeLossy source).toList
    let segments := source.splitOn 0x0A
    (decodeLossy source).toList.count '\n' = source.count 0x0A ∧
    (∀ (position : Nat) (line : List Char), lines[position]? = some line →
      ∃ segment, segments[position]? = some segment ∧
        line = if position + 1 < segments.length then
            Text.dropReturn (decodeLossy segment).toList
          else (decodeLossy segment).toList) ∧
    (∀ file, Php.parse path source = .ok file → ∀ node : Php.Node, node ∈ file.tree.subtrees →
      node.tokens ≠ [] → ∃ start, node.StandsAt source start) ∧
    (∀ (node : Php.Node) (start : Nat), node.StandsAt source start →
      Glyph.encode (Php.Token.span node.tokens) <+: source.drop start ∧
      lineOf node = (source.take start).count 0x0A + 1) ∧
    ∀ directive ∈ suppressions path (decodeLossy source),
      ∃ (position : Nat) (line : List Char) (inHeader : Bool), lines[position]? = some line ∧
        onLine? path inHeader (position + 1) line = some directive ∧
        (directive.scope = .file → directive.line = 0) ∧
        (directive.scope ≠ .file → directive.line = position + 1 ∧
          ∀ (node : Php.Node) (start : Nat), node.StandsAt source start →
            (lineOf node = directive.line ↔ (source.take start).count 0x0A = position)) := by
  refine ⟨Text.count_lineFeed source, fun position line => Text.getElem?_lines_decodeLossy,
    fun file parsed node member => Php.exists_standsAt parsed member,
    fun node start stands => ⟨stands.isPrefix_drop, stands.lineOf_eq⟩, fun directive member => ?_⟩
  obtain ⟨position, line, inHeader, found, read⟩ := exists_of_mem_fromLines member
  rw [Nat.add_comm 1 position] at read
  have numbered := line_of_onLine? read
  refine ⟨position, line, inHeader, found, read, fun isFile => ?_, fun notFile => ?_⟩
  · rwa [if_pos isFile] at numbered
  · rw [if_neg notFile] at numbered
    refine ⟨numbered, fun node start stands => ?_⟩
    rw [stands.lineOf_eq, numbered, Nat.add_left_inj]

/-- A character is broken off right before the first line feed, and the second one follows a
carriage return. -/
def brokenSource : List UInt8 :=
  "<?php //".toUTF8.toList ++ 0xC3 :: 0x0A ::
    "curl_exec($c); // timeoutguard:ignore *\r\n".toUTF8.toList

/-- The directive and the call on the second line of the source both have the number two: one line
feed is before the call. -/
theorem directive_lines_broken :
    ∃ directive ∈ suppressions "a.php" (decodeLossy brokenSource),
      directive.line = 2 ∧ directive.scope = .line ∧
      ∃ (call : Php.Node) (start : Nat), call ∈ (Php.tree brokenSource).subtrees ∧
        call.kind = .functionCall ∧ call.StandsAt brokenSource start ∧
        lineOf call = directive.line ∧ (brokenSource.take start).count 0x0A = 1 := by
  obtain ⟨-, -, nodes, -, directives⟩ := directive_lines "a.php" brokenSource
  have given : ∃ directive ∈ suppressions "a.php" (decodeLossy brokenSource),
      directive.line = 2 ∧ directive.scope = .line := by decide +kernel
  obtain ⟨directive, member, line, scope⟩ := given
  have calls : ∃ call ∈ (Php.tree brokenSource).subtrees, Php.Node.kind call = .functionCall ∧
      Php.Node.tokens call ≠ [] ∧ lineOf call = 2 := by decide +kernel
  obtain ⟨call, below, kind, nonempty, row⟩ := calls
  have sound : (Php.tree brokenSource).hasFault = false := by decide +kernel
  obtain ⟨start, stands⟩ := nodes ⟨"a.php", brokenSource, Php.tree brokenSource⟩
    (by rw [Php.parse, sound]; rfl) call below nonempty
  obtain ⟨position, -, -, -, -, -, numbered⟩ := directives directive member
  obtain ⟨here, alike⟩ := numbered (by rw [scope]; decide)
  have onLine := (alike call start stands).mp (row.trans line.symm)
  exact ⟨directive, member, line, scope, call, start, below, kind, stands, row.trans line.symm,
    by omega⟩

/-- **Not every directive bears the number of its line:** one for the whole file bears none. -/
theorem directive_without_line :
    ¬ ∀ (path : String) (source : List UInt8),
      ∀ directive ∈ suppressions path (decodeLossy source),
        ∃ position < (Text.lines (decodeLossy source).toList).length,
          directive.line = position + 1 := by
  intro every
  have whole : ∃ directive ∈ suppressions "a.php"
      (decodeLossy "<?php // timeoutguard:ignore-file * - x\n".toUTF8.toList),
      directive.line = 0 := by decide +kernel
  obtain ⟨directive, member, none⟩ := whole
  obtain ⟨position, -, numbered⟩ := every _ _ directive member
  omega

end TimeoutAudit.Suppression
