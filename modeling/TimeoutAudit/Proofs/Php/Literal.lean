import TimeoutAudit.Php.Lexer
import TimeoutAudit.Php.Literal

/-!
# Writing single-quoted literals

A text is written between single quotes with a backslash in front of every backslash and every
quote (`Literal.singleQuoted`).  The lexer finds the end of the literal
(`Lexer.quotedBody_escapeSingle`), and what the literal denotes is the text
(`Literal.denoted?_singleQuoted`), whatever the text holds.
-/

set_option autoImplicit false

namespace TimeoutAudit.Php

namespace Literal

/-- A character inside single quotes. -/
def escapedChar (c : Char) : List Char := if c = '\\' ∨ c = '\'' then ['\\', c] else [c]

/-- A text as the body of a single-quoted literal. -/
def escapeSingle (text : List Char) : List Char := text.flatMap escapedChar

/-- A text as a single-quoted literal. -/
def singleQuoted (text : String) : String :=
  "'" ++ String.ofList (escapeSingle text.toList) ++ "'"

theorem escapeSingle_cons (c : Char) (others : List Char) :
    escapeSingle (c :: others) = escapedChar c ++ escapeSingle others := List.flatMap_cons

theorem toList_singleQuoted (text : String) :
    (singleQuoted text).toList = '\'' :: (escapeSingle text.toList ++ ['\'']) := by
  simp [singleQuoted]

theorem mem_escapeSingle {c : Char} {text : List Char} (member : c ∈ escapeSingle text) :
    c = '\\' ∨ c ∈ text := by
  obtain ⟨origin, inside, escaped⟩ := List.mem_flatMap.mp member
  unfold escapedChar at escaped
  split at escaped
  · rw [List.mem_cons, List.mem_singleton] at escaped
    rcases escaped with backslash | rfl
    · exact .inl backslash
    · exact .inr inside
  · obtain rfl := List.mem_singleton.mp escaped
    exact .inr inside

/-! ## Reading back -/

theorem unescapeSingle_cons {c : Char} (plain : c ≠ '\\') (rest : List Char) :
    unescapeSingle (c :: rest) = c :: unescapeSingle rest := by
  cases rest with
  | nil => rfl
  | cons second rest => simp [unescapeSingle, plain]

theorem unescapeSingle_escapeSingle (text : List Char) :
    unescapeSingle (escapeSingle text) = text := by
  induction text with
  | nil => rfl
  | cons c others ih =>
      rw [escapeSingle_cons, escapedChar]
      split
      · next special =>
          rw [List.cons_append, List.cons_append, List.nil_append]
          simp [unescapeSingle, special, ih]
      · next plain =>
          rw [List.cons_append, List.nil_append,
            unescapeSingle_cons (fun same => plain (.inl same)), ih]

/-- **A literal denotes the text that it was written for.** -/
theorem denoted?_singleQuoted (text : String) :
    denoted? (singleQuoted text).toList = some text := by
  rw [toList_singleQuoted]
  simp [denoted?, unescapeSingle_escapeSingle]

end Literal

/-- **The lexer finds the end of a literal**, and what follows it. -/
theorem Lexer.quotedBody_escapeSingle (text : List Char) (following : List Glyph) :
    quotedBody ((Literal.escapeSingle text).map .char ++ .char '\'' :: following) =
      some ((Literal.escapeSingle text).map .char ++ [.char '\''], following) := by
  induction text with
  | nil =>
      rw [quotedBody.eq_def]
      rfl
  | cons c others ih =>
      rw [Literal.escapeSingle_cons, Literal.escapedChar]
      split
      · simp only [List.cons_append, List.nil_append, List.map_cons]
        rw [quotedBody.eq_def]
        simp [Glyph.is, ih]
      · next plain =>
          rw [not_or] at plain
          simp only [List.cons_append, List.nil_append, List.map_cons]
          rw [quotedBody.eq_def]
          simp [Glyph.is, plain, ih]

end TimeoutAudit.Php
