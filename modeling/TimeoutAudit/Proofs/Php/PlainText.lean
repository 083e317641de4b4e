import Mathlib.Data.List.TakeWhile
import TimeoutAudit.Php.Parse
import TimeoutAudit.Proofs.Syntax.PreOrder

/-!
# Sources without code

A source that never opens a tag is plain text from its first glyph to its last.  It is read as one
token, has a tree without a fault, and makes no call (`Php.sound_of_untagged`).
-/

set_option autoImplicit false

namespace TimeoutAudit.Php

/-- No glyph can open a tag, and none ends the source before its end. -/
def Untagged (glyphs : List Glyph) : Prop :=
  ∀ glyph ∈ glyphs, glyph.is '<' = false ∧ glyph.is '\x00' = false

variable {glyphs : List Glyph}

theorem untilTag_of_untagged (untagged : Untagged glyphs) :
    Lexer.untilTag glyphs = (glyphs, []) := by
  induction glyphs with
  | nil => rfl
  | cons glyph rest ih =>
      have onward := ih fun other member => untagged other (List.mem_cons_of_mem _ member)
      have noTag := (untagged glyph List.mem_cons_self).1
      simp [Lexer.untilTag, noTag, onward]

/-- Plain text is one token. -/
theorem tokens_of_untagged (untagged : Untagged glyphs) :
    tokens glyphs = if glyphs = [] then [] else [⟨.text, [], glyphs, 0⟩] := by
  have readable : Lexer.cut (fun glyph => !glyph.is '\x00') glyphs = (glyphs, []) := by
    have all : ∀ glyph ∈ glyphs, (!glyph.is '\x00') = true := fun glyph member => by
      simp [(untagged glyph member).2]
    rw [Lexer.cut, List.takeWhile_eq_self_iff.mpr all, List.dropWhile_eq_nil_iff.mpr all]
  rw [tokens, readable]
  simp only [Lexer.sourceTokens, untilTag_of_untagged untagged, List.isEmpty_iff]
  split <;> rfl

/-- The tree of plain text has one leaf. -/
theorem treeOfTokens_text (text : List Glyph) :
    treeOfTokens [⟨.text, [], text, 0⟩] =
      .ofKind .program [.ofToken .text ⟨.text, [], text, 0⟩] := rfl

/-- **A source without a tag is sound, and makes no call.** -/
theorem sound_of_untagged {source : List UInt8} (untagged : Untagged (Glyph.decode source)) :
    (tree source).hasFault = false ∧ callsInPreOrder (tree source) = [] := by
  rw [tree, tokens_of_untagged untagged]
  split
  · exact ⟨rfl, rfl⟩
  · rw [treeOfTokens_text]
    exact ⟨rfl, rfl⟩

end TimeoutAudit.Php
