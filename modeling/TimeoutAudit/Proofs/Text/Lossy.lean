import TimeoutAudit.Proofs.Text.Glyph

/-!
# Which bytes are shown as a text

Bytes are a text only if they are its encoding (`OsText.text?_eq_some_iff`).  Bytes that are no text
are shown with U+FFFD for every broken run, so many byte strings are shown alike.  A text without
U+FFFD is shown for one byte string only, its own encoding (`Text.decodeLossy_eq_iff`), and what is
shown starts with it only if the bytes do (`Text.bytes_prefix_shown_iff`).
-/

set_option autoImplicit false

namespace TimeoutAudit

theorem decode_eq_ofString_iff {source : List UInt8} {text : String} :
    Glyph.decode source = Glyph.ofString text ↔ source = Text.bytes text := by
  rw [← Glyph.decode_bytes]
  refine ⟨fun same => ?_, congrArg Glyph.decode⟩
  rw [← Glyph.encode_decode source, same, Glyph.encode_decode]

/-- **A name is a text if its bytes are those of the text.** -/
theorem OsText.text?_eq_some_iff {name : OsText} {text : String} :
    name.text? = some text ↔ name = text := by
  rw [text?, Glyph.text?_eq_some_iff, decode_eq_ofString_iff]

namespace Text

/-- The encoding of a text is shown as the text. -/
theorem decodeLossy_bytes (text : String) : decodeLossy (bytes text) = text := by
  rw [decodeLossy, Glyph.decode_bytes, Glyph.display, Glyph.ofString, List.map_map]
  show String.ofList (text.toList.map id) = text
  rw [List.map_id, String.ofList_toList]

theorem bytes_inj {first second : String} : bytes first = bytes second ↔ first = second := by
  refine ⟨fun same => ?_, congrArg bytes⟩
  rw [← decodeLossy_bytes first, same, decodeLossy_bytes]

/-- A glyph that is not shown as U+FFFD is the character that is shown. -/
theorem eq_char_of_shown {glyph : Glyph} (clean : glyph.shown ≠ '\uFFFD') :
    glyph = .char glyph.shown := by
  cases glyph with
  | char value => rfl
  | broken run => exact absurd rfl clean

/-- Glyphs that are shown as a text without U+FFFD are its characters. -/
theorem eq_ofString_of_display {glyphs : List Glyph} {text : String}
    (shown : Glyph.display glyphs = text) (clean : '\uFFFD' ∉ text.toList) :
    glyphs = Glyph.ofString text := by
  subst shown
  rw [Glyph.display, String.toList_ofList] at clean
  rw [Glyph.ofString, Glyph.display, String.toList_ofList, List.map_map]
  calc glyphs = glyphs.map id := (List.map_id glyphs).symm
    _ = glyphs.map (Glyph.char ∘ Glyph.shown) := by
        refine List.map_congr_left fun glyph member => eq_char_of_shown fun replaced => ?_
        exact clean (replaced ▸ List.mem_map_of_mem member)

/-- **A text without U+FFFD is shown for its own encoding only.** -/
theorem decodeLossy_eq_iff {source : List UInt8} {text : String} (clean : '\uFFFD' ∉ text.toList) :
    decodeLossy source = text ↔ source = bytes text := by
  constructor
  · intro shown
    exact decode_eq_ofString_iff.mp (eq_ofString_of_display shown clean)
  · rintro rfl
    exact decodeLossy_bytes text

/-! ## Beginnings -/

/-- Bytes start with those of a text if their glyphs start with its characters. -/
theorem bytes_prefix_iff {source : List UInt8} {text : String} :
    bytes text <+: source ↔ Glyph.ofString text <+: Glyph.decode source := by
  constructor
  · rintro ⟨rest, rfl⟩
    exact ⟨Glyph.decode rest, (Glyph.decode_bytes_append text rest).symm⟩
  · rintro ⟨glyphs, split⟩
    refine ⟨Glyph.encode glyphs, ?_⟩
    rw [← Glyph.encode_decode source, ← split, Glyph.encode_append, ← Glyph.decode_bytes,
      Glyph.encode_decode]

/-- Glyphs are shown with a text without U+FFFD at the front if its characters stand there. -/
theorem ofString_prefix_display_iff {glyphs : List Glyph} {text : String}
    (clean : '\uFFFD' ∉ text.toList) :
    Glyph.ofString text <+: Glyph.ofString (Glyph.display glyphs) ↔
      Glyph.ofString text <+: glyphs := by
  simp only [Glyph.ofString, Glyph.display, String.toList_ofList, List.map_map]
  constructor
  · intro starts
    have taken := List.prefix_iff_eq_take.mp starts
    rw [← List.map_take, ← List.map_map] at taken
    have letters := (List.map_injective_iff.mpr fun _ _ => Glyph.char.inj) taken
    have shown : Glyph.display (glyphs.take (text.toList.map Glyph.char).length) = text := by
      rw [Glyph.display, ← letters, String.ofList_toList]
    have front := eq_ofString_of_display shown clean
    rw [Glyph.ofString] at front
    rw [← front]
    exact List.take_prefix _ _
  · rintro ⟨rest, rfl⟩
    refine ⟨rest.map (Glyph.char ∘ Glyph.shown), ?_⟩
    rw [List.map_append, List.map_map]
    rfl

/-- **What is shown for bytes starts with a text without U+FFFD only if the bytes do.** -/
theorem bytes_prefix_shown_iff {source : List UInt8} {text : String}
    (clean : '\uFFFD' ∉ text.toList) :
    bytes text <+: bytes (decodeLossy source) ↔ bytes text <+: source := by
  rw [bytes_prefix_iff, bytes_prefix_iff, Glyph.decode_bytes, decodeLossy,
    ofString_prefix_display_iff clean]

end Text

end TimeoutAudit
