import TimeoutAudit.Proofs.CommandLine.Init
import TimeoutAudit.Proofs.Glob
import TimeoutAudit.Proofs.Php.PlainText
import TimeoutAudit.Proofs.Php.ScriptReading
import TimeoutAudit.Proofs.Text.Glyph

/-!
# What the template says

The settings file that is written at the start is a text (`Settings.text?_templateBytes`), and the
settings in it are the built-in ones but for the version and the directory of installed packages,
which is left out (`Settings.ofText_template`).  They can be used, and their detectors are the
built-in ones.  Read as a source, the file is plain text (`Settings.untagged_template`).
-/

set_option autoImplicit false

namespace TimeoutAudit

namespace Text

theorem byteArray_toList (array : ByteArray) : array.toList = array.data.toList := by
  have loop (position : Nat) (read : List UInt8) :
      ByteArray.toList.loop array position read =
        read.reverse ++ array.data.toList.drop position := by
    fun_induction ByteArray.toList.loop array position read with
    | case1 position read inside ih =>
        have within : position < array.data.toList.length := by simpa using inside
        rw [ih, List.reverse_cons, List.append_assoc, List.drop_eq_getElem_cons within]
        simp [ByteArray.get!, getElem!_pos array.data position (by simpa using within)]
    | case2 position read outside =>
        rw [List.drop_eq_nil_of_le (by simpa using outside), List.append_nil]
  exact loop 0 []

theorem toUTF8_toList (text : String) : text.toUTF8.toList = bytes text :=
  byteArray_toList text.toUTF8

end Text

namespace Settings

open CommandLine (templateBytes)

/-- The pattern of the directory of installed packages. -/
def packagesPattern : String := "vendor/**"

/-- The settings of the template. -/
def starting : Settings := { version := "1", excludedPaths := [packagesPattern] }

/-- What is computed from the characters of the template: they are not all blank, none of them can
open a tag or end a source, and the settings that they hold. -/
theorem template_computed :
    Text.allBlank templateText = false ∧
      templateText.all (fun c => c != '<' && c != '\x00') = true ∧
      (ofDocument (.ofText templateText)).toOption = some starting := by
  decide +kernel

/-- **The settings of the template** are the built-in ones but for the version and the directory
that is left out. -/
theorem ofText_template : ofText template = .ok starting := by
  obtain ⟨visible, -, read⟩ := template_computed
  have ok {decoded : Except DecodeError Settings} (isSome : decoded.toOption = some starting) :
      decoded = .ok starting := by
    cases decoded with
    | error error => cases isSome
    | ok settings => exact congrArg Except.ok (Option.some.inj isSome)
  rw [ofText, template, String.toList_ofList, visible, if_neg Bool.false_ne_true]
  exact ok read

theorem starting_detectors : starting.detectors = ({} : Settings).detectors := rfl

/-- The tokens of this pattern: plain characters, and `/**` at their end. -/
def packagesTokens : List Glob.Token := "vendor".toList.map .literal ++ [.trailing]

theorem tokens_packagesPattern : Glob.tokens packagesPattern = .ok packagesTokens := rfl

/-- The pattern matches what stands in the directory. -/
theorem matchesPath_packagesTokens_iff (path : OsText) :
    Glob.matchesPath packagesTokens path = true ↔ Text.bytes "vendor/" <+: path := by
  have directory : "vendor".toList.flatMap String.utf8EncodeChar ++ [0x2F] =
      Text.bytes "vendor/" := by decide +kernel
  have matched := Glob.matchesPath_trailing_iff "vendor".toList path
  rw [directory] at matched
  exact matched

/-- The template leaves out what its one pattern matches. -/
theorem starting_exclusion : starting.exclusion = .ok ⟨[packagesTokens]⟩ := by
  simp only [exclusion, starting, compilePatterns, tokens_packagesPattern]
  rfl

theorem starting_usable : starting.defect? = none := by decide +kernel

theorem decode_templateBytes : Glyph.decode templateBytes = Glyph.ofString template := by
  rw [templateBytes, Text.toUTF8_toList, Glyph.decode_bytes]

/-- The bytes of the template are a text. -/
theorem text?_templateBytes : Glyph.text? (Glyph.decode templateBytes) = some template := by
  rw [decode_templateBytes, Glyph.text?_eq_some_iff.mpr rfl]

/-- Nothing in the template opens a tag. -/
theorem untagged_template : Php.Untagged (Glyph.decode templateBytes) := by
  rw [decode_templateBytes, Glyph.ofString, template, String.toList_ofList]
  intro glyph member
  obtain ⟨c, inside, rfl⟩ := List.mem_map.mp member
  have plain := List.all_eq_true.mp template_computed.2.1 c inside
  simpa [Glyph.is] using plain

end Settings

end TimeoutAudit
