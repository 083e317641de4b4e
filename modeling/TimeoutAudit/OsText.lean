import TimeoutAudit.Text.Glyph

/-!
# Names and paths as the system has them

For the system the name of a file is a string of bytes, which need not be UTF-8.  A
text stands for its bytes wherever a name or a path is wanted.  The other way round
there are two readings, those of `Glyph`: `text?` gives a text only where the bytes
are one, and `decodeLossy` can show any name.
-/

set_option autoImplicit false

namespace TimeoutAudit

/-- The bytes of a text in UTF-8. -/
def Text.bytes (text : String) : List UInt8 := text.toUTF8.data.toList

/-- A name or a path as the system has it. -/
abbrev OsText := List UInt8

instance : Coe String OsText := ⟨Text.bytes⟩

instance : Coe (List String) (List OsText) := ⟨List.map Text.bytes⟩

/-- The text of a name, if its bytes are one. -/
def OsText.text? (name : OsText) : Option String := Glyph.text? (Glyph.decode name)

end TimeoutAudit
