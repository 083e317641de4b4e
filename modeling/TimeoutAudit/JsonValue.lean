/-!
# JSON values and their text

A value is written over several lines, every level indented by two more spaces.
Only quotation marks, backslashes and control characters are escaped.
-/

set_option autoImplicit false

namespace TimeoutAudit

/-- A JSON value, as far as reports have them. -/
inductive JsonValue where
  | number (value : Nat)
  | text (value : String)
  | array (items : List JsonValue)
  | object (fields : List (String × JsonValue))
deriving Repr, Inhabited

namespace JsonValue

/-- A character inside a quoted text. -/
def escapedChar (c : Char) : List Char :=
  match c with
  | '"' => ['\\', '"']
  | '\\' => ['\\', '\\']
  | '\x08' => ['\\', 'b']
  | '\x0c' => ['\\', 'f']
  | '\n' => ['\\', 'n']
  | '\r' => ['\\', 'r']
  | '\t' => ['\\', 't']
  | _ =>
    if c.toNat < 32 then
      let digits := Nat.toDigits 16 c.toNat
      ['\\', 'u'] ++ List.replicate (4 - digits.length) '0' ++ digits
    else [c]

/-- A text between quotation marks. -/
def quoted (text : String) : List Char := '"' :: text.toList.flatMap escapedChar ++ ['"']

/-- A line break and the indentation of a level. -/
def newLine (level : Nat) : List Char := '\n' :: List.replicate (2 * level) ' '

mutual
/-- The text of a value whose first line stands at a level. -/
def textAt (level : Nat) : JsonValue → List Char
  | number value => Nat.toDigits 10 value
  | text value => quoted value
  | array [] => ['[', ']']
  | array (first :: rest) =>
    '[' :: newLine (level + 1) ++ first.textAt (level + 1) ++ itemsText level rest
      ++ newLine level ++ [']']
  | object [] => ['{', '}']
  | object ((name, value) :: rest) =>
    '{' :: newLine (level + 1) ++ quoted name ++ [':', ' '] ++ value.textAt (level + 1)
      ++ fieldsText level rest ++ newLine level ++ ['}']

/-- The text of the items behind the first one. -/
def itemsText (level : Nat) : List JsonValue → List Char
  | [] => []
  | item :: rest => ',' :: newLine (level + 1) ++ item.textAt (level + 1) ++ itemsText level rest

/-- The text of the fields behind the first one. -/
def fieldsText (level : Nat) : List (String × JsonValue) → List Char
  | [] => []
  | (name, value) :: rest =>
    ',' :: newLine (level + 1) ++ quoted name ++ [':', ' '] ++ value.textAt (level + 1)
      ++ fieldsText level rest
end

/-- The text of a value. -/
def render (value : JsonValue) : String := String.ofList (value.textAt 0)

end JsonValue

end TimeoutAudit
