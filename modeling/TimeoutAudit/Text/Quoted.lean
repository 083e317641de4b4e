import TimeoutAudit.Text.Unprintable

/-!
# Quoted text

Text between double quotes, in which every character can be told from every
other: quotation marks, backslashes and unprintable characters are escaped.
-/

set_option autoImplicit false

namespace TimeoutAudit.Text

/-- A character inside quoted text. -/
def quotedChar (c : Char) : List Char :=
  match c with
  | '\x00' => ['\\', '0']
  | '\t' => ['\\', 't']
  | '\n' => ['\\', 'n']
  | '\r' => ['\\', 'r']
  | '"' => ['\\', '"']
  | '\\' => ['\\', '\\']
  | _ =>
    if isUnprintable c then ['\\', 'u', '{'] ++ Nat.toDigits 16 c.toNat ++ ['}'] else [c]

/-- Text between double quotes. -/
def quoted (text : String) : String :=
  String.ofList ('"' :: text.toList.flatMap quotedChar ++ ['"'])

end TimeoutAudit.Text
