/-!
# Lines

A line feed ends a line.  A carriage return right before it is part of the end
of the line; any other carriage return is part of the line.
-/

set_option autoImplicit false

namespace TimeoutAudit.Text

/-- The parts between line feeds; there is always at least one. -/
def segments : List Char → List (List Char)
  | [] => [[]]
  | c :: rest =>
    if c == '\n' then [] :: segments rest
    else
      match segments rest with
      | [] => [[c]]
      | first :: others => (c :: first) :: others

/-- The text without one carriage return at its end. -/
def dropReturn (line : List Char) : List Char :=
  if line.getLast? == some '\r' then line.dropLast else line

/-- Lines from the parts between line feeds: only the last part was not ended by one. -/
def linesOfSegments : List (List Char) → List (List Char)
  | [] => []
  | [last] => if last.isEmpty then [] else [last]
  | first :: others => dropReturn first :: linesOfSegments others

/-- The lines of a text. -/
def lines (text : List Char) : List (List Char) := linesOfSegments (segments text)

end TimeoutAudit.Text
