import TimeoutAudit.Yaml.Token

/-!
# Scalars

How the four ways of writing a scalar are read.  Line breaks inside a plain or
quoted scalar are folded: one of them is a space, and of several the first is
dropped.

Loops take the characters of a text as steps, since every round reads one.
-/

set_option autoImplicit false

namespace TimeoutAudit.Yaml

/-- A scalar with the text behind it. -/
structure ScannedScalar where
  value : List Char
  stop : Mark
  text : Text
  /-- Whether a line break was read at the end. -/
  brokenOff : Bool

namespace Scalar

/-! ## Gaps between words -/

/-- Blanks and line breaks between two words of a scalar. -/
structure Gap where
  spaces : List Char
  /-- The first line break. -/
  lead : List Char
  /-- Further line breaks. -/
  trail : List Char
  broken : Bool

namespace Gap

def none : Gap := ⟨[], [], [], false⟩

/-- What a gap contributes to the scalar. -/
def folded (gap : Gap) : List Char :=
  if gap.broken then
    if gap.lead == ['\n'] then (if gap.trail.isEmpty then [' '] else gap.trail)
    else gap.lead ++ gap.trail
  else gap.spaces

end Gap

/-- Reads a gap.  Where an indentation is given, no tab may take its place;
the steps bound the number of characters. -/
def readGap (indent : Option Int) : List Char → Gap → Text → Except Mark (Gap × Text)
  | [], gap, text => .ok (gap, text)
  | _ :: steps, gap, text =>
    match text.rest.head? with
    | none => .ok (gap, text)
    | some c =>
      if isBlank c then
        if gap.broken && c == '\t'
            && (indent.any fun wanted => (text.mark.column : Int) < wanted) then .error text.mark
        else if gap.broken then readGap indent steps gap (text.skip 1)
        else readGap indent steps { gap with spaces := gap.spaces ++ [c] } (text.skip 1)
      else if isBreak c then
        let next : Gap :=
          if gap.broken then { gap with trail := gap.trail ++ text.breakText }
          else ⟨[], text.breakText, [], true⟩
        readGap indent steps next text.skipBreak
      else .ok (gap, text)

/-! ## Plain scalars -/

/-- Characters that may not follow a colon inside brackets. -/
def refusedAfterColon (c : Char) : Bool := [',', '?', '[', ']', '{', '}'].contains c

/-- The word at the front of a plain scalar, and whether it ends at a colon that
may not stand there. -/
def plainWord (inFlow : Bool) : List Char → List Char × Bool
  | [] => ([], false)
  | c :: rest =>
    if isBlank c || isBreak c then ([], false)
    else if inFlow && c == ':' && rest.head?.any refusedAfterColon then ([], true)
    else if (c == ':' && endsWord rest.head?)
        || (inFlow && [',', '[', ']', '{', '}'].contains c) then ([], false)
    else
      let (word, refused) := plainWord inFlow rest
      (c :: word, refused)

/-- Reads a plain scalar, given what has been read of it. -/
def readPlain (inFlow : Bool) (indent : Int) (start : Mark) :
    List Char → ScannedScalar → Gap → Except Problem ScannedScalar
  | [], scanned, _ => .ok scanned
  | _ :: steps, scanned, gap =>
    let text := scanned.text
    if text.atDocumentMark || text.isAt '#' then .ok { scanned with brokenOff := gap.broken }
    else
      let (word, refused) := plainWord inFlow text.rest
      let after := text.skip word.length
      let grown : ScannedScalar :=
        if word.isEmpty then { scanned with brokenOff := gap.broken }
        else ⟨scanned.value ++ gap.folded ++ word, after.mark, after, false⟩
      if refused then .error ⟨.colonInFlow, after.mark, some (.plainScalar, start)⟩
      else if !(after.rest.head?.any fun c => isBlank c || isBreak c) then .ok grown
      else
        match readGap (some indent) after.rest (if word.isEmpty then gap else .none) after with
        | .error mark => .error ⟨.tabInScalar, mark, some (.plainScalar, start)⟩
        | .ok (next, beyond) =>
          let moved := { grown with text := beyond, brokenOff := next.broken }
          if !inFlow && (beyond.mark.column : Int) < indent then .ok moved
          else readPlain inFlow indent start steps moved next

/-- The plain scalar at the front. -/
def plain (inFlow : Bool) (indent : Int) (text : Text) : Except Problem ScannedScalar :=
  readPlain inFlow indent text.mark text.rest ⟨[], text.mark, text, false⟩ .none

/-! ## Quoted scalars -/

/-- Escapes of one letter. -/
def letterEscapes : List (Char × Char) :=
  [('0', '\x00'), ('a', '\x07'), ('b', '\x08'), ('t', '\t'), ('\t', '\t'), ('n', '\n'),
    ('v', '\x0b'), ('f', '\x0c'), ('r', '\r'), ('e', '\x1b'), (' ', ' '), ('"', '"'), ('/', '/'),
    ('\\', '\\'), ('N', '\u0085'), ('_', '\u00A0'), ('L', '\u2028'), ('P', '\u2029')]

/-- Escapes with a number, and how many digits it has. -/
def numberEscapes : List (Char × Nat) := [('x', 2), ('u', 4), ('U', 8)]

/-- The value of a hexadecimal digit. -/
def hexValue? (c : Char) : Option Nat :=
  if '0' ≤ c && c ≤ '9' then some (c.toNat - 48)
  else if 'a' ≤ c && c ≤ 'f' then some (c.toNat - 87)
  else if 'A' ≤ c && c ≤ 'F' then some (c.toNat - 55)
  else none

/-- The number written with the given hexadecimal digits. -/
def hexNumber? (digits : List Char) : Option Nat :=
  digits.foldl (fun value c => value.bind fun known => (hexValue? c).map (known * 16 + ·)) (some 0)

/-- The escape at the front: the character it denotes and the text behind it. -/
def escape (start : Mark) (text : Text) : Except Problem (Char × Text) :=
  let problem (cause : Cause) (mark : Mark) : Except Problem (Char × Text) :=
    .error ⟨cause, mark, some (.quotedEscape, start)⟩
  match text.ahead? 1 with
  | none => problem .unknownEscape text.mark
  | some letter =>
    match letterEscapes.lookup letter, numberEscapes.lookup letter with
    | some denoted, _ => .ok (denoted, text.skip 2)
    | none, some length =>
      let digits := text.skip 2
      let written := digits.rest.take length
      match (if written.length == length then hexNumber? written else none) with
      | none => problem .missingHexadecimal digits.mark
      | some value =>
        if (0xD800 ≤ value && value ≤ 0xDFFF) || 0x10FFFF < value then
          problem .invalidCodePoint digits.mark
        else .ok (Char.ofNat value, digits.skip length)
    | none, none => problem .unknownEscape text.mark

/-- The characters of a quoted scalar up to a blank, a line break or its end, and
whether an escaped line break ended them. -/
def quotedWord (quote : Char) (start : Mark) :
    List Char → List Char → Text → Except Problem (List Char × Text × Bool)
  | [], word, text => .ok (word, text, false)
  | _ :: steps, word, text =>
    match text.rest with
    | [] => .ok (word, text, false)
    | c :: rest =>
      if isBlank c || isBreak c then .ok (word, text, false)
      else if c == quote && quote == '\'' && rest.head? == some '\'' then
        quotedWord quote start steps (word ++ ['\'']) (text.skip 2)
      else if c == quote then .ok (word, text, false)
      else if quote == '"' && c == '\\' then
        if rest.head?.any isBreak then .ok (word, (text.skip 1).skipBreak, true)
        else
          match escape start text with
          | .error problem => .error problem
          | .ok (denoted, after) => quotedWord quote start steps (word ++ [denoted]) after
      else quotedWord quote start steps (word ++ [c]) (text.skip 1)

/-- Reads a quoted scalar, given what has been read of it. -/
def readQuoted (quote : Char) (start : Mark) :
    List Char → List Char → Text → Except Problem ScannedScalar
  | [], _, text => .error ⟨.endInQuotes, text.mark, some (.quotedScalar, start)⟩
  | _ :: steps, value, text =>
    if text.atDocumentMark then .error ⟨.documentInQuotes, text.mark, some (.quotedScalar, start)⟩
    else if text.rest.isEmpty then .error ⟨.endInQuotes, text.mark, some (.quotedScalar, start)⟩
    else
      match quotedWord quote start text.rest [] text with
      | .error problem => .error problem
      | .ok (word, after, escapedBreak) =>
        if after.isAt quote then
          let closed := after.skip 1
          .ok ⟨value ++ word, closed.mark, closed, false⟩
        else
          match readGap .none after.rest ⟨[], [], [], escapedBreak⟩ after with
          | .error mark => .error ⟨.tabInScalar, mark, some (.quotedScalar, start)⟩
          | .ok (gap, beyond) => readQuoted quote start steps (value ++ word ++ gap.folded) beyond

/-- The quoted scalar at the front. -/
def quoted (quote : Char) (text : Text) : Except Problem ScannedScalar :=
  readQuoted quote text.mark text.rest [] (text.skip 1)

/-! ## Block scalars -/

/-- The breaks in front of the next line of a block scalar. -/
structure Breaks where
  text : Text
  breaks : List Char
  /-- The end of the last line that was not empty. -/
  stop : Mark
  /-- The widest indentation seen. -/
  widest : Nat

/-- Reads indentation and empty lines; an indentation of zero is not known yet. -/
def readBreaks (indent : Nat) : List Char → Breaks → Except Mark Breaks
  | [], state => .ok state
  | _ :: steps, state =>
    let room := if indent == 0 then state.text.rest.length else indent - state.text.mark.column
    let spaces := ((state.text.rest.take room).takeWhile (· == ' ')).length
    let text := state.text.skip spaces
    let widest := max state.widest text.mark.column
    if (indent == 0 || text.mark.column < indent) && text.isAt '\t' then .error text.mark
    else if text.rest.head?.any isBreak then
      let after := text.skipBreak
      readBreaks indent steps ⟨after, state.breaks ++ text.breakText, after.mark, widest⟩
    else .ok { state with text := text, widest := widest }

/-- What a block scalar has gathered. -/
structure BlockState where
  value : List Char
  /-- The break behind the last line. -/
  lead : List Char
  /-- Breaks of empty lines behind it. -/
  trail : List Char
  /-- Whether the last line started with a blank. -/
  leadBlank : Bool
  text : Text
  stop : Mark

/-- Reads the lines of a block scalar. -/
def readBlockLines (folded : Bool) (indent : Nat) : List Char → BlockState → Except Mark BlockState
  | [], state => .ok state
  | _ :: steps, state =>
    if state.text.mark.column != indent || state.text.rest.isEmpty then .ok state
    else
      let blank := state.text.rest.head?.any isBlank
      let joint :=
        if folded && state.lead == ['\n'] && !state.leadBlank && !blank then
          (if state.trail.isEmpty then [' '] else [])
        else state.lead
      let line := state.text.rest.takeWhile fun c => !isBreak c
      let behind := state.text.skip line.length
      let after := behind.skipBreak
      match readBreaks indent after.rest ⟨after, [], after.mark, 0⟩ with
      | .error mark => .error mark
      | .ok found =>
        readBlockLines folded indent steps {
          value := state.value ++ joint ++ state.trail ++ line
          lead := behind.breakText
          trail := found.breaks
          leadBlank := blank
          text := found.text
          stop := found.stop }

/-- The header of a block scalar: how its end is kept, and its indentation. -/
structure Header where
  keepAll : Bool
  stripAll : Bool
  increment : Nat
  text : Text

/-- Reads a sign that says how the end is kept. -/
def readChomping (header : Header) : Header :=
  if header.text.isAt '+' then { header with keepAll := true, text := header.text.skip 1 }
  else if header.text.isAt '-' then { header with stripAll := true, text := header.text.skip 1 }
  else header

/-- Reads a digit for the indentation. -/
def readIncrement (start : Mark) (header : Header) : Except Problem Header :=
  match header.text.rest.head? with
  | some c =>
    if c == '0' then .error ⟨.zeroIndent, header.text.mark, some (.blockScalar, start)⟩
    else if '1' ≤ c && c ≤ '9' then
      .ok { header with increment := c.toNat - 48, text := header.text.skip 1 }
    else .ok header
  | none => .ok header

/-- Reads the header, whose two parts may come in either order. -/
def readHeader (start : Mark) (text : Text) : Except Problem Header :=
  let signed := readChomping ⟨false, false, 0, text⟩
  match readIncrement start signed with
  | .error problem => .error problem
  | .ok header => .ok (if signed.keepAll || signed.stripAll then header
      else if header.increment == 0 then header else readChomping header)

/-- The block scalar at the front, inside a block of the given indentation. -/
def block (folded : Bool) (parentIndent : Int) (text : Text) : Except Problem ScannedScalar :=
  let start := text.mark
  let problem (cause : Cause) (mark : Mark) : Except Problem ScannedScalar :=
    .error ⟨cause, mark, some (.blockScalar, start)⟩
  match readHeader start (text.skip 1) with
  | .error found => .error found
  | .ok header =>
    let lineEnd := header.text.skipToLineEnd
    if !endsLine lineEnd.rest.head? then problem .missingLineEnd lineEnd.mark
    else
      let body := if lineEnd.rest.isEmpty then lineEnd else lineEnd.skipBreak
      let given : Nat :=
        if header.increment == 0 then 0
        else if 0 ≤ parentIndent then parentIndent.toNat + header.increment
        else header.increment
      match readBreaks given body.rest ⟨body, [], body.mark, 0⟩ with
      | .error mark => problem .tabIndent mark
      | .ok found =>
        let indent := if given != 0 then given else max (max found.widest (parentIndent + 1).toNat) 1
        match readBlockLines folded indent body.rest
            ⟨[], [], found.breaks, false, found.text, found.stop⟩ with
        | .error mark => problem .tabIndent mark
        | .ok state =>
          let value := state.value ++ (if header.stripAll then [] else state.lead)
            ++ (if header.keepAll then state.trail else [])
          .ok ⟨value, state.stop, state.text, false⟩

end Scalar

end TimeoutAudit.Yaml
