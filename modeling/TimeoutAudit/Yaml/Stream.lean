import TimeoutAudit.Yaml.Tag

/-!
# The tokens of a YAML text

Blocks are marked by indentation, and a mapping key is recognised only by the
colon behind it.  So the scanner remembers where a key may have begun, holds back
the tokens from there on, and inserts the token of the key once the colon is
seen.  `Stream.ofText` gives the tokens that were released, and the problem that
stopped the scanner if there was one.
-/

set_option autoImplicit false

namespace TimeoutAudit.Yaml

/-- A place where a key may have begun. -/
structure KeyPlace where
  /-- Whether nothing but a key may stand there. -/
  required : Bool
  /-- The number of the token that would be the key. -/
  number : Nat
  mark : Mark

namespace KeyPlace

/-- Gives up a place; a key that had to come is missed. -/
def giveUp (place : KeyPlace) (here : Mark) : Except Problem (Option KeyPlace) :=
  if place.required then .error ⟨.missingColon, here, some (.simpleKey, place.mark)⟩
  else .ok none

/-- Whether a key that began at a place would end on another line or too far away. -/
def isStale (place : KeyPlace) (here : Mark) : Bool :=
  place.mark.line < here.line || place.mark.index + 1024 < here.index

end KeyPlace

/-- What a scanner knows. -/
structure Scanner where
  text : Text
  /-- Tokens that are read and not yet released. -/
  queue : List Token
  /-- How many tokens are released. -/
  released : Nat
  /-- The column of the innermost block, -1 outside of all blocks. -/
  indent : Int
  /-- The columns of the blocks around it. -/
  indents : List Int
  /-- Whether a key may begin here. -/
  keyAllowed : Bool
  /-- Where a key may have begun inside the innermost bracket. -/
  key : Option KeyPlace
  /-- The same for the brackets around it. -/
  outerKeys : List (Option KeyPlace)
  finished : Bool

namespace Scanner

/-- The scanner at the start of a text. -/
def ofText (text : List Char) : Scanner where
  text := ⟨text, .start⟩
  queue := []
  released := 0
  indent := -1
  indents := []
  keyAllowed := true
  key := none
  outerKeys := []
  finished := false

/-- Whether the scanner is inside brackets. -/
def inFlow (scanner : Scanner) : Bool := !scanner.outerKeys.isEmpty

def mark (scanner : Scanner) : Mark := scanner.text.mark

/-- Adds a token that ends where the given text starts. -/
def emit (scanner : Scanner) (kind : TokenKind) (after : Text) : Scanner :=
  { scanner with
    queue := scanner.queue ++ [⟨kind, scanner.mark, after.mark⟩]
    text := after }

/-! ## Indentation -/

/-- The ends of the blocks that stand to the right of a column, the column of the
block that is left, and the columns around it. -/
def closedBlocks (mark : Mark) (column : Int) : Int → List Int → List Token × Int × List Int
  | indent, [] => ([], indent, [])
  | indent, outer :: rest =>
    if column < indent then
      let (ends, left, around) := closedBlocks mark column outer rest
      (⟨.blockEnd, mark, mark⟩ :: ends, left, around)
    else ([], indent, outer :: rest)

/-- Closes the blocks to the right of a column; brackets keep blocks open. -/
def unroll (scanner : Scanner) (column : Int) : Scanner :=
  if scanner.inFlow then scanner
  else
    let (ends, indent, indents) := closedBlocks scanner.mark column scanner.indent scanner.indents
    { scanner with queue := scanner.queue ++ ends, indent := indent, indents := indents }

/-- Opens a block at a column if it stands to the right of the innermost one.  The
token of its beginning is put in front of the token with the given number. -/
def roll (scanner : Scanner) (kind : TokenKind) (mark : Mark) (number : Nat) : Scanner :=
  if scanner.inFlow || (mark.column : Int) ≤ scanner.indent then scanner
  else
    let position := number - scanner.released
    { scanner with
      queue := scanner.queue.take position ++ ⟨kind, mark, mark⟩ :: scanner.queue.drop position
      indent := mark.column
      indents := scanner.indent :: scanner.indents }

/-- The number of the next token. -/
def nextNumber (scanner : Scanner) : Nat := scanner.released + scanner.queue.length

/-- Opens a block here. -/
def rollHere (scanner : Scanner) (kind : TokenKind) : Scanner :=
  scanner.roll kind scanner.mark scanner.nextNumber

/-! ## Places of keys -/

/-- Gives up a place that has become stale. -/
def refreshed (here : Mark) : Option KeyPlace → Except Problem (Option KeyPlace)
  | none => .ok none
  | some place => if place.isStale here then place.giveUp here else .ok (some place)

/-- Gives up all places that have become stale. -/
def dropStale (scanner : Scanner) : Except Problem Scanner := do
  let outer ← scanner.outerKeys.mapM (refreshed scanner.mark)
  let inner ← refreshed scanner.mark scanner.key
  return { scanner with key := inner, outerKeys := outer }

/-- Gives up the innermost place. -/
def dropKey (scanner : Scanner) : Except Problem Scanner := do
  let left ← match scanner.key with
    | none => .ok none
    | some place => place.giveUp scanner.mark
  return { scanner with key := left }

/-- Remembers that a key may begin here. -/
def saveKey (scanner : Scanner) : Except Problem Scanner :=
  if scanner.keyAllowed then do
    let dropped ← scanner.dropKey
    let required := !scanner.inFlow && scanner.indent == scanner.mark.column
    return { dropped with key := some ⟨required, scanner.nextNumber, scanner.mark⟩ }
  else .ok scanner

/-! ## Between tokens -/

/-- Past blanks, comments and line breaks.  A tab may not indent a place where a
key may begin, and behind a line break a key may begin again. -/
def skipGaps : List Char → Scanner → Scanner
  | [], scanner => scanner
  | _ :: steps, scanner =>
    let unmarked :=
      if scanner.mark.index == 0 && scanner.text.isAt '\uFEFF' then scanner.text.skip 1
      else scanner.text
    let tabs := scanner.inFlow || !scanner.keyAllowed
    let unblanked := unmarked.skipWhile fun c => c == ' ' || (tabs && c == '\t')
    let behind :=
      if unblanked.isAt '#' then unblanked.skipWhile fun c => !isBreak c else unblanked
    if behind.rest.head?.any isBreak then
      skipGaps steps { scanner with
        text := behind.skipBreak
        keyAllowed := scanner.keyAllowed || !scanner.inFlow }
    else { scanner with text := behind }

/-! ## Kinds of tokens -/

/-- The end of the text, which counts as a line of its own. -/
def atEnd (scanner : Scanner) : Except Problem Scanner := do
  let here := scanner.mark
  let last : Mark := if here.column == 0 then here else ⟨here.index, here.line + 1, 0⟩
  let closed := Scanner.unroll { scanner with text := ⟨[], last⟩ } (-1)
  let dropped ← closed.dropKey
  return { dropped.emit .streamEnd dropped.text with keyAllowed := false, finished := true }

/-- A line that stands outside of all blocks. -/
def outsideBlocks (scanner : Scanner) : Except Problem Scanner := do
  let dropped ← (scanner.unroll (-1)).dropKey
  return { dropped with keyAllowed := false }

def atDirective (scanner : Scanner) : Except Problem Scanner := do
  let outside ← scanner.outsideBlocks
  let (kind, stop, after) ← Tag.directive outside.text
  return { outside with
    queue := outside.queue ++ [⟨kind, outside.mark, stop⟩]
    text := after }

def atDocumentMark (scanner : Scanner) (kind : TokenKind) : Except Problem Scanner := do
  let outside ← scanner.outsideBlocks
  return outside.emit kind (outside.text.skip 3)

def atOpening (scanner : Scanner) (kind : TokenKind) : Except Problem Scanner := do
  let saved ← scanner.saveKey
  return { saved.emit kind (saved.text.skip 1) with
    key := none
    outerKeys := saved.key :: saved.outerKeys
    keyAllowed := true }

def atClosing (scanner : Scanner) (kind : TokenKind) : Except Problem Scanner := do
  let dropped ← scanner.dropKey
  let after := { dropped.emit kind (dropped.text.skip 1) with keyAllowed := false }
  match dropped.outerKeys with
  | [] => return after
  | key :: rest => return { after with key := key, outerKeys := rest }

def atFlowEntry (scanner : Scanner) : Except Problem Scanner := do
  let dropped ← scanner.dropKey
  return { dropped.emit .flowEntry (dropped.text.skip 1) with keyAllowed := true }

def atBlockEntry (scanner : Scanner) : Except Problem Scanner := do
  if !scanner.inFlow && !scanner.keyAllowed then
    .error ⟨.sequenceNotAllowed, scanner.mark, none⟩
  else
    let dropped ← (scanner.rollHere .blockSequenceStart).dropKey
    return { dropped.emit .blockEntry (dropped.text.skip 1) with keyAllowed := true }

def atKey (scanner : Scanner) : Except Problem Scanner := do
  if !scanner.inFlow && !scanner.keyAllowed then .error ⟨.keyNotAllowed, scanner.mark, none⟩
  else
    let dropped ← (scanner.rollHere .blockMappingStart).dropKey
    return { dropped.emit .key (dropped.text.skip 1) with keyAllowed := !scanner.inFlow }

def atValue (scanner : Scanner) : Except Problem Scanner :=
  match scanner.key with
  | some place =>
    let position := place.number - scanner.released
    let keyed : Scanner := { scanner with
      queue := scanner.queue.take position ++ ⟨.key, place.mark, place.mark⟩
        :: scanner.queue.drop position
      key := none
      keyAllowed := false }
    let rolled := keyed.roll .blockMappingStart place.mark place.number
    .ok (rolled.emit .value (rolled.text.skip 1))
  | none =>
    if !scanner.inFlow && !scanner.keyAllowed then .error ⟨.valueNotAllowed, scanner.mark, none⟩
    else
      let rolled := scanner.rollHere .blockMappingStart
      .ok { rolled.emit .value (rolled.text.skip 1) with keyAllowed := !scanner.inFlow }

def atAnchor (scanner : Scanner) (context : Context) (kind : List Char → TokenKind) :
    Except Problem Scanner := do
  let saved ← scanner.saveKey
  let (name, after) ← Tag.anchorName context saved.text
  return { saved.emit (kind name) after with keyAllowed := false }

def atTag (scanner : Scanner) : Except Problem Scanner := do
  let saved ← scanner.saveKey
  let (handle, tail, after) ← Tag.read saved.inFlow saved.text
  return { saved.emit (.tag handle tail) after with keyAllowed := false }

/-- Adds a scalar, which may end before the text behind it starts. -/
def emitScalar (scanner : Scanner) (style : Style) (scanned : ScannedScalar) : Scanner :=
  { scanner with
    queue := scanner.queue ++ [⟨.scalar scanned.value style, scanner.mark, scanned.stop⟩]
    text := scanned.text }

def atBlockScalar (scanner : Scanner) (folded : Bool) : Except Problem Scanner := do
  let dropped ← scanner.dropKey
  let scanned ← Scalar.block folded dropped.indent dropped.text
  return { dropped.emitScalar (if folded then .folded else .literal) scanned with
    keyAllowed := true }

def atQuoted (scanner : Scanner) (quote : Char) (style : Style) : Except Problem Scanner := do
  let saved ← scanner.saveKey
  let scanned ← Scalar.quoted quote saved.text
  return { saved.emitScalar style scanned with keyAllowed := false }

def atPlain (scanner : Scanner) : Except Problem Scanner := do
  let saved ← scanner.saveKey
  let scanned ← Scalar.plain saved.inFlow (saved.indent + 1) saved.text
  return { saved.emitScalar .plain scanned with keyAllowed := scanned.brokenOff }

/-- Characters that start no plain scalar. -/
def isIndicator (c : Char) : Bool :=
  ['-', '?', ':', ',', '[', ']', '{', '}', '#', '&', '*', '!', '|', '>', '\'', '"', '%', '@',
    '\x60'].contains c

/-- Whether a plain scalar starts with a character before another one.  A hyphen
may start one, and outside of brackets so may a colon or a question mark, where a
word goes on behind it. -/
def startsPlain (inFlow : Bool) (c : Char) (next : Option Char) : Bool :=
  !(isBlank c || isBreak c || isIndicator c)
    || (c == '-' && !next.any isBlank)
    || (!inFlow && (c == '?' || c == ':') && !endsWord next)

/-- Reads the token at the front. -/
def readToken (scanner : Scanner) : Except Problem Scanner :=
  let text := scanner.text
  match text.rest with
  | [] => scanner.atEnd
  | c :: rest =>
    let next := rest.head?
    let flow := scanner.inFlow
    if text.mark.column == 0 && c == '%' then scanner.atDirective
    else if text.atDocumentMark then
      scanner.atDocumentMark (if c == '-' then .documentStart else .documentEnd)
    else if c == '[' then scanner.atOpening .flowSequenceStart
    else if c == '{' then scanner.atOpening .flowMappingStart
    else if c == ']' then scanner.atClosing .flowSequenceEnd
    else if c == '}' then scanner.atClosing .flowMappingEnd
    else if c == ',' then scanner.atFlowEntry
    else if c == '-' && endsWord next then scanner.atBlockEntry
    else if c == '?' && (flow || endsWord next) then scanner.atKey
    else if c == ':' && (flow || endsWord next) then scanner.atValue
    else if c == '*' then scanner.atAnchor .alias .alias
    else if c == '&' then scanner.atAnchor .anchor .anchor
    else if c == '!' then scanner.atTag
    else if c == '|' && !flow then scanner.atBlockScalar false
    else if c == '>' && !flow then scanner.atBlockScalar true
    else if c == '\'' then scanner.atQuoted '\'' .singleQuoted
    else if c == '"' then scanner.atQuoted '"' .doubleQuoted
    else if startsPlain flow c next then scanner.atPlain
    else .error ⟨.unknownCharacter, text.mark, some (.nextToken, text.mark)⟩

/-- Reads the next token, with the ends of the blocks in front of it. -/
def fetch (scanner : Scanner) : Except Problem Scanner := do
  let here := skipGaps scanner.text.rest scanner
  let fresh ← here.dropStale
  (fresh.unroll fresh.mark.column).readToken

/-- Whether the first token may still turn out to be a key. -/
def isHeld (scanner : Scanner) : Bool :=
  (scanner.key :: scanner.outerKeys).any fun key =>
    key.any fun place => place.number == scanner.released

/-- The first token, if it will not turn out to be a key, and the scanner behind it. -/
def release (scanner : Scanner) : Except Problem (Option (Token × Scanner)) :=
  match scanner.queue with
  | [] => .ok none
  | token :: rest => do
    let fresh ← scanner.dropStale
    if fresh.isHeld then return none
    else return some (token, { fresh with queue := rest, released := fresh.released + 1 })

end Scanner

/-- The tokens of a text, and the problem that keeps further ones from being read. -/
structure Stream where
  tokens : List Token
  problem : Option Problem

namespace Stream

/-- Releases tokens and reads further ones in turn.  The fuel bounds the steps. -/
def run : Nat → Scanner → Stream
  | 0, _ => ⟨[], none⟩
  | fuel + 1, scanner =>
    match scanner.release with
    | .error problem => ⟨[], some problem⟩
    | .ok (some (token, after)) =>
      let further := run fuel after
      ⟨token :: further.tokens, further.problem⟩
    | .ok none =>
      if scanner.finished then ⟨[], none⟩
      else
        match scanner.fetch with
        | .error problem => ⟨[], some problem⟩
        | .ok fetched => run fuel fetched

/-- The place of the first character that may not stand in a text, as the number of
bytes in front of it. -/
def firstRefused? : Nat → List Char → Option Nat
  | _, [] => none
  | index, c :: rest =>
    if isAllowed c then firstRefused? (index + c.utf8Size) rest else some index

/-- The tokens of a text.  Every character gives rise to a bounded number of steps. -/
def ofText (text : List Char) : Stream :=
  match firstRefused? 0 text with
  | some index => ⟨[], some ⟨.controlCharacter, ⟨index, 0, 0⟩, none⟩⟩
  | none => run (8 * text.length + 16) (.ofText text)

end Stream

end TimeoutAudit.Yaml
