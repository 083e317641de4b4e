import TimeoutAudit.Yaml.Scalar

/-!
# Names, tags and directives

The marks that stand in front of a node, and the lines in front of a document.
A tag is a handle and a tail; the directives of a document say what its handles
stand for.
-/

set_option autoImplicit false

namespace TimeoutAudit.Yaml

namespace Tag

/-! ## Names of anchors -/

/-- Characters that may follow the name of an anchor at once. -/
def endsName (next : Option Char) : Bool :=
  endsWord next || next.any (['?', ':', ',', ']', '}', '%', '@', '\x60'].contains ·)

/-- The name behind the mark of an anchor or an alias. -/
def anchorName (context : Context) (text : Text) : Except Problem (List Char × Text) :=
  let name := (text.skip 1).rest.takeWhile isNameChar
  let after := text.skip (1 + name.length)
  if name.isEmpty || !endsName after.rest.head? then
    .error ⟨.missingAnchorName, after.mark, some (context, text.mark)⟩
  else .ok (name, after)

/-! ## Tails of tags -/

/-- Characters of a tag's tail; between angle brackets there may be a few more. -/
def isUriChar (verbatim : Bool) (c : Char) : Bool :=
  isNameChar c
    || [';', '/', '?', ':', '@', '&', '=', '+', '$', '.', '%', '!', '~', '*', '\'', '(', ')'].contains c
    || (verbatim && [',', '[', ']'].contains c)

/-- The octet written behind a percent sign. -/
def octet? (text : Text) : Option Nat :=
  if text.isAt '%' then
    match text.ahead? 1, text.ahead? 2 with
    | some high, some low => do
      let first ← Scalar.hexValue? high
      let second ← Scalar.hexValue? low
      return first * 16 + second
    | _, _ => none
  else none

/-- How many octets the character has that starts with the given one, and what
that octet contributes to it. -/
def lead? (octet : Nat) : Option (Nat × Nat) :=
  if octet < 0x80 then some (1, octet)
  else if 0xC0 ≤ octet && octet < 0xE0 then some (2, octet - 0xC0)
  else if 0xE0 ≤ octet && octet < 0xF0 then some (3, octet - 0xE0)
  else if 0xF0 ≤ octet && octet < 0xF8 then some (4, octet - 0xF0)
  else none

/-- Further octets of a character, given what is known of it. -/
def trailOctets (context : Context × Mark) :
    Nat → Nat → Text → Except Problem (Char × Text)
  | 0, known, text => .ok (Char.ofNat known, text)
  | count + 1, known, text =>
    match octet? text with
    | none => .error ⟨.missingUriEscape, text.mark, some context⟩
    | some octet =>
      if octet < 0x80 || 0xC0 ≤ octet then .error ⟨.wrongTrailOctet, text.mark, some context⟩
      else trailOctets context count (known * 64 + (octet - 0x80)) (text.skip 3)

/-- The character written with percent signs. -/
def escapedChar (context : Context × Mark) (text : Text) : Except Problem (Char × Text) :=
  match octet? text with
  | none => .error ⟨.missingUriEscape, text.mark, some context⟩
  | some octet =>
    match lead? octet with
    | none => .error ⟨.wrongLeadOctet, text.mark, some context⟩
    | some (width, known) => trailOctets context (width - 1) known (text.skip 3)

/-- The tail of a tag, given what has been read of it. -/
def readUri (verbatim : Bool) (context : Context × Mark) :
    List Char → List Char → Text → Except Problem (List Char × Text)
  | [], known, text => .ok (known, text)
  | _ :: steps, known, text =>
    match text.rest.head? with
    | none => .ok (known, text)
    | some c =>
      if !isUriChar verbatim c then .ok (known, text)
      else if c == '%' then do
        let (denoted, after) ← escapedChar context text
        readUri verbatim context steps (known ++ [denoted]) after
      else readUri verbatim context steps (known ++ [c]) (text.skip 1)

/-- The tail of a tag behind a head; without a head it may not be empty. -/
def uri (verbatim : Bool) (context : Context × Mark) (head : List Char) (text : Text) :
    Except Problem (List Char × Text) := do
  let (tail, after) ← readUri verbatim context text.rest (head.drop 1) text
  if head.isEmpty && tail.isEmpty then .error ⟨.missingTagUri, after.mark, some context⟩
  else .ok (tail, after)

/-! ## Tags -/

/-- The handle at the front: an exclamation mark, and a name that another one closes. -/
def handle (text : Text) : List Char × Text :=
  let name := (text.skip 1).rest.takeWhile isNameChar
  let after := text.skip (1 + name.length)
  if after.isAt '!' then ('!' :: name ++ ['!'], after.skip 1) else ('!' :: name, after)

/-- The tag at the front, as its handle and its tail. -/
def read (inFlow : Bool) (text : Text) : Except Problem (List Char × List Char × Text) := do
  let context : Context × Mark := (.tagUri, text.mark)
  let (found, tail, after) ← (do
    if text.ahead? 1 == some '<' then
      let (tail, after) ← uri true context [] (text.skip 2)
      if after.isAt '>' then .ok ([], tail, after.skip 1)
      else .error ⟨.missingTagEnd, after.mark, some (.tag, text.mark)⟩
    else
      let (head, behind) := handle text
      if 2 ≤ head.length && head.getLast? == some '!' then
        let (tail, after) ← uri false context [] behind
        .ok (head, tail, after)
      else
        let (tail, after) ← uri false context head behind
        .ok (if tail.isEmpty then ([], ['!'], after) else (['!'], tail, after))
    : Except Problem (List Char × List Char × Text))
  if endsWord after.rest.head? || (inFlow && after.isAt ',') then .ok (found, tail, after)
  else .error ⟨.missingTagBlank, after.mark, some (.tag, text.mark)⟩

/-! ## Directives -/

/-- A number of a version. -/
def versionNumber (start : Mark) (text : Text) : Except Problem (Nat × Text) :=
  let digits := text.rest.takeWhile Char.isDigit
  if 9 < digits.length then
    .error ⟨.longVersion, (text.skip 9).mark, some (.versionDirective, start)⟩
  else if digits.isEmpty then .error ⟨.missingVersion, text.mark, some (.versionDirective, start)⟩
  else
    .ok (digits.foldl (fun value digit => value * 10 + (digit.toNat - 48)) 0,
      text.skip digits.length)

/-- The two numbers of a version. -/
def version (start : Mark) (text : Text) : Except Problem (TokenKind × Text) := do
  let (major, after) ← versionNumber start (text.skipWhile isBlank)
  if !after.isAt '.' then .error ⟨.missingVersionDot, after.mark, some (.versionDirective, start)⟩
  else
    let (minor, beyond) ← versionNumber start (after.skip 1)
    .ok (.versionDirective major minor, beyond)

/-- A handle and what it stands for. -/
def declaration (start : Mark) (text : Text) : Except Problem (TokenKind × Text) := do
  let front := text.skipWhile isBlank
  if !front.isAt '!' then
    .error ⟨.missingTagHandleMark, front.mark, some (.tagDirectiveHandle, start)⟩
  else
    let (head, after) := handle front
    if 2 ≤ head.length && head.getLast? != some '!' then
      .error ⟨.missingTagHandleMark, after.mark, some (.tagDirectiveHandleEnd, start)⟩
    else if !(after.rest.head?.any isBlank) then
      .error ⟨.missingTagDirectiveBlank, after.mark, some (.tagDirective, start)⟩
    else
      let (expansion, beyond) ← uri true (.tagDirectiveUri, start) [] (after.skipWhile isBlank)
      if endsWord beyond.rest.head? then .ok (.tagDirective head expansion, beyond)
      else .error ⟨.missingTagBlank, beyond.mark, some (.tagDirective, start)⟩

/-- The directive at the front: what it says, where it ends, and the next line. -/
def directive (text : Text) : Except Problem (TokenKind × Mark × Text) := do
  let start := text.mark
  let name := (text.skip 1).rest.takeWhile isNameChar
  let after := text.skip (1 + name.length)
  let refuse (cause : Cause) (mark : Mark) : Except Problem (TokenKind × Text) :=
    .error ⟨cause, mark, some (.directive, start)⟩
  let (kind, beyond) ←
    if name.isEmpty then refuse .missingDirectiveName after.mark
    else if !endsWord after.rest.head? then refuse .nonAlphabeticDirective after.mark
    else if name == ['Y', 'A', 'M', 'L'] then version start after
    else if name == ['T', 'A', 'G'] then declaration start after
    else refuse .unknownDirective after.mark
  let lineEnd := beyond.skipToLineEnd
  if !endsLine lineEnd.rest.head? then
    .error ⟨.missingLineEnd, lineEnd.mark, some (.directive, start)⟩
  else .ok (kind, beyond.mark, lineEnd.skipBreak)

end Tag

end TimeoutAudit.Yaml
