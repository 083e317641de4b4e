import TimeoutAudit.Php.Token

/-!
# Cutting PHP source into tokens

The lexer keeps a stack of *frames*, because a string may hold code and that
code may hold a string again.  With no frame, or inside the braces of an
interpolation, the glyphs are code; inside a quotation or a labelled string they
are literal text with interpolated variables.  One `stride` takes at least one
glyph, so a stride for every glyph is always enough.
-/

set_option autoImplicit false

namespace TimeoutAudit.Php

/-- A token that has not been given its place yet. -/
abbrev Piece := Lexeme × List Glyph

/-- What the glyphs ahead are inside of. -/
inductive Frame where
  /-- Code in the braces of an interpolation, with further braces open. -/
  | braces (opened : Nat)
  /-- Text up to the closing quotation mark. -/
  | quotation (closing : Char)
  /-- Text up to a line that starts with the label. -/
  | labelled (label : List Glyph) (lineStart : Bool)
deriving DecidableEq, Repr

/-- The result of one stride: the pieces read, the frames now open, the rest. -/
structure Stride where
  pieces : List Piece
  frames : List Frame
  rest : List Glyph

namespace Lexer

/-! ## Classes of glyphs -/

/-- Blank glyphs between tokens. -/
def isSpace : Glyph → Bool
  | .char c =>
    ('\t' ≤ c && c ≤ '\r') || c == ' ' || c == '\u00A0' || c == '\u200B' || c == '\u2060'
      || c == '\uFEFF'
  | .broken _ => false

/-- Glyphs that start a name. -/
def isNameStart : Glyph → Bool
  | .char c =>
    c == '_' || ('a' ≤ c && c ≤ 'z') || ('A' ≤ c && c ≤ 'Z')
      || ('\x80' ≤ c && !isSpace (.char c))
  | .broken _ => false

/-- A decimal digit. -/
def isDigit : Glyph → Bool
  | .char c => '0' ≤ c && c ≤ '9'
  | .broken _ => false

/-- Glyphs inside a name. -/
def isNamePart (glyph : Glyph) : Bool := isNameStart glyph || isDigit glyph

/-- A character from a list. -/
def isOneOf (choices : List Char) : Glyph → Bool
  | .char c => choices.contains c
  | .broken _ => false

/-- A digit in base sixteen. -/
def isHexDigit : Glyph → Bool
  | .char c => ('0' ≤ c && c ≤ '9') || ('a' ≤ c && c ≤ 'f') || ('A' ≤ c && c ≤ 'F')
  | .broken _ => false

/-- A digit in base eight. -/
def isOctalDigit : Glyph → Bool
  | .char c => '0' ≤ c && c ≤ '7'
  | .broken _ => false

/-- Lower case for the letters of ASCII. -/
def foldCase (c : Char) : Char := if 'A' ≤ c && c ≤ 'Z' then Char.ofNat (c.toNat + 32) else c

/-- The class of a name: it carries its lower-case spelling. -/
def wordOf (name : List Glyph) : Piece :=
  (.word (String.ofList (name.map fun glyph => foldCase glyph.shown)), name)

/-- A symbol piece with its own spelling as text. -/
def mark (spelling : String) : Piece := (.symbol spelling, Glyph.ofString spelling)

/-- Cuts glyphs where the property first fails. -/
def cut (holds : Glyph → Bool) (glyphs : List Glyph) : List Glyph × List Glyph :=
  (glyphs.takeWhile holds, glyphs.dropWhile holds)

/-! ## Plain text and tags -/

/-- The glyphs before the next `<?`, and the rest from there on. -/
def untilTag : List Glyph → List Glyph × List Glyph
  | [] => ([], [])
  | glyph :: rest =>
    if glyph.is '<' && (rest.head?.any (Glyph.is '?')) then ([], glyph :: rest)
    else
      let (before, after) := untilTag rest
      (glyph :: before, after)

/-- The opening tag at the front: `<?php` in any casing, `<?=` or `<?`. -/
def openingTag (glyphs : List Glyph) : List Glyph × List Glyph :=
  let named := (glyphs.drop 2).take 3
  if named.map (fun glyph => foldCase glyph.shown) == ['p', 'h', 'p'] then
    (glyphs.take 5, glyphs.drop 5)
  else if (glyphs.drop 2).head?.any (Glyph.is '=') then (glyphs.take 3, glyphs.drop 3)
  else (glyphs.take 2, glyphs.drop 2)

/-- A passage of plain text, from `?>` through the next opening tag if there is one. -/
def passage (glyphs : List Glyph) : List Glyph × List Glyph :=
  let (before, after) := untilTag (glyphs.drop 2)
  let (tag, rest) := openingTag after
  (glyphs.take 2 ++ before ++ tag, rest)

/-! ## Comments -/

/-- A comment to the end of its line, or to the closing tag. -/
def lineComment : List Glyph → List Glyph × List Glyph
  | [] => ([], [])
  | glyph :: rest =>
    if glyph.is '\n' || glyph.is '\r' || (glyph.is '?' && rest.head?.any (Glyph.is '>')) then
      ([], glyph :: rest)
    else
      let (before, after) := lineComment rest
      (glyph :: before, after)

/-- The glyphs through the next `*/`, if there is one. -/
def blockComment : List Glyph → Option (List Glyph × List Glyph)
  | [] => none
  | [_] => none
  | first :: second :: rest =>
    if first.is '*' && second.is '/' then some ([first, second], rest)
    else
      match blockComment (second :: rest) with
      | none => none
      | some (before, after) => some (first :: before, after)

/-! ## Numbers -/

/-- Digits at the front; an underscore may stand in front of a digit. -/
def digits (isPart : Glyph → Bool) : List Glyph → List Glyph × List Glyph
  | [] => ([], [])
  | glyph :: rest =>
    if isPart glyph || (glyph.is '_' && rest.head?.any isPart) then
      let (others, after) := digits isPart rest
      (glyph :: others, after)
    else ([], glyph :: rest)

/-- The exponent of a number, if there is one. -/
def exponent (glyphs : List Glyph) : List Glyph × List Glyph :=
  match glyphs with
  | [] => ([], [])
  | letter :: rest =>
    let sign := if rest.head?.any (isOneOf ['+', '-']) then rest.take 1 else []
    let behind := rest.drop sign.length
    if isOneOf ['e', 'E'] letter && behind.head?.any isDigit then
      let (power, after) := digits isDigit behind
      (letter :: sign ++ power, after)
    else ([], glyphs)

/-- The fraction of a number, if there is one. -/
def fraction (glyphs : List Glyph) : List Glyph × List Glyph :=
  match glyphs with
  | point :: rest =>
    if point.is '.' then
      let (places, after) := digits isDigit rest
      (point :: places, after)
    else ([], glyphs)
  | [] => ([], [])

/-- The integer at the front.  Behind a zero stand octal digits, or a letter that
announces another base and digits in it. -/
def integer (glyphs : List Glyph) : List Glyph × List Glyph :=
  let announced (letters : List Char) (isPart : Glyph → Bool) : Bool :=
    (glyphs.drop 1).head?.any (isOneOf letters) && (glyphs.drop 2).head?.any isPart
  let behind (count : Nat) (isPart : Glyph → Bool) : List Glyph × List Glyph :=
    let (found, after) := digits isPart (glyphs.drop count)
    (glyphs.take count ++ found, after)
  if !glyphs.head?.any (Glyph.is '0') then digits isDigit glyphs
  else if announced ['x', 'X'] isHexDigit then behind 2 isHexDigit
  else if announced ['b', 'B'] (isOneOf ['0', '1']) then behind 2 (isOneOf ['0', '1'])
  else if (glyphs.drop 1).head?.any (isOneOf ['o', 'O']) then behind 2 isOctalDigit
  else behind 1 isOctalDigit

/-- The number at the front: a fraction or an exponent makes it one that floats. -/
def number (glyphs : List Glyph) : Piece × List Glyph :=
  let (whole, afterWhole) := digits isDigit glyphs
  let (places, afterPlaces) := fraction afterWhole
  let (power, rest) := exponent afterPlaces
  if places.isEmpty && power.isEmpty then
    let (text, after) := integer glyphs
    ((.integer, text), after)
  else ((.float, whole ++ places ++ power), rest)

/-! ## Strings -/

/-- The rest of a single-quoted string through its closing mark, if it is closed. -/
def quotedBody : List Glyph → Option (List Glyph × List Glyph)
  | [] => none
  | glyph :: rest =>
    if glyph.is '\'' then some ([glyph], rest)
    else if glyph.is '\\' then
      match rest with
      | [] => none
      | escaped :: after =>
        match quotedBody after with
        | none => none
        | some (body, beyond) => some (glyph :: escaped :: body, beyond)
    else
      match quotedBody rest with
      | none => none
      | some (body, beyond) => some (glyph :: body, beyond)

/-- The end of a labelled string: blank glyphs and then the whole label. -/
def closingLabel? (label glyphs : List Glyph) : Option (List Glyph × List Glyph) :=
  let (indent, from_) := cut isSpace glyphs
  let after := from_.drop label.length
  if label.isPrefixOf from_ && !(after.head?.any isNamePart) then some (indent, after) else none

/-- The rest of a literal labelled string through its label. -/
def nowdocBody (label : List Glyph) : Bool → List Glyph → Option (List Glyph × List Glyph)
  | _, [] => none
  | lineStart, glyph :: rest =>
    match (if lineStart then closingLabel? label (glyph :: rest) else none) with
    | some (indent, after) => some (indent ++ label, after)
    | none =>
      match nowdocBody label (glyph.is '\n') rest with
      | none => none
      | some (body, beyond) => some (glyph :: body, beyond)

/-- The opening of a labelled string. -/
structure Opening where
  /-- Everything from `<<<` through the label. -/
  text : List Glyph
  label : List Glyph
  /-- A label in single quotes: nothing is interpolated. -/
  literal : Bool
  rest : List Glyph

/-- The opening of a labelled string at the front, which starts with `<<<`. -/
def opening? (glyphs : List Glyph) : Option Opening :=
  let (blank, afterBlank) := cut (fun glyph => glyph.is ' ' || glyph.is '\t') (glyphs.drop 3)
  let quote := (afterBlank.head?.filter fun glyph => glyph.is '\'' || glyph.is '"').toList
  let (label, afterLabel) := cut isNamePart (afterBlank.drop quote.length)
  let rest := afterLabel.drop quote.length
  if label.head?.any isNameStart && afterLabel.take quote.length == quote
      && rest.head?.any (fun glyph => glyph.is '\n' || glyph.is '\r') then
    some {
      text := glyphs.take 3 ++ blank ++ quote ++ label ++ quote
      label := label
      literal := quote.any (Glyph.is '\'')
      rest := rest }
  else none

/-- Whether an interpolation starts here: `$name`, `${` or `{$`. -/
def interpolates (glyphs : List Glyph) : Bool :=
  match glyphs with
  | first :: second :: _ =>
    (first.is '$' && (isNameStart second || second.is '{')) || (first.is '{' && second.is '$')
  | _ => false

/-- Literal text up to the closing mark or an interpolation.  A string without a
closing mark ends by its label, so its text is cut after every line. -/
def content (closing : Option Char) : List Glyph → List Glyph × List Glyph
  | [] => ([], [])
  | glyph :: rest =>
    if closing.any (glyph.is ·) || interpolates (glyph :: rest) then ([], glyph :: rest)
    else if glyph.is '\n' && closing.isNone then ([glyph], rest)
    else if glyph.is '\\' then
      match rest with
      | [] => ([glyph], [])
      | escaped :: after =>
        if escaped.is '\n' && closing.isNone then ([glyph, escaped], after)
        else
          let (body, beyond) := content closing after
          (glyph :: escaped :: body, beyond)
    else
      let (body, beyond) := content closing rest
      (glyph :: body, beyond)

/-- What may stand in the brackets of an interpolated `$name[...]`. -/
def subscript? (glyphs : List Glyph) : Option (List Piece × List Glyph) :=
  let index : Option (List Piece × List Glyph) :=
    match glyphs with
    | first :: rest =>
      if isNameStart first then
        let (name, after) := cut isNamePart glyphs
        some ([wordOf name], after)
      else if isDigit first then
        let (digits, after) := cut isDigit glyphs
        some ([(.integer, digits)], after)
      else if first.is '-' && rest.head?.any isDigit then
        let (digits, after) := cut isDigit rest
        some ([mark "-", (.integer, digits)], after)
      else if first.is '$' && rest.head?.any isNameStart then
        let (name, after) := cut isNamePart rest
        some ([mark "$", wordOf name], after)
      else none
    | [] => none
  match index with
  | some (pieces, closing :: rest) => if closing.is ']' then some (pieces ++ [mark "]"], rest) else none
  | _ => none

/-- An interpolated `$name`, with the one subscript or property it may carry. -/
def interpolated (glyphs : List Glyph) : List Piece × List Glyph :=
  let (name, after) := cut isNamePart (glyphs.drop 1)
  let head := [mark "$", wordOf name]
  match after with
  | first :: second :: rest =>
    if first.is '[' then
      match subscript? (second :: rest) with
      | some (pieces, beyond) => (head ++ mark "[" :: pieces, beyond)
      | none => (head ++ [(.unknown, [first])], second :: rest)
    else if first.is '-' && second.is '>' && rest.head?.any isNameStart then
      let (member, beyond) := cut isNamePart rest
      (head ++ [mark "->", wordOf member], beyond)
    else (head, after)
  | _ => (head, after)

/-! ## Code -/

/-- Operators and brackets, longer ones before their beginnings. -/
def symbols : List (String × List Glyph) :=
  (["<<=", ">>=", "**=", "...", "<=>", "===", "!==", "??=", "?->",
    "=>", "->", "::", "++", "--", "**", "==", "!=", "<>", "<=", ">=", "&&", "||", "??",
    "+=", "-=", "*=", "/=", ".=", "%=", "&=", "|=", "^=", "<<", ">>", "#[",
    "(", ")", "[", "]", "\x7b", "\x7d", ";", ",", ":", "?", "$", "=", "+", "-", "*", "/", "%",
    ".", "<", ">", "!", "~", "&", "|", "^", "@", "\\"] : List String).map
      fun spelling => (spelling, Glyph.ofString spelling)

/-- Frames after an opening brace of code. -/
def openBrace : List Frame → List Frame
  | .braces opened :: outer => .braces (opened + 1) :: outer
  | frames => frames

/-- Frames after a closing brace of code. -/
def closeBrace : List Frame → List Frame
  | .braces 0 :: outer => outer
  | .braces (opened + 1) :: outer => .braces opened :: outer
  | frames => frames

/-- The frames after a symbol of code. -/
def afterSymbol (spelling : String) (frames : List Frame) : List Frame :=
  if spelling == "\x7b" then openBrace frames
  else if spelling == "\x7d" then closeBrace frames
  else frames

/-- One stride through code; the first glyph is not blank. -/
def codeStride (frames : List Frame) (first : Glyph) (rest : List Glyph) : Stride :=
  let glyphs := first :: rest
  let next (c : Char) : Bool := rest.head?.any (Glyph.is c)
  let third (c : Char) : Bool := (rest.drop 1).head?.any (Glyph.is c)
  let binary := first.is 'b' || first.is 'B'
  if first.is '?' && next '>' then
    let (text, after) := passage glyphs
    ⟨[(.passage, text)], frames, after⟩
  else if (first.is '/' && next '/') || (first.is '#' && !next '[') then
    let (text, after) := lineComment glyphs
    ⟨[(.comment, text)], frames, after⟩
  else if first.is '/' && next '*' then
    match blockComment (rest.drop 1) with
    | some (text, after) => ⟨[(.comment, glyphs.take 2 ++ text)], frames, after⟩
    | none => ⟨[(.unknown, [first])], frames, rest⟩
  else if first.is '\'' || (binary && next '\'') then
    let lead := if binary then 2 else 1
    match quotedBody (glyphs.drop lead) with
    | some (text, after) => ⟨[(.quoted, glyphs.take lead ++ text)], frames, after⟩
    | none => ⟨[(.unknown, [first])], frames, rest⟩
  else if first.is '"' || (binary && next '"') then
    let lead := if binary then 2 else 1
    ⟨[(.symbol "\"", glyphs.take lead)], .quotation '"' :: frames, glyphs.drop lead⟩
  else if first.is '\x60' then
    ⟨[(.symbol "\x60", [first])], .quotation '\x60' :: frames, rest⟩
  else if first.is '<' && next '<' && third '<' then
    match opening? glyphs with
    | some found =>
      if found.literal then
        match nowdocBody found.label false found.rest with
        | some (text, after) => ⟨[(.nowdoc, found.text ++ text)], frames, after⟩
        | none => ⟨[(.unknown, [first])], frames, rest⟩
      else ⟨[(.symbol "<<<", found.text)], .labelled found.label false :: frames, found.rest⟩
    | none => ⟨[(.unknown, [first])], frames, rest⟩
  else if isNameStart first then
    let (name, after) := cut isNamePart glyphs
    ⟨[wordOf name], frames, after⟩
  else if isDigit first || (first.is '.' && rest.head?.any isDigit) then
    let (piece, after) := number glyphs
    ⟨[piece], frames, after⟩
  else
    match symbols.find? fun entry => entry.2.isPrefixOf glyphs with
    | some (spelling, text) =>
      ⟨[(.symbol spelling, text)], afterSymbol spelling frames, glyphs.drop text.length⟩
    | none => ⟨[(.unknown, [first])], frames, rest⟩

/-! ## Interpolated text -/

/-- One stride through an interpolation or literal text inside a string. -/
def textStride (closing : Option Char) (frame : List Frame) (outer : List Frame)
    (glyphs : List Glyph) : Stride :=
  match glyphs with
  | first :: second :: rest =>
    if first.is '{' && second.is '$' then
      ⟨[mark "\x7b"], .braces 0 :: frame ++ outer, second :: rest⟩
    else if first.is '$' && second.is '{' then
      ⟨[mark "$", mark "\x7b"], .braces 0 :: frame ++ outer, rest⟩
    else if first.is '$' && isNameStart second then
      let (pieces, after) := interpolated glyphs
      ⟨pieces, frame ++ outer, after⟩
    else
      let (text, after) := content closing glyphs
      ⟨[(.content, text)], frame ++ outer, after⟩
  | _ =>
    let (text, after) := content closing glyphs
    ⟨[(.content, text)], frame ++ outer, after⟩

/-- One stride, by the innermost frame. -/
def stride (frames : List Frame) (first : Glyph) (rest : List Glyph) : Stride :=
  match frames with
  | .quotation closing :: outer =>
    if first.is closing then
      ⟨[(.symbol (String.singleton closing), [first])], outer, rest⟩
    else textStride (some closing) [.quotation closing] outer (first :: rest)
  | .labelled label lineStart :: outer =>
    match (if lineStart then closingLabel? label (first :: rest) else none) with
    | some (indent, after) =>
      let lead : List Piece := if indent.isEmpty then [] else [(.content, indent)]
      ⟨lead ++ [(.closingLabel, label)], outer, after⟩
    | none =>
      let taken := textStride none [.labelled label false] outer (first :: rest)
      match taken.pieces with
      | [(.content, text)] =>
        ⟨taken.pieces, .labelled label (text.getLast?.any (Glyph.is '\n')) :: outer, taken.rest⟩
      | _ => taken
  | _ => codeStride frames first rest

/-- Whether the glyphs ahead are code. -/
def inCode : List Frame → Bool
  | [] => true
  | .braces _ :: _ => true
  | _ => false

/-! ## Placing tokens -/

/-- Gives pieces their places: the first one follows `gap`, the others follow each other. -/
def place (row : Nat) (gap : List Glyph) : List Piece → List Token
  | [] => []
  | (lexeme, text) :: others =>
    let start := row + Glyph.lineFeeds gap
    ⟨lexeme, gap, text, start⟩ :: place (start + Glyph.lineFeeds text) [] others

/-- The line feeds in a list of pieces. -/
def piecesLineFeeds (pieces : List Piece) : Nat :=
  pieces.foldr (fun piece others => Glyph.lineFeeds piece.2 + others) 0

/-- Tokens of code and strings; one stride is taken for each unit of fuel. -/
def tokensFrom : Nat → List Frame → Nat → List Glyph → List Token
  | 0, _, _, _ => []
  | fuel + 1, frames, row, glyphs =>
    let (gap, body) := if inCode frames then cut isSpace glyphs else ([], glyphs)
    match body with
    | [] => []
    | first :: rest =>
      let taken := stride frames first rest
      let after := row + Glyph.lineFeeds gap + piecesLineFeeds taken.pieces
      place row gap taken.pieces ++ tokensFrom fuel taken.frames after taken.rest

/-- The tokens of a source without null characters. -/
def sourceTokens (glyphs : List Glyph) : List Token :=
  let (before, after) := untilTag glyphs
  let lead : List Piece := if before.isEmpty then [] else [(.text, before)]
  match after with
  | [] => place 0 [] lead
  | _ =>
    let (tag, rest) := openingTag after
    let start := lead ++ [(.tag, tag)]
    place 0 [] start ++ tokensFrom rest.length [] (piecesLineFeeds start) rest

end Lexer

/-- The tokens of a source.  A null character starts no token, and nothing is
read past it. -/
def tokens (source : List Glyph) : List Token :=
  let (readable, unread) := Lexer.cut (fun glyph => !glyph.is '\x00') source
  let found := Lexer.sourceTokens readable
  match unread with
  | [] => found
  | null :: _ =>
    let gap := readable.drop (found.flatMap Token.source).length
    found ++ [⟨.unknown, gap, [null], Glyph.lineFeeds readable⟩]

end TimeoutAudit.Php
