import TimeoutAudit.OsText

/-!
# Patterns of paths

A pattern matches a whole path, byte by byte.  `?` is any byte and `*` any run
of bytes, slashes included; `[...]` is a class of bytes, `{a,b}` a choice, and a
backslash takes the next character literally.  `**` between slashes, or between
a slash and an end of the pattern, is any number of directories.

Matching keeps, for each token in turn, the list of all rests of the path that
can be left behind it, so that no choice is ever taken back.
-/

set_option autoImplicit false

namespace TimeoutAudit

namespace Glob

/-- A part of a pattern. -/
inductive Token where
  | literal (c : Char)
  /-- One byte. -/
  | any
  /-- Any run of bytes. -/
  | star
  /-- `**/` at the front: nothing, or directories and their slash. -/
  | leading
  /-- `/**` at the end: a slash and anything. -/
  | trailing
  /-- `/**/`: one slash, or two with anything between them. -/
  | between
  /-- One byte inside, or with `negated` outside, the ranges. -/
  | oneOf (negated : Bool) (ranges : List (Char × Char))
  /-- One of several patterns. -/
  | choice (branches : List (List Token))
deriving Repr, Inhabited

/-- Why a text is no pattern. -/
inductive Error where
  | unclosedClass
  | invalidRange (first last : Char)
  | unclosedChoice
  | unopenedChoice
  | danglingEscape
deriving DecidableEq, Repr

/-- The wording of an error. -/
def Error.message : Error → String
  | unclosedClass => "unclosed character class; missing ']'"
  | invalidRange first last =>
    "invalid range; '" ++ String.singleton first ++ "' > '" ++ String.singleton last ++ "'"
  | unclosedChoice =>
    "unclosed alternate group; missing '\x7d' (maybe escape '\x7b' with '[\x7b]'?)"
  | unopenedChoice =>
    "unopened alternate group; missing '\x7b' (maybe escape '\x7d' with '[\x7d]'?)"
  | danglingEscape => "dangling '\\'"

/-! ## Reading -/

/-- Classes while they are read: the ranges, the latest first. -/
structure ClassState where
  ranges : List (Char × Char)
  /-- Whether nothing has been read yet. -/
  first : Bool
  /-- Whether a hyphen waits for the end of a range. -/
  inRange : Bool

/-- Ends the latest range at the given character. -/
def ClassState.extend (state : ClassState) (last : Char) : Except Error ClassState :=
  match state.ranges with
  | (first, _) :: others =>
    if last < first then .error (.invalidRange first last)
    else .ok ⟨(first, last) :: others, false, false⟩
  | [] => .ok ⟨[(last, last)], false, false⟩

/-- Reads a class up to its closing bracket, and returns what follows. -/
def readRanges (state : ClassState) : List Char → Except Error (List (Char × Char) × List Char)
  | [] => .error .unclosedClass
  | c :: rest =>
    if c == ']' && !state.first then
      .ok ((if state.inRange then ('-', '-') :: state.ranges else state.ranges).reverse, rest)
    else if c == '-' && !state.first && !state.inRange then
      readRanges { state with inRange := true } rest
    else if state.inRange then
      match state.extend c with
      | .error problem => .error problem
      | .ok extended => readRanges extended rest
    else readRanges ⟨(c, c) :: state.ranges, false, false⟩ rest

/-- A class behind its opening bracket. -/
def readClass (text : List Char) : Except Error (Token × List Char) :=
  let (negated, body) :=
    match text with
    | '!' :: rest => (true, rest)
    | '^' :: rest => (true, rest)
    | other => (false, other)
  match readRanges ⟨[], true, false⟩ body with
  | .error problem => .error problem
  | .ok (ranges, rest) => .ok (.oneOf negated ranges, rest)

/-- A pattern while it is read. -/
structure State where
  /-- The tokens of the current branch, the latest first. -/
  tokens : List Token
  /-- The open choices, innermost first: the finished branches, the latest
  first, and the tokens in front of the choice. -/
  enclosing : List (List (List Token) × List Token)
  /-- The character before the next one. -/
  previous : Option Char

/-- Adds a token to the current branch. -/
def State.push (state : State) (token : Token) : State :=
  { state with tokens := token :: state.tokens }

/-- What `**` stands for, by what is around it; also whether it takes the slash
behind it. -/
def readDoubleStar (state : State) (next : Option Char) : State × Bool :=
  let inChoice := !state.enclosing.isEmpty
  let plain := (state.push .star).push .star
  if state.tokens.isEmpty then
    if next.all (· == '/') then (state.push .leading, next.isSome) else (plain, false)
  else if state.previous != some '/'
      && !(inChoice && (state.previous == some ',' || state.previous == some '{')) then
    (plain, false)
  else
    let atEnd := next.isNone || (inChoice && (next == some ',' || next == some '}'))
    if atEnd || next == some '/' then
      let replaced :=
        match state.tokens with
        | .leading :: others => .leading :: others
        | .trailing :: others => .trailing :: others
        | _ :: others => (if atEnd then .trailing else .between) :: others
        | [] => []
      ({ state with tokens := replaced }, !atEnd)
    else (plain, false)

/-- Reads a pattern; `fuel` bounds the number of tokens. -/
def readTokens : Nat → State → List Char → Except Error (List Token)
  | 0, _, _ => .error .unclosedChoice
  | _ + 1, state, [] => if state.enclosing.isEmpty then .ok state.tokens.reverse else .error .unclosedChoice
  | fuel + 1, state, c :: rest =>
    let proceed (next : State) : Except Error (List Token) :=
      readTokens fuel { next with previous := some c } rest
    match c with
    | '?' => proceed (state.push .any)
    | '*' =>
      match rest with
      | '*' :: after =>
        let (next, takesSlash) := readDoubleStar state after.head?
        if takesSlash then readTokens fuel { next with previous := some '/' } (after.drop 1)
        else readTokens fuel { next with previous := some '*' } after
      | _ => proceed (state.push .star)
    | '[' =>
      match readClass rest with
      | .error problem => .error problem
      | .ok (token, after) => readTokens fuel { state.push token with previous := some ']' } after
    | '{' => proceed { state with tokens := [], enclosing := ([], state.tokens) :: state.enclosing }
    | '}' =>
      match state.enclosing with
      | [] => .error .unopenedChoice
      | (branches, before) :: outer =>
        let token := Token.choice ((state.tokens.reverse :: branches).reverse)
        proceed { state with tokens := token :: before, enclosing := outer }
    | ',' =>
      match state.enclosing with
      | [] => proceed (state.push (.literal ','))
      | (branches, before) :: outer =>
        proceed { state with tokens := [], enclosing := (state.tokens.reverse :: branches, before) :: outer }
    | '\\' =>
      match rest with
      | [] => .error .danglingEscape
      | escaped :: after =>
        readTokens fuel { state.push (.literal escaped) with previous := some escaped } after
    | _ => proceed (state.push (.literal c))

/-- The tokens of a pattern. -/
def tokens (pattern : String) : Except Error (List Token) :=
  readTokens (pattern.toList.length + 1) ⟨[], [], none⟩ pattern.toList

/-! ## Matching -/

/-- All rests of a text, itself first and the empty one last. -/
def rests : List UInt8 → List (List UInt8)
  | [] => [[]]
  | byte :: others => (byte :: others) :: rests others

/-- The rests behind each slash. -/
def behindSlashes : List UInt8 → List (List UInt8)
  | [] => []
  | byte :: others => if byte == 0x2F then others :: behindSlashes others else behindSlashes others

/-- The longest of several rests of one text. -/
def longest? (texts : List (List UInt8)) : Option (List UInt8) :=
  texts.foldl (fun best text =>
    match best with
    | none => some text
    | some other => if other.length < text.length then some text else best) none

/-- The ranges of bytes in a range of characters: the bytes of both ends, and
what lies between the last byte of the first and the first byte of the last. -/
def byteRanges (first last : Char) : List (UInt8 × UInt8) :=
  let start := String.utf8EncodeChar first
  let stop := String.utf8EncodeChar last
  if first == last then start.map fun byte => (byte, byte)
  else
    (start.dropLast.map fun byte => (byte, byte))
      ++ (match start.getLast?, stop.head? with
        | some low, some high => [(low, high)]
        | _, _ => [])
      ++ stop.tail.map fun byte => (byte, byte)

/-- Whether a byte is in one of the ranges. -/
def inRanges (ranges : List (Char × Char)) (byte : UInt8) : Bool :=
  ranges.any fun range =>
    (byteRanges range.1 range.2).any fun bytes => bytes.1 ≤ byte && byte ≤ bytes.2

mutual
/-- Whether a token stands for nothing: a choice without any branch to choose. -/
def Token.isVoid : Token → Bool
  | .choice branches => allVoid branches
  | _ => false

/-- Whether every branch stands for nothing. -/
def allVoid : List (List Token) → Bool
  | [] => true
  | branch :: others => branchVoid branch && allVoid others

/-- Whether every token of a branch stands for nothing. -/
def branchVoid : List Token → Bool
  | [] => true
  | token :: others => token.isVoid && branchVoid others
end

mutual
/-- The rests that a token can leave behind. -/
def Token.after : Token → List (List UInt8) → List (List UInt8)
  | .literal c, texts =>
    let bytes := String.utf8EncodeChar c
    texts.filterMap fun text => if bytes.isPrefixOf text then some (text.drop bytes.length) else none
  | .any, texts => texts.filterMap List.tail?
  | .star, texts =>
    match longest? texts with
    | some text => rests text
    | none => []
  | .leading, texts => (texts ++ texts.flatMap behindSlashes).eraseDups
  | .trailing, texts =>
    match longest? (texts.filterMap fun text =>
        if text.head? == some 0x2F then text.tail? else none) with
    | some text => rests text
    | none => []
  | .between, texts =>
    (texts.flatMap fun text => if text.head? == some 0x2F then behindSlashes text else []).eraseDups
  | .oneOf negated ranges, texts =>
    texts.filterMap fun text =>
      match text with
      | byte :: others => if inRanges ranges byte != negated then some others else none
      | [] => none
  | .choice branches, texts =>
    if allVoid branches then texts else (branchesAfter branches texts).eraseDups

/-- The rests that a list of tokens can leave behind. -/
def tokensAfter : List Token → List (List UInt8) → List (List UInt8)
  | [], texts => texts
  | token :: others, texts => tokensAfter others (token.after texts)

/-- The rests that one of several branches can leave behind.  A branch that stands
for nothing is no choice. -/
def branchesAfter : List (List Token) → List (List UInt8) → List (List UInt8)
  | [], _ => []
  | branch :: others, texts =>
    (if branchVoid branch then [] else tokensAfter branch texts) ++ branchesAfter others texts
end

/-- Whether tokens match a whole path. -/
def matchesPath (pattern : List Token) (path : OsText) : Bool :=
  match pattern with
  | [.leading] => true
  | _ => (tokensAfter pattern [path]).any List.isEmpty

end Glob

/-- A list of patterns, of which one has to match. -/
structure PathFilter where
  patterns : List (List Glob.Token)

/-- Whether one of the patterns matches a path. -/
def PathFilter.matchesPath (set : PathFilter) (path : OsText) : Bool :=
  set.patterns.any fun pattern => Glob.matchesPath pattern path

end TimeoutAudit
