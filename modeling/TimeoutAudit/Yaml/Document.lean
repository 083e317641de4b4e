import TimeoutAudit.Yaml.Node
import TimeoutAudit.Yaml.Stream

/-!
# Reading a YAML document

The tokens of a text are read by one function for each kind of construct.  A
function that meets a problem leaves a broken node and the problem behind, and
everything around it stops there.
-/

set_option autoImplicit false

namespace TimeoutAudit.Yaml

/-- What a reader of nodes knows. -/
structure Assembly where
  tokens : List Token
  /-- The problem at the end of the tokens, if they are cut short. -/
  cut : Option Problem
  /-- What has stopped the reader. -/
  problem : Option Problem
  /-- What the handles of tags stand for. -/
  handles : List (List Char × List Char)
  /-- Names of anchors with their numbers; a later one hides an earlier one. -/
  names : List (List Char × Nat)
  /-- How many different names there are. -/
  nameCount : Nat
  anchored : List (Nat × Node)

namespace Assembly

/-- Before the first token. -/
def ofStream (stream : Stream) : Assembly where
  tokens := stream.tokens
  cut := stream.problem
  problem := none
  handles := []
  names := []
  nameCount := 0
  anchored := []

/-- Stops at a problem. -/
def fail (assembly : Assembly) (problem : Problem) : Assembly :=
  { assembly with problem := some problem }

/-- Past the next token. -/
def skip (assembly : Assembly) : Assembly := { assembly with tokens := assembly.tokens.tail }

/-- The problem of a text that ends before its tokens do. -/
def cutOff (assembly : Assembly) : Assembly :=
  { assembly with
    problem := some (assembly.cut.getD ⟨.missingContent, .start, none⟩) }

/-- Whether the next token is of one of the given kinds. -/
def isAt (assembly : Assembly) (kinds : List TokenKind) : Bool :=
  assembly.tokens.head?.any fun token => kinds.contains token.kind

/-! ## What stands in front of a node -/

/-- What stands in front of a node. -/
structure Properties where
  /-- Where the first of them starts. -/
  start : Option Mark
  anchor : Option (List Char)
  /-- The handle and tail of a tag, and where it starts. -/
  tag : Option (List Char × List Char × Mark)

/-- Reads an anchor. -/
def readAnchor (properties : Properties) (assembly : Assembly) : Properties × Assembly :=
  match assembly.tokens with
  | ⟨.anchor name, start, _⟩ :: _ =>
    ({ properties with anchor := some name, start := some (properties.start.getD start) },
      assembly.skip)
  | _ => (properties, assembly)

/-- Reads a tag. -/
def readTag (properties : Properties) (assembly : Assembly) : Properties × Assembly :=
  match assembly.tokens with
  | ⟨.tag handle tail, start, _⟩ :: _ =>
    ({ properties with
        tag := some (handle, tail, start)
        start := some (properties.start.getD start) },
      assembly.skip)
  | _ => (properties, assembly)

/-- Reads an anchor and a tag, which may come in either order. -/
def readProperties (assembly : Assembly) : Properties × Assembly :=
  let (anchored, afterAnchor) := readAnchor ⟨none, none, none⟩ assembly
  let (tagged, afterTag) := readTag anchored afterAnchor
  if tagged.anchor.isSome then (tagged, afterTag) else readAnchor tagged afterTag

/-- What a tag says, if its handle stands for something. -/
def tagText? (assembly : Assembly) (handle tail : List Char) : Option (List Char) :=
  if handle.isEmpty then some tail
  else (assembly.handles.lookup handle).map (· ++ tail)

/-- Gives the next number to a name: the count of the names known so far. -/
def addName (assembly : Assembly) (name : List Char) : Assembly :=
  let known := (assembly.names.lookup name).isSome
  { assembly with
    names := (name, assembly.nameCount) :: assembly.names
    nameCount := if known then assembly.nameCount else assembly.nameCount + 1 }

/-- Notes what a number stands for. -/
def bindAnchor (number : Option Nat) (node : Node) (assembly : Assembly) : Assembly :=
  match number with
  | none => assembly
  | some found => { assembly with anchored := (found, node) :: assembly.anchored }

/-- A scalar with a tag that only says that it is one has no tag. -/
def scalarTag (tag : Option (List Char)) : Option (List Char) :=
  if tag == some ['!'] then none else tag

/-! ## Nodes -/

/-- Tokens that stand behind the place of a block node that is not written. -/
def blockStops : List TokenKind := [.key, .value, .blockEnd]

mutual
/-- Reads a node.  A block may stand only where blocks are allowed, and a sequence
without indentation only as a part of a block mapping. -/
def readNode (fuel : Nat) (block indentless : Bool) (assembly : Assembly) : Node × Assembly :=
  match fuel with
  | 0 => (.broken, assembly.cutOff)
  | fuel + 1 =>
    match assembly.tokens with
    | ⟨.alias name, start, _⟩ :: _ =>
      match assembly.names.lookup name with
      | some number => (.alias start number, assembly.skip)
      | none => (.broken, assembly.fail ⟨.unknownAnchor, start, none⟩)
    | _ =>
      let (properties, behind) := assembly.readProperties
      match behind.tokens with
      | [] => (.broken, behind.cutOff)
      | token :: _ =>
        let start := properties.start.getD token.start
        let meant : Except Mark (Option (List Char)) :=
          match properties.tag with
          | none => .ok none
          | some (handle, tail, mark) =>
            match behind.tagText? handle tail with
            | some text => .ok (some text)
            | none => .error mark
        match meant with
        | .error mark => (.broken, behind.fail ⟨.undefinedTag, mark, some (.node, start)⟩)
        | .ok tag =>
          let number := properties.anchor.map fun _ => behind.nameCount
          let named := match properties.anchor with
            | none => behind
            | some name => behind.addName name
          let finish : Node × Assembly → Node × Assembly := fun (node, after) =>
            (node, after.bindAnchor number node)
          let sequenceOf : List Node × Assembly → Node × Assembly := fun (items, after) =>
            finish (.sequence start items, after)
          let mappingOf : List (Node × Node) × Assembly → Node × Assembly :=
            fun (entries, after) => finish (.mapping start entries, after)
          match token.kind with
          | .scalar value style =>
            finish (.scalar start style (scalarTag tag) value, named.skip)
          | .flowSequenceStart => sequenceOf (readFlowItems fuel token.start true named.skip)
          | .flowMappingStart => mappingOf (readFlowEntries fuel token.start true named.skip)
          | kind =>
            if indentless && kind == .blockEntry then sequenceOf (readDashes fuel none named)
            else if block && kind == .blockSequenceStart then
              sequenceOf (readDashes fuel (some token.start) named.skip)
            else if block && kind == .blockMappingStart then
              mappingOf (readBlockEntries fuel token.start named.skip)
            else if properties.start.isSome then
              finish (.scalar start .plain (scalarTag tag) [], named)
            else
              (.broken, named.fail ⟨.missingContent, token.start,
                some (if block then .blockNode else .flowNode, start)⟩)

/-- Reads a node of a block, or nothing if one of the given tokens comes next. -/
def readBlockPart (fuel : Nat) (stops : List TokenKind) (indentless : Bool) (mark : Mark)
    (assembly : Assembly) : Node × Assembly :=
  match fuel with
  | 0 => (.broken, assembly.cutOff)
  | fuel + 1 =>
    if assembly.tokens.isEmpty then (.broken, assembly.cutOff)
    else if assembly.isAt stops then (.nothing mark, assembly)
    else readNode fuel true indentless assembly

/-- Reads the items of a block sequence, which starts at the given place, or has no
indentation of its own. -/
def readDashes (fuel : Nat) (start : Option Mark) (assembly : Assembly) :
    List Node × Assembly :=
  match fuel with
  | 0 => ([.broken], assembly.cutOff)
  | fuel + 1 =>
    match assembly.tokens with
    | [] => ([.broken], assembly.cutOff)
    | ⟨.blockEntry, _, stop⟩ :: _ =>
      let stops : List TokenKind :=
        if start.isSome then [.blockEntry, .blockEnd] else .blockEntry :: blockStops
      let (item, after) := readBlockPart fuel stops false stop assembly.skip
      if after.problem.isSome then ([item], after)
      else
        let (items, behind) := readDashes fuel start after
        (item :: items, behind)
    | token :: _ =>
      match start with
      | none => ([], assembly)
      | some mark =>
        if token.kind == .blockEnd then ([], assembly.skip)
        else
          ([.broken], assembly.fail ⟨.missingDash, token.start, some (.blockCollection, mark)⟩)

/-- Reads the entries of a block mapping. -/
def readBlockEntries (fuel : Nat) (start : Mark) (assembly : Assembly) :
    List (Node × Node) × Assembly :=
  match fuel with
  | 0 => ([(.broken, .broken)], assembly.cutOff)
  | fuel + 1 =>
    match assembly.tokens with
    | [] => ([(.broken, .broken)], assembly.cutOff)
    | ⟨.blockEnd, _, _⟩ :: _ => ([], assembly.skip)
    | ⟨.key, _, stop⟩ :: _ =>
      let (key, after) := readBlockPart fuel blockStops true stop assembly.skip
      if after.problem.isSome then ([(key, .broken)], after)
      else
        let (value, behind) := readBlockValue fuel after
        if behind.problem.isSome then ([(key, value)], behind)
        else
          let (entries, beyond) := readBlockEntries fuel start behind
          ((key, value) :: entries, beyond)
    | token :: _ =>
      ([(.broken, .broken)],
        assembly.fail ⟨.missingKey, token.start, some (.blockMapping, start)⟩)

/-- Reads the value of a block mapping's entry. -/
def readBlockValue (fuel : Nat) (assembly : Assembly) : Node × Assembly :=
  match fuel with
  | 0 => (.broken, assembly.cutOff)
  | fuel + 1 =>
    match assembly.tokens with
    | [] => (.broken, assembly.cutOff)
    | ⟨.value, _, stop⟩ :: _ => readBlockPart fuel blockStops true stop assembly.skip
    | token :: _ => (.nothing token.start, assembly)

/-- Reads a node inside brackets, or nothing if one of the given tokens comes next. -/
def readFlowPart (fuel : Nat) (stops : List TokenKind) (assembly : Assembly) :
    Node × Assembly :=
  match fuel with
  | 0 => (.broken, assembly.cutOff)
  | fuel + 1 =>
    match assembly.tokens with
    | [] => (.broken, assembly.cutOff)
    | token :: _ =>
      if stops.contains token.kind then (.nothing token.start, assembly)
      else readNode fuel false false assembly

/-- Reads a value inside brackets, which a colon announces. -/
def readFlowValue (fuel : Nat) (stops : List TokenKind) (assembly : Assembly) :
    Node × Assembly :=
  match fuel with
  | 0 => (.broken, assembly.cutOff)
  | fuel + 1 =>
    match assembly.tokens with
    | [] => (.broken, assembly.cutOff)
    | ⟨.value, _, _⟩ :: _ => readFlowPart fuel stops assembly.skip
    | token :: _ => (.nothing token.start, assembly)

/-- Reads the items of a sequence in brackets. -/
def readFlowItems (fuel : Nat) (start : Mark) (first : Bool) (assembly : Assembly) :
    List Node × Assembly :=
  match fuel with
  | 0 => ([.broken], assembly.cutOff)
  | fuel + 1 =>
    match assembly.tokens with
    | [] => ([.broken], assembly.cutOff)
    | ⟨.flowSequenceEnd, _, _⟩ :: _ => ([], assembly.skip)
    | token :: _ =>
      if !first && token.kind != .flowEntry then
        ([.broken],
          assembly.fail ⟨.missingCommaOrBracket, token.start, some (.flowSequence, start)⟩)
      else
        let behind := if first then assembly else assembly.skip
        match behind.tokens with
        | [] => ([.broken], behind.cutOff)
        | ⟨.flowSequenceEnd, _, _⟩ :: _ => ([], behind.skip)
        | ⟨.key, mark, _⟩ :: _ =>
          let (entry, after) := readPair fuel behind.skip
          let item : Node := .mapping mark [entry]
          if after.problem.isSome then ([item], after)
          else
            let (items, beyond) := readFlowItems fuel start false after
            (item :: items, beyond)
        | _ =>
          let (item, after) := readNode fuel false false behind
          if after.problem.isSome then ([item], after)
          else
            let (items, beyond) := readFlowItems fuel start false after
            (item :: items, beyond)

/-- Reads a key and a value that stand in a sequence in brackets.  Where the key is
not written, the token in its place is passed over. -/
def readPair (fuel : Nat) (assembly : Assembly) : (Node × Node) × Assembly :=
  match fuel with
  | 0 => ((.broken, .broken), assembly.cutOff)
  | fuel + 1 =>
    let stops : List TokenKind := [.flowEntry, .flowSequenceEnd]
    match assembly.tokens with
    | [] => ((.broken, .broken), assembly.cutOff)
    | token :: _ =>
      let (key, after) :=
        if (TokenKind.value :: stops).contains token.kind then
          (Node.nothing token.stop, assembly.skip)
        else readNode fuel false false assembly
      if after.problem.isSome then ((key, .broken), after)
      else
        let (value, behind) := readFlowValue fuel stops after
        ((key, value), behind)

/-- Reads the entries of a mapping in braces. -/
def readFlowEntries (fuel : Nat) (start : Mark) (first : Bool) (assembly : Assembly) :
    List (Node × Node) × Assembly :=
  match fuel with
  | 0 => ([(.broken, .broken)], assembly.cutOff)
  | fuel + 1 =>
    let stops : List TokenKind := [.flowEntry, .flowMappingEnd]
    match assembly.tokens with
    | [] => ([(.broken, .broken)], assembly.cutOff)
    | ⟨.flowMappingEnd, _, _⟩ :: _ => ([], assembly.skip)
    | token :: _ =>
      if !first && token.kind != .flowEntry then
        ([(.broken, .broken)],
          assembly.fail ⟨.missingCommaOrBrace, token.start, some (.flowMapping, start)⟩)
      else
        let behind := if first then assembly else assembly.skip
        match behind.tokens with
        | [] => ([(.broken, .broken)], behind.cutOff)
        | ⟨.flowMappingEnd, _, _⟩ :: _ => ([], behind.skip)
        | next :: _ =>
          let keyed := next.kind == .key
          let (key, after) :=
            if keyed then readFlowPart fuel (.value :: stops) behind.skip
            else readNode fuel false false behind
          if after.problem.isSome then ([(key, .broken)], after)
          else
            let (value, beyond) :=
              if keyed then readFlowValue fuel stops after
              else
                match after.tokens with
                | [] => (.broken, after.cutOff)
                | following :: _ => (.nothing following.start, after)
            if beyond.problem.isSome then ([(key, value)], beyond)
            else
              let (entries, rest) := readFlowEntries fuel start false beyond
              ((key, value) :: entries, rest)
end

/-! ## Documents -/

/-- What handles stand for where no directive says otherwise. -/
def standardHandles : List (List Char × List Char) :=
  [("!".toList, "!".toList), ("!!".toList, "tag:yaml.org,2002:".toList)]

/-- Reads the directives in front of a document. -/
def readDirectives (versioned : Bool) : List Token → Assembly → Assembly
  | ⟨.versionDirective major minor, start, _⟩ :: rest, assembly =>
    if versioned then assembly.fail ⟨.repeatedVersion, start, none⟩
    else if major != 1 || (minor != 1 && minor != 2) then
      assembly.fail ⟨.incompatibleVersion, start, none⟩
    else readDirectives true rest assembly.skip
  | ⟨.tagDirective handle expansion, start, _⟩ :: rest, assembly =>
    if (assembly.handles.lookup handle).isSome then assembly.fail ⟨.repeatedTag, start, none⟩
    else
      readDirectives versioned rest
        { assembly.skip with handles := assembly.handles ++ [(handle, expansion)] }
  | _, assembly => { assembly with handles := assembly.handles ++ standardHandles }

/-- Whether a token stands in front of a document. -/
def opensDocument : TokenKind → Bool
  | .versionDirective _ _ => true
  | .tagDirective _ _ => true
  | .documentStart => true
  | _ => false

/-- Reads the end of a document, and looks whether anything follows. -/
def finishDocument (root : Node) (assembly : Assembly) : Document :=
  if assembly.problem.isSome then ⟨some root, assembly.anchored, assembly.problem, false⟩
  else
    match assembly.tokens with
    | [] => ⟨some root, assembly.anchored, assembly.cutOff.problem, false⟩
    | token :: rest =>
      let behind := if token.kind == .documentEnd then rest else token :: rest
      let further := behind.dropWhile fun next => next.kind == .documentEnd
      ⟨some root, assembly.anchored, none,
        (further.head?.map Token.kind) != some .streamEnd⟩

/-- Reads the node of a document that starts with its own mark. -/
def readContent (fuel : Nat) (assembly : Assembly) : Node × Assembly :=
  match assembly.tokens with
  | [] => (.broken, assembly.cutOff)
  | token :: _ =>
    if opensDocument token.kind || token.kind == .documentEnd || token.kind == .streamEnd then
      (.nothing token.start, assembly)
    else readNode fuel true false assembly

/-- Reads the first document. -/
def readDocument (fuel : Nat) (assembly : Assembly) : Document :=
  match assembly.tokens with
  | [] => ⟨some .broken, [], assembly.cutOff.problem, false⟩
  | token :: _ =>
    if token.kind == .streamEnd then ⟨none, [], none, false⟩
    else
      let directed := readDirectives false assembly.tokens assembly
      if directed.problem.isSome then ⟨some .broken, [], directed.problem, false⟩
      else if !opensDocument token.kind then
        let (root, after) := readNode fuel true false directed
        finishDocument root after
      else
        match directed.tokens with
        | [] => ⟨some .broken, [], directed.cutOff.problem, false⟩
        | opening :: _ =>
          if opening.kind != .documentStart then
            ⟨some .broken, [], some ⟨.missingDocumentStart, opening.start, none⟩, false⟩
          else
            let (root, after) := readContent fuel directed.skip
            finishDocument root after

end Assembly

/-- The first document of a text.  Every token is read in a bounded number of steps. -/
def Document.ofText (text : List Char) : Document :=
  let stream := Stream.ofText text
  Assembly.readDocument (4 * stream.tokens.length + 8) (.ofStream stream)

end TimeoutAudit.Yaml
