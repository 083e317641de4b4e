/-!
# Places and problems in a YAML text

A problem has a place, and most have a context: the construct that was being
read and where it began.
-/

set_option autoImplicit false

namespace TimeoutAudit.Yaml

/-- A place in a text, counted from zero. -/
structure Mark where
  index : Nat
  line : Nat
  column : Nat
deriving DecidableEq, Repr, Inhabited

namespace Mark

/-- The first place of a text. -/
def start : Mark := ⟨0, 0, 0⟩

/-- Whether a place is the first of its text. -/
def isStart (mark : Mark) : Bool := mark.line == 0 && mark.column == 0

/-- A place in words, counted from one. -/
def text (mark : Mark) : String :=
  if mark.isStart then "position " ++ toString mark.index
  else "line " ++ toString (mark.line + 1) ++ " column " ++ toString (mark.column + 1)

/-- A place behind a message; the first place is not worth saying. -/
def suffix (mark : Mark) : String := if mark.isStart then "" else " at " ++ mark.text

end Mark

/-- What is wrong with a text. -/
inductive Cause where
  | controlCharacter
  | unknownCharacter
  | missingColon
  | sequenceNotAllowed
  | keyNotAllowed
  | valueNotAllowed
  | unknownDirective
  | missingDirectiveName
  | nonAlphabeticDirective
  | missingLineEnd
  | missingVersion
  | longVersion
  | missingVersionDot
  | missingTagHandleMark
  | missingTagDirectiveBlank
  | missingAnchorName
  | missingTagEnd
  | missingTagBlank
  | missingTagUri
  | missingUriEscape
  | wrongLeadOctet
  | wrongTrailOctet
  | zeroIndent
  | tabIndent
  | documentInQuotes
  | endInQuotes
  | unknownEscape
  | missingHexadecimal
  | invalidCodePoint
  | colonInFlow
  | tabInScalar
  | missingDocumentStart
  | incompatibleVersion
  | repeatedVersion
  | repeatedTag
  | undefinedTag
  | missingContent
  | missingDash
  | missingKey
  | missingCommaOrBracket
  | missingCommaOrBrace
  | unknownAnchor
deriving DecidableEq, Repr

/-- The wording of a cause. -/
def Cause.message : Cause → String
  | controlCharacter => "control characters are not allowed"
  | unknownCharacter => "found character that cannot start any token"
  | missingColon => "could not find expected ':'"
  | sequenceNotAllowed => "block sequence entries are not allowed in this context"
  | keyNotAllowed => "mapping keys are not allowed in this context"
  | valueNotAllowed => "mapping values are not allowed in this context"
  | unknownDirective => "found unknown directive name"
  | missingDirectiveName => "could not find expected directive name"
  | nonAlphabeticDirective => "found unexpected non-alphabetical character"
  | missingLineEnd => "did not find expected comment or line break"
  | missingVersion => "did not find expected version number"
  | longVersion => "found extremely long version number"
  | missingVersionDot => "did not find expected digit or '.' character"
  | missingTagHandleMark => "did not find expected '!'"
  | missingTagDirectiveBlank => "did not find expected whitespace"
  | missingAnchorName => "did not find expected alphabetic or numeric character"
  | missingTagEnd => "did not find the expected '>'"
  | missingTagBlank => "did not find expected whitespace or line break"
  | missingTagUri => "did not find expected tag URI"
  | missingUriEscape => "did not find URI escaped octet"
  | wrongLeadOctet => "found an incorrect leading UTF-8 octet"
  | wrongTrailOctet => "found an incorrect trailing UTF-8 octet"
  | zeroIndent => "found an indentation indicator equal to 0"
  | tabIndent => "found a tab character where an indentation space is expected"
  | documentInQuotes => "found unexpected document indicator"
  | endInQuotes => "found unexpected end of stream"
  | unknownEscape => "found unknown escape character"
  | missingHexadecimal => "did not find expected hexdecimal number"
  | invalidCodePoint => "found invalid Unicode character escape code"
  | colonInFlow => "found unexpected ':'"
  | tabInScalar => "found a tab character that violates indentation"
  | missingDocumentStart => "did not find expected <document start>"
  | incompatibleVersion => "found incompatible YAML document"
  | repeatedVersion => "found duplicate %YAML directive"
  | repeatedTag => "found duplicate %TAG directive"
  | undefinedTag => "found undefined tag handle"
  | missingContent => "did not find expected node content"
  | missingDash => "did not find expected '-' indicator"
  | missingKey => "did not find expected key"
  | missingCommaOrBracket => "did not find expected ',' or ']'"
  | missingCommaOrBrace => "did not find expected ',' or '\x7d'"
  | unknownAnchor => "unknown anchor"

/-- What was being read when a problem was met. -/
inductive Context where
  | nextToken
  | simpleKey
  | directive
  | versionDirective
  | tagDirective
  | tagDirectiveHandle
  | tagDirectiveHandleEnd
  | tagDirectiveUri
  | anchor
  | alias
  | tag
  | tagUri
  | blockScalar
  | quotedScalar
  | quotedEscape
  | plainScalar
  | node
  | blockNode
  | flowNode
  | blockCollection
  | blockMapping
  | flowSequence
  | flowMapping
deriving DecidableEq, Repr

/-- The wording of a context. -/
def Context.message : Context → String
  | nextToken => "while scanning for the next token"
  | simpleKey => "while scanning a simple key"
  | directive => "while scanning a directive"
  | versionDirective => "while scanning a %YAML directive"
  | tagDirective => "while scanning a %TAG directive"
  | tagDirectiveHandle => "while scanning a tag directive"
  | tagDirectiveHandleEnd => "while parsing a tag directive"
  | tagDirectiveUri => "while parsing a %TAG directive"
  | anchor => "while scanning an anchor"
  | .alias => "while scanning an alias"
  | tag => "while scanning a tag"
  | tagUri => "while parsing a tag"
  | blockScalar => "while scanning a block scalar"
  | quotedScalar => "while scanning a quoted scalar"
  | quotedEscape => "while parsing a quoted scalar"
  | plainScalar => "while scanning a plain scalar"
  | node => "while parsing a node"
  | blockNode => "while parsing a block node"
  | flowNode => "while parsing a flow node"
  | blockCollection => "while parsing a block collection"
  | blockMapping => "while parsing a block mapping"
  | flowSequence => "while parsing a flow sequence"
  | flowMapping => "while parsing a flow mapping"

/-- A problem at a place of a text. -/
structure Problem where
  cause : Cause
  mark : Mark
  context : Option (Context × Mark)
deriving DecidableEq, Repr

/-- A problem in words.  The beginning of the context is said only where it is
another place than that of the problem. -/
def Problem.message (problem : Problem) : String :=
  let place :=
    if !problem.mark.isStart then " at " ++ problem.mark.text
    else if problem.mark.index != 0 then " at position " ++ toString problem.mark.index
    else ""
  let background :=
    match problem.context with
    | none => ""
    | some (context, mark) =>
      ", " ++ context.message
        ++ (if mark.line == problem.mark.line && mark.column == problem.mark.column then ""
          else mark.suffix)
  problem.cause.message ++ place ++ background

end TimeoutAudit.Yaml
