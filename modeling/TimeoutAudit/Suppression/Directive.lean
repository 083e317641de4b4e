import TimeoutAudit.Text.Blank

/-!
# Directives in comments

A directive stands in a comment of one of three styles:

    // timeoutguard:ignore <rule> - <reason>
    # timeoutguard:ignore-next-line <rule> - <reason>
    /* timeoutguard:ignore-file <rule> - <reason> */

The rule is one word, and the reason may be absent.  In a block comment the rule
gives up characters at its end where that is the only way to reach the closing
mark, as in `/* timeoutguard:ignore rule*/`.
-/

set_option autoImplicit false

namespace TimeoutAudit

open Text (isBlank trimLeft trim)

/-- What a directive asks for. -/
inductive Keyword where
  | ignore
  | ignoreNextLine
  | ignoreFile
deriving DecidableEq, Repr

/-- How a comment is written. -/
inductive CommentStyle where
  | block
  | slashes
  | hash
deriving DecidableEq, Repr

/-- A directive, with the text of its line in front of the comment. -/
structure Directive where
  before : List Char
  keyword : Keyword
  rule : List Char
  reason : List Char
deriving DecidableEq, Repr

namespace Keyword

/-- The spelling of a keyword. -/
def spelling : Keyword → List Char
  | ignore => "ignore".toList
  | ignoreNextLine => "ignore-next-line".toList
  | ignoreFile => "ignore-file".toList

/-- Every keyword. -/
def all : List Keyword := [ignoreFile, ignoreNextLine, ignore]

end Keyword

namespace CommentStyle

/-- The mark that opens a comment. -/
def opener : CommentStyle → List Char
  | block => ['/', '*']
  | slashes => ['/', '/']
  | hash => ['#']

end CommentStyle

namespace Directive

/-- The text after the given beginning. -/
def strip? (beginning text : List Char) : Option (List Char) :=
  if beginning.isPrefixOf text then some (text.drop beginning.length) else none

/-- The word in front of every keyword. -/
def marker : List Char := "timeoutguard:".toList

/-- The mark that closes a block comment. -/
def blockEnd : List Char := ['*', '/']

/-- The keyword at the front; a blank must follow it.  The rest starts with the rule. -/
def keyword? (text : List Char) : Option (Keyword × List Char) :=
  Keyword.all.findSome? fun keyword =>
    match strip? keyword.spelling text with
    | some (c :: rest) => if isBlank c then some (keyword, trimLeft rest) else none
    | _ => none

/-- The rule and reason of a line comment, which runs to the end of the line. -/
def openTail (rule after : List Char) : List Char × List Char :=
  match trimLeft after with
  | '-' :: reason => (rule, trim reason)
  | _ => (rule, [])

/-- The text up to the closing mark of a block comment and the blanks before it. -/
def untilBlockEnd? : List Char → Option (List Char)
  | [] => none
  | c :: rest =>
    if blockEnd.isPrefixOf (trimLeft (c :: rest)) then some []
    else (untilBlockEnd? rest).map (c :: ·)

/-- The reason in a block comment, read behind the rule. -/
def closedReason? (after : List Char) : Option (List Char) :=
  match trimLeft after with
  | '-' :: reason => (untilBlockEnd? (trimLeft reason)).map trim
  | other => if blockEnd.isPrefixOf other then some [] else none

/-- The rule and reason of a block comment.  The rule, whose characters are given
last one first, gives up characters until the closing mark can be reached. -/
def closedTail? : List Char → List Char → Option (List Char × List Char)
  | [], _ => none
  | last :: earlier, after =>
    match closedReason? after with
    | some reason => some ((last :: earlier).reverse, reason)
    | none => closedTail? earlier (last :: after)

/-- The directive of a comment that starts here. -/
def here? (style : CommentStyle) (text : List Char) : Option (Keyword × List Char × List Char) :=
  (strip? style.opener text).bind fun inside =>
    (strip? marker (trimLeft inside)).bind fun afterMarker =>
      (keyword? afterMarker).bind fun (keyword, tail) =>
        let rule := tail.takeWhile fun c => !isBlank c
        let after := tail.dropWhile fun c => !isBlank c
        if rule.isEmpty then none
        else
          match style with
          | .block => (closedTail? rule.reverse after).map fun found => (keyword, found)
          | _ => some (keyword, openTail rule after)

/-- The first directive of a style on a line. -/
def find? (style : CommentStyle) : List Char → Option Directive
  | [] => none
  | c :: rest =>
    match here? style (c :: rest) with
    | some (keyword, rule, reason) => some ⟨[], keyword, rule, reason⟩
    | none =>
      (find? style rest).map fun found => { found with before := c :: found.before }

end Directive

end TimeoutAudit
