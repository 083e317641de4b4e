import TimeoutAudit.Finding
import TimeoutAudit.Suppression.Directive
import TimeoutAudit.Text.Lines

/-!
# Suppressions

A suppression silences issues of one file: on a line, on the next line, or
everywhere.  `suppressions` reads them off the comments of a file, at most one
from each line; `Suppression.split` divides issues into those that stay and
those that a suppression silences.
-/

set_option autoImplicit false

namespace TimeoutAudit

open Text (trim allBlank)

/-- Where a suppression applies. -/
inductive Scope where
  | line
  | nextLine
  | file
deriving DecidableEq, Repr

namespace Scope

/-- The name used in data. -/
def name : Scope → String
  | line => "line"
  | nextLine => "next_line"
  | file => "file"

/-- The scope with the given name. -/
def ofName? (text : String) : Option Scope := [line, nextLine, file].find? fun scope => scope.name == text

end Scope

/-- A request to silence issues. -/
structure Suppression where
  /-- The name of an issue type, or `*` for all of them. -/
  rule : String
  reason : String
  file : String
  /-- The line of the directive; zero for a whole file. -/
  line : Nat
  scope : Scope
deriving DecidableEq, Repr

/-- An issue with the suppression that silences it. -/
structure SuppressedIssue where
  issue : Issue
  suppression : Suppression
deriving DecidableEq, Repr

namespace Suppression

/-! ## Reading -/

/-- Directives for a whole file stand within so many lines of the top, or in the header. -/
def headerLines : Nat := 10

/-- Beginnings of lines of the header. -/
def headerBeginnings : List (List Char) :=
  ["<?php".toList, "//".toList, "#".toList, "/*".toList, "*".toList]

/-- Whether a trimmed line is blank, a comment or an opening tag. -/
def isHeaderLine (line : List Char) : Bool :=
  line.isEmpty || headerBeginnings.any fun beginning => beginning.isPrefixOf line

/-- The scope that a directive has, if it is accepted on its line. -/
def scope? (directive : Directive) (inHeader : Bool) (number : Nat) : Option Scope :=
  match directive.keyword with
  | .ignoreFile => if inHeader || number ≤ headerLines then some .file else none
  | .ignoreNextLine => some .nextLine
  | .ignore => some (if allBlank directive.before then .nextLine else .line)

/-- Styles of comments in the order in which they are tried. -/
def styles : List CommentStyle := [.block, .slashes, .hash]

/-- The suppression on a line. -/
def onLine? (file : String) (inHeader : Bool) (number : Nat) (line : List Char) :
    Option Suppression :=
  styles.findSome? fun style =>
    (Directive.find? style line).bind fun directive =>
      (scope? directive inHeader number).map fun scope => {
        rule := String.ofList directive.rule
        reason := String.ofList directive.reason
        file := file
        line := if scope == .file then 0 else number
        scope := scope }

/-- The suppressions on the lines from the given number on. -/
def fromLines (file : String) : Bool → Nat → List (List Char) → List Suppression
  | _, _, [] => []
  | inHeader, number, line :: others =>
    let stillHeader := inHeader && isHeaderLine (trim line)
    (onLine? file stillHeader number line).toList
      ++ fromLines file stillHeader (number + 1) others

/-! ## Applying -/

/-- Whether a suppression silences an issue. -/
def covers (suppression : Suppression) (issue : Issue) : Bool :=
  issue.file == suppression.file
    && (suppression.rule == "*"
      || IssueType.ofName? suppression.rule == some issue.finding.type)
    && match suppression.scope with
      | .file => true
      | .line => issue.finding.line == suppression.line
      | .nextLine => issue.finding.line == suppression.line + 1

/-- Issues that stay, and issues with the first suppression that silences each. -/
def split (suppressions : List Suppression) : List Issue → List Issue × List SuppressedIssue
  | [] => ([], [])
  | issue :: others =>
    let (active, silenced) := split suppressions others
    match suppressions.find? (·.covers issue) with
    | some suppression => (active, ⟨issue, suppression⟩ :: silenced)
    | none => (issue :: active, silenced)

end Suppression

/-- The suppressions in the comments of a file. -/
def suppressions (file content : String) : List Suppression :=
  Suppression.fromLines file true 1 (Text.lines content.toList)

end TimeoutAudit
