/-!
# Findings and issues

A finding is what a detector says about one call.  An issue is a finding in a
file: detectors do not know which file they look at.
-/

set_option autoImplicit false

namespace TimeoutAudit

/-- How grave an issue is, the gravest first. -/
inductive Severity where
  | critical
  | high
  | medium
  | low
deriving DecidableEq, Repr

namespace Severity

/-- Every severity, the gravest first. -/
def all : List Severity := [critical, high, medium, low]

/-- The name used in data. -/
def name : Severity → String
  | critical => "critical"
  | high => "high"
  | medium => "medium"
  | low => "low"

/-- The name used in headings. -/
def title : Severity → String
  | critical => "Critical"
  | high => "High"
  | medium => "Medium"
  | low => "Low"

/-- The severity with the given name. -/
def ofName? (text : String) : Option Severity := all.find? fun severity => severity.name == text

/-- The place in the order from the gravest on. -/
def rank : Severity → Nat
  | critical => 0
  | high => 1
  | medium => 2
  | low => 3

/-- Whether a severity comes before another one. -/
def isGraver (first second : Severity) : Bool := first.rank < second.rank

/-- Severities with the gravest first. -/
def sort (severities : List Severity) : List Severity :=
  severities.mergeSort fun first second => !second.isGraver first

end Severity

/-- What is wrong with a call. -/
inductive IssueType where
  | missingTimeout
deriving DecidableEq, Repr

namespace IssueType

/-- The name used in data and in suppressions. -/
def name : IssueType → String
  | missingTimeout => "missing_timeout"

/-- The type with the given name. -/
def ofName? (text : String) : Option IssueType :=
  if text == missingTimeout.name then some missingTimeout else none

end IssueType

/-- A client library that makes HTTP requests. -/
inductive Library where
  | guzzle
  | symfony
  | curl
deriving DecidableEq, Repr

namespace Library

/-- Every library. -/
def all : List Library := [guzzle, symfony, curl]

/-- The name shown in reports. -/
def label : Library → String
  | guzzle => "Guzzle"
  | symfony => "Symfony HttpClient"
  | curl => "cURL"

/-- The library with the given name. -/
def ofLabel? (text : String) : Option Library := all.find? fun library => library.label == text

end Library

/-- What a detector says about one call. -/
structure Finding where
  line : Nat
  type : IssueType
  library : Library
  /-- The method or function that was called. -/
  method : String
  severity : Severity
  message : String
  suggestion : String
deriving DecidableEq, Repr

/-- A finding in a file. -/
structure Issue where
  file : String
  finding : Finding
deriving DecidableEq, Repr

/-- A file that could not be read or parsed. -/
structure SkippedFile where
  file : String
  reason : String
deriving DecidableEq, Repr

end TimeoutAudit
