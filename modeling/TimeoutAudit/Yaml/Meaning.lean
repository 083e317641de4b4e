import TimeoutAudit.Decimal.Double
import TimeoutAudit.Text.Quoted
import TimeoutAudit.Yaml.Node

/-!
# What a scalar means

A plain scalar may be nothing, a truth value or a number; any other is a text.
A quoted scalar is a text.  A tag of the standard types says what a scalar has to
be, and any other tag makes it a text.
-/

set_option autoImplicit false

namespace TimeoutAudit.Yaml

/-- How many bits an integer needs. -/
inductive Width where
  | word
  | unsignedDouble
  | signedDouble
deriving DecidableEq, Repr

/-- A floating point number. -/
inductive FloatValue where
  | finite (value : Double)
  | infinite (negative : Bool)
  | notANumber
deriving DecidableEq, Repr

/-- What stands in a place of a document. -/
inductive Meaning where
  | nothing
  | boolean (value : Bool)
  | integer (value : Int) (width : Width)
  | float (value : FloatValue)
  | text (value : List Char)
  | sequence
  | mapping
  /-- A text that is not what its tag says it is. -/
  | mistagged (value : List Char) (wanted : String)
deriving Repr

namespace Meaning

/-! ## Wording -/

/-- A floating point number in words. -/
def floatText : FloatValue → String
  | .finite value => value.shortest.positional
  | .infinite negative => if negative then "-inf" else "inf"
  | .notANumber => "NaN"

/-- A value in words. -/
def message : Meaning → String
  | nothing => "unit value"
  | boolean value => "boolean \x60" ++ (if value then "true" else "false") ++ "\x60"
  | integer value width =>
    "integer \x60" ++ toString value ++ "\x60"
      ++ (match width with
        | .word => ""
        | .unsignedDouble => " as u128"
        | .signedDouble => " as i128")
  | float value => "floating point \x60" ++ floatText value ++ "\x60"
  | text value => "string " ++ Text.quoted (String.ofList value)
  | sequence => "sequence"
  | mapping => "map"
  | mistagged value _ => "string " ++ Text.quoted (String.ofList value)

/-! ## Nothing and truth values -/

/-- Whether a text is written for nothing. -/
def isNothing (text : List Char) : Bool :=
  ["null".toList, "Null".toList, "NULL".toList, ['~']].contains text

/-- The truth value that a text names. -/
def boolean? (text : List Char) : Option Bool :=
  if ["true".toList, "True".toList, "TRUE".toList].contains text then some true
  else if ["false".toList, "False".toList, "FALSE".toList].contains text then some false
  else none

/-! ## Integers -/

/-- Whether a text has only digits behind its sign, and a zero in front of others:
such a text names no number. -/
def hasLeadingZero (text : List Char) : Bool :=
  let unsigned :=
    match text with
    | '-' :: rest => rest
    | '+' :: rest => rest
    | other => other
  2 ≤ unsigned.length && unsigned.head? == some '0' && unsigned.all Char.isDigit

/-- The value of a digit in a base. -/
def digit? (base : Nat) (c : Char) : Option Nat :=
  let value :=
    if '0' ≤ c && c ≤ '9' then c.toNat - 48
    else if 'a' ≤ c && c ≤ 'z' then c.toNat - 87
    else if 'A' ≤ c && c ≤ 'Z' then c.toNat - 55
    else base
  if value < base then some value else none

/-- The number written with digits in a base. -/
def natural? (base : Nat) (digits : List Char) : Option Nat :=
  if digits.isEmpty then none
  else
    digits.foldl (fun value c => do
      let known ← value
      let digit ← digit? base c
      return known * base + digit) (some 0)

/-- The base that two characters announce. -/
def base? (mark : Char) : Option Nat :=
  match mark with
  | 'x' => some 16
  | 'o' => some 8
  | 'b' => some 2
  | _ => none

/-- The number that a text without a sign names. -/
def unsigned? (text : List Char) : Option Nat :=
  let announced :=
    match text with
    | '0' :: mark :: digits => (base? mark).bind fun base => natural? base digits
    | _ => none
  match announced with
  | some value => some value
  | none => if hasLeadingZero text then none else natural? 10 text

/-- The integer that a text names; a word holds it, or two do. -/
def integer? (text : List Char) : Option Meaning :=
  let fit (value : Int) : Option Meaning :=
    if -Int.pow 2 63 ≤ value && value < Int.pow 2 64 then some (.integer value .word)
    else if 0 ≤ value && value < Int.pow 2 128 then some (.integer value .unsignedDouble)
    else if value < 0 && -Int.pow 2 127 ≤ value then some (.integer value .signedDouble)
    else none
  match text with
  | '-' :: rest => (unsigned? rest).bind fun value => fit (-(value : Int))
  | '+' :: rest => (unsigned? rest).bind fun value => fit value
  | other => (unsigned? other).bind fun value => fit value

/-! ## Floating point numbers -/

/-- Whether a text names infinity. -/
def isInfinity (text : List Char) : Bool :=
  [".inf".toList, ".Inf".toList, ".INF".toList].contains text

/-- The floating point number that a text names. -/
def float? (text : List Char) : Option FloatValue :=
  let unsigned :=
    match text with
    | '+' :: rest => rest
    | other => other
  if text.head? == some '+' && (unsigned.head? == some '+' || unsigned.head? == some '-') then none
  else if isInfinity unsigned then some (.infinite false)
  else if text.head? == some '-' && isInfinity text.tail then some (.infinite true)
  else if [".nan".toList, ".NaN".toList, ".NAN".toList].contains text then some .notANumber
  else ((Decimal.ofText? unsigned).bind Double.ofDecimal?).map .finite

/-! ## Scalars -/

/-- What a plain scalar without a tag means. -/
def ofPlain (value : List Char) : Meaning :=
  if value.isEmpty || isNothing value then .nothing
  else
    match boolean? value with
    | some found => .boolean found
    | none =>
      match integer? value with
      | some found => found
      | none =>
        match (if hasLeadingZero value then none else float? value) with
        | some found => .float found
        | none => .text value

/-- The tag of a standard type. -/
def standardTag (name : String) : List Char := ("tag:yaml.org,2002:" ++ name).toList

/-- What a scalar with a tag means. -/
def ofTagged (tag value : List Char) : Meaning :=
  if tag == standardTag "bool" then
    ((boolean? value).map .boolean).getD (.mistagged value "a boolean")
  else if tag == standardTag "int" then (integer? value).getD (.mistagged value "an integer")
  else if tag == standardTag "float" then
    ((float? value).map .float).getD (.mistagged value "a float")
  else if tag == standardTag "null" then
    if isNothing value then .nothing else .mistagged value "null"
  else .text value

/-- What a scalar means. -/
def ofScalar (style : Style) (tag : Option (List Char)) (value : List Char) : Meaning :=
  match tag with
  | some found => ofTagged found value
  | none => if style == .plain then ofPlain value else .text value

/-- The truth value of a scalar.  It is plain, or a block with the tag of truth values. -/
def flag? (style : Style) (tag : Option (List Char)) (value : List Char) : Option Bool :=
  if style == .plain || (style == .literal && tag == some (standardTag "bool")) then boolean? value
  else none

end Meaning

end TimeoutAudit.Yaml
