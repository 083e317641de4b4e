/-!
# Decimal texts and binary numbers

A decimal text names a number `significand * 10 ^ exponent`.  It is rounded to the
nearest number `significand * 2 ^ exponent` that 53 bits can hold, half-way cases to
the even one.  Such a number is written with the fewest digits that round back to
it: the coarsest power of ten is taken that has a multiple in the interval of all
numbers that round to it.  All comparisons are between natural numbers.
-/

set_option autoImplicit false

namespace TimeoutAudit

/-- A finite number `(-1) ^ negative * significand * 2 ^ exponent`. -/
structure Double where
  negative : Bool
  significand : Nat
  exponent : Int
deriving DecidableEq, Repr

/-- A number `(-1) ^ negative * significand * 10 ^ exponent`. -/
structure Decimal where
  negative : Bool
  significand : Nat
  exponent : Int
deriving DecidableEq, Repr

namespace Decimal

/-! ## Reading -/

/-- The value of decimal digits. -/
def digitsValue (digits : List Char) : Nat :=
  digits.foldl (fun value digit => value * 10 + (digit.toNat - 48)) 0

/-- An exponent, with an optional sign and at least one digit. -/
def exponent? (text : List Char) : Option Int :=
  let (negative, digits) :=
    match text with
    | '-' :: rest => (true, rest)
    | '+' :: rest => (false, rest)
    | other => (false, other)
  if digits.isEmpty || !digits.all Char.isDigit then none
  else some (if negative then -(digitsValue digits : Int) else digitsValue digits)

/-- A number without sign: digits with a point among them, of which there is at
least one, and an optional exponent. -/
def ofUnsigned? (negative : Bool) (text : List Char) : Option Decimal :=
  let whole := text.takeWhile Char.isDigit
  let afterWhole := text.dropWhile Char.isDigit
  let (fraction, rest) :=
    match afterWhole with
    | '.' :: after => (after.takeWhile Char.isDigit, after.dropWhile Char.isDigit)
    | other => ([], other)
  if whole.isEmpty && fraction.isEmpty then none
  else
    let value := digitsValue (whole ++ fraction)
    match rest with
    | [] => some ⟨negative, value, -fraction.length⟩
    | mark :: digits =>
      if mark == 'e' || mark == 'E' then
        (exponent? digits).map fun exponent => ⟨negative, value, exponent - fraction.length⟩
      else none

/-- The number that a text names. -/
def ofText? (text : List Char) : Option Decimal :=
  match text with
  | '-' :: rest => ofUnsigned? true rest
  | '+' :: rest => ofUnsigned? false rest
  | other => ofUnsigned? false other

/-! ## Writing -/

/-- The digits of a number, with zeros in front if they are too few. -/
def paddedDigits (count value : Nat) : List Char :=
  let digits := Nat.toDigits 10 value
  List.replicate (count - digits.length) '0' ++ digits

/-- A number without an exponent; one digit at least stands on both sides of the point. -/
def positional (number : Decimal) : String :=
  let sign := if number.negative then "-" else ""
  let body : List Char :=
    if 0 ≤ number.exponent then
      Nat.toDigits 10 number.significand
        ++ (if number.significand == 0 then [] else List.replicate number.exponent.toNat '0')
        ++ ['.', '0']
    else
      let places := (-number.exponent).toNat
      let digits := paddedDigits (places + 1) number.significand
      digits.take (digits.length - places) ++ '.' :: digits.drop (digits.length - places)
  sign ++ String.ofList body

end Decimal

namespace Double

/-! ## Rounding -/

/-- The number of bits of a significand. -/
def bits : Nat := 53

/-- The least exponent. -/
def leastExponent : Int := -1074

/-- The greatest exponent. -/
def greatestExponent : Int := 971

/-- The quotient rounded to the nearest number, half-way cases to the even one. -/
def roundedQuotient (numerator denominator : Nat) : Nat :=
  let quotient := numerator / denominator
  let twice := 2 * (numerator % denominator)
  if denominator < twice || (twice == denominator && quotient % 2 == 1) then quotient + 1
  else quotient

/-- A fraction in units of a power of two. -/
def inUnits (numerator denominator : Nat) (exponent : Int) : Nat × Nat :=
  (numerator * Nat.pow 2 (-exponent).toNat, denominator * Nat.pow 2 exponent.toNat)

/-- The exponent for a positive fraction: the significand has all its bits, or the
exponent is the least. -/
def exponentFor (numerator denominator : Nat) : Int :=
  let estimate : Int := (Nat.log2 numerator : Int) - Nat.log2 denominator - bits
  let fits (exponent : Int) : Bool :=
    let (above, below) := inUnits numerator denominator exponent
    above / below < Nat.pow 2 bits
  max leastExponent (if fits estimate then estimate else estimate + 1)

/-- The nearest number to a fraction; none if it is out of range. -/
def ofFraction? (negative : Bool) (numerator denominator : Nat) : Option Double :=
  if numerator == 0 then some ⟨negative, 0, leastExponent⟩
  else
    let exponent := exponentFor numerator denominator
    let (above, below) := inUnits numerator denominator exponent
    let rounded := roundedQuotient above below
    let carried := rounded == Nat.pow 2 bits
    let significand := if carried then Nat.pow 2 (bits - 1) else rounded
    let final := if carried then exponent + 1 else exponent
    if greatestExponent < final then none else some ⟨negative, significand, final⟩

/-- The nearest number to a decimal one; none if it is out of range.  Exponents far
beyond the range need no arithmetic. -/
def ofDecimal? (number : Decimal) : Option Double :=
  let magnitude : Int := (Nat.toDigits 10 number.significand).length + number.exponent
  if number.significand == 0 || magnitude < -400 then some ⟨number.negative, 0, leastExponent⟩
  else if 400 < magnitude then none
  else
    ofFraction? number.negative (number.significand * Nat.pow 10 number.exponent.toNat)
      (Nat.pow 10 (-number.exponent).toNat)

/-! ## The shortest decimal -/

/-- Compares `count * 10 ^ tens` with `parts * 2 ^ twos`. -/
def compareTo (count : Nat) (tens : Int) (parts : Nat) (twos : Int) : Ordering :=
  compare (count * Nat.pow 10 tens.toNat * Nat.pow 2 (-twos).toNat)
    (parts * Nat.pow 2 twos.toNat * Nat.pow 10 (-tens).toNat)

/-- Whether `count * 10 ^ tens` rounds to a number.  In quarters of its last place,
the interval reaches two below it, but only one at a power of two, and two above;
its ends belong to it if the significand is even. -/
def rounds (number : Double) (count : Nat) (tens : Int) : Bool :=
  let quarters := 4 * number.significand
  let twos := number.exponent - 2
  let atPower := number.significand == Nat.pow 2 (bits - 1) && leastExponent < number.exponent
  let low := compareTo count tens (quarters - (if atPower then 1 else 2)) twos
  let high := compareTo count tens (quarters + 2) twos
  let closed := number.significand % 2 == 0
  (low == .gt || (closed && low == .eq)) && (high == .lt || (closed && high == .eq))

/-- The multiple of a power of ten that rounds to a number, the nearer one if there
are two beside it. -/
def multiple? (number : Double) (tens : Int) : Option Nat :=
  let below :=
    (number.significand * Nat.pow 2 number.exponent.toNat * Nat.pow 10 (-tens).toNat)
      / (Nat.pow 10 tens.toNat * Nat.pow 2 (-number.exponent).toNat)
  let hasBelow := below != 0 && number.rounds below tens
  let hasAbove := number.rounds (below + 1) tens
  if hasBelow && hasAbove then
    -- The number lies above the middle of both if it is greater than half their sum.
    let middle := compareTo (2 * below + 1) tens (2 * number.significand) number.exponent
    some (if middle == .lt then below + 1 else below)
  else if hasBelow then some below
  else if hasAbove then some (below + 1)
  else none

/-- Tries one power of ten after another, from the coarsest on. -/
def shortestFrom (number : Double) : Nat → Int → Decimal
  | 0, tens => ⟨number.negative, 0, tens⟩
  | fuel + 1, tens =>
    match number.multiple? tens with
    | some count => ⟨number.negative, count, tens⟩
    | none => shortestFrom number fuel (tens - 1)

/-- The decimal number with the fewest digits that rounds to a number. -/
def shortest (number : Double) : Decimal :=
  if number.significand == 0 then ⟨number.negative, 0, 0⟩ else shortestFrom number 640 309

end Double

end TimeoutAudit
