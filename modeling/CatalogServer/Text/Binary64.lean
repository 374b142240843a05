/-!
# Shortest decimal spelling of a real number

A number with a fraction is kept with the precision of a binary number of
sixty-four bits and written with the fewest decimal digits that read back
as the same binary number.  Both steps are exact arithmetic on natural
numbers: rounding a decimal to the nearest binary number, half-way cases to
the even one, and choosing the shortest decimal inside the interval of
numbers that round to it.
-/

namespace CatalogServer.Text

/-- The number `significand * 2 ^ exponent`. -/
structure Binary64 where
  significand : Nat
  exponent : Int
  deriving DecidableEq, Repr

/-- The quotient rounded to the nearest number, a half to the even one. -/
def roundQuotient (numerator denominator : Nat) : Nat :=
  let quotient := numerator / denominator
  let twice := 2 * (numerator % denominator)
  if twice < denominator then quotient
  else if denominator < twice then quotient + 1
  else if quotient % 2 == 0 then quotient
  else quotient + 1

def decimalLength (value : Nat) : Nat :=
  (Nat.toDigits 10 value).length

/-- A number `digits * base ^ exponent` as a fraction. -/
def powerFraction (base digits : Nat) (exponent : Int) : Nat × Nat :=
  if 0 ≤ exponent then (digits * base.pow exponent.toNat, 1)
  else (digits, base.pow (-exponent).toNat)

namespace Binary64

/-- Two to the power of fifty-three, which significands stay below. -/
def significandBound : Nat := 0x20000000000000

/-- Two to the power of fifty-two, the least significand of fifty-three
bits. -/
def normalBound : Nat := 0x10000000000000

def minExponent : Int := -1074

def maxExponent : Int := 971

/-- A fraction divided by a power of two, as a fraction. -/
def scale (numerator denominator : Nat) (exponent : Int) : Nat × Nat :=
  if 0 ≤ exponent then (numerator, denominator * Nat.pow 2 exponent.toNat)
  else (numerator * Nat.pow 2 (-exponent).toNat, denominator)

/-- The exponent for which a fraction has a significand of fifty-three bits,
or the smallest exponent. -/
def exponentFor (numerator denominator : Nat) : Int :=
  let guess := max ((numerator.log2 : Int) - denominator.log2 - 53) minExponent
  let fits := fun exponent =>
    let (top, bottom) := scale numerator denominator exponent
    top / bottom < significandBound
  if fits guess then guess else if fits (guess + 1) then guess + 1 else guess + 2

/-- The binary number nearest to a positive fraction, unless it is too
large. -/
def ofFraction? (numerator denominator : Nat) : Option Binary64 :=
  let exponent := exponentFor numerator denominator
  let (top, bottom) := scale numerator denominator exponent
  let significand := roundQuotient top bottom
  let rounded : Binary64 :=
    if significand == significandBound then ⟨normalBound, exponent + 1⟩
    else ⟨significand, exponent⟩
  if rounded.exponent ≤ maxExponent then some rounded else none

/-- The binary number nearest to `digits * 10 ^ exponent`, unless it is too
large. -/
def ofDecimal? (digits : Nat) (exponent : Int) : Option Binary64 :=
  let magnitude := exponent + decimalLength digits
  if digits == 0 || magnitude < -330 then
    some ⟨0, minExponent⟩
  else if 310 < magnitude then
    none
  else
    let (numerator, denominator) := powerFraction 10 digits exponent
    ofFraction? numerator denominator

/-- Order of `digits * 10 ^ exponent` and `quarters * 2 ^ power`. -/
def compareDecimal (digits : Nat) (exponent : Int) (quarters : Nat) (power : Int) : Ordering :=
  let (left, leftBottom) := powerFraction 10 digits exponent
  let (right, rightBottom) := powerFraction 2 quarters power
  compare (left * rightBottom) (right * leftBottom)

def isRoundedFrom (number : Binary64) (digits : Nat) (exponent : Int) : Bool :=
  let quarters := 4 * number.significand
  let power := number.exponent - 2
  let below :=
    if number.significand == normalBound && number.exponent != minExponent then quarters - 1
    else quarters - 2
  let low := compareDecimal digits exponent below power
  let high := compareDecimal digits exponent (quarters + 2) power
  if number.significand % 2 == 0 then low != .lt && high != .gt
  else low == .gt && high == .lt

/-- The decimal with the given last place nearest to a binary number among
those that round to it. -/
def decimalAt? (number : Binary64) (place : Int) : Option (Nat × Int) :=
  let (top, bottom) := powerFraction 2 number.significand number.exponent
  let (unitTop, unitBottom) := powerFraction 10 1 place
  let nearest := roundQuotient (top * unitBottom) (bottom * unitTop)
  let floor := (top * unitBottom) / (bottom * unitTop)
  let candidates := [nearest, floor, floor + 1]
  (candidates.find? (number.isRoundedFrom · place)).map (·, place)

/-- Removes the zeros at the end of a decimal. -/
def stripZeros : (fuel : Nat) → Nat × Int → Nat × Int
  | 0, decimal => decimal
  | fuel + 1, (digits, exponent) =>
      if digits != 0 && digits % 10 == 0 then stripZeros fuel (digits / 10, exponent + 1)
      else (digits, exponent)

/-- The decimal with the fewest digits that rounds to a binary number. -/
def shortestDecimal (number : Binary64) : Nat × Int :=
  let (top, bottom) := powerFraction 2 number.significand number.exponent
  let highest : Int := (decimalLength top : Int) - decimalLength bottom + 1
  let places : List Int := (List.range 22).map fun (count : Nat) => highest - (count : Int)
  let found := places.findSome? number.decimalAt?
  stripZeros 400 (found.getD (0, 0))

end Binary64

/-- Writes a decimal: with a point for magnitudes between a hundred-thousandth
and ten to the sixteenth, in scientific notation otherwise. -/
def spellDecimal (digits : Nat) (exponent : Int) : String :=
  let figures := Nat.toDigits 10 digits
  let count := figures.length
  let point : Int := count + exponent
  let spelled : List Char :=
    if digits == 0 then
      "0.0".toList
    else if 0 ≤ exponent && point ≤ 16 then
      figures ++ List.replicate exponent.toNat '0' ++ ".0".toList
    else if 0 < point && point ≤ 16 then
      figures.take point.toNat ++ '.' :: figures.drop point.toNat
    else if -5 < point && point ≤ 0 then
      "0.".toList ++ List.replicate (-point).toNat '0' ++ figures
    else
      let mantissa :=
        if count == 1 then figures else figures.take 1 ++ '.' :: figures.drop 1
      mantissa ++ 'e' :: (toString (point - 1)).toList
  String.ofList spelled

/-- The shortest spelling of the real number nearest to a decimal, unless the
decimal is too large. -/
def spellReal? (negative : Bool) (digits : Nat) (exponent : Int) : Option String :=
  (Binary64.ofDecimal? digits exponent).map fun number =>
    let (shortDigits, shortExponent) :=
      if number.significand == 0 then (0, 0) else number.shortestDecimal
    let sign := if negative then "-" else ""
    sign ++ spellDecimal shortDigits shortExponent

end CatalogServer.Text
