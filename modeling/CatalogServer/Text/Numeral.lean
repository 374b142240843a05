/-!
# Unsigned numerals

Character references, byte values and hexadecimal settings are written as
numerals in base ten or sixteen.  A numeral is read from the left, so the
first character that is no digit and the first digit that exceeds the
bound are told apart by their order.
-/

namespace CatalogServer.Text

/-- Why a numeral cannot be read. -/
inductive NumeralError where
  | empty
  /-- A character is not a digit of the base. -/
  | invalidDigit
  | overflow
  deriving DecidableEq, Repr

def NumeralError.message : NumeralError → String
  | .empty => "cannot parse integer from empty string"
  | .invalidDigit => "invalid digit found in string"
  | .overflow => "number too large to fit in target type"

/-- Value of a digit in a base up to sixteen, in either letter case. -/
def digitValue? (base : Nat) (c : Char) : Option Nat :=
  let value :=
    if '0' ≤ c && c ≤ '9' then some (c.toNat - '0'.toNat)
    else if 'a' ≤ c && c ≤ 'f' then some (c.toNat - 'a'.toNat + 10)
    else if 'A' ≤ c && c ≤ 'F' then some (c.toNat - 'A'.toNat + 10)
    else none
  value.filter (· < base)

def readDigits (base bound : Nat) (value : Nat) : List Char → Except NumeralError Nat
  | [] => .ok value
  | c :: rest =>
      match digitValue? base c with
      | none => .error .invalidDigit
      | some digit =>
          if value * base + digit ≤ bound then
            readDigits base bound (value * base + digit) rest
          else
            .error .overflow

/-- Reads a numeral without sign whose value is at most `bound`. -/
def readNumeral (base bound : Nat) : List Char → Except NumeralError Nat
  | [] => .error .empty
  | digits => readDigits base bound 0 digits

/-- Reads a numeral that may start with a plus sign. -/
def readSignedNumeral (base bound : Nat) : List Char → Except NumeralError Nat
  | ['+'] => .error .invalidDigit
  | '+' :: digits => readNumeral base bound digits
  | digits => readNumeral base bound digits

def maxWord32 : Nat := 0xFFFFFFFF

/-- The character with a code point, if the number is one. -/
def charOfCode? (code : Nat) : Option Char :=
  if valid : code.isValidChar then some (Char.ofNatAux code valid) else none

/-- The digits of a number in base sixteen, in lower case. -/
def hexDigits (value : Nat) : List Char :=
  Nat.toDigits 16 value

end CatalogServer.Text
