import CatalogServer.Text.Numeral
import CatalogServer.Text.Utf8

/-!
# Percent encoding

In an address a byte can be written as a percent sign with two hexadecimal
digits.  Characters outside ASCII are written as the bytes of their UTF-8
encoding.
-/

namespace CatalogServer.Text

/-- The hexadecimal digit of a number below sixteen, in upper case. -/
def upperHexDigit (value : Nat) : Char :=
  if value < 10 then Char.ofNat ('0'.toNat + value) else Char.ofNat ('A'.toNat + (value - 10))

/-- A byte as a percent sign with two digits. -/
def percentByte (byte : UInt8) : List Char :=
  ['%', upperHexDigit (byte.toNat / 16), upperHexDigit (byte.toNat % 16)]

/-- A text with some characters percent-encoded, and all those that are not
printable ASCII. -/
def percentEncode (reserved : Char → Bool) (text : List Char) : List Char :=
  text.flatMap fun c =>
    if c.toNat < 0x20 || 0x7F ≤ c.toNat || reserved c then
      (encode [c]).flatMap percentByte
    else [c]

/-- The bytes of a text with percent-encoded bytes decoded.  A percent sign
without two digits stands for itself. -/
def percentDecode : List Char → List UInt8
  | [] => []
  | c :: rest =>
      match c, rest with
      | '%', high :: low :: behind =>
          match digitValue? 16 high, digitValue? 16 low with
          | some first, some second => (first * 16 + second).toUInt8 :: percentDecode behind
          | _, _ => encode ['%'] ++ percentDecode (high :: low :: behind)
      | other, behind => encode [other] ++ percentDecode behind

end CatalogServer.Text
