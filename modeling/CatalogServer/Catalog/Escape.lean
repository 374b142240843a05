import CatalogServer.Text.Numeral

/-!
# Escaped text

Markup characters and quotes are written as references.  Control characters
other than tab, line feed and carriage return cannot stand in XML text: in
the content of an element they become `byte` elements, in attribute values,
where elements cannot stand, they become character references, and so do
the three blanks there.
-/

namespace CatalogServer.Escape

open Text

def entity? (c : Char) : Option (List Char) :=
  if c == '&' then some "&amp;".toList
  else if c == '<' then some "&lt;".toList
  else if c == '>' then some "&gt;".toList
  else if c == '"' then some "&quot;".toList
  else if c == '\'' then some "&apos;".toList
  else none

def isControl (c : Char) : Bool :=
  c.toNat < 0x20

def contentChar (c : Char) : List Char :=
  match entity? c with
  | some reference => reference
  | none =>
      if c == '\t' || c == '\n' || c == '\r' then
        [c]
      else if isControl c then
        "<byte value=\"x".toList ++ hexDigits c.toNat ++ "\"/>".toList
      else
        [c]

def attributeChar (c : Char) : List Char :=
  match entity? c with
  | some reference => reference
  | none =>
      if isControl c then
        "&#x".toList ++ hexDigits c.toNat ++ ";".toList
      else
        [c]

def content (text : String) : String :=
  String.ofList (text.toList.flatMap contentChar)

def attributeValue (text : String) : String :=
  String.ofList (text.toList.flatMap attributeChar)

/-- The character that the value of a `byte` element stands for: a decimal
code, or a hexadecimal one behind an `x`. -/
def byteValue? (value : String) : Option Char :=
  let code :=
    match value.toList with
    | 'x' :: digits => readSignedNumeral 16 maxWord32 digits
    | 'X' :: digits => readSignedNumeral 16 maxWord32 digits
    | digits => readSignedNumeral 10 maxWord32 digits
  match code with
  | .ok code => charOfCode? code
  | .error _ => none

end CatalogServer.Escape
