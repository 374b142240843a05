import CatalogServer.Xml.Attribute

/-!
# Why a text is no catalog

A text is refused when it is not well formed or when an element, text or
markup stands where the format does not allow it.  Every cause carries the
byte offset where it was noticed.
-/

namespace CatalogServer

open Xml

/-- A fault of the markup, as opposed to the structure of the format. -/
inductive MarkupFault where
  | markup (error : MarkupError)
  | attributes (error : AttributeError)
  /-- A reference in character data cannot be read. -/
  | reference (error : ReferenceError)
  | unexpectedEnd (element : String)
  /-- A declaration or document type stands inside an element. -/
  | unexpectedMarkup (element : String)
  deriving DecidableEq, Repr

def MarkupFault.message : MarkupFault → String
  | .markup error => error.message
  | .attributes error => error.message
  | .reference error => error.message
  | .unexpectedEnd element => "unexpected end of document inside <" ++ element ++ ">"
  | .unexpectedMarkup element => "unexpected markup inside <" ++ element ++ ">"

/-- Why a text is no catalog. -/
inductive ReadError where
  | malformed (offset : Nat) (fault : MarkupFault)
  | missingRoot (offset : Nat)
  /-- An element stands where the format does not allow it. -/
  | unexpectedElement (offset : Nat) (element parent : String)
  | unexpectedText (offset : Nat) (parent : String)
  | missingElement (offset : Nat) (element child : String)
  /-- A `byte` element whose value is no character code. -/
  | invalidByte (offset : Nat) (value : String)
  | trailingContent (offset : Nat)
  deriving DecidableEq, Repr

namespace ReadError

def offset : ReadError → Nat
  | .malformed offset _ | .missingRoot offset | .unexpectedElement offset _ _
  | .unexpectedText offset _ | .missingElement offset _ _ | .invalidByte offset _
  | .trailingContent offset => offset

def message : ReadError → String
  | .malformed _ fault => "Malformed XML: " ++ fault.message
  | .missingRoot _ => "Document has no <TS> root element"
  | .unexpectedElement _ element parent =>
      "Unexpected <" ++ element ++ "> inside <" ++ parent ++ ">"
  | .unexpectedText _ parent => "Unexpected text inside <" ++ parent ++ ">"
  | .missingElement _ element child =>
      "<" ++ element ++ "> is missing its <" ++ child ++ "> element"
  | .invalidByte _ value => "Invalid <byte> value '" ++ value ++ "'"
  | .trailingContent _ => "Unexpected content after </TS>"

end ReadError

end CatalogServer
