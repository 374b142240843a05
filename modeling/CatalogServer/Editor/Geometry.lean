import CatalogServer.Json.Decode
import CatalogServer.Text.LineIndex
import CatalogServer.Workspace.Uri

/-!
# Positions, ranges and addresses as JSON values

Editors exchange places in documents as JSON values: a position has a line
and a column, a range has two ends, and a location is a range in the
document with a given address.
-/

namespace CatalogServer

open Json

namespace Text.Position

def encode (position : Position) : Json :=
  ofMembers [("line", ofNat position.line), ("character", ofNat position.character)]

def decode : Decoder Position := fun value => do
  let members ← asMembers "Position" ["line", "character"] value
  let character ← given members "character" (asInteger .word32)
  let line ← given members "line" (asInteger .word32)
  return ⟨(← require "line" line).toNat, (← require "character" character).toNat⟩

end Text.Position

namespace Text.Range

def encode (range : Range) : Json :=
  ofMembers [("start", range.start.encode), ("end", range.stop.encode)]

def decode : Decoder Range := fun value => do
  let members ← asMembers "Range" ["start", "end"] value
  let stop ← given members "end" Position.decode
  let start ← given members "start" Position.decode
  return ⟨← require "start" start, ← require "end" stop⟩

end Text.Range

namespace Uri

def encode (uri : Uri) : Json :=
  .string uri.render

def decode : Decoder Uri
  | .string text =>
      match read text with
      | .ok uri => .ok uri
      | .error error => .error (.unreadable (error.message ++ ": " ++ Text.quoted text))
  | other => .error (.wrongType other .address)

end Uri

/-- A place in a document. -/
structure Location where
  uri : Uri
  range : Text.Range
  deriving DecidableEq, Repr

def Location.encode (location : Location) : Json :=
  ofMembers [("uri", location.uri.encode), ("range", location.range.encode)]

end CatalogServer
