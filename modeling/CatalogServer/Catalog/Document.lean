import CatalogServer.Catalog.Lookup
import CatalogServer.Text.Span

/-!
# Catalogs with the places of their parts

A document is a catalog together with the bytes that its elements cover.
The spans are parallel to the catalog: the spans of the message at an index
stand at the same index.
-/

namespace CatalogServer

open Text

/-- Where the target element of a message stands. -/
structure TargetSpans where
  element : ByteSpan
  startTag : ByteSpan
  deriving DecidableEq, Repr, Inhabited

/-- Where the parts of a message stand. -/
structure MessageSpans where
  element : ByteSpan
  source : ByteSpan
  target : Option TargetSpans
  deriving DecidableEq, Repr, Inhabited

/-- Where the parts of a context stand. -/
structure ContextSpans where
  element : ByteSpan
  name : ByteSpan
  messages : List MessageSpans
  deriving DecidableEq, Repr, Inhabited

/-- Where the parts of a catalog stand. -/
structure CatalogSpans where
  root : ByteSpan
  contexts : List ContextSpans
  deriving DecidableEq, Repr, Inhabited

/-- A catalog with the places of its parts. -/
structure Document where
  catalog : Catalog
  spans : CatalogSpans
  deriving DecidableEq, Repr, Inhabited

namespace CatalogSpans

def message? (spans : CatalogSpans) (index : MessageIndex) : Option MessageSpans := do
  let context ← spans.contexts[index.context]?
  context.messages[index.message]?

/-- Number of the first message that a cursor touches. -/
def messageIn? (offset : Nat) (messages : List MessageSpans) : Option Nat :=
  messages.findIdx? (·.element.contains offset)

/-- The first message that a cursor touches in contexts numbered from
`number`. -/
def messageFrom? (offset : Nat) : (number : Nat) → List ContextSpans → Option MessageIndex
  | _, [] => none
  | number, context :: rest =>
      let here :=
        if context.element.contains offset then
          messageIn? offset context.messages
        else
          none
      match here with
      | some message => some ⟨number, message⟩
      | none => messageFrom? offset (number + 1) rest

def messageAt? (spans : CatalogSpans) (offset : Nat) : Option MessageIndex :=
  messageFrom? offset 0 spans.contexts

end CatalogSpans

/-- A message found in a document. -/
structure LocatedMessage where
  index : MessageIndex
  message : Message
  source : ByteSpan
  deriving DecidableEq, Repr

/-- The first message with a key, with the place of its source element. -/
def Document.locate? (document : Document) (key : MessageKey) : Option LocatedMessage := do
  let entry ← document.catalog.find? key
  let spans ← document.spans.message? entry.index
  some ⟨entry.index, entry.message, spans.source⟩

end CatalogServer
