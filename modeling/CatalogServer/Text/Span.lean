/-!
# Byte spans

A span locates a part of a document by the byte offsets of its ends.  As
a range of bytes it is half open; a cursor that touches either end counts
as inside.
-/

namespace CatalogServer.Text

/-- The bytes from `start` up to, but not including, `stop`. -/
structure ByteSpan where
  start : Nat
  stop : Nat
  deriving DecidableEq, Repr, Inhabited

namespace ByteSpan

/-- A cursor is inside a span when it touches it, at either end too. -/
def contains (span : ByteSpan) (offset : Nat) : Bool :=
  span.start ≤ offset && offset ≤ span.stop

/-- Number of bytes, zero when the ends are reversed. -/
def length (span : ByteSpan) : Nat :=
  span.stop - span.start

def isEmpty (span : ByteSpan) : Bool :=
  span.length == 0

def point (offset : Nat) : ByteSpan :=
  ⟨offset, offset⟩

end ByteSpan

end CatalogServer.Text
