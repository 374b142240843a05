import CatalogServer.Text.Span
import CatalogServer.Text.Utf8

/-!
# Lines and columns

Editors address text by line and column, where a column counts UTF-16
units; catalogs are located by byte offsets.  This file converts between
the two.  A line ends at its line feed, and a carriage return right before
the line feed, or at the end of the last line, belongs to the terminator.
-/

namespace CatalogServer.Text

/-- A place in a document: line and column, both from zero. -/
structure Position where
  line : Nat
  character : Nat
  deriving DecidableEq, Repr, Inhabited

/-- A stretch of a document between two positions. -/
structure Range where
  start : Position
  stop : Position
  deriving DecidableEq, Repr, Inhabited

namespace Position

/-- Order in the document: by line, then by column. -/
def isAtMost (first second : Position) : Bool :=
  first.line < second.line ||
    (first.line == second.line && first.character ≤ second.character)

/-- The position behind a character that stands at the given position. -/
def after (position : Position) (c : Char) : Position :=
  if c == '\n' then
    ⟨position.line + 1, 0⟩
  else
    ⟨position.line, position.character + utf16Units c⟩

end Position

/-- A range holds the positions between its ends, both included. -/
def Range.contains (range : Range) (position : Position) : Bool :=
  range.start.isAtMost position && position.isAtMost range.stop

namespace LineIndex

/-- Position `offset` bytes behind `current`, where the given text begins.
Inside a character the column is unknown and counts as zero. -/
def positionFrom (current : Position) : Nat → List Char → Position
  | _, [] => current
  | 0, _ => current
  | offset, c :: rest =>
      if c.utf8Size ≤ offset then
        positionFrom (current.after c) (offset - c.utf8Size) rest
      else
        ⟨current.line, 0⟩

/-- Position of a byte offset; offsets past the end give the end. -/
def position (text : List Char) (offset : Nat) : Position :=
  positionFrom ⟨0, 0⟩ offset text

/-- Byte offset of the start of a line, with the text from there on. -/
def lineStart : Nat → List Char → Option (Nat × List Char)
  | 0, text => some (0, text)
  | _ + 1, [] => none
  | line + 1, c :: rest =>
      (lineStart (if c == '\n' then line else line + 1) rest).map
        fun (offset, fromLine) => (c.utf8Size + offset, fromLine)

/-- A line without the carriage return that ends it. -/
def dropCarriageReturn : List Char → List Char
  | [] => []
  | ['\r'] => []
  | c :: rest => c :: dropCarriageReturn rest

/-- The first line of a text, without its terminator. -/
def firstLine (text : List Char) : List Char :=
  dropCarriageReturn (text.takeWhile (· != '\n'))

/-- The shortest initial part of a line with at least the given number of
UTF-16 units, or the whole line when it has fewer. -/
def takeUnits : Nat → List Char → List Char
  | _, [] => []
  | 0, _ => []
  | units, c :: rest => c :: takeUnits (units - utf16Units c) rest

/-- Byte offset of a position, or none when the line does not exist.  A
column past the end of the line gives the end of the line. -/
def offset (text : List Char) (position : Position) : Option Nat :=
  (lineStart position.line text).map fun (start, fromLine) =>
    start + byteSize (takeUnits position.character (firstLine fromLine))

def range (text : List Char) (span : ByteSpan) : Range :=
  ⟨position text span.start, position text span.stop⟩

def fullRange (text : List Char) : Range :=
  range text ⟨0, byteSize text⟩

end LineIndex

end CatalogServer.Text
