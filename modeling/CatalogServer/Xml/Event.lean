import CatalogServer.Text.Blank
import CatalogServer.Text.Span

/-!
# XML events

A document is read as a sequence of events, each with the bytes it covers:
tags, character data, comments and the other kinds of markup.  The sequence
ends at the end of the document or at markup that is not well formed.
-/

namespace CatalogServer.Xml

open Text

/-- What stands between the angle brackets of a start tag, without the
slash of a self-closing one. -/
structure Tag where
  content : List Char
  deriving DecidableEq, Repr

namespace Tag

def nameChars (tag : Tag) : List Char :=
  tag.content.takeWhile (!isMarkupBlank ·)

def name (tag : Tag) : String :=
  String.ofList tag.nameChars

def attributeText (tag : Tag) : List Char :=
  tag.content.dropWhile (!isMarkupBlank ·)

end Tag

/-- One piece of a document. -/
inductive Event where
  | opening (tag : Tag)
  | selfClosing (tag : Tag)
  /-- An end tag, which names the innermost open element. -/
  | closing
  | text (raw : List Char)
  /-- A character data section, whose content is taken as it is. -/
  | cdata (content : List Char)
  | comment
  | instruction
  | declaration
  | doctype
  deriving DecidableEq, Repr

/-- An event with the bytes it covers. -/
structure Located where
  span : ByteSpan
  event : Event
  deriving DecidableEq, Repr

/-- Why a document is not well formed. -/
inductive MarkupError where
  | tagNotClosed
  | commentNotClosed
  | cdataNotClosed
  | doctypeNotClosed
  /-- A processing instruction or XML declaration without its end. -/
  | instructionNotClosed
  /-- An exclamation mark that starts no known markup. -/
  | unknownMarkup
  | doctypeWithoutName
  /-- An end tag for another element than the innermost open one. -/
  | mismatchedEnd (expected found : String)
  /-- An end tag while no element is open. -/
  | unmatchedEnd (found : String)
  deriving DecidableEq, Repr

def MarkupError.message : MarkupError → String
  | .tagNotClosed =>
      "syntax error: tag not closed: `>` not found before end of input"
  | .commentNotClosed =>
      "syntax error: comment not closed: `-->` not found before end of input"
  | .cdataNotClosed =>
      "syntax error: CDATA not closed: `]]>` not found before end of input"
  | .doctypeNotClosed =>
      "syntax error: DOCTYPE not closed: `>` not found before end of input"
  | .instructionNotClosed =>
      "syntax error: processing instruction or xml declaration not closed: " ++
        "`?>` not found before end of input"
  | .unknownMarkup => "syntax error: unknown or missed symbol in markup"
  | .doctypeWithoutName =>
      "ill-formed document: `<!DOCTYPE>` declaration does not contain a name " ++
        "of a document type"
  | .mismatchedEnd expected found =>
      "ill-formed document: expected `</" ++ expected ++ ">`, but `</" ++ found ++
        ">` was found"
  | .unmatchedEnd found =>
      "ill-formed document: close tag `</" ++ found ++
        ">` does not match any open tag"

/-- How the sequence of events ends. -/
inductive Ending where
  /-- The end of the document, at a byte offset. -/
  | complete (offset : Nat)
  /-- Markup that is not well formed, at a byte offset. -/
  | failed (offset : Nat) (error : MarkupError)
  deriving DecidableEq, Repr

/-- The events of a document and the way they end. -/
structure EventStream where
  events : List Located
  /-- The end of the document or the first fault in it. -/
  ending : Ending
  deriving DecidableEq, Repr

def EventStream.cons (first : Located) (rest : EventStream) : EventStream :=
  { rest with events := first :: rest.events }

end CatalogServer.Xml
