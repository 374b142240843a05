import CatalogServer.Catalog.Document
import CatalogServer.Catalog.Escape
import CatalogServer.Catalog.ReadError
import CatalogServer.Xml.Scan

/-!
# Reading catalogs

The reader goes through the events of a document one by one.  Its state
tells inside which element it stands and holds what has been read of that
element and the ones around it.  Every event leads to the next state or is
refused, so a document is accepted exactly when its events lead from the
prolog to the epilog.

Comments and processing instructions may stand anywhere, blanks between
structural elements.  Where an element that may occur once is repeated, the
last one counts.
-/

namespace CatalogServer

open Text Xml

namespace Reader

/-- A context of which the start tag was read. -/
structure ContextDraft where
  start : Nat
  context : Context := {}
  name : Option ByteSpan := none
  /-- The places of the messages read so far. -/
  messages : List MessageSpans := []
  deriving DecidableEq, Repr

/-- A message of which the start tag was read. -/
structure MessageDraft where
  start : Nat
  message : Message
  source : Option ByteSpan := none
  target : Option TargetSpans := none
  deriving DecidableEq, Repr

/-- A target of which the start tag was read. -/
structure TargetDraft where
  startTag : ByteSpan
  status : Status
  announcesVariants : Bool
  text : List Char := []
  /-- Where the first character data that is not blank stands. -/
  textStart : Option Nat := none
  forms : List FormText := []
  variants : List String := []
  deriving DecidableEq, Repr

/-- The text elements of a context. -/
inductive ContextPart where
  | name
  | comment
  deriving DecidableEq, Repr

/-- The name of a text element of a context. -/
def ContextPart.element : ContextPart → String
  | .name => "name"
  | .comment => "comment"

/-- A place inside a context. -/
structure InContext where
  document : Document
  context : ContextDraft
  deriving DecidableEq, Repr

/-- A place inside a message. -/
structure InMessage extends InContext where
  message : MessageDraft
  deriving DecidableEq, Repr

/-- A place inside a target. -/
structure InTarget extends InMessage where
  target : TargetDraft
  deriving DecidableEq, Repr

/-- Where the reader stands. -/
inductive State where
  | prolog
  | root (document : Document)
  /-- Inside the list of catalogs this one depends on, which is skipped. -/
  | dependencies (document : Document) (depth : Nat)
  | context (place : InContext)
  /-- Inside a text element of a context that starts at an offset. -/
  | contextText (place : InContext) (part : ContextPart) (start : Nat) (text : List Char)
  | message (place : InMessage)
  | location (place : InMessage) (depth : Nat)
  /-- Inside a text element of a message that starts at an offset. -/
  | messageText (place : InMessage) (element : String) (start : Nat) (text : List Char)
  | target (place : InTarget)
  | variant (place : InTarget) (text : List Char)
  /-- Inside a plural form with a plain text. -/
  | form (place : InTarget) (text : List Char)
  | formVariants (place : InTarget) (texts : List String)
  /-- Inside a length variant of a plural form. -/
  | formVariant (place : InTarget) (texts : List String) (text : List Char)
  | epilog (document : Document)
  deriving DecidableEq, Repr

/-- Reads the attributes of a tag whose event starts at an offset. -/
def attributesAt (offset : Nat) (tag : Tag) : Except ReadError (List Attribute) :=
  tag.attributes.mapError fun error => .malformed offset (.attributes error)

def acceptInsignificant (parent : String) (located : Located) : Except ReadError Unit :=
  let offset := located.span.start
  match located.event with
  | .comment | .instruction => .ok ()
  | .text raw =>
      if raw.all isAsciiBlank then .ok () else .error (.unexpectedText offset parent)
  | .cdata _ => .error (.unexpectedText offset parent)
  | .opening tag | .selfClosing tag =>
      .error (.unexpectedElement offset tag.name parent)
  | .closing | .declaration | .doctype =>
      .error (.malformed offset (.unexpectedMarkup parent))

/-- A piece of the text of an element. -/
structure Piece where
  text : List Char
  significant : Bool
  deriving DecidableEq, Repr

/-- The text that an event adds to the element it stands in.  A `byte`
element adds the character it stands for. -/
def textPiece (parent : String) (located : Located) : Except ReadError Piece :=
  let offset := located.span.start
  match located.event with
  | .text raw =>
      match unescape raw with
      | .ok text => .ok ⟨text, !isBlankText text⟩
      | .error error => .error (.malformed offset (.reference error))
  | .cdata content => .ok ⟨content, !isBlankText content⟩
  | .selfClosing tag =>
      if tag.name == "byte" then do
        let attributes ← attributesAt offset tag
        let value := (attribute? attributes "value").getD ""
        match Escape.byteValue? value with
        | some c => .ok ⟨[c], true⟩
        | none => .error (.invalidByte offset value)
      else
        .error (.unexpectedElement offset tag.name parent)
  | .opening tag => .error (.unexpectedElement offset tag.name parent)
  | .comment | .instruction => .ok ⟨[], false⟩
  | .closing | .declaration | .doctype =>
      .error (.malformed offset (.unexpectedMarkup parent))

/-- Stores the text of a text element of a message other than its source. -/
def storeText (message : Message) (element text : String) (offset : Nat) :
    Except ReadError Message :=
  if element == "oldsource" then .ok { message with oldSource := some text }
  else if element == "comment" then .ok { message with comment := some text }
  else if element == "oldcomment" then .ok { message with oldComment := some text }
  else if element == "extracomment" then .ok { message with extraComment := some text }
  else if element == "translatorcomment" then
    .ok { message with translatorComment := some text }
  else if element == "userdata" then .ok { message with userData := some text }
  else if "extra-".toList.isPrefixOf element.toList then
    let name := String.ofList (element.toList.drop "extra-".length)
    .ok { message with extras := message.extras ++ [⟨name, text⟩] }
  else
    .error (.unexpectedElement offset element "message")

/-- The place in the code that a `location` element names. -/
def locationAt (offset : Nat) (tag : Tag) : Except ReadError CodeLocation := do
  let attributes ← attributesAt offset tag
  .ok ⟨attribute? attributes "filename", attribute? attributes "line"⟩

/-- The status that the attributes of a target element give. -/
def statusOf (attributes : List Attribute) : Status :=
  ((attribute? attributes "type").bind Status.ofTypeAttribute?).getD .finished

def announcesVariants (attributes : List Attribute) : Bool :=
  attribute? attributes "variants" == some "yes"

def addContext (document : Document) (context : Context) (spans : ContextSpans) : Document :=
  { catalog := { document.catalog with
      contexts := document.catalog.contexts ++ [context] }
    spans := { document.spans with contexts := document.spans.contexts ++ [spans] } }

def addMessage (place : InContext) (message : Message) (spans : MessageSpans) : InContext :=
  { place with
    context := { place.context with
      context := { place.context.context with
        messages := place.context.context.messages ++ [message] }
      messages := place.context.messages ++ [spans] } }

def addLocation (place : InMessage) (location : CodeLocation) : InMessage :=
  { place with
    message := { place.message with
      message := { place.message.message with
        locations := place.message.message.locations ++ [location] } } }

def setSource (place : InMessage) (text : String) (span : ByteSpan) : InMessage :=
  { place with
    message := { place.message with
      message := { place.message.message with source := text }
      source := some span } }

def setTarget (place : InMessage) (target : Target) (spans : TargetSpans) : InMessage :=
  { place with
    message := { place.message with
      message := { place.message.message with target := target }
      target := some spans } }

/-- The message with the text of one of its other text elements. -/
def setText (place : InMessage) (element text : String) (offset : Nat) :
    Except ReadError InMessage := do
  let message ← storeText place.message.message element text offset
  .ok { place with message := { place.message with message := message } }

def addForm (place : InTarget) (form : FormText) : InTarget :=
  { place with target := { place.target with forms := place.target.forms ++ [form] } }

def addVariant (place : InTarget) (text : String) : InTarget :=
  { place with
    target := { place.target with variants := place.target.variants ++ [text] } }

/-- The target with more character data directly inside it. -/
def addPiece (place : InTarget) (piece : Piece) (offset : Nat) : InTarget :=
  let textStart :=
    match place.target.textStart with
    | some start => some start
    | none => if piece.significant then some offset else none
  { place with
    target := { place.target with
      text := place.target.text ++ piece.text
      textStart := textStart } }

/-- The text of a target whose element has no content. -/
def emptyTargetText (numerus variants : Bool) : TargetText :=
  if numerus then .plural []
  else if variants then .single (.lengthVariants [])
  else .single (.plain "")

/-- The text of a target whose end tag was read.  Plural forms count before
length variants, and both before character data; a numerus message without
any of them has no forms yet. -/
def targetText (numerus : Bool) (draft : TargetDraft) : TargetText :=
  if !draft.forms.isEmpty then .plural draft.forms
  else if draft.announcesVariants || !draft.variants.isEmpty then
    .single (.lengthVariants draft.variants)
  else if numerus && draft.textStart.isNone then .plural []
  else .single (.plain (String.ofList draft.text))

/-- Completes a target at its end tag.  Character data that is not blank must
not stand beside plural forms or length variants. -/
def closeTarget (place : InTarget) (stop : Nat) : Except ReadError State :=
  let draft := place.target
  let complete :=
    .ok <| .message <| setTarget place.toInMessage
      ⟨draft.status, targetText place.message.message.numerus draft⟩
      ⟨⟨draft.startTag.start, stop⟩, draft.startTag⟩
  match draft.textStart with
  | some offset =>
      if draft.forms.isEmpty && draft.variants.isEmpty then
        complete
      else
        .error (.unexpectedText offset "translation")
  | none => complete

def closeMessage (place : InMessage) (stop : Nat) : Except ReadError State :=
  match place.message.source with
  | none => .error (.missingElement place.message.start "message" "source")
  | some source =>
      .ok <| .context <| addMessage place.toInContext place.message.message
        ⟨⟨place.message.start, stop⟩, source, place.message.target⟩

def closeContext (place : InContext) (stop : Nat) : Except ReadError State :=
  match place.context.name with
  | none => .error (.missingElement place.context.start "context" "name")
  | some name =>
      .ok <| .root <| addContext place.document place.context.context
        ⟨⟨place.context.start, stop⟩, name, place.context.messages⟩

/-- Completes a text element of a context at its end tag. -/
def closeContextText (place : InContext) (part : ContextPart) (text : String)
    (span : ByteSpan) : InContext :=
  match part with
  | .name =>
      { place with
        context := { place.context with
          context := { place.context.context with name := text }
          name := some span } }
  | .comment =>
      { place with
        context := { place.context with
          context := { place.context.context with comment := some text } } }

def rootDocument (span : ByteSpan) (tag : Tag) : Except ReadError Document := do
  let attributes ← attributesAt span.start tag
  .ok {
    catalog :=
      { version := attribute? attributes "version"
        language := attribute? attributes "language"
        sourceLanguage := attribute? attributes "sourcelanguage" }
    spans := ⟨span, []⟩ }

def prologStep (located : Located) : Except ReadError State :=
  let offset := located.span.start
  match located.event with
  | .declaration | .doctype | .comment | .instruction => .ok .prolog
  | .text raw =>
      if raw.all isAsciiBlank then .ok .prolog else .error (.missingRoot offset)
  | .opening tag =>
      if tag.name == "TS" then
        (rootDocument located.span tag).map .root
      else
        .error (.unexpectedElement offset tag.name "document")
  | .selfClosing tag =>
      if tag.name == "TS" then
        (rootDocument located.span tag).map .epilog
      else
        .error (.unexpectedElement offset tag.name "document")
  | .cdata _ | .closing => .error (.missingRoot offset)

def rootStep (document : Document) (located : Located) : Except ReadError State :=
  let offset := located.span.start
  match located.event with
  | .opening tag =>
      if tag.name == "context" then
        .ok (.context ⟨document, { start := offset }⟩)
      else if tag.name == "dependencies" then
        .ok (.dependencies document 0)
      else
        .error (.unexpectedElement offset tag.name "TS")
  | .closing => .ok (.epilog document)
  | .selfClosing tag =>
      if tag.name == "dependencies" then
        .ok (.root document)
      else
        .error (.unexpectedElement offset tag.name "TS")
  | _ => (acceptInsignificant "TS" located).map fun _ => .root document

/-- Inside an element that is skipped: elements nest, all else is ignored. -/
def skipStep (inside : Nat → State) (outside : State) (depth : Nat) (event : Event) : State :=
  match event with
  | .opening _ => inside (depth + 1)
  | .closing => if depth == 0 then outside else inside (depth - 1)
  | _ => inside depth

def openMessage (place : InContext) (offset : Nat) (tag : Tag) : Except ReadError State := do
  let attributes ← attributesAt offset tag
  .ok <| .message { place with
    message :=
      { start := offset
        message :=
          { id := attribute? attributes "id"
            numerus := attribute? attributes "numerus" == some "yes" } } }

def contextStep (place : InContext) (located : Located) : Except ReadError State :=
  let offset := located.span.start
  match located.event with
  | .opening tag =>
      if tag.name == "name" then .ok (.contextText place .name offset [])
      else if tag.name == "comment" then .ok (.contextText place .comment offset [])
      else if tag.name == "message" then openMessage place offset tag
      else .error (.unexpectedElement offset tag.name "context")
  | .selfClosing tag =>
      if tag.name == "name" then
        .ok <| .context { place with
          context := { place.context with name := some located.span } }
      else if tag.name == "comment" then
        .ok (.context (closeContextText place .comment "" located.span))
      else
        .error (.unexpectedElement offset tag.name "context")
  | .closing => closeContext place located.span.stop
  | _ => (acceptInsignificant "context" located).map fun _ => .context place

def contextTextStep (place : InContext) (part : ContextPart) (start : Nat)
    (text : List Char) (located : Located) : Except ReadError State :=
  match located.event with
  | .closing =>
      .ok <| .context <| closeContextText place part (String.ofList text)
        ⟨start, located.span.stop⟩
  | _ => (textPiece part.element located).map fun piece =>
      .contextText place part start (text ++ piece.text)

def openTarget (place : InMessage) (span : ByteSpan) (tag : Tag) : Except ReadError State := do
  let attributes ← attributesAt span.start tag
  .ok <| .target { place with
    target :=
      { startTag := span
        status := statusOf attributes
        announcesVariants := announcesVariants attributes } }

def emptyTarget (place : InMessage) (span : ByteSpan) (tag : Tag) :
    Except ReadError State := do
  let attributes ← attributesAt span.start tag
  let text := emptyTargetText place.message.message.numerus (announcesVariants attributes)
  .ok (.message (setTarget place ⟨statusOf attributes, text⟩ ⟨span, span⟩))

def messageStep (place : InMessage) (located : Located) : Except ReadError State :=
  let offset := located.span.start
  match located.event with
  | .selfClosing tag =>
      if tag.name == "location" then
        (locationAt offset tag).map fun location => .message (addLocation place location)
      else if tag.name == "source" then
        .ok (.message (setSource place "" located.span))
      else if tag.name == "translation" then
        emptyTarget place located.span tag
      else
        (setText place tag.name "" offset).map .message
  | .opening tag =>
      if tag.name == "location" then
        (locationAt offset tag).map fun location => .location (addLocation place location) 0
      else if tag.name == "translation" then
        openTarget place located.span tag
      else
        .ok (.messageText place tag.name offset [])
  | .closing => closeMessage place located.span.stop
  | _ => (acceptInsignificant "message" located).map fun _ => .message place

/-- Completes a text element of a message at its end tag. -/
def closeMessageText (place : InMessage) (element : String) (start : Nat) (text : String)
    (stop : Nat) : Except ReadError State :=
  if element == "source" then
    .ok (.message (setSource place text ⟨start, stop⟩))
  else
    (setText place element text start).map .message

def messageTextStep (place : InMessage) (element : String) (start : Nat)
    (text : List Char) (located : Located) : Except ReadError State :=
  match located.event with
  | .closing => closeMessageText place element start (String.ofList text) located.span.stop
  | _ => (textPiece element located).map fun piece =>
      .messageText place element start (text ++ piece.text)

def openForm (place : InTarget) (offset : Nat) (tag : Tag) : Except ReadError State := do
  let attributes ← attributesAt offset tag
  .ok (if announcesVariants attributes then .formVariants place [] else .form place [])

def targetPiece (place : InTarget) (located : Located) : Except ReadError State :=
  (textPiece "translation" located).map fun piece =>
    .target (addPiece place piece located.span.start)

def targetStep (place : InTarget) (located : Located) : Except ReadError State :=
  match located.event with
  | .opening tag =>
      if tag.name == "numerusform" then openForm place located.span.start tag
      else if tag.name == "lengthvariant" then .ok (.variant place [])
      else targetPiece place located
  | .selfClosing tag =>
      if tag.name == "numerusform" then .ok (.target (addForm place (.plain "")))
      else if tag.name == "lengthvariant" then .ok (.target (addVariant place ""))
      else targetPiece place located
  | .closing => closeTarget place located.span.stop
  | _ => targetPiece place located

/-- Inside an element of a target that holds only text: its end tag leads to
the state that `close` gives for the text. -/
def leafStep (element : String) (close stay : List Char → State) (text : List Char)
    (located : Located) : Except ReadError State :=
  match located.event with
  | .closing => .ok (close text)
  | _ => (textPiece element located).map fun piece => stay (text ++ piece.text)

def formVariantsStep (place : InTarget) (texts : List String) (located : Located) :
    Except ReadError State :=
  match located.event with
  | .opening tag =>
      if tag.name == "lengthvariant" then
        .ok (.formVariant place texts [])
      else
        .error (.unexpectedElement located.span.start tag.name "numerusform")
  | .selfClosing tag =>
      if tag.name == "lengthvariant" then
        .ok (.formVariants place (texts ++ [""]))
      else
        .error (.unexpectedElement located.span.start tag.name "numerusform")
  | .closing => .ok (.target (addForm place (.lengthVariants texts)))
  | _ => (acceptInsignificant "numerusform" located).map fun _ => .formVariants place texts

def epilogStep (document : Document) (located : Located) : Except ReadError State :=
  match located.event with
  | .comment | .instruction => .ok (.epilog document)
  | .text raw =>
      if raw.all isAsciiBlank then
        .ok (.epilog document)
      else
        .error (.trailingContent located.span.start)
  | _ => .error (.trailingContent located.span.start)

def State.step (state : State) (located : Located) : Except ReadError State :=
  match state with
  | .prolog => prologStep located
  | .root document => rootStep document located
  | .dependencies document depth =>
      .ok (skipStep (.dependencies document) (.root document) depth located.event)
  | .context place => contextStep place located
  | .contextText place part start text => contextTextStep place part start text located
  | .message place => messageStep place located
  | .location place depth =>
      .ok (skipStep (.location place) (.message place) depth located.event)
  | .messageText place element start text => messageTextStep place element start text located
  | .target place => targetStep place located
  | .variant place text =>
      leafStep "lengthvariant" (fun text => .target (addVariant place (String.ofList text)))
        (.variant place) text located
  | .form place text =>
      leafStep "numerusform"
        (fun text => .target (addForm place (.plain (String.ofList text))))
        (.form place) text located
  | .formVariants place texts => formVariantsStep place texts located
  | .formVariant place texts text =>
      leafStep "lengthvariant"
        (fun text => .formVariants place (texts ++ [String.ofList text]))
        (.formVariant place texts) text located
  | .epilog document => epilogStep document located

/-- The error of a document that ends at an offset inside an element. -/
def endInside (offset : Nat) (element : String) : Except ReadError Document :=
  .error (.malformed offset (.unexpectedEnd element))

/-- The document that was read when the text ends at an offset. -/
def State.complete (offset : Nat) : State → Except ReadError Document
  | .prolog => .error (.missingRoot offset)
  | .root _ => endInside offset "TS"
  | .dependencies _ _ => endInside offset "dependencies"
  | .context _ => endInside offset "context"
  | .contextText _ part _ _ => endInside offset part.element
  | .message _ => endInside offset "message"
  | .location _ _ => endInside offset "location"
  | .messageText _ element _ _ => endInside offset element
  | .target _ => endInside offset "translation"
  | .variant _ _ => endInside offset "lengthvariant"
  | .form _ _ => endInside offset "numerusform"
  | .formVariants _ _ => endInside offset "numerusform"
  | .formVariant _ _ _ => endInside offset "lengthvariant"
  | .epilog document => .ok document

/-- The document that was read when the events end. -/
def State.finish (state : State) : Ending → Except ReadError Document
  | .complete offset => state.complete offset
  | .failed offset error => .error (.malformed offset (.markup error))

def readEvents (stream : EventStream) : Except ReadError Document := do
  let state ← stream.events.foldlM State.step .prolog
  state.finish stream.ending

end Reader

/-- Reads a catalog with the places of its parts. -/
def Document.read (text : String) : Except ReadError Document :=
  Reader.readEvents (Xml.events text)

end CatalogServer
