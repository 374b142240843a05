import CatalogServer.Proofs.Catalog.Simulation
import CatalogServer.Proofs.Xml.Pieces

/-!
# Reading on from a state

A reader that stands in some state reads on through the rest of a document.
The catalog at the end depends on what was read, but not on the places where
it was read: readers that differ only in places end with the same catalog.
`catalogFrom` is the catalog that comes out of a state and the rest of a
text, and `catalogFrom_of_takes` takes one piece off that text, which is all
that later proofs need to know of the scan and the reader's loop.
-/

namespace CatalogServer.Reader

open Text Xml

/-- Contexts that were read with the same content. -/
structure InContext.SameContent (place other : InContext) : Prop where
  document : place.document.catalog = other.document.catalog
  /-- The context at hand has the same content. -/
  context : place.context.context = other.context.context
  /-- Its name was read in both or in neither. -/
  named : place.context.name.isSome = other.context.name.isSome

/-- Messages that were read with the same content. -/
structure InMessage.SameContent (place other : InMessage) : Prop where
  /-- They stand in contexts with the same content. -/
  context : place.toInContext.SameContent other.toInContext
  /-- The message at hand has the same content. -/
  message : place.message.message = other.message.message
  /-- Its source was read in both or in neither. -/
  sourced : place.message.source.isSome = other.message.source.isSome

/-- Readers that hold the same content, wherever they read it. -/
def sameContent : Likeness where
  prolog := True
  document document other := document.catalog = other.catalog
  context place other := place.SameContent other
  part place _ other _ := place.SameContent other
  message place other := place.SameContent other
  location place other := place.SameContent other
  text _ place _ other _ := place.SameContent other
  target place _ other _ := place.SameContent other

theorem sameContent_laws (span otherSpan : ByteSpan) :
    Likeness.Laws sameContent sameContent span otherSpan where
  prolog := id
  document := id
  context := id
  part := id
  message := id
  location := id
  text := id
  target := id
  root _ _ _ _ := rfl
  openContext alike := ⟨alike, rfl, rfl⟩
  openPart := id
  closePart part text alike := by
    cases part with
    | name => exact ⟨alike.document, by simp [closeContextText, alike.context], rfl⟩
    | comment => exact ⟨alike.document, by simp [closeContextText, alike.context], alike.named⟩
  emptyName alike := ⟨alike.document, alike.context, rfl⟩
  emptyComment alike := ⟨alike.document, by simp [closeContextText, alike.context], alike.named⟩
  named alike := alike.named
  closeContext alike _ _ := by
    simp [sameContent, addContext, alike.document, alike.context]
  openMessage _ _ alike := ⟨alike, rfl, rfl⟩
  openLocation _ alike := ⟨alike.context, by simp [addLocation, alike.message], alike.sourced⟩
  closeLocation := id
  emptyLocation _ alike := ⟨alike.context, by simp [addLocation, alike.message], alike.sourced⟩
  openText _ alike := alike
  closeSource _ alike := ⟨alike.context, by simp [setSource, alike.message], rfl⟩
  emptySource alike := ⟨alike.context, by simp [setSource, alike.message], rfl⟩
  closeText alike stored otherStored := by
    rw [InMessage.SameContent.message alike] at stored
    exact ⟨alike.context, storeText_unique stored otherStored, alike.sourced⟩
  emptyText _ _ _ alike stored otherStored := by
    rw [InMessage.SameContent.message alike] at stored
    exact ⟨alike.context, storeText_unique stored otherStored, alike.sourced⟩
  counted alike := by rw [alike.message]
  targetCounted alike := by rw [InMessage.SameContent.message alike]
  openTarget := id
  closeTarget _ _ alike := ⟨alike.context, by simp [setTarget, alike.message], alike.sourced⟩
  emptyTarget _ _ alike := ⟨alike.context, by simp [setTarget, alike.message], alike.sourced⟩
  sourced alike := alike.sourced
  closeMessage alike _ _ :=
    ⟨alike.context.document, by simp [addMessage, alike.context.context, alike.message],
      alike.context.named⟩

/-- Reads the rest of a document from a state. -/
def resume (state : State) (stream : EventStream) : Except ReadError Document := do
  let last ← stream.events.foldlM State.step state
  last.finish stream.ending

theorem resume_cons (state : State) (located : Located) (stream : EventStream) :
    resume state (stream.cons located) =
      state.step located >>= fun next => resume next stream := by
  simp only [resume, EventStream.cons, List.foldlM_cons, bind_assoc]

/-- What a text is read as is evaluated on its characters.  They are given
apart, as it takes long to get them out of a text by evaluation. -/
theorem read_of_toList {text : String} {chars : List Char} {document : Document}
    (shown : text.toList = chars)
    (reads : (resume .prolog (scan 0 [] (dropByteOrderMark chars))).toOption = some document) :
    Document.read text = .ok document := by
  rw [Document.read, events, shown]
  exact Except.toOption_eq_some_iff.mp reads

/-- The catalog in which the rest of a text, inside some open elements, ends
from a state; none when it is refused. -/
def catalogFrom (state : State) (opened : List (List Char)) (text : List Char) :
    Option Catalog :=
  (resume state (scan 0 opened text)).toOption.map (·.catalog)

theorem catalog_read (text : String) :
    (Document.read text).toOption.map (·.catalog) =
      catalogFrom .prolog [] (dropByteOrderMark text.toList) :=
  rfl

/-- The catalog that was read when the text ends. -/
def State.catalog? : State → Option Catalog
  | .epilog document => some document.catalog
  | _ => none

theorem catalog_complete (state : State) (offset : Nat) :
    (state.complete offset).toOption.map (·.catalog) = state.catalog? := by
  cases state <;> rfl

theorem sameContent_refl (state : State) : sameContent.Related state state := by
  have inContext (place : InContext) : place.SameContent place := ⟨rfl, rfl, rfl⟩
  have inMessage (place : InMessage) : place.SameContent place := ⟨inContext _, rfl, rfl⟩
  have inTarget (place : InTarget) : sameContent.InTarget place place :=
    ⟨inMessage _, ⟨rfl, rfl, rfl, rfl, rfl, rfl⟩⟩
  cases state with
  | prolog => exact .prolog trivial
  | root document => exact .root (Eq.refl _)
  | dependencies document depth => exact .dependencies (Eq.refl _) depth
  | context place => exact .context (inContext place)
  | contextText place part start text => exact .contextText (inContext place) part text
  | message place => exact .message (inMessage place)
  | location place depth => exact .location (inMessage place) depth
  | messageText place element start text => exact .messageText (inMessage place) text
  | target place => exact .target (inTarget place)
  | variant place text => exact .variant (inTarget place) text
  | form place text => exact .form (inTarget place) text
  | formVariants place texts => exact .formVariants (inTarget place) texts
  | formVariant place texts text => exact .formVariant (inTarget place) texts text
  | epilog document => exact .epilog (Eq.refl _)

theorem catalog_eq_of_sameContent {state other : State} (same : sameContent.Related state other) :
    state.catalog? = other.catalog? := by
  cases same with
  | epilog alike => exact congrArg some alike
  | _ => rfl

theorem catalog_resume_congr {state other : State} {stream otherStream : EventStream}
    (same : sameContent.Related state other)
    (sameStream : stream.unplaced = otherStream.unplaced) :
    (resume state stream).toOption.map (·.catalog) =
      (resume other otherStream).toOption.map (·.catalog) := by
  have sameEvents : stream.events.map Located.event = otherStream.events.map Located.event := by
    have unplaced := congrArg (fun stream => stream.events.map Located.event) sameStream
    simpa [EventStream.unplaced, Located.unplaced, Function.comp_def] using unplaced
  have sameEnding : stream.ending.unplaced = otherStream.ending.unplaced :=
    congrArg EventStream.ending sameStream
  have related := Likeness.related_of_events sameContent_laws sameEvents same
  simp only [resume, Except.toOption_bind, Option.map_bind]
  refine Likeness.bind_eq_of_rel related fun last otherLast sameLast => ?_
  have sameCatalog := catalog_eq_of_sameContent sameLast
  cases ending : stream.ending with
  | complete offset =>
      cases otherEnding : otherStream.ending with
      | complete otherOffset =>
          simp only [Function.comp_apply, State.finish, catalog_complete, sameCatalog]
      | failed => simp [ending, otherEnding, Ending.unplaced] at sameEnding
  | failed =>
      cases otherEnding : otherStream.ending with
      | complete => simp [ending, otherEnding, Ending.unplaced] at sameEnding
      | failed => rfl

theorem catalogFrom_congr {state other : State} (same : sameContent.Related state other)
    (opened : List (List Char)) (text : List Char) :
    catalogFrom state opened text = catalogFrom other opened text :=
  catalog_resume_congr same rfl

theorem catalogFrom_nil (state : State) (opened : List (List Char)) :
    catalogFrom state opened [] = state.catalog? := by
  unfold catalogFrom
  rw [scan_nil]
  exact catalog_complete state 0

theorem catalogFrom_of_fault {opened : List (List Char)} {text : List Char} {place : Nat}
    {error : MarkupError} (fault : scan 0 opened text = ⟨[], .failed place error⟩)
    (state : State) : catalogFrom state opened text = none := by
  unfold catalogFrom
  rw [fault]
  rfl

/-- The first piece of a text leads to the state from which the rest is
read. -/
theorem catalogFrom_of_takes {opened behind : List (List Char)} {piece after : List Char}
    {event : Event} (takes : Takes opened piece event behind after) (state : State) :
    catalogFrom state opened (piece ++ after) =
      (state.step ⟨default, event⟩).toOption.bind fun next => catalogFrom next behind after := by
  have sameStep := Likeness.related_of_step
    (sameContent_laws ⟨0, 0 + byteSize piece⟩ default) (sameContent_refl state) event
  unfold catalogFrom
  rw [scan_of_takes takes, resume_cons, Except.toOption_bind, Option.map_bind]
  exact Likeness.bind_eq_of_rel sameStep fun next otherNext sameNext =>
    catalog_resume_congr sameNext (unplaced_scan behind after _ 0)

end CatalogServer.Reader
