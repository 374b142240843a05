import CatalogServer.Proofs.Catalog.Simulation

/-!
# Properties that a reader keeps

A property of what a reader holds, for each kind of place where it stands, is
a likeness of the reader with itself.  So a reader keeps a property once each
of the ways in which it changes what it holds keeps it, and `holds_of_step`
needs no look at the steps themselves.
-/

namespace CatalogServer.Reader

open Text Xml

/-- A property of what a reader holds, for each kind of place where it can
stand. -/
structure Trait where
  prolog : Prop
  document : Document → Prop
  context : InContext → Prop
  part : InContext → Nat → Prop
  message : InMessage → Prop
  location : InMessage → Prop
  text : String → InMessage → Nat → Prop
  target : InMessage → ByteSpan → Prop

namespace Trait

def Holds (trait : Trait) : State → Prop
  | .prolog => trait.prolog
  | .root document => trait.document document
  | .dependencies document _ => trait.document document
  | .context place => trait.context place
  | .contextText place _ start _ => trait.part place start
  | .message place => trait.message place
  | .location place _ => trait.location place
  | .messageText place element start _ => trait.text element place start
  | .target place => trait.target place.toInMessage place.target.startTag
  | .variant place _ => trait.target place.toInMessage place.target.startTag
  | .form place _ => trait.target place.toInMessage place.target.startTag
  | .formVariants place _ => trait.target place.toInMessage place.target.startTag
  | .formVariant place _ _ => trait.target place.toInMessage place.target.startTag
  | .epilog document => trait.document document

/-- A property of a reader as its likeness with itself. -/
def likeness (trait : Trait) : Likeness where
  prolog := trait.prolog
  document document other := document = other ∧ trait.document document
  context place other := place = other ∧ trait.context place
  part place start other otherStart := place = other ∧ start = otherStart ∧ trait.part place start
  message place other := place = other ∧ trait.message place
  location place other := place = other ∧ trait.location place
  text element place start other otherStart :=
    place = other ∧ start = otherStart ∧ trait.text element place start
  target place startTag other otherTag :=
    place = other ∧ startTag = otherTag ∧ trait.target place startTag

theorem related_of_holds {trait : Trait} {state : State} (holds : trait.Holds state) :
    trait.likeness.Related state state := by
  have inTarget {place : InTarget} (holds : trait.target place.toInMessage place.target.startTag) :
      trait.likeness.InTarget place place :=
    ⟨⟨rfl, rfl, holds⟩, ⟨rfl, rfl, rfl, rfl, rfl, rfl⟩⟩
  cases state with
  | prolog => exact .prolog holds
  | root document => exact .root (And.intro rfl holds)
  | dependencies document depth => exact .dependencies (And.intro rfl holds) depth
  | context place => exact .context (And.intro rfl holds)
  | contextText place part start text =>
      exact .contextText (And.intro rfl (And.intro rfl holds)) part text
  | message place => exact .message (And.intro rfl holds)
  | location place depth => exact .location (And.intro rfl holds) depth
  | messageText place element start text =>
      exact .messageText (And.intro rfl (And.intro rfl holds)) text
  | target place => exact .target (inTarget holds)
  | variant place text => exact .variant (inTarget holds) text
  | form place text => exact .form (inTarget holds) text
  | formVariants place texts => exact .formVariants (inTarget holds) texts
  | formVariant place texts text => exact .formVariant (inTarget holds) texts text
  | epilog document => exact .epilog (And.intro rfl holds)

theorem holds_of_related {trait : Trait} {state other : State}
    (related : trait.likeness.Related state other) : trait.Holds state := by
  cases related with
  | prolog alike => exact alike
  | root alike => exact alike.2
  | dependencies alike => exact alike.2
  | context alike => exact alike.2
  | contextText alike => exact alike.2.2
  | message alike => exact alike.2
  | location alike => exact alike.2
  | messageText alike => exact alike.2.2
  | target alike => exact alike.message.2.2
  | variant alike => exact alike.message.2.2
  | form alike => exact alike.message.2.2
  | formVariants alike => exact alike.message.2.2
  | formVariant alike => exact alike.message.2.2
  | epilog alike => exact alike.2

/-- A property leads to another one in every way in which an event with a
span changes what a reader holds. -/
structure Laws (before after : Trait) (span : ByteSpan) : Prop where
  prolog : before.prolog → after.prolog
  document {document : Document} : before.document document → after.document document
  context {place : InContext} : before.context place → after.context place
  part {place : InContext} {start : Nat} : before.part place start → after.part place start
  message {place : InMessage} : before.message place → after.message place
  location {place : InMessage} : before.location place → after.location place
  text {element : String} {place : InMessage} {start : Nat} :
    before.text element place start → after.text element place start
  target {place : InMessage} {startTag : ByteSpan} :
    before.target place startTag → after.target place startTag
  root (version language source : Option String) : before.prolog →
    after.document ⟨⟨version, language, source, []⟩, ⟨span, []⟩⟩
  openContext {document : Document} : before.document document →
    after.context ⟨document, { start := span.start }⟩
  openPart {place : InContext} : before.context place → after.part place span.start
  closePart {place : InContext} {start : Nat} (part : ContextPart) (text : String) :
    before.part place start → after.context (closeContextText place part text ⟨start, span.stop⟩)
  emptyName {place : InContext} : before.context place →
    after.context { place with context := { place.context with name := some span } }
  emptyComment {place : InContext} : before.context place →
    after.context (closeContextText place .comment "" span)
  closeContext {place : InContext} {name : ByteSpan} : before.context place →
    place.context.name = some name →
    after.document (addContext place.document place.context.context
      ⟨⟨place.context.start, span.stop⟩, name, place.context.messages⟩)
  openMessage {place : InContext} (id : Option String) (numerus : Bool) :
    before.context place →
    after.message { place with message := { start := span.start, message := { id, numerus } } }
  openLocation {place : InMessage} (location : CodeLocation) : before.message place →
    after.location (addLocation place location)
  closeLocation {place : InMessage} : before.location place → after.message place
  emptyLocation {place : InMessage} (location : CodeLocation) : before.message place →
    after.message (addLocation place location)
  openText {place : InMessage} {element : String}
    (unblank : ∀ c ∈ element.toList, isMarkupBlank c = false) : before.message place →
    after.text element place span.start
  closeSource {place : InMessage} {start : Nat} (text : String) :
    before.text "source" place start → after.message (setSource place text ⟨start, span.stop⟩)
  emptySource {place : InMessage} : before.message place →
    after.message (setSource place "" span)
  closeText {place : InMessage} {start : Nat} {element text : String} {message : Message} :
    before.text element place start →
    storeText place.message.message element text start = .ok message →
    after.message { place with message := { place.message with message := message } }
  emptyText {place : InMessage} {element : String} {message : Message}
    (unblank : ∀ c ∈ element.toList, isMarkupBlank c = false) : before.message place →
    storeText place.message.message element "" span.start = .ok message →
    after.message { place with message := { place.message with message := message } }
  openTarget {place : InMessage} : before.message place → after.target place span
  closeTarget {place : InMessage} {startTag : ByteSpan} (target : Target)
    (admits : Likeness.Admits place.message.message.numerus target.text) :
    before.target place startTag →
    after.message (setTarget place target ⟨⟨startTag.start, span.stop⟩, startTag⟩)
  emptyTarget {place : InMessage} (target : Target)
    (admits : Likeness.Admits place.message.message.numerus target.text) :
    before.message place → after.message (setTarget place target ⟨span, span⟩)
  closeMessage {place : InMessage} {source : ByteSpan} : before.message place →
    place.message.source = some source →
    after.context (addMessage place.toInContext place.message.message
      ⟨⟨place.message.start, span.stop⟩, source, place.message.target⟩)

variable {before after : Trait} {span : ByteSpan}

theorem likeness_laws (laws : Laws before after span) :
    Likeness.Laws before.likeness after.likeness span span where
  prolog := laws.prolog
  document := by
    rintro document _ ⟨rfl, holds⟩
    exact ⟨rfl, laws.document holds⟩
  context := by
    rintro place _ ⟨rfl, holds⟩
    exact ⟨rfl, laws.context holds⟩
  part := by
    rintro place _ start _ ⟨rfl, rfl, holds⟩
    exact ⟨rfl, rfl, laws.part holds⟩
  message := by
    rintro place _ ⟨rfl, holds⟩
    exact ⟨rfl, laws.message holds⟩
  location := by
    rintro place _ ⟨rfl, holds⟩
    exact ⟨rfl, laws.location holds⟩
  text := by
    rintro element place _ start _ ⟨rfl, rfl, holds⟩
    exact ⟨rfl, rfl, laws.text holds⟩
  target := by
    rintro place _ startTag _ ⟨rfl, rfl, holds⟩
    exact ⟨rfl, rfl, laws.target holds⟩
  root version language source holds := ⟨rfl, laws.root version language source holds⟩
  openContext := by
    rintro document _ ⟨rfl, holds⟩
    exact ⟨rfl, laws.openContext holds⟩
  openPart := by
    rintro place _ ⟨rfl, holds⟩
    exact ⟨rfl, rfl, laws.openPart holds⟩
  closePart := by
    rintro place _ start _ part text ⟨rfl, rfl, holds⟩
    exact ⟨rfl, laws.closePart part text holds⟩
  emptyName := by
    rintro place _ ⟨rfl, holds⟩
    exact ⟨rfl, laws.emptyName holds⟩
  emptyComment := by
    rintro place _ ⟨rfl, holds⟩
    exact ⟨rfl, laws.emptyComment holds⟩
  named := by
    rintro place _ ⟨rfl, -⟩
    rfl
  closeContext := by
    rintro place _ name otherName ⟨rfl, holds⟩ named otherNamed
    rw [named, Option.some.injEq] at otherNamed
    subst otherNamed
    exact ⟨rfl, laws.closeContext holds named⟩
  openMessage := by
    rintro place _ id numerus ⟨rfl, holds⟩
    exact ⟨rfl, laws.openMessage id numerus holds⟩
  openLocation := by
    rintro place _ location ⟨rfl, holds⟩
    exact ⟨rfl, laws.openLocation location holds⟩
  closeLocation := by
    rintro place _ ⟨rfl, holds⟩
    exact ⟨rfl, laws.closeLocation holds⟩
  emptyLocation := by
    rintro place _ location ⟨rfl, holds⟩
    exact ⟨rfl, laws.emptyLocation location holds⟩
  openText := by
    rintro place _ element unblank ⟨rfl, holds⟩
    exact ⟨rfl, rfl, laws.openText unblank holds⟩
  closeSource := by
    rintro place _ start _ text ⟨rfl, rfl, holds⟩
    exact ⟨rfl, laws.closeSource text holds⟩
  emptySource := by
    rintro place _ ⟨rfl, holds⟩
    exact ⟨rfl, laws.emptySource holds⟩
  closeText := by
    rintro place _ start _ element text message other ⟨rfl, rfl, holds⟩ stored otherStored
    rw [stored, Except.ok.injEq] at otherStored
    subst otherStored
    exact ⟨rfl, laws.closeText holds stored⟩
  emptyText := by
    rintro place _ element unblank message other ⟨rfl, holds⟩ stored otherStored
    rw [stored, Except.ok.injEq] at otherStored
    subst otherStored
    exact ⟨rfl, laws.emptyText unblank holds stored⟩
  counted := by
    rintro place _ ⟨rfl, -⟩
    rfl
  targetCounted := by
    rintro place _ startTag _ ⟨rfl, -⟩
    rfl
  openTarget := by
    rintro place _ ⟨rfl, holds⟩
    exact ⟨rfl, rfl, laws.openTarget holds⟩
  closeTarget := by
    rintro place _ startTag _ target admits ⟨rfl, rfl, holds⟩
    exact ⟨rfl, laws.closeTarget target admits holds⟩
  emptyTarget := by
    rintro place _ target admits ⟨rfl, holds⟩
    exact ⟨rfl, laws.emptyTarget target admits holds⟩
  sourced := by
    rintro place _ ⟨rfl, -⟩
    rfl
  closeMessage := by
    rintro place _ source otherSource ⟨rfl, holds⟩ sourced otherSourced
    rw [sourced, Option.some.injEq] at otherSourced
    subst otherSourced
    exact ⟨rfl, laws.closeMessage holds sourced⟩

theorem holds_of_step (laws : Laws before after span) {state next : State} {event : Event}
    (holds : before.Holds state) (step : state.step ⟨span, event⟩ = .ok next) :
    after.Holds next := by
  have related := Likeness.related_of_step (likeness_laws laws) (related_of_holds holds) event
  rw [step, Except.toOption_ok] at related
  generalize (Except.ok next : Except ReadError State).toOption = other at related
  cases related with
  | some related => exact holds_of_related related

theorem holds_of_events {trait : Trait} (laws : ∀ span, Laws trait trait span)
    {events : List Located} {state last : State} (holds : trait.Holds state)
    (run : events.foldlM State.step state = .ok last) : trait.Holds last := by
  induction events generalizing state with
  | nil =>
      cases run
      exact holds
  | cons located events ih =>
      rw [List.foldlM_cons] at run
      cases step : state.step located with
      | error => simp [step, bind, Except.bind] at run
      | ok next =>
          rw [step] at run
          exact ih (holds_of_step (laws located.span) holds step) run

/-- The document that is read has every property that a reader has at the
start and keeps. -/
theorem holds_of_read {trait : Trait} (laws : ∀ span, Laws trait trait span)
    (starts : trait.prolog) {text : String} {document : Document}
    (read : Document.read text = .ok document) : trait.document document := by
  simp only [Document.read, readEvents] at read
  cases run : (Xml.events text).events.foldlM State.step .prolog with
  | error => simp [run, bind, Except.bind] at read
  | ok last =>
      have initial : trait.Holds .prolog := starts
      have holds := holds_of_events laws initial run
      rw [run] at read
      change last.finish (Xml.events text).ending = .ok document at read
      cases ending : (Xml.events text).ending with
      | failed => simp [ending, State.finish] at read
      | complete offset =>
          rw [ending] at read
          cases last with
          | epilog other =>
              cases read
              exact holds
          | _ => simp [State.finish, State.complete, endInside] at read

end Trait

end CatalogServer.Reader
