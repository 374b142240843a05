import CatalogServer.Proofs.Catalog.Stages

/-!
# Where targets are recorded

A reader records where the target of a message stands when the target element
ends.  What a step records was recorded before, or the step ends a target
element; and a reader inside a target element was there before the step, or
stood in front of the element.
-/

namespace CatalogServer

open Text

/-- The target of the message at an index stands at a place. -/
def Document.Records (document : Document) (index : MessageIndex) (spans : TargetSpans) : Prop :=
  ∃ message, document.spans.message? index = some message ∧ message.target = some spans

namespace Reader

open Xml

/-- The index of the message that comes next. -/
def InContext.nextIndex (place : InContext) : MessageIndex :=
  ⟨place.document.spans.contexts.length, place.context.messages.length⟩

def InContext.Records (place : InContext) (index : MessageIndex) (spans : TargetSpans) : Prop :=
  place.document.Records index spans ∨
    index.context = place.document.spans.contexts.length ∧
      ∃ message, place.context.messages[index.message]? = some message ∧
        message.target = some spans

def InMessage.Records (place : InMessage) (index : MessageIndex) (spans : TargetSpans) : Prop :=
  place.toInContext.Records index spans ∨
    index = place.nextIndex ∧ place.message.target = some spans

/-- The target of the message at an index was recorded at a place. -/
def State.Records : State → MessageIndex → TargetSpans → Prop
  | .prolog, _, _ => False
  | .root document, index, spans => document.Records index spans
  | .dependencies document _, index, spans => document.Records index spans
  | .context place, index, spans => place.Records index spans
  | .contextText place _ _ _, index, spans => place.Records index spans
  | .message place, index, spans => place.Records index spans
  | .location place _, index, spans => place.Records index spans
  | .messageText place _ _ _, index, spans => place.Records index spans
  | .target place, index, spans => place.toInMessage.Records index spans
  | .variant place _, index, spans => place.toInMessage.Records index spans
  | .form place _, index, spans => place.toInMessage.Records index spans
  | .formVariants place _, index, spans => place.toInMessage.Records index spans
  | .formVariant place _ _, index, spans => place.toInMessage.Records index spans
  | .epilog document, index, spans => document.Records index spans

/-- The reader stands inside a target element with a start tag. -/
def State.InTargetAt (place : InMessage) (startTag : ByteSpan) : State → Prop
  | .target inside => inside.toInMessage = place ∧ inside.target.startTag = startTag
  | .variant inside _ => inside.toInMessage = place ∧ inside.target.startTag = startTag
  | .form inside _ => inside.toInMessage = place ∧ inside.target.startTag = startTag
  | .formVariants inside _ => inside.toInMessage = place ∧ inside.target.startTag = startTag
  | .formVariant inside _ _ => inside.toInMessage = place ∧ inside.target.startTag = startTag
  | _ => False

/-- Number of elements that are open from the target element on. -/
def State.targetDepth : State → Nat
  | .target _ => 1
  | .variant _ _ => 2
  | .form _ _ => 2
  | .formVariants _ _ => 2
  | .formVariant _ _ _ => 3
  | _ => 0

theorem getElem?_concat_cases {α : Type} {items : List α} {last item : α} {number : Nat}
    (found : (items ++ [last])[number]? = some item) :
    items[number]? = some item ∨ number = items.length ∧ last = item := by
  rw [List.getElem?_append] at found
  split at found
  · exact .inl found
  · right
    obtain ⟨single, itemEq⟩ := List.getElem?_eq_some_iff.mp found
    rw [List.length_singleton] at single
    have zero : number - items.length = 0 := by omega
    refine ⟨by omega, ?_⟩
    simpa [zero] using itemEq

theorem records_addMessage {place : InContext} {message : Message} {spans : MessageSpans}
    {index : MessageIndex} {target : TargetSpans}
    (recorded : (addMessage place message spans).Records index target) :
    place.Records index target ∨ index = place.nextIndex ∧ spans.target = some target := by
  rcases recorded with inDocument | ⟨here, found, foundAt, held⟩
  · exact .inl (.inl inDocument)
  · rcases getElem?_concat_cases foundAt with earlier | ⟨last, rfl⟩
    · exact .inl (.inr ⟨here, found, earlier, held⟩)
    · refine .inr ⟨?_, held⟩
      obtain ⟨context, message⟩ := index
      exact MessageIndex.mk.injEq .. ▸ ⟨here, last⟩

theorem records_addContext {document : Document} {context : Context} {spans : ContextSpans}
    {index : MessageIndex} {target : TargetSpans}
    (recorded : (addContext document context spans).Records index target) :
    document.Records index target ∨
      index.context = document.spans.contexts.length ∧
        ∃ message, spans.messages[index.message]? = some message ∧
          message.target = some target := by
  obtain ⟨message, foundAt, held⟩ := recorded
  simp only [CatalogSpans.message?, addContext, Option.bind_eq_bind,
    Option.bind_eq_some_iff] at foundAt
  obtain ⟨found, contextAt, messageAt⟩ := foundAt
  rcases getElem?_concat_cases contextAt with earlier | ⟨last, rfl⟩
  · refine .inl ⟨message, ?_, held⟩
    simp only [CatalogSpans.message?, Option.bind_eq_bind, Option.bind_eq_some_iff]
    exact ⟨found, earlier, messageAt⟩
  · exact .inr ⟨last, message, messageAt, held⟩

/-- What a reader in a state holds: the targets it has recorded, and where it
stands in or in front of a target. -/
def held (state : State) : Trait where
  prolog := True
  document document := ∀ index spans, document.Records index spans → state.Records index spans
  context place := ∀ index spans, place.Records index spans → state.Records index spans
  part place _ := ∀ index spans, place.Records index spans → state.Records index spans
  message place := state = .message place
  location place := ∀ index spans, place.Records index spans → state.Records index spans
  text _ place _ := ∀ index spans, place.Records index spans → state.Records index spans
  target place startTag := state.InTargetAt place startTag ∧
    ∀ index spans, place.Records index spans → state.Records index spans

theorem holds_held (state : State) : (held state).Holds state := by
  cases state with
  | prolog => trivial
  | message place => exact rfl
  | target place => exact ⟨⟨rfl, rfl⟩, fun _ _ => id⟩
  | variant place text => exact ⟨⟨rfl, rfl⟩, fun _ _ => id⟩
  | form place text => exact ⟨⟨rfl, rfl⟩, fun _ _ => id⟩
  | formVariants place texts => exact ⟨⟨rfl, rfl⟩, fun _ _ => id⟩
  | formVariant place texts text => exact ⟨⟨rfl, rfl⟩, fun _ _ => id⟩
  | _ => exact fun _ _ => id

/-- The step from a state over a span ends a target element. -/
def Ends (state : State) (span : ByteSpan) (place : InMessage) (spans : TargetSpans) : Prop :=
  state.InTargetAt place spans.startTag ∧
      spans.element = ⟨spans.startTag.start, span.stop⟩ ∨
    state = .message place ∧ spans = ⟨span, span⟩

/-- What a reader holds behind one step from a state. -/
def heldBehind (state : State) (span : ByteSpan) : Trait where
  prolog := True
  document document := ∀ index spans, document.Records index spans → state.Records index spans
  context place := ∀ index spans, place.Records index spans → state.Records index spans
  part place _ := ∀ index spans, place.Records index spans → state.Records index spans
  message place := ∀ index spans, place.Records index spans → state.Records index spans ∨
    ∃ before target, place = setTarget before target spans ∧ index = before.nextIndex ∧
      Ends state span before spans
  location place := ∀ index spans, place.Records index spans → state.Records index spans
  text _ place _ := ∀ index spans, place.Records index spans → state.Records index spans
  target place startTag :=
    (state.InTargetAt place startTag ∨ state = .message place ∧ startTag = span) ∧
      ∀ index spans, place.Records index spans → state.Records index spans

theorem held_laws (state : State) (span : ByteSpan) :
    Trait.Laws (held state) (heldBehind state span) span where
  prolog := id
  document := id
  context := id
  part := id
  message := by
    rintro place rfl index spans recorded
    exact .inl recorded
  location := id
  text := id
  target holds := ⟨.inl holds.1, holds.2⟩
  root version language source _ index spans := by
    rintro ⟨message, found, -⟩
    simp [CatalogSpans.message?] at found
  openContext holds index spans := by
    rintro (inDocument | ⟨-, message, found, -⟩)
    · exact holds index spans inDocument
    · simp at found
  openPart := id
  closePart part text holds := by
    cases part <;> exact holds
  emptyName := id
  emptyComment := id
  closeContext holds _ index spans recorded := by
    rcases records_addContext recorded with inDocument | here
    · exact holds index spans (.inl inDocument)
    · exact holds index spans (.inr here)
  openMessage id numerus holds index spans := by
    rintro (inContext | ⟨-, found⟩)
    · exact .inl (holds index spans inContext)
    · cases found
  openLocation location := by
    rintro rfl index spans recorded
    exact recorded
  closeLocation holds index spans recorded := .inl (holds index spans recorded)
  emptyLocation location := by
    rintro rfl index spans recorded
    exact .inl recorded
  openText _ := by
    rintro rfl index spans recorded
    exact recorded
  closeSource text holds index spans recorded := .inl (holds index spans recorded)
  emptySource := by
    rintro place rfl index spans recorded
    exact .inl recorded
  closeText holds _ index spans recorded := .inl (holds index spans recorded)
  emptyText _ := by
    rintro rfl _ index spans recorded
    exact .inl recorded
  openTarget := by
    rintro place rfl
    exact ⟨.inr ⟨rfl, rfl⟩, fun _ _ => id⟩
  closeTarget target _ := by
    rintro ⟨inside, holds⟩ index spans (inContext | ⟨here, found⟩)
    · exact .inl (holds index spans (.inl inContext))
    · cases found
      exact .inr ⟨_, target, rfl, here, .inl ⟨inside, rfl⟩⟩
  emptyTarget target _ := by
    rintro rfl index spans (inContext | ⟨here, found⟩)
    · exact .inl (.inl inContext)
    · cases found
      exact .inr ⟨_, target, rfl, here, .inr ⟨rfl, rfl⟩⟩
  closeMessage := by
    rintro place source rfl _ index spans recorded
    rcases records_addMessage recorded with inContext | ⟨rfl, found⟩
    · exact .inl inContext
    · exact .inr ⟨rfl, found⟩

variable {state next : State} {span : ByteSpan} {event : Event}

/-- A step records at most the target of the element it ends. -/
theorem records_of_step (step : state.step ⟨span, event⟩ = .ok next) {index : MessageIndex}
    {spans : TargetSpans} (recorded : next.Records index spans) :
    state.Records index spans ∨
      ∃ place target, next = .message (setTarget place target spans) ∧
        index = place.nextIndex ∧ Ends state span place spans := by
  have holds := Trait.holds_of_step (held_laws state span) (holds_held state) step
  cases next with
  | prolog => cases recorded
  | message place =>
      rcases holds index spans recorded with earlier | ⟨before, target, rfl, here, ends⟩
      · exact .inl earlier
      · exact .inr ⟨before, target, rfl, here, ends⟩
  | target place => exact .inl (holds.2 index spans recorded)
  | variant place text => exact .inl (holds.2 index spans recorded)
  | form place text => exact .inl (holds.2 index spans recorded)
  | formVariants place texts => exact .inl (holds.2 index spans recorded)
  | formVariant place texts text => exact .inl (holds.2 index spans recorded)
  | _ => exact .inl (holds index spans recorded)

theorem inTargetAt_of_step (step : state.step ⟨span, event⟩ = .ok next) {place : InMessage}
    {startTag : ByteSpan} (inside : next.InTargetAt place startTag) :
    state.InTargetAt place startTag ∨ state = .message place ∧ startTag = span := by
  have holds := Trait.holds_of_step (held_laws state span) (holds_held state) step
  cases next with
  | target place => exact inside.1 ▸ inside.2 ▸ holds.1
  | variant place text => exact inside.1 ▸ inside.2 ▸ holds.1
  | form place text => exact inside.1 ▸ inside.2 ▸ holds.1
  | formVariants place texts => exact inside.1 ▸ inside.2 ▸ holds.1
  | formVariant place texts text => exact inside.1 ▸ inside.2 ▸ holds.1
  | _ => cases inside

end Reader

end CatalogServer
