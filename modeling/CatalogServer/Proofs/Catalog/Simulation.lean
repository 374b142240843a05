import CatalogServer.Proofs.Catalog.Events

/-!
# Readers side by side

Two readers that take the same event do the same thing: which step a reader
takes depends on the kind of place where it stands and on little of what it
holds.  So a likeness between two readers is kept by every step once it is
kept by each of the few ways in which a reader changes what it holds.  Those
ways are listed in `Likeness.Laws`, and `related_of_step` goes through the
steps of the reader once and for all.

The likeness after a step may differ from the one before it, which lets it
speak of the offsets that were reached.  A likeness of a reader with itself is
a property that the reader keeps.
-/

namespace CatalogServer.Reader

open Text Xml

/-- What two readers have in common, for each kind of place where they can
stand.  In a text element and in a target, the place where the element starts
is part of it. -/
structure Likeness where
  prolog : Prop
  document : Document → Document → Prop
  context : InContext → InContext → Prop
  part : InContext → Nat → InContext → Nat → Prop
  message : InMessage → InMessage → Prop
  location : InMessage → InMessage → Prop
  text : String → InMessage → Nat → InMessage → Nat → Prop
  target : InMessage → ByteSpan → InMessage → ByteSpan → Prop

/-- Targets that differ only in where they stand. -/
structure TargetDraft.Alike (draft other : TargetDraft) : Prop where
  status : draft.status = other.status
  announces : draft.announcesVariants = other.announcesVariants
  text : draft.text = other.text
  started : draft.textStart.isSome = other.textStart.isSome
  forms : draft.forms = other.forms
  variants : draft.variants = other.variants

namespace Likeness

/-- Places inside a target that are alike. -/
structure InTarget (like : Likeness) (place other : Reader.InTarget) : Prop where
  /-- Their messages are alike, with the starts of their targets. -/
  message : like.target place.toInMessage place.target.startTag
    other.toInMessage other.target.startTag
  draft : place.target.Alike other.target

/-- States of the same kind that have in common what a likeness says. -/
inductive Related (like : Likeness) : State → State → Prop where
  | prolog (alike : like.prolog) : Related like .prolog .prolog
  | root {document other : Document} (alike : like.document document other) :
      Related like (.root document) (.root other)
  | dependencies {document other : Document} (alike : like.document document other)
      (depth : Nat) : Related like (.dependencies document depth) (.dependencies other depth)
  | context {place other : InContext} (alike : like.context place other) :
      Related like (.context place) (.context other)
  | contextText {place other : InContext} {start otherStart : Nat}
      (alike : like.part place start other otherStart) (part : ContextPart)
      (text : List Char) :
      Related like (.contextText place part start text) (.contextText other part otherStart text)
  | message {place other : InMessage} (alike : like.message place other) :
      Related like (.message place) (.message other)
  | location {place other : InMessage} (alike : like.location place other) (depth : Nat) :
      Related like (.location place depth) (.location other depth)
  | messageText {element : String} {place other : InMessage} {start otherStart : Nat}
      (alike : like.text element place start other otherStart) (text : List Char) :
      Related like (.messageText place element start text)
        (.messageText other element otherStart text)
  | target {place other : Reader.InTarget} (alike : like.InTarget place other) :
      Related like (.target place) (.target other)
  | variant {place other : Reader.InTarget} (alike : like.InTarget place other)
      (text : List Char) : Related like (.variant place text) (.variant other text)
  | form {place other : Reader.InTarget} (alike : like.InTarget place other)
      (text : List Char) : Related like (.form place text) (.form other text)
  | formVariants {place other : Reader.InTarget} (alike : like.InTarget place other)
      (texts : List String) : Related like (.formVariants place texts) (.formVariants other texts)
  | formVariant {place other : Reader.InTarget} (alike : like.InTarget place other)
      (texts : List String) (text : List Char) :
      Related like (.formVariant place texts text) (.formVariant other texts text)
  | epilog {document other : Document} (alike : like.document document other) :
      Related like (.epilog document) (.epilog other)

/-- A reader can take this text for the target of a message: without numerus
it never takes a target for one without plural forms. -/
def Admits (numerus : Bool) (text : TargetText) : Prop :=
  numerus = false → text ≠ .plural []

/-- A likeness of two readers leads to another one in every way in which one
event changes what they hold. -/
structure Laws (before after : Likeness) (span otherSpan : ByteSpan) : Prop where
  /-- Nothing changes in front of the root element. -/
  prolog : before.prolog → after.prolog
  document {document other : Document} : before.document document other →
    after.document document other
  context {place other : InContext} : before.context place other → after.context place other
  /-- Nothing changes inside a text element of a context. -/
  part {place other : InContext} {start otherStart : Nat} :
    before.part place start other otherStart → after.part place start other otherStart
  message {place other : InMessage} : before.message place other → after.message place other
  location {place other : InMessage} : before.location place other → after.location place other
  /-- Nothing changes inside a text element of a message. -/
  text {element : String} {place other : InMessage} {start otherStart : Nat} :
    before.text element place start other otherStart →
      after.text element place start other otherStart
  target {place other : InMessage} {startTag otherTag : ByteSpan} :
    before.target place startTag other otherTag → after.target place startTag other otherTag
  root (version language source : Option String) : before.prolog →
    after.document ⟨⟨version, language, source, []⟩, ⟨span, []⟩⟩
      ⟨⟨version, language, source, []⟩, ⟨otherSpan, []⟩⟩
  openContext {document other : Document} : before.document document other →
    after.context ⟨document, { start := span.start }⟩ ⟨other, { start := otherSpan.start }⟩
  openPart {place other : InContext} : before.context place other →
    after.part place span.start other otherSpan.start
  closePart {place other : InContext} {start otherStart : Nat} (part : ContextPart)
    (text : String) : before.part place start other otherStart →
    after.context (closeContextText place part text ⟨start, span.stop⟩)
      (closeContextText other part text ⟨otherStart, otherSpan.stop⟩)
  /-- A context has a name element without content. -/
  emptyName {place other : InContext} : before.context place other →
    after.context { place with context := { place.context with name := some span } }
      { other with context := { other.context with name := some otherSpan } }
  /-- A context has a comment element without content. -/
  emptyComment {place other : InContext} : before.context place other →
    after.context (closeContextText place .comment "" span)
      (closeContextText other .comment "" otherSpan)
  /-- Both contexts have a name or neither has. -/
  named {place other : InContext} : before.context place other →
    place.context.name.isSome = other.context.name.isSome
  closeContext {place other : InContext} {name otherName : ByteSpan} :
    before.context place other → place.context.name = some name →
    other.context.name = some otherName →
    after.document
      (addContext place.document place.context.context
        ⟨⟨place.context.start, span.stop⟩, name, place.context.messages⟩)
      (addContext other.document other.context.context
        ⟨⟨other.context.start, otherSpan.stop⟩, otherName, other.context.messages⟩)
  openMessage {place other : InContext} (id : Option String) (numerus : Bool) :
    before.context place other →
    after.message
      { place with message := { start := span.start, message := { id, numerus } } }
      { other with message := { start := otherSpan.start, message := { id, numerus } } }
  openLocation {place other : InMessage} (location : CodeLocation) :
    before.message place other →
    after.location (addLocation place location) (addLocation other location)
  closeLocation {place other : InMessage} :
    before.location place other → after.message place other
  emptyLocation {place other : InMessage} (location : CodeLocation) :
    before.message place other →
    after.message (addLocation place location) (addLocation other location)
  openText {place other : InMessage} {element : String}
    (unblank : ∀ c ∈ element.toList, isMarkupBlank c = false) : before.message place other →
    after.text element place span.start other otherSpan.start
  closeSource {place other : InMessage} {start otherStart : Nat} (text : String) :
    before.text "source" place start other otherStart →
    after.message (setSource place text ⟨start, span.stop⟩)
      (setSource other text ⟨otherStart, otherSpan.stop⟩)
  emptySource {place other : InMessage} : before.message place other →
    after.message (setSource place "" span) (setSource other "" otherSpan)
  closeText {place other : InMessage} {start otherStart : Nat} {element text : String}
    {message otherMessage : Message} : before.text element place start other otherStart →
    storeText place.message.message element text start = .ok message →
    storeText other.message.message element text otherStart = .ok otherMessage →
    after.message { place with message := { place.message with message := message } }
      { other with message := { other.message with message := otherMessage } }
  /-- Another text element of a message has no content. -/
  emptyText {place other : InMessage} {element : String}
    (unblank : ∀ c ∈ element.toList, isMarkupBlank c = false) {message otherMessage : Message} :
    before.message place other →
    storeText place.message.message element "" span.start = .ok message →
    storeText other.message.message element "" otherSpan.start = .ok otherMessage →
    after.message { place with message := { place.message with message := message } }
      { other with message := { other.message with message := otherMessage } }
  /-- Both messages depend on a count or neither does. -/
  counted {place other : InMessage} : before.message place other →
    place.message.message.numerus = other.message.message.numerus
  /-- Both messages of targets depend on a count or neither does. -/
  targetCounted {place other : InMessage} {startTag otherTag : ByteSpan} :
    before.target place startTag other otherTag →
    place.message.message.numerus = other.message.message.numerus
  openTarget {place other : InMessage} : before.message place other →
    after.target place span other otherSpan
  closeTarget {place other : InMessage} {startTag otherTag : ByteSpan} (target : Target)
    (admits : Admits place.message.message.numerus target.text) :
    before.target place startTag other otherTag →
    after.message (setTarget place target ⟨⟨startTag.start, span.stop⟩, startTag⟩)
      (setTarget other target ⟨⟨otherTag.start, otherSpan.stop⟩, otherTag⟩)
  emptyTarget {place other : InMessage} (target : Target)
    (admits : Admits place.message.message.numerus target.text) : before.message place other →
    after.message (setTarget place target ⟨span, span⟩)
      (setTarget other target ⟨otherSpan, otherSpan⟩)
  /-- Both messages have a source or neither has. -/
  sourced {place other : InMessage} : before.message place other →
    place.message.source.isSome = other.message.source.isSome
  closeMessage {place other : InMessage} {source otherSource : ByteSpan} :
    before.message place other → place.message.source = some source →
    other.message.source = some otherSource →
    after.context
      (addMessage place.toInContext place.message.message
        ⟨⟨place.message.start, span.stop⟩, source, place.message.target⟩)
      (addMessage other.toInContext other.message.message
        ⟨⟨other.message.start, otherSpan.stop⟩, otherSource, other.message.target⟩)

variable {before after : Likeness} {span otherSpan : ByteSpan}

theorem rel_map {α β γ : Type} {relation : β → γ → Prop} (value : Option α) {f : α → β}
    {g : α → γ} (related : ∀ item, relation (f item) (g item)) :
    Option.Rel relation (value.map f) (value.map g) := by
  cases value with
  | none => exact .none
  | some item => exact .some (related item)

theorem related_prologStep (laws : Laws before after span otherSpan) (alike : before.prolog)
    (event : Event) :
    Option.Rel after.Related (prologStep ⟨span, event⟩).toOption
      (prologStep ⟨otherSpan, event⟩).toOption := by
  have started (tag : Tag) {f : Document → State}
      (related : ∀ {document other}, after.document document other →
        after.Related (f document) (f other)) :
      Option.Rel after.Related ((rootDocument span tag).map f).toOption
        ((rootDocument otherSpan tag).map f).toOption := by
    simp only [Except.toOption_map, rootDocument, Except.toOption_bind, toOption_attributesAt]
    cases tag.attributes.toOption with
    | none => exact .none
    | some attributes => exact .some (related (laws.root _ _ _ alike))
  cases event with
  | text raw =>
      simp only [prologStep]
      split
      · exact .some (.prolog (laws.prolog alike))
      · exact .none
  | opening tag =>
      simp only [prologStep]
      split
      · exact started tag .root
      · exact .none
  | selfClosing tag =>
      simp only [prologStep]
      split
      · exact started tag .epilog
      · exact .none
  | cdata content => exact .none
  | closing => exact .none
  | _ => exact .some (.prolog (laws.prolog alike))

theorem related_rootStep (laws : Laws before after span otherSpan) {document other : Document}
    (alike : before.document document other) (event : Event) :
    Option.Rel after.Related (rootStep document ⟨span, event⟩).toOption
      (rootStep other ⟨otherSpan, event⟩).toOption := by
  cases event with
  | opening tag =>
      simp only [rootStep]
      split
      · exact .some (.context (laws.openContext alike))
      split
      · exact .some (.dependencies (laws.document alike) 0)
      · exact .none
  | selfClosing tag =>
      simp only [rootStep]
      split
      · exact .some (.root (laws.document alike))
      · exact .none
  | closing => exact .some (.epilog (laws.document alike))
  | _ =>
      simp only [rootStep, Except.toOption_map, toOption_acceptInsignificant]
      exact rel_map _ fun _ => .root (laws.document alike)

theorem related_contextStep (laws : Laws before after span otherSpan) {place other : InContext}
    (alike : before.context place other) (event : Event) :
    Option.Rel after.Related (contextStep place ⟨span, event⟩).toOption
      (contextStep other ⟨otherSpan, event⟩).toOption := by
  cases event with
  | opening tag =>
      simp only [contextStep]
      split
      · exact .some (.contextText (laws.openPart alike) .name [])
      split
      · exact .some (.contextText (laws.openPart alike) .comment [])
      split
      · simp only [openMessage, Except.toOption_bind, toOption_attributesAt]
        cases tag.attributes.toOption with
        | none => exact .none
        | some attributes => exact .some (.message (laws.openMessage _ _ alike))
      · exact .none
  | selfClosing tag =>
      simp only [contextStep]
      split
      · exact .some (.context (laws.emptyName alike))
      split
      · exact .some (.context (laws.emptyComment alike))
      · exact .none
  | closing =>
      simp only [contextStep, Reader.closeContext]
      have named := laws.named alike
      cases name : place.context.name with
      | none =>
          cases otherName : other.context.name with
          | none => exact .none
          | some otherName' => simp [name, otherName] at named
      | some name' =>
          cases otherName : other.context.name with
          | none => simp [name, otherName] at named
          | some otherName' => exact .some (.root (laws.closeContext alike name otherName))
  | _ =>
      simp only [contextStep, Except.toOption_map, toOption_acceptInsignificant]
      exact rel_map _ fun _ => .context (laws.context alike)

theorem related_contextTextStep (laws : Laws before after span otherSpan)
    {place other : InContext} {start otherStart : Nat}
    (alike : before.part place start other otherStart) (part : ContextPart) (text : List Char)
    (event : Event) :
    Option.Rel after.Related (contextTextStep place part start text ⟨span, event⟩).toOption
      (contextTextStep other part otherStart text ⟨otherSpan, event⟩).toOption := by
  cases event with
  | closing => exact .some (.context (laws.closePart part _ alike))
  | _ =>
      simp only [contextTextStep, Except.toOption_map, toOption_textPiece]
      exact rel_map _ fun _ => .contextText (laws.part alike) part _

theorem unblank_name (tag : Tag) : ∀ c ∈ tag.name.toList, isMarkupBlank c = false := by
  intro c member
  rw [Tag.name, String.toList_ofList, Tag.nameChars] at member
  simpa using List.mem_takeWhile_imp member

theorem isSome_storeText (message other : Message) (element text : String)
    (offset otherOffset : Nat) :
    (storeText message element text offset).toOption.isSome =
      (storeText other element text otherOffset).toOption.isSome := by
  unfold storeText
  repeat' split
  all_goals rfl

theorem admits_emptyTargetText (numerus variants : Bool) :
    Admits numerus (emptyTargetText numerus variants) := by
  rintro rfl
  cases variants <;> simp [emptyTargetText]

theorem admits_targetText (numerus : Bool) (draft : TargetDraft) :
    Admits numerus (targetText numerus draft) := by
  rintro rfl plural
  simp only [targetText, Bool.false_and, Bool.false_eq_true, if_false] at plural
  split at plural
  · simp_all
  · split at plural
    · simp at plural
    · simp at plural

/-- A text element of a message ends or is empty: what it is to one reader it
is to the other. -/
theorem rel_setText {place other : InMessage} (element text : String) (offset otherOffset : Nat)
    (stores : ∀ {message otherMessage : Message},
      storeText place.message.message element text offset = .ok message →
      storeText other.message.message element text otherOffset = .ok otherMessage →
      after.message { place with message := { place.message with message := message } }
        { other with message := { other.message with message := otherMessage } }) :
    Option.Rel after.Related ((setText place element text offset).map .message).toOption
      ((setText other element text otherOffset).map .message).toOption := by
  have same := isSome_storeText place.message.message other.message.message element text offset
    otherOffset
  unfold setText
  cases stored : storeText place.message.message element text offset with
  | error =>
      cases otherStored : storeText other.message.message element text otherOffset with
      | error => exact .none
      | ok otherMessage => simp [stored, otherStored] at same
  | ok message =>
      cases otherStored : storeText other.message.message element text otherOffset with
      | error => simp [stored, otherStored] at same
      | ok otherMessage => exact .some (.message (stores stored otherStored))

theorem related_messageStep (laws : Laws before after span otherSpan) {place other : InMessage}
    (alike : before.message place other) (event : Event) :
    Option.Rel after.Related (messageStep place ⟨span, event⟩).toOption
      (messageStep other ⟨otherSpan, event⟩).toOption := by
  cases event with
  | opening tag =>
      simp only [messageStep]
      split
      · simp only [locationAt, Except.toOption_map, Except.toOption_bind, toOption_attributesAt]
        cases tag.attributes.toOption with
        | none => exact .none
        | some attributes => exact .some (.location (laws.openLocation _ alike) 0)
      split
      · simp only [Reader.openTarget, Except.toOption_bind, toOption_attributesAt]
        cases tag.attributes.toOption with
        | none => exact .none
        | some attributes =>
            exact .some (.target ⟨laws.openTarget alike, ⟨rfl, rfl, rfl, rfl, rfl, rfl⟩⟩)
      · exact .some (.messageText (laws.openText (unblank_name tag) alike) [])
  | selfClosing tag =>
      simp only [messageStep]
      split
      · simp only [locationAt, Except.toOption_map, Except.toOption_bind, toOption_attributesAt]
        cases tag.attributes.toOption with
        | none => exact .none
        | some attributes => exact .some (.message (laws.emptyLocation _ alike))
      split
      · exact .some (.message (laws.emptySource alike))
      split
      · simp only [Reader.emptyTarget, Except.toOption_bind, toOption_attributesAt]
        cases tag.attributes.toOption with
        | none => exact .none
        | some attributes =>
            rw [Option.bind_some, Option.bind_some, ← laws.counted alike]
            exact .some (.message (laws.emptyTarget _ (admits_emptyTargetText _ _) alike))
      · exact rel_setText _ _ _ _ fun stored otherStored =>
          laws.emptyText (unblank_name tag) alike stored otherStored
  | closing =>
      simp only [messageStep, Reader.closeMessage]
      have sourced := laws.sourced alike
      cases source : place.message.source with
      | none =>
          cases otherSource : other.message.source with
          | none => exact .none
          | some otherSource' => simp [source, otherSource] at sourced
      | some source' =>
          cases otherSource : other.message.source with
          | none => simp [source, otherSource] at sourced
          | some otherSource' =>
              exact .some (.context (laws.closeMessage alike source otherSource))
  | _ =>
      simp only [messageStep, Except.toOption_map, toOption_acceptInsignificant]
      exact rel_map _ fun _ => .message (laws.message alike)

theorem related_messageTextStep (laws : Laws before after span otherSpan) {element : String}
    {place other : InMessage} {start otherStart : Nat}
    (alike : before.text element place start other otherStart) (text : List Char)
    (event : Event) :
    Option.Rel after.Related (messageTextStep place element start text ⟨span, event⟩).toOption
      (messageTextStep other element otherStart text ⟨otherSpan, event⟩).toOption := by
  cases event with
  | closing =>
      simp only [messageTextStep, closeMessageText]
      split
      · next source =>
          rw [eq_of_beq source] at alike
          exact .some (.message (laws.closeSource _ alike))
      · exact rel_setText _ _ _ _ fun stored otherStored => laws.closeText alike stored otherStored
  | _ =>
      simp only [messageTextStep, Except.toOption_map, toOption_textPiece]
      exact rel_map _ fun _ => .messageText (laws.text alike) _

namespace InTarget

variable {like : Likeness} {place other : Reader.InTarget}

theorem after_step (laws : Laws before after span otherSpan) (alike : before.InTarget place other) :
    after.InTarget place other :=
  ⟨laws.target alike.message, alike.draft⟩

theorem addForm (alike : like.InTarget place other) (form : FormText) :
    like.InTarget (addForm place form) (addForm other form) :=
  ⟨alike.message, { alike.draft with forms := by simp [Reader.addForm, alike.draft.forms] }⟩

theorem addVariant (alike : like.InTarget place other) (text : String) :
    like.InTarget (addVariant place text) (addVariant other text) :=
  ⟨alike.message,
    { alike.draft with variants := by simp [Reader.addVariant, alike.draft.variants] }⟩

theorem addPiece (alike : like.InTarget place other) (piece : Piece) (offset otherOffset : Nat) :
    like.InTarget (addPiece place piece offset) (addPiece other piece otherOffset) := by
  have started := alike.draft.started
  refine ⟨alike.message, { alike.draft with text := ?_, started := ?_ }⟩
  · simp [Reader.addPiece, alike.draft.text]
  · simp only [Reader.addPiece]
    cases start : place.target.textStart with
    | none =>
        cases otherStart : other.target.textStart with
        | none => cases piece.significant <;> rfl
        | some => simp [start, otherStart] at started
    | some =>
        cases otherStart : other.target.textStart with
        | none => simp [start, otherStart] at started
        | some => rfl

end InTarget

theorem related_targetPiece (laws : Laws before after span otherSpan)
    {place other : Reader.InTarget} (alike : before.InTarget place other) (event : Event) :
    Option.Rel after.Related (targetPiece place ⟨span, event⟩).toOption
      (targetPiece other ⟨otherSpan, event⟩).toOption := by
  simp only [targetPiece, Except.toOption_map, toOption_textPiece]
  exact rel_map _ fun piece => .target ((alike.after_step laws).addPiece piece _ _)

theorem targetText_eq {draft other : TargetDraft} (alike : draft.Alike other) (numerus : Bool) :
    targetText numerus draft = targetText numerus other := by
  have started : draft.textStart.isNone = other.textStart.isNone := by
    rw [← Option.not_isSome, ← Option.not_isSome, alike.started]
  simp only [targetText, alike.forms, alike.announces, alike.variants, alike.text, started]

theorem related_closeTarget (laws : Laws before after span otherSpan)
    {place other : Reader.InTarget} (alike : before.InTarget place other) :
    Option.Rel after.Related (Reader.closeTarget place span.stop).toOption
      (Reader.closeTarget other otherSpan.stop).toOption := by
  have draft := alike.draft
  have closed := laws.closeTarget ⟨place.target.status, targetText _ place.target⟩
    (admits_targetText _ _) alike.message
  have complete : after.Related
      (.message (setTarget place.toInMessage
        ⟨place.target.status, targetText place.message.message.numerus place.target⟩
        ⟨⟨place.target.startTag.start, span.stop⟩, place.target.startTag⟩))
      (.message (setTarget other.toInMessage
        ⟨other.target.status, targetText other.message.message.numerus other.target⟩
        ⟨⟨other.target.startTag.start, otherSpan.stop⟩, other.target.startTag⟩)) := by
    rw [← targetText_eq draft, ← draft.status, ← laws.targetCounted alike.message]
    exact .message closed
  have started := draft.started
  unfold Reader.closeTarget
  simp only [← draft.forms, ← draft.variants]
  cases start : place.target.textStart with
  | none =>
      cases otherStart : other.target.textStart with
      | none => exact .some complete
      | some => simp [start, otherStart] at started
  | some offset =>
      cases otherStart : other.target.textStart with
      | none => simp [start, otherStart] at started
      | some otherOffset =>
          simp only
          split
          · exact .some complete
          · exact .none

theorem related_targetStep (laws : Laws before after span otherSpan)
    {place other : Reader.InTarget} (alike : before.InTarget place other) (event : Event) :
    Option.Rel after.Related (targetStep place ⟨span, event⟩).toOption
      (targetStep other ⟨otherSpan, event⟩).toOption := by
  have later := alike.after_step laws
  cases event with
  | opening tag =>
      simp only [targetStep]
      split
      · simp only [openForm, Except.toOption_bind, toOption_attributesAt]
        cases tag.attributes.toOption with
        | none => exact .none
        | some attributes =>
            simp only [Option.bind_some, Except.toOption_ok]
            split
            · exact .some (.formVariants later [])
            · exact .some (.form later [])
      split
      · exact .some (.variant later [])
      · exact related_targetPiece laws alike _
  | selfClosing tag =>
      simp only [targetStep]
      split
      · exact .some (.target (later.addForm _))
      split
      · exact .some (.target (later.addVariant _))
      · exact related_targetPiece laws alike _
  | closing => exact related_closeTarget laws alike
  | _ => exact related_targetPiece laws alike _

theorem related_leafStep (element : String) {close stay otherClose otherStay : List Char → State}
    (closes : ∀ text, after.Related (close text) (otherClose text))
    (stays : ∀ text, after.Related (stay text) (otherStay text)) (text : List Char)
    (event : Event) :
    Option.Rel after.Related (leafStep element close stay text ⟨span, event⟩).toOption
      (leafStep element otherClose otherStay text ⟨otherSpan, event⟩).toOption := by
  cases event with
  | closing => exact .some (closes text)
  | _ =>
      simp only [leafStep, Except.toOption_map, toOption_textPiece]
      exact rel_map _ fun _ => stays _

theorem related_formVariantsStep (laws : Laws before after span otherSpan)
    {place other : Reader.InTarget} (alike : before.InTarget place other) (texts : List String)
    (event : Event) :
    Option.Rel after.Related (formVariantsStep place texts ⟨span, event⟩).toOption
      (formVariantsStep other texts ⟨otherSpan, event⟩).toOption := by
  have later := alike.after_step laws
  cases event with
  | opening tag =>
      simp only [formVariantsStep]
      split
      · exact .some (.formVariant later texts [])
      · exact .none
  | selfClosing tag =>
      simp only [formVariantsStep]
      split
      · exact .some (.formVariants later _)
      · exact .none
  | closing => exact .some (.target (later.addForm _))
  | _ =>
      simp only [formVariantsStep, Except.toOption_map, toOption_acceptInsignificant]
      exact rel_map _ fun _ => .formVariants later texts

theorem related_skipStep {inside otherInside : Nat → State} {outside otherOutside : State}
    (insides : ∀ depth, after.Related (inside depth) (otherInside depth))
    (outsides : after.Related outside otherOutside) (depth : Nat) (event : Event) :
    after.Related (skipStep inside outside depth event)
      (skipStep otherInside otherOutside depth event) := by
  unfold skipStep
  split
  · exact insides _
  · split
    · exact outsides
    · exact insides _
  · exact insides _

theorem related_epilogStep (laws : Laws before after span otherSpan) {document other : Document}
    (alike : before.document document other) (event : Event) :
    Option.Rel after.Related (epilogStep document ⟨span, event⟩).toOption
      (epilogStep other ⟨otherSpan, event⟩).toOption := by
  have later : after.Related (.epilog document) (.epilog other) := .epilog (laws.document alike)
  cases event with
  | text raw =>
      simp only [epilogStep]
      split
      · exact .some later
      · exact .none
  | comment => exact .some later
  | instruction => exact .some later
  | _ => exact .none

/-- One event leads two readers that are alike to states that are alike, or
both refuse it. -/
theorem related_of_step (laws : Laws before after span otherSpan) {state other : State}
    (related : before.Related state other) (event : Event) :
    Option.Rel after.Related (state.step ⟨span, event⟩).toOption
      (other.step ⟨otherSpan, event⟩).toOption := by
  cases related with
  | prolog alike => exact related_prologStep laws alike event
  | root alike => exact related_rootStep laws alike event
  | dependencies alike depth =>
      have later := laws.document alike
      exact .some (related_skipStep (fun depth => .dependencies later depth) (.root later) depth
        event)
  | context alike => exact related_contextStep laws alike event
  | contextText alike part text => exact related_contextTextStep laws alike part text event
  | message alike => exact related_messageStep laws alike event
  | location alike depth =>
      exact .some (related_skipStep (fun depth => .location (laws.location alike) depth)
        (.message (laws.closeLocation alike)) depth event)
  | messageText alike text => exact related_messageTextStep laws alike text event
  | target alike => exact related_targetStep laws alike event
  | variant alike text =>
      have later := alike.after_step laws
      exact related_leafStep _ (fun text => .target (later.addVariant _))
        (fun text => .variant later text) text event
  | form alike text =>
      have later := alike.after_step laws
      exact related_leafStep _ (fun text => .target (later.addForm _))
        (fun text => .form later text) text event
  | formVariants alike texts => exact related_formVariantsStep laws alike texts event
  | formVariant alike texts text =>
      have later := alike.after_step laws
      exact related_leafStep _ (fun text => .formVariants later _)
        (fun text => .formVariant later texts text) text event
  | epilog alike => exact related_epilogStep laws alike event

theorem rel_bind {α β γ δ : Type} {first : α → β → Prop} {second : γ → δ → Prop}
    {value : Option α} {other : Option β} {f : α → Option γ} {g : β → Option δ}
    (related : Option.Rel first value other)
    (next : ∀ a b, first a b → Option.Rel second (f a) (g b)) :
    Option.Rel second (value.bind f) (other.bind g) := by
  cases related with
  | none => exact .none
  | some related => exact next _ _ related

theorem bind_eq_of_rel {α β γ : Type} {relation : α → β → Prop} {value : Option α}
    {other : Option β} {f : α → Option γ} {g : β → Option γ}
    (related : Option.Rel relation value other) (same : ∀ a b, relation a b → f a = g b) :
    value.bind f = other.bind g := by
  cases related with
  | none => rfl
  | some related => exact same _ _ related

/-- The same events lead two readers that are alike to states that are alike,
or both refuse one of them. -/
theorem related_of_events {like : Likeness}
    (laws : ∀ span otherSpan, Laws like like span otherSpan) {events others : List Located}
    (same : events.map Located.event = others.map Located.event) {state other : State}
    (related : like.Related state other) :
    Option.Rel like.Related (events.foldlM State.step state).toOption
      (others.foldlM State.step other).toOption := by
  induction events generalizing others state other with
  | nil =>
      cases others with
      | nil => exact .some related
      | cons first rest => simp at same
  | cons located events ih =>
      cases others with
      | nil => simp at same
      | cons otherLocated others =>
          obtain ⟨span, event⟩ := located
          obtain ⟨otherSpan, otherEvent⟩ := otherLocated
          simp only [List.map_cons, List.cons.injEq] at same
          obtain ⟨rfl, same⟩ := same
          simp only [List.foldlM_cons, Except.toOption_bind]
          exact rel_bind (related_of_step (laws span otherSpan) related event)
            fun _ _ related => ih same related

end Likeness

end CatalogServer.Reader
