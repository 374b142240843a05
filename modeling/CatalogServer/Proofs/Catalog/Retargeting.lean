import CatalogServer.Proofs.Catalog.Placing
import CatalogServer.Proofs.Catalog.Retention
import CatalogServer.Proofs.Catalog.Targets

/-!
# Replacing a target element

When the element of a target is replaced in the text of a document, the new
text is read as a catalog that differs in this target only.  The readers of
the two texts agree up to the element, and behind it they stay alike: the one
holds what the other holds, except for the target that was recorded where the
element stood.
-/

namespace CatalogServer

open Text

/-- The catalog with another target of the message at an index. -/
def Catalog.withTarget (catalog : Catalog) (index : MessageIndex) (target : Target) : Catalog :=
  { catalog with
    contexts := catalog.contexts.modify index.context fun context =>
      { context with
        messages := context.messages.modify index.message fun message =>
          { message with target := target } } }

namespace Reader

open Xml

theorem modify_concat {α : Type} (items : List α) (last : α) (number : Nat) (f : α → α) :
    (items ++ [last]).modify number f =
      items.modify number f ++ [if number = items.length then f last else last] := by
  induction items generalizing number with
  | nil =>
      cases number with
      | zero => rfl
      | succ number => simp
  | cons item rest ih =>
      cases number with
      | zero => simp
      | succ number => simp [ih]

theorem storeText_withTarget (message : Message) (element text : String) (offset : Nat)
    (target : Target) :
    storeText { message with target := target } element text offset =
      (storeText message element text offset).map fun stored =>
        { stored with target := target } := by
  unfold storeText
  repeat' split
  all_goals rfl

section Retargeted

variable (index : MessageIndex) (spans : TargetSpans) (target : Target)

/-- A message that stands at an index and has its target recorded somewhere,
with another target if it is the message at hand. -/
def retarget (here : MessageIndex) (recorded : Option TargetSpans) (message : Message) :
    Message :=
  if here = index ∧ recorded = some spans then { message with target := target } else message

/-- The messages of a context with a number, one of them retargeted. -/
def retargetMessages (number : Nat) (messages : List Message) (places : List MessageSpans) :
    List Message :=
  messages.modify index.message <|
    retarget index spans target ⟨number, index.message⟩
      (places[index.message]?.bind (·.target))

def retargetContexts (contexts : List Context) (places : List ContextSpans) : List Context :=
  contexts.modify index.context fun context =>
    { context with
      messages := retargetMessages index spans target index.context context.messages
        ((places[index.context]?.map (·.messages)).getD []) }

variable {index spans target}

theorem retargetMessages_concat (number : Nat) {messages : List Message}
    {places : List MessageSpans} (parallel : messages.length = places.length)
    (message : Message) (place : MessageSpans) :
    retargetMessages index spans target number (messages ++ [message]) (places ++ [place]) =
      retargetMessages index spans target number messages places ++
        [retarget index spans target ⟨number, messages.length⟩ place.target message] := by
  unfold retargetMessages
  rw [modify_concat]
  by_cases last : index.message = messages.length
  · have behind : messages.length ≤ index.message := by omega
    rw [if_pos last, List.modify_eq_self behind, List.modify_eq_self behind, last, parallel,
      List.getElem?_concat_length]
    rfl
  · have elsewhere : retarget index spans target ⟨number, messages.length⟩ place.target message =
        message := by
      refine if_neg ?_
      rintro ⟨rfl, -⟩
      exact last rfl
    rw [if_neg last, elsewhere]
    by_cases before : index.message < places.length
    · rw [List.getElem?_append_left before]
    · have behind : messages.length ≤ index.message := by omega
      rw [List.modify_eq_self behind, List.modify_eq_self behind]

theorem retargetContexts_concat {contexts : List Context} {places : List ContextSpans}
    (parallel : contexts.length = places.length) (context : Context) (place : ContextSpans) :
    retargetContexts index spans target (contexts ++ [context]) (places ++ [place]) =
      retargetContexts index spans target contexts places ++
        [{ context with
            messages := retargetMessages index spans target contexts.length context.messages
              place.messages }] := by
  unfold retargetContexts
  rw [modify_concat]
  by_cases last : index.context = contexts.length
  · have behind : contexts.length ≤ index.context := by omega
    rw [if_pos last, List.modify_eq_self behind, List.modify_eq_self behind, last, parallel,
      List.getElem?_concat_length]
    rfl
  · have elsewhere (messages : List Message) (places : List MessageSpans) :
        retargetMessages index spans target contexts.length messages places = messages := by
      have same : retarget index spans target ⟨contexts.length, index.message⟩
          (places[index.message]?.bind (·.target)) = id := by
        funext message
        refine if_neg ?_
        rintro ⟨here, -⟩
        exact last (congrArg MessageIndex.context here).symm
      rw [retargetMessages, same, List.modify_id]
    rw [if_neg last, elsewhere]
    by_cases before : index.context < places.length
    · rw [List.getElem?_append_left before]
    · have behind : contexts.length ≤ index.context := by omega
      rw [List.modify_eq_self behind, List.modify_eq_self behind]

theorem withTarget_retarget (here : MessageIndex) (recorded : Option TargetSpans)
    (message : Message) (other : Target) :
    { retarget index spans target here recorded message with target := other } =
      { message with target := other } := by
  unfold retarget
  split <;> rfl

theorem retarget_elsewhere {recorded : TargetSpans} (elsewhere : recorded ≠ spans)
    (here : MessageIndex) (message : Message) :
    retarget index spans target here (some recorded) message = message := by
  refine if_neg ?_
  rintro ⟨-, same⟩
  exact elsewhere (Option.some.inj same)

theorem numerus_retarget (here : MessageIndex) (recorded : Option TargetSpans)
    (message : Message) :
    (retarget index spans target here recorded message).numerus = message.numerus := by
  unfold retarget
  split <;> rfl

theorem storeText_retarget {here : MessageIndex} {recorded : Option TargetSpans}
    {message behind otherBehind : Message} {element text : String} {offset otherOffset : Nat}
    (stored : storeText message element text offset = .ok behind)
    (otherStored : storeText (retarget index spans target here recorded message) element text
      otherOffset = .ok otherBehind) :
    otherBehind = retarget index spans target here recorded behind := by
  unfold retarget at otherStored ⊢
  split at otherStored
  case isTrue here =>
    rw [storeText_withTarget] at otherStored
    obtain ⟨other, otherAt, rfl⟩ := Except.map_eq_ok otherStored
    rw [if_pos here, storeText_unique stored otherAt]
  case isFalse elsewhere =>
    rw [if_neg elsewhere]
    exact storeText_unique otherStored stored

/-- What does not touch the target of a message can be done before or after
it is retargeted. -/
theorem retarget_comm {f : Message → Message}
    (keeps : ∀ message other, f { message with target := other } =
      { f message with target := other })
    (here : MessageIndex) (recorded : Option TargetSpans) (message : Message) :
    f (retarget index spans target here recorded message) =
      retarget index spans target here recorded (f message) := by
  unfold retarget
  split
  · exact keeps message target
  · rfl

variable (index spans target)

/-- The second document is the first one, retargeted. -/
structure DocumentRetargeted (document other : Document) : Prop where
  parallel : document.catalog.contexts.length = document.spans.contexts.length
  catalog : other.catalog = { document.catalog with
    contexts := retargetContexts index spans target document.catalog.contexts
      document.spans.contexts }

/-- So is the context at hand. -/
structure ContextRetargeted (place other : InContext) : Prop where
  document : DocumentRetargeted index spans target place.document other.document
  parallel : place.context.context.messages.length = place.context.messages.length
  context : other.context.context = { place.context.context with
    messages := retargetMessages index spans target place.document.catalog.contexts.length
      place.context.context.messages place.context.messages }
  named : place.context.name.isSome = other.context.name.isSome

/-- The index of the message at hand. -/
def InContext.messageIndex (place : InContext) : MessageIndex :=
  ⟨place.document.catalog.contexts.length, place.context.context.messages.length⟩

/-- And so is the message at hand. -/
structure MessageRetargeted (place other : InMessage) : Prop where
  context : ContextRetargeted index spans target place.toInContext other.toInContext
  message : other.message.message =
    retarget index spans target place.messageIndex place.message.target place.message.message
  sourced : place.message.source.isSome = other.message.source.isSome

/-- The second reader holds what the first one holds, retargeted, and the first
one is past the target that is replaced. -/
def retargeted : Likeness where
  prolog := False
  document := DocumentRetargeted index spans target
  context := ContextRetargeted index spans target
  part place _ other _ := ContextRetargeted index spans target place other
  message := MessageRetargeted index spans target
  location := MessageRetargeted index spans target
  text _ place _ other _ := MessageRetargeted index spans target place other
  target place startTag other _ :=
    MessageRetargeted index spans target place other ∧ startTag.start ≠ spans.element.start

variable {index spans target}

namespace MessageRetargeted

variable {place other : InMessage}

theorem addLocation (alike : MessageRetargeted index spans target place other)
    (location : CodeLocation) :
    MessageRetargeted index spans target (addLocation place location)
      (addLocation other location) := by
  refine ⟨alike.context, ?_, alike.sourced⟩
  simp only [Reader.addLocation, alike.message]
  exact retarget_comm
    (f := fun message => { message with locations := message.locations ++ [location] })
    (fun _ _ => rfl) _ _ _

theorem setSource (alike : MessageRetargeted index spans target place other) (text : String)
    (span otherSpan : ByteSpan) :
    MessageRetargeted index spans target (setSource place text span)
      (setSource other text otherSpan) := by
  refine ⟨alike.context, ?_, rfl⟩
  simp only [Reader.setSource, alike.message]
  exact retarget_comm (f := fun message => { message with source := text }) (fun _ _ => rfl) _ _ _

theorem setTarget (alike : MessageRetargeted index spans target place other) (later : Target)
    {laterSpans : TargetSpans} (elsewhere : laterSpans.element.start ≠ spans.element.start)
    (otherSpans : TargetSpans) :
    MessageRetargeted index spans target (setTarget place later laterSpans)
      (setTarget other later otherSpans) := by
  have different : laterSpans ≠ spans := by
    rintro rfl
    exact elsewhere rfl
  refine ⟨alike.context, ?_, alike.sourced⟩
  simp only [Reader.setTarget, alike.message]
  rw [withTarget_retarget, retarget_elsewhere different]

end MessageRetargeted

/-- Events behind the target that is replaced keep readers alike. -/
theorem retargeted_laws {span : ByteSpan} (behind : span.start ≠ spans.element.start)
    (otherSpan : ByteSpan) :
    Likeness.Laws (retargeted index spans target) (retargeted index spans target) span
      otherSpan where
  prolog := id
  document := id
  context := id
  part := id
  message := id
  location := id
  text := id
  target := id
  root _ _ _ starts := starts.elim
  openContext alike := ⟨alike, rfl, by simp [retargetMessages], rfl⟩
  openPart := id
  closePart part text alike := by
    cases part with
    | name => exact ⟨alike.document, alike.parallel, by simp [closeContextText, alike.context], rfl⟩
    | comment =>
        exact ⟨alike.document, alike.parallel, by simp [closeContextText, alike.context],
          alike.named⟩
  emptyName alike := ⟨alike.document, alike.parallel, alike.context, rfl⟩
  emptyComment alike :=
    ⟨alike.document, alike.parallel, by simp [closeContextText, alike.context], alike.named⟩
  named alike := alike.named
  closeContext alike _ _ := by
    constructor
    · simp [addContext, alike.document.parallel]
    · simp only [addContext]
      rw [retargetContexts_concat alike.document.parallel, alike.document.catalog, alike.context]
  openMessage id numerus alike := by
    refine ⟨alike, ?_, rfl⟩
    refine (if_neg ?_).symm
    rintro ⟨-, same⟩
    cases same
  openLocation location alike := alike.addLocation location
  closeLocation := id
  emptyLocation location alike := alike.addLocation location
  openText _ alike := alike
  closeSource text alike := alike.setSource text _ _
  emptySource alike := alike.setSource "" _ _
  closeText alike stored otherStored := by
    rw [MessageRetargeted.message alike] at otherStored
    exact ⟨alike.context, storeText_retarget stored otherStored, alike.sourced⟩
  emptyText _ _ _ alike stored otherStored := by
    rw [MessageRetargeted.message alike] at otherStored
    exact ⟨alike.context, storeText_retarget stored otherStored, alike.sourced⟩
  counted alike := by
    rw [alike.message, numerus_retarget]
  targetCounted alike := by
    rw [alike.1.message, numerus_retarget]
  openTarget alike := ⟨alike, behind⟩
  closeTarget closed _ alike := alike.1.setTarget closed alike.2 _
  emptyTarget closed _ alike := alike.setTarget closed behind _
  sourced alike := alike.sourced
  closeMessage alike _ _ := by
    refine ⟨alike.context.document, ?_, ?_, alike.context.named⟩
    · simp [addMessage, alike.context.parallel]
    · simp only [addMessage]
      rw [retargetMessages_concat _ alike.context.parallel, alike.context.context, alike.message]
      rfl

/-- The likeness is kept up to any later stage, whose text is read alike. -/
theorem exists_retargeted_of_reaches {stage last : Stage} (reaches : stage.Reaches last) :
    ∀ {other : State}, (retargeted index spans target).Related stage.state other →
      spans.element.start < byteSize stage.taken →
        ∃ otherLast, (retargeted index spans target).Related last.state otherLast ∧
          catalogFrom other stage.opened stage.left =
            catalogFrom otherLast last.opened last.left := by
  induction reaches using Relation.ReflTransGen.head_induction_on with
  | refl => exact fun alike _ => ⟨_, alike, rfl⟩
  | head next reaches ih =>
      intro other alike behind
      cases next with
      | @piece taken piece left opened openedBehind state following event takes step =>
          dsimp only at alike behind ih ⊢
          have elsewhere : byteSize taken ≠ spans.element.start := by omega
          have laws : Likeness.Laws (retargeted index spans target) (retargeted index spans target)
              ⟨byteSize taken, byteSize taken + byteSize piece⟩ default :=
            retargeted_laws elsewhere default
          have related := Likeness.related_of_step laws alike event
          rw [step, Except.toOption_ok] at related
          rw [catalogFrom_of_takes takes]
          generalize (other.step ⟨default, event⟩).toOption = otherStep at related
          cases related with
          | some related =>
              have later : spans.element.start < byteSize (taken ++ piece) := by
                rw [byteSize_append]
                omega
              exact ih related later

end Retargeted

/-- What a reader has read, and the places where it stands, go together. -/
def parallel : Trait where
  prolog := True
  document document := document.catalog.contexts.length = document.spans.contexts.length
  context place := place.messageIndex = place.nextIndex
  part place _ := place.messageIndex = place.nextIndex
  message place := place.messageIndex = place.nextIndex
  location place := place.messageIndex = place.nextIndex
  text _ place _ := place.messageIndex = place.nextIndex
  target place _ := place.messageIndex = place.nextIndex

theorem parallel_laws (span : ByteSpan) : Trait.Laws parallel parallel span where
  prolog := id
  document := id
  context := id
  part := id
  message := id
  location := id
  text := id
  target := id
  root _ _ _ _ := rfl
  openContext holds := by
    simp only [parallel] at holds
    simp [parallel, InContext.messageIndex, InContext.nextIndex, holds]
  openPart := id
  closePart part _ holds := by
    cases part <;> exact holds
  emptyName := id
  emptyComment := id
  closeContext holds _ := by
    have sameContexts := congrArg MessageIndex.context holds
    simp only [InContext.messageIndex, InContext.nextIndex] at sameContexts
    simp [parallel, addContext, sameContexts]
  openMessage _ _ := id
  openLocation _ := id
  closeLocation := id
  emptyLocation _ := id
  openText _ := id
  closeSource _ := id
  emptySource := id
  closeText holds _ := holds
  emptyText _ holds _ := holds
  openTarget := id
  closeTarget _ _ := id
  emptyTarget _ _ := id
  closeMessage holds _ := by
    simp only [parallel, InContext.messageIndex, InContext.nextIndex,
      MessageIndex.mk.injEq] at holds
    simp [parallel, InContext.messageIndex, InContext.nextIndex, addMessage, holds]

theorem parallel_of_reaches {first last : Stage} (reaches : first.Reaches last)
    (holds : parallel.Holds first.state) : parallel.Holds last.state := by
  induction reaches with
  | refl => exact holds
  | tail _ next ih =>
      cases next with
      | piece takes step => exact Trait.holds_of_step (parallel_laws _) ih step

theorem catalog_of_retargeted {index : MessageIndex} {spans : TargetSpans} {target : Target}
    {document other : Document} (alike : DocumentRetargeted index spans target document other)
    (recorded : document.Records index spans) :
    other.catalog = document.catalog.withTarget index target := by
  obtain ⟨message, found, held⟩ := recorded
  simp only [CatalogSpans.message?, Option.bind_eq_bind, Option.bind_eq_some_iff] at found
  obtain ⟨context, contextAt, messageAt⟩ := found
  have replaces : retarget index spans target ⟨index.context, index.message⟩ (some spans) =
      fun message => { message with target := target } := by
    funext message
    exact if_pos ⟨rfl, rfl⟩
  rw [alike.catalog, Catalog.withTarget, retargetContexts]
  simp only [contextAt, Option.map_some, Option.getD_some, retargetMessages, messageAt,
    Option.bind_some, held, replaces]

theorem message_of_leadsTo {place : InMessage} {extras : List Extra} {catalog : Catalog}
    (leads : place.LeadsTo extras catalog) :
    ∃ message, catalog.message? place.messageIndex = some message ∧
      message.numerus = place.message.message.numerus := by
  obtain ⟨context, message, ⟨laterContexts, contexts⟩, ⟨laterMessages, messages⟩, -, counted⟩ :=
    leads
  refine ⟨message, ?_, counted⟩
  simp only [Catalog.message?, InContext.messageIndex, ← contexts, List.append_assoc,
    List.singleton_append, Option.bind_eq_bind]
  rw [List.getElem?_append_right (Nat.le_refl _), Nat.sub_self, List.getElem?_cons_zero,
    Option.bind_some, ← messages, List.append_assoc, List.singleton_append,
    List.getElem?_append_right (Nat.le_refl _), Nat.sub_self, List.getElem?_cons_zero]

theorem retargeted_setTarget {place : InMessage} (together : place.messageIndex = place.nextIndex)
    (held target : Target) (spans other : TargetSpans) :
    MessageRetargeted place.messageIndex spans target (setTarget place held spans)
      (setTarget place target other) := by
  have sameContexts := congrArg MessageIndex.context together
  have sameMessages := congrArg MessageIndex.message together
  refine ⟨⟨⟨sameContexts, ?_⟩, sameMessages, ?_, rfl⟩, ?_, rfl⟩
  · simp [setTarget, retargetContexts, InContext.messageIndex, List.modify_eq_self]
  · simp [setTarget, retargetMessages, InContext.messageIndex, List.modify_eq_self]
  · exact (if_pos ⟨rfl, rfl⟩).symm

section Placed

variable {text taken : List Char} {opened : List (List Char)} {document : Document}
  {index : MessageIndex} {spans : TargetSpans} {front behind : Stage} {place : InMessage}
  {held : Target}

theorem messageIndex_of_placed {stage : Stage}
    (placed : Placed (.initial text) stage index spans front behind place held) :
    index = place.messageIndex ∧ place.messageIndex = place.nextIndex := by
  have holds := parallel_of_reaches placed.fromFirst trivial
  rw [placed.inMessage] at holds
  have together : place.messageIndex = place.nextIndex := holds
  exact ⟨placed.isNext.trans together.symm, together⟩

theorem message_of_placed
    (placed : Placed (.initial text) ⟨taken, opened, .epilog document, []⟩ index spans front
      behind place held) :
    ∃ message, document.catalog.message? index = some message ∧
      message.numerus = place.message.message.numerus := by
  have toEnd : front.Reaches ⟨taken, opened, .epilog document, []⟩ :=
    placed.element.trans placed.toStage
  obtain ⟨part, -, -, behaves⟩ := toEnd.exists_part
  obtain ⟨-, read⟩ := behaves [] id
  rw [placed.inMessage, catalogFrom_nil] at read
  rw [(messageIndex_of_placed placed).1]
  exact message_of_leadsTo (leadsTo_of_catalogFrom read)

/-- With another element in its place, a target is replaced in the catalog. -/
theorem catalogFrom_of_placed
    (placed : Placed (.initial text) ⟨taken, opened, .epilog document, []⟩ index spans front
      behind place held) (recorded : document.Records index spans) (target : Target) :
    catalogFrom front.state front.opened
        ((Writer.bareTargetElement target).toList ++ behind.left) =
      some (document.catalog.withTarget index
        (rereadTarget place.message.message.numerus target)) := by
  obtain ⟨rfl, together⟩ := messageIndex_of_placed placed
  have later : spans.element.start < byteSize behind.taken := placed.start ▸ placed.nonempty
  have alike : (retargeted place.messageIndex spans
      (rereadTarget place.message.message.numerus target)).Related behind.state
        (.message (setTarget place (rereadTarget place.message.message.numerus target)
          default)) := by
    rw [placed.holds]
    exact .message (retargeted_setTarget together held _ spans default)
  obtain ⟨other, related, same⟩ := exists_retargeted_of_reaches placed.toStage alike later
  rw [placed.inMessage, catalogFrom_bareTargetElement, ← placed.sameOpened, same, catalogFrom_nil]
  cases related with
  | epilog ends => exact congrArg some (catalog_of_retargeted ends recorded)

end Placed

/-- A target that a document records stands in its text as an element.  With
another target element in its place the text is read as the same catalog,
except for this target. -/
theorem exists_element_of_records {text : String} {document : Document}
    (read : Document.read text = .ok document) {index : MessageIndex} {spans : TargetSpans}
    (recorded : document.Records index spans) :
    ∃ before element after message,
      dropByteOrderMark text.toList = before ++ element ++ after ∧
      byteSize before = spans.element.start ∧
      byteSize (before ++ element) = spans.element.stop ∧
      (∃ rest, element ++ after = '<' :: rest) ∧
      (before ++ element).getLast? = some '>' ∧
      document.catalog.message? index = some message ∧
      ∀ target, catalogFrom .prolog []
          (before ++ ((Writer.bareTargetElement target).toList ++ after)) =
        some (document.catalog.withTarget index (rereadTarget message.numerus target)) := by
  obtain ⟨opened, reaches⟩ := reaches_of_read read
  obtain ⟨front, behind, place, held, placed⟩ := (tracked_of_reaches reaches).placed recorded
  obtain ⟨before, frontTaken, wholeEq, fromStart⟩ := placed.fromFirst.exists_part
  obtain ⟨element, behindTaken, frontLeft, -⟩ := placed.element.exists_part
  obtain ⟨rest, bracket⟩ := placed.bracket
  obtain ⟨message, found, counted⟩ := message_of_placed placed
  have beforeEq : before = front.taken := by
    rw [frontTaken]
    rfl
  subst beforeEq
  refine ⟨front.taken, element, behind.left, message, ?_, placed.start, ?_, ⟨rest, ?_⟩, ?_,
    found, ?_⟩
  · rw [List.append_assoc, ← frontLeft]
    exact wholeEq
  · rw [← behindTaken]
    exact placed.stop
  · rw [← frontLeft]
    exact bracket
  · rw [← behindTaken]
    exact placed.closes
  · intro target
    have boundary : Boundary ((Writer.bareTargetElement target).toList ++ behind.left) := by
      rw [toList_bareTargetElement]
      exact .inr ⟨_, rfl⟩
    obtain ⟨-, same⟩ := fromStart _ fun _ => boundary
    rw [counted]
    exact same.trans (catalogFrom_of_placed placed recorded target)

end Reader

end CatalogServer
