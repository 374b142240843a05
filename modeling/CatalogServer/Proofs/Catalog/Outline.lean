import CatalogServer.Proofs.Catalog.TargetContent
import Mathlib.Data.List.Forall2

/-!
# The outline of a document

A document that is read has a single root element.  The contexts of the
catalog are read from the `context` elements in it, and the messages of each
from the `message` elements in that, in their order.  The source, the target
and the name that a catalog holds belong to the last elements that give them.
-/

namespace CatalogServer.Reader

open Text Xml

/-- Elements side by side with what is read from each and where it stands. -/
inductive Aligned {α β : Type} (Reads : Element → α → β → Prop) :
    List Element → List α → List β → Prop where
  | nil : Aligned Reads [] [] []
  | cons {element : Element} {item : α} {place : β} {elements : List Element} {items : List α}
      {places : List β} (first : Reads element item place)
      (rest : Aligned Reads elements items places) :
      Aligned Reads (element :: elements) (item :: items) (place :: places)

namespace Aligned

variable {α β : Type} {Reads : Element → α → β → Prop} {elements later : List Element}
  {items laterItems : List α} {places laterPlaces : List β}

theorem append (aligned : Aligned Reads elements items places)
    (alignedLater : Aligned Reads later laterItems laterPlaces) :
    Aligned Reads (elements ++ later) (items ++ laterItems) (places ++ laterPlaces) := by
  induction aligned with
  | nil => exact alignedLater
  | cons first _ ih => exact .cons first ih

theorem exists_of_getElem? (aligned : Aligned Reads elements items places) {number : Nat}
    {item : α} (found : items[number]? = some item) :
    ∃ element place, elements[number]? = some element ∧ places[number]? = some place ∧
      Reads element item place := by
  induction aligned generalizing number with
  | nil => simp at found
  | cons first _ ih =>
      cases number with
      | zero =>
          cases found
          exact ⟨_, _, rfl, rfl, first⟩
      | succ number => exact ih found

theorem exists_of_mem (aligned : Aligned Reads elements items places) {place : β}
    (placeMem : place ∈ places) :
    ∃ element ∈ elements, ∃ item ∈ items, Reads element item place := by
  induction aligned with
  | nil => cases placeMem
  | cons first _ ih =>
      rcases List.mem_cons.mp placeMem with rfl | later
      · exact ⟨_, List.mem_cons_self, _, List.mem_cons_self, first⟩
      · obtain ⟨element, elementMem, item, itemMem, reads⟩ := ih later
        exact ⟨element, List.mem_cons_of_mem _ elementMem, item, List.mem_cons_of_mem _ itemMem,
          reads⟩

theorem forall₂ (aligned : Aligned Reads elements items places) {Related : α → β → Prop}
    (related : ∀ {element item place}, Reads element item place → Related item place) :
    List.Forall₂ Related items places := by
  induction aligned with
  | nil => exact .nil
  | cons first _ ih => exact .cons (related first) ih

theorem map_eq (aligned : Aligned Reads elements items places) {γ : Type} {extent : β → γ}
    {span : Element → γ}
    (same : ∀ {element item place}, Reads element item place → extent place = span element) :
    places.map extent = elements.map span := by
  induction aligned with
  | nil => rfl
  | cons first _ ih => rw [List.map_cons, List.map_cons, same first, ih]

end Aligned

section Message

/-- What one element in a message changes. -/
structure LeadsMessage (place : InMessage) (element : Element) (behind : InMessage) : Prop where
  context : behind.toInContext = place.toInContext
  start : behind.message.start = place.message.start
  numerus : behind.message.message.numerus = place.message.message.numerus
  source : behind.message.source =
    if element.tag.name = "source" then some element.span else place.message.source
  target : element.tag.name = "translation" →
    behind.message.target = some ⟨element.span, element.startTag⟩ ∧
      ReadsTarget place.message.message.numerus element behind.message.message.target
  untouched : element.tag.name ≠ "translation" →
    behind.message.target = place.message.target ∧
      behind.message.message.target = place.message.message.target

variable {place behind : InMessage} {element : Element}

theorem leadsMessage_location {location : CodeLocation} (named : element.tag.name = "location") :
    LeadsMessage place element (addLocation place location) where
  context := rfl
  start := rfl
  numerus := rfl
  source := by rw [named, if_neg (by decide), addLocation]
  target isTarget := by
    rw [named] at isTarget
    exact absurd isTarget (by decide)
  untouched _ := ⟨rfl, rfl⟩

theorem leadsMessage_source {text : String} (named : element.tag.name = "source") :
    LeadsMessage place element (setSource place text element.span) where
  context := rfl
  start := rfl
  numerus := rfl
  source := by rw [if_pos named, setSource]
  target isTarget := by
    rw [named] at isTarget
    exact absurd isTarget (by decide)
  untouched _ := ⟨rfl, rfl⟩

theorem leadsMessage_target {target : Target} (named : element.tag.name = "translation")
    (reads : ReadsTarget place.message.message.numerus element target) :
    LeadsMessage place element (setTarget place target ⟨element.span, element.startTag⟩) where
  context := rfl
  start := rfl
  numerus := rfl
  source := by rw [named, if_neg (by decide), setTarget]
  target _ := ⟨rfl, reads⟩
  untouched other := absurd named other

theorem leadsMessage_text {text : String} {offset : Nat} (noSource : element.tag.name ≠ "source")
    (noTarget : element.tag.name ≠ "translation")
    (stored : setText place element.tag.name text offset = .ok behind) :
    LeadsMessage place element behind := by
  unfold setText at stored
  obtain ⟨message, kept, stored⟩ := Except.bind_eq_ok stored
  cases stored
  obtain ⟨numerus, target⟩ := target_of_storeText kept
  exact ⟨rfl, rfl, numerus, by rw [if_neg noSource], fun isTarget => absurd isTarget noTarget,
    fun _ => ⟨rfl, target⟩⟩

theorem guides_message : Guides State.message LeadsMessage where
  stays {place span event next} flat other step := by
    cases event with
    | opening | closing => cases flat
    | selfClosing tag => exact absurd rfl (other tag)
    | _ =>
        simp only [State.step, messageStep] at step
        exact eq_of_acceptInsignificant step
  empty {place span tag next} step := by
    simp only [State.step, messageStep] at step
    split at step
    · next named =>
        obtain ⟨location, -, rfl⟩ := Except.map_eq_ok step
        exact ⟨_, rfl, leadsMessage_location (eq_of_beq named)⟩
    split at step
    · next named =>
        cases step
        exact ⟨_, rfl, leadsMessage_source (eq_of_beq named)⟩
    split at step
    · next named =>
        obtain ⟨target, rfl, reads⟩ := reads_emptyTarget step
        exact ⟨_, rfl, leadsMessage_target (eq_of_beq named) reads⟩
    · next noSource noTarget =>
        obtain ⟨behind, stored, rfl⟩ := Except.map_eq_ok step
        exact ⟨behind, rfl,
          leadsMessage_text (by simpa using noSource) (by simpa using noTarget) stored⟩
  paired {place startTag endTag tag inner opened full next} opening filling closing := by
    simp only [State.step, messageStep] at opening
    split at opening
    · next named =>
        obtain ⟨location, -, rfl⟩ := Except.map_eq_ok opening
        cases reads_skip (.location (addLocation place location))
          (fun _ _ => rfl) filling
        cases closing
        exact ⟨_, rfl, leadsMessage_location (eq_of_beq named)⟩
    split at opening
    · next named =>
        obtain ⟨target, rfl, reads⟩ := reads_target opening filling closing
        exact ⟨_, rfl, leadsMessage_target (eq_of_beq named) reads⟩
    · next noTarget =>
        cases opening
        cases (reads_text (.messageText place tag.name startTag.start) tag.name
          (fun text span event stays => by cases event <;> first | rfl | exact absurd rfl stays)
          filling).1
        simp only [State.step, messageTextStep, closeMessageText] at closing
        split at closing
        · next named =>
            cases closing
            exact ⟨_, rfl, leadsMessage_source (eq_of_beq named)⟩
        · next noSource =>
            obtain ⟨behind, stored, rfl⟩ := Except.map_eq_ok closing
            exact ⟨behind, rfl,
              leadsMessage_text (by simpa using noSource) (by simpa using noTarget) stored⟩

/-- What the elements in a message have changed, together. -/
structure FillsMessage (place : InMessage) (elements : List Element) (behind : InMessage) :
    Prop where
  context : behind.toInContext = place.toInContext
  start : behind.message.start = place.message.start
  numerus : behind.message.message.numerus = place.message.message.numerus
  source : behind.message.source =
    ((lastNamed? "source" elements).map Element.span).or place.message.source
  targetSpans : behind.message.target =
    ((lastNamed? "translation" elements).map fun target =>
      ⟨target.span, target.startTag⟩).or place.message.target
  target {target : Element} : lastNamed? "translation" elements = some target →
    ReadsTarget place.message.message.numerus target behind.message.message.target
  untouched : lastNamed? "translation" elements = none →
    behind.message.message.target = place.message.message.target

theorem fillsMessage_of_chain {elements : List Element}
    (chain : Chain LeadsMessage place elements behind) : FillsMessage place elements behind := by
  induction chain with
  | nil => exact ⟨rfl, rfl, rfl, rfl, rfl, nofun, fun _ => rfl⟩
  | @cons place next behind element elements first _ later =>
      refine ⟨later.context.trans first.context, later.start.trans first.start,
        later.numerus.trans first.numerus, ?_, ?_, ?_, ?_⟩
      · -- a source among the later elements counts in place of the first one
        rw [later.source, first.source, lastNamed?_cons]
        cases lastNamed? "source" elements with
        | some source => rfl
        | none => split <;> rfl
      · rw [later.targetSpans, lastNamed?_cons]
        cases lastNamed? "translation" elements with
        | some target => rfl
        | none =>
            by_cases named : element.tag.name = "translation"
            · simp [named, (first.target named).1]
            · simp [named, (first.untouched named).1]
      · intro target last
        rw [lastNamed?_cons] at last
        -- the first element has left its target behind only if no later one has
        cases found : lastNamed? "translation" elements with
        | some other =>
            rw [found] at last
            cases last
            rw [← first.numerus]
            exact later.target found
        | none =>
            rw [found, Option.none_or] at last
            split at last
            · next named =>
                cases last
                rw [later.untouched found]
                exact (first.target named).2
            · cases last
      · intro absent
        rw [lastNamed?_cons, Option.or_eq_none_iff] at absent
        obtain ⟨noneLater, noneHere⟩ := absent
        have other : element.tag.name ≠ "translation" := by simpa using noneHere
        rw [later.untouched noneLater, (first.untouched other).2]

end Message

/-- A message is read from an element. -/
structure ReadsMessage (element : Element) (message : Message) (spans : MessageSpans) : Prop where
  extent : spans.element = element.span
  source : (element.last? "source").map Element.span = some spans.source
  targetSpans : spans.target = (element.last? "translation").map fun target =>
    ⟨target.span, target.startTag⟩
  target {target : Element} : element.last? "translation" = some target →
    ReadsTarget message.numerus target message.target
  untouched : element.last? "translation" = none → message.target = {}

section Context

variable {place behind : InContext} {element : Element} {elements : List Element}

/-- What elements in a context change. -/
structure FillsContext (place : InContext) (elements : List Element) (behind : InContext) :
    Prop where
  document : behind.document = place.document
  start : behind.context.start = place.context.start
  name : behind.context.name =
    ((lastNamed? "name" elements).map Element.span).or place.context.name
  messages : ∃ messages spans,
    behind.context.context.messages = place.context.context.messages ++ messages ∧
    behind.context.messages = place.context.messages ++ spans ∧
    Aligned ReadsMessage (elements.filter (·.tag.name == "message")) messages spans

def LeadsContext (place : InContext) (element : Element) (behind : InContext) : Prop :=
  FillsContext place [element] behind

theorem leadsContext_name {text : String} (named : element.tag.name = "name") :
    LeadsContext place element (closeContextText place .name text element.span) where
  document := rfl
  start := rfl
  name := by simp [lastNamed?, named, closeContextText]
  messages := ⟨[], [], by simp [closeContextText], by simp [closeContextText],
    by simpa [named] using Aligned.nil⟩

theorem leadsContext_emptyName (named : element.tag.name = "name") :
    LeadsContext place element
      { place with context := { place.context with name := some element.span } } where
  document := rfl
  start := rfl
  name := by simp [lastNamed?, named]
  messages := ⟨[], [], by simp, by simp, by simpa [named] using Aligned.nil⟩

theorem leadsContext_comment {text : String} {span : ByteSpan}
    (named : element.tag.name = "comment") :
    LeadsContext place element (closeContextText place .comment text span) where
  document := rfl
  start := rfl
  name := by simp [lastNamed?, named, closeContextText]
  messages := ⟨[], [], by simp [closeContextText], by simp [closeContextText],
    by simpa [named] using Aligned.nil⟩

theorem reads_message {startTag endTag : ByteSpan} {tag : Tag} {inner : Content}
    {opened full next : State} (opening : openMessage place startTag.start tag = .ok opened)
    (filling : opened.reads inner = .ok full) (closing : full.step ⟨endTag, .closing⟩ = .ok next) :
    ∃ message spans, next = .context (addMessage place message spans) ∧
      ReadsMessage ⟨startTag, tag, some inner, endTag.stop⟩ message spans := by
  unfold openMessage at opening
  obtain ⟨attributes, -, opening⟩ := Except.bind_eq_ok opening
  cases opening
  obtain ⟨behind, rfl, chain⟩ := guides_message.chain filling
  have fills := fillsMessage_of_chain chain
  simp only [State.step, messageStep, closeMessage] at closing
  split at closing
  · cases closing
  · next source found =>
      cases closing
      refine ⟨behind.message.message, ⟨⟨behind.message.start, endTag.stop⟩, source,
        behind.message.target⟩, by rw [fills.context], ?_⟩
      have sourceEq := fills.source
      have targetEq := fills.targetSpans
      rw [Option.or_none] at sourceEq targetEq
      constructor
      · rw [fills.start]
        rfl
      · rw [← found, sourceEq]
        rfl
      · exact targetEq
      · intro target last
        rw [fills.numerus]
        exact fills.target last
      · exact fills.untouched

theorem leadsContext_message {message : Message} {spans : MessageSpans}
    (named : element.tag.name = "message") (reads : ReadsMessage element message spans) :
    LeadsContext place element (addMessage place message spans) where
  document := rfl
  start := rfl
  name := by simp [lastNamed?, named, addMessage]
  messages := ⟨[message], [spans], rfl, rfl, by
    simpa [named] using Aligned.cons reads Aligned.nil⟩

theorem guides_context : Guides State.context LeadsContext where
  stays {place span event next} flat other step := by
    cases event with
    | opening | closing => cases flat
    | selfClosing tag => exact absurd rfl (other tag)
    | _ =>
        simp only [State.step, contextStep] at step
        exact eq_of_acceptInsignificant step
  empty {place span tag next} step := by
    simp only [State.step, contextStep] at step
    split at step
    · next named =>
        cases step
        exact ⟨_, rfl, leadsContext_emptyName (eq_of_beq named)⟩
    split at step
    · next named =>
        cases step
        exact ⟨_, rfl, leadsContext_comment (eq_of_beq named)⟩
    · cases step
  paired {place startTag endTag tag inner opened full next} opening filling closing := by
    have gathers (part : ContextPart) : ∀ {last : State},
        (State.contextText place part startTag.start []).reads inner = .ok last →
          last = .contextText place part startTag.start inner.data :=
      fun run => (reads_text (.contextText place part startTag.start) part.element
        (fun text span event stays => by cases event <;> first | rfl | exact absurd rfl stays)
        run).1
    simp only [State.step, contextStep] at opening
    split at opening
    · next named =>
        cases opening
        cases gathers .name filling
        cases closing
        exact ⟨_, rfl, leadsContext_name (eq_of_beq named)⟩
    split at opening
    · next named =>
        cases opening
        cases gathers .comment filling
        cases closing
        exact ⟨_, rfl, leadsContext_comment (eq_of_beq named)⟩
    split at opening
    · next named =>
        obtain ⟨message, spans, rfl, reads⟩ := reads_message opening filling closing
        exact ⟨_, rfl, leadsContext_message (eq_of_beq named) reads⟩
    · cases opening

theorem fillsContext_of_chain (chain : Chain LeadsContext place elements behind) :
    FillsContext place elements behind := by
  induction chain with
  | @nil place => exact ⟨rfl, rfl, rfl, [], [], by simp, by simp, .nil⟩
  | @cons place next behind element elements first _ later =>
      obtain ⟨messages, spans, messagesEq, spansEq, aligned⟩ := first.messages
      obtain ⟨others, otherSpans, othersEq, otherSpansEq, alignedLater⟩ := later.messages
      refine ⟨later.document.trans first.document, later.start.trans first.start, ?_,
        messages ++ others, spans ++ otherSpans, ?_, ?_, ?_⟩
      · rw [later.name, first.name, lastNamed?_cons, lastNamed?_cons]
        cases lastNamed? "name" elements with
        | some name => rfl
        | none => rfl
      · rw [othersEq, messagesEq, List.append_assoc]
      · rw [otherSpansEq, spansEq, List.append_assoc]
      · have parted := List.filter_append (p := (·.tag.name == "message")) [element] elements
        rw [List.singleton_append] at parted
        rw [parted]
        exact aligned.append alignedLater

end Context

/-- A context is read from an element. -/
structure ReadsContext (element : Element) (context : Context) (spans : ContextSpans) : Prop where
  extent : spans.element = element.span
  name : (element.last? "name").map Element.span = some spans.name
  messages : Aligned ReadsMessage (element.named "message") context.messages spans.messages

section Root

variable {document behind : Document} {element : Element} {elements : List Element}

/-- What elements in the root element change. -/
structure FillsRoot (document : Document) (elements : List Element) (behind : Document) :
    Prop where
  root : behind.spans.root = document.spans.root
  contexts : ∃ contexts spans, behind.catalog.contexts = document.catalog.contexts ++ contexts ∧
    behind.spans.contexts = document.spans.contexts ++ spans ∧
    Aligned ReadsContext (elements.filter (·.tag.name == "context")) contexts spans

def LeadsRoot (document : Document) (element : Element) (behind : Document) : Prop :=
  FillsRoot document [element] behind

theorem leadsRoot_dependencies (named : element.tag.name = "dependencies") :
    LeadsRoot document element document where
  root := rfl
  contexts := ⟨[], [], by simp, by simp, by simpa [named] using Aligned.nil⟩

theorem leadsRoot_context {context : Context} {spans : ContextSpans}
    (named : element.tag.name = "context") (reads : ReadsContext element context spans) :
    LeadsRoot document element (addContext document context spans) where
  root := rfl
  contexts := ⟨[context], [spans], rfl, rfl, by
    simpa [named] using Aligned.cons reads Aligned.nil⟩

theorem reads_context {startTag endTag : ByteSpan} {tag : Tag} {inner : Content}
    {full next : State}
    (filling : (State.context ⟨document, { start := startTag.start }⟩).reads inner = .ok full)
    (closing : full.step ⟨endTag, .closing⟩ = .ok next) :
    ∃ context spans, next = .root (addContext document context spans) ∧
      ReadsContext ⟨startTag, tag, some inner, endTag.stop⟩ context spans := by
  obtain ⟨behind, rfl, chain⟩ := guides_context.chain filling
  have fills := fillsContext_of_chain chain
  simp only [State.step, contextStep, closeContext] at closing
  split at closing
  · cases closing
  · next name found =>
      cases closing
      refine ⟨behind.context.context, ⟨⟨behind.context.start, endTag.stop⟩, name,
        behind.context.messages⟩, by rw [fills.document], ?_⟩
      obtain ⟨messages, spans, messagesEq, spansEq, aligned⟩ := fills.messages
      have nameEq := fills.name
      rw [Option.or_none] at nameEq
      constructor
      · rw [fills.start]
        rfl
      · rw [← found, nameEq]
        rfl
      · rw [messagesEq, spansEq]
        exact aligned

theorem guides_root : Guides State.root LeadsRoot where
  stays {document span event next} flat other step := by
    cases event with
    | opening | closing => cases flat
    | selfClosing tag => exact absurd rfl (other tag)
    | _ =>
        simp only [State.step, rootStep] at step
        exact eq_of_acceptInsignificant step
  empty {document span tag next} step := by
    simp only [State.step, rootStep] at step
    split at step
    · next named =>
        cases step
        exact ⟨_, rfl, leadsRoot_dependencies (eq_of_beq named)⟩
    · cases step
  paired {document startTag endTag tag inner opened full next} opening filling closing := by
    simp only [State.step, rootStep] at opening
    split at opening
    · next named =>
        cases opening
        obtain ⟨context, spans, rfl, reads⟩ := reads_context filling closing
        exact ⟨_, rfl, leadsRoot_context (eq_of_beq named) reads⟩
    split at opening
    · next named =>
        cases opening
        cases reads_skip (.dependencies document) (fun _ _ => rfl) filling
        cases closing
        exact ⟨_, rfl, leadsRoot_dependencies (eq_of_beq named)⟩
    · cases opening

theorem fillsRoot_of_chain (chain : Chain LeadsRoot document elements behind) :
    FillsRoot document elements behind := by
  induction chain with
  | @nil document => exact ⟨rfl, [], [], by simp, by simp, .nil⟩
  | @cons document next behind element elements first _ later =>
      obtain ⟨contexts, spans, contextsEq, spansEq, aligned⟩ := first.contexts
      obtain ⟨others, otherSpans, othersEq, otherSpansEq, alignedLater⟩ := later.contexts
      refine ⟨later.root.trans first.root, contexts ++ others, spans ++ otherSpans, ?_, ?_, ?_⟩
      · rw [othersEq, contextsEq, List.append_assoc]
      · rw [otherSpansEq, spansEq, List.append_assoc]
      · have parted := List.filter_append (p := (·.tag.name == "context")) [element] elements
        rw [List.singleton_append] at parted
        rw [parted]
        exact aligned.append alignedLater

end Root

/-- A document is read from its root element. -/
structure Outlines (root : Element) (document : Document) : Prop where
  named : root.tag.name = "TS"
  startTag : document.spans.root = root.startTag
  contexts : Aligned ReadsContext (root.named "context") document.catalog.contexts
    document.spans.contexts

theorem eq_of_rootDocument {span : ByteSpan} {tag : Tag} {document : Document}
    (opened : rootDocument span tag = .ok document) :
    document.catalog.contexts = [] ∧ document.spans = ⟨span, []⟩ := by
  unfold rootDocument at opened
  obtain ⟨attributes, -, opened⟩ := Except.bind_eq_ok opened
  cases opened
  exact ⟨rfl, rfl⟩

theorem epilog_of_reads {document : Document} {content : Content} {last : State}
    (run : (State.epilog document).reads content = .ok last) :
    last = .epilog document ∧ content.elements = [] := by
  induction content with
  | nothing =>
      cases run
      exact ⟨rfl, rfl⟩
  | piece located flat rest ih =>
      obtain ⟨span, event⟩ := located
      obtain ⟨next, step, run⟩ := reads_piece run
      cases event with
      | comment | instruction =>
          cases step
          exact ih run
      | text raw =>
          simp only [State.step, epilogStep] at step
          split at step
          · cases step
            exact ih run
          · cases step
      | _ => cases step
  | element startTag tag inner endTag rest =>
      obtain ⟨opened, full, next, opening, -⟩ := reads_element run
      cases opening

/-- From the prolog to the epilog a reader comes through the root element. -/
theorem outlines_of_reads {document : Document} {content : Content}
    (run : State.prolog.reads content = .ok (.epilog document)) :
    ∃ root, content.elements = [root] ∧ Outlines root document := by
  induction content with
  | nothing => cases run
  | piece located flat rest ih =>
      obtain ⟨span, event⟩ := located
      obtain ⟨next, step, run⟩ := reads_piece run
      cases event with
      | opening | closing => cases flat
      | selfClosing tag =>
          simp only [State.step, prologStep] at step
          split at step
          · next named =>
              obtain ⟨opened, given, rfl⟩ := Except.map_eq_ok step
              obtain ⟨same, nothing⟩ := epilog_of_reads run
              cases same
              obtain ⟨contexts, spans⟩ := eq_of_rootDocument given
              refine ⟨_, by rw [Content.elements, nothing], eq_of_beq named, by rw [spans], ?_⟩
              rw [contexts, spans]
              exact .nil
          · cases step
      | text raw =>
          simp only [State.step, prologStep] at step
          split at step
          · cases step
            exact ih run
          · cases step
      | cdata => cases step
      | _ =>
          cases step
          exact ih run
  | element startTag tag inner endTag rest =>
      obtain ⟨opened, full, next, opening, filling, closing, run⟩ := reads_element run
      simp only [State.step, prologStep] at opening
      split at opening
      · next named =>
          obtain ⟨empty, given, rfl⟩ := Except.map_eq_ok opening
          obtain ⟨behind, rfl, chain⟩ := guides_root.chain filling
          cases closing
          obtain ⟨same, nothing⟩ := epilog_of_reads run
          cases same
          have fills := fillsRoot_of_chain chain
          obtain ⟨noContexts, noSpans⟩ := eq_of_rootDocument given
          obtain ⟨contexts, spans, contextsEq, spansEq, aligned⟩ := fills.contexts
          refine ⟨_, by rw [Content.elements, nothing], eq_of_beq named, ?_, ?_⟩
          · rw [fills.root, noSpans]
          · rw [contextsEq, spansEq, noContexts, noSpans]
            exact aligned
      · cases opening

/-- A document that is read has a root element, and is read from it. -/
theorem outlines_of_read {text : String} {document : Document}
    (read : Document.read text = .ok document) :
    ∃ root, root? text = some root ∧ Outlines root document := by
  obtain ⟨run, -⟩ := run_of_read read
  obtain ⟨content, nested⟩ := nested_of_run run
  rw [← Content.events_of_nested nested] at run
  obtain ⟨root, single, outlines⟩ := outlines_of_reads run
  refine ⟨root, ?_, outlines⟩
  simp [root?, nested, single]

end CatalogServer.Reader
