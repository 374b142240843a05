import CatalogServer.Proofs.Catalog.Entries
import CatalogServer.Proofs.Catalog.Spans

/-!
# The message at an offset

A cursor touches a message where its offset lies in the element of the message
or at one of its ends, so between two messages that stand side by side it
touches both.  The message at an offset is the first one that is touched there.
The search looks into a context only where the context itself is touched, and
this leaves nothing out, since the messages of a context lie inside it.
-/

namespace CatalogServer

open Text

namespace Document

variable {document : Document} {offset : Nat}

/-- An offset lies in the element of a message, or at one of its ends. -/
def touches (document : Document) (offset : Nat) (entry : MessageEntry) : Bool :=
  (document.spans.message? entry.index).any (·.element.contains offset)

/-- The first message that an offset touches. -/
def entryAt? (document : Document) (offset : Nat) : Option MessageEntry :=
  document.catalog.entries.find? (document.touches offset)

theorem map_index_find?_entriesOfContext {number start : Nat} {context : Context}
    {messages : List Message} {spans : List MessageSpans} (parallel : messages.length = spans.length)
    (stand : ∀ place, document.spans.message? ⟨number, start + place⟩ = spans[place]?) :
    ((Catalog.entriesOfContext number context start messages).find?
        (document.touches offset)).map (·.index) =
      (CatalogSpans.messageIn? offset spans).map fun place => ⟨number, start + place⟩ := by
  induction messages generalizing start spans with
  | nil =>
      obtain rfl := List.eq_nil_of_length_eq_zero parallel.symm
      rfl
  | cons first rest ih =>
      obtain ⟨span, spans, rfl⟩ := List.exists_cons_of_length_eq_add_one parallel.symm
      have here : document.touches offset ⟨⟨number, start⟩, context, first⟩ =
          span.element.contains offset := by
        rw [touches, show document.spans.message? ⟨number, start⟩ = some span from stand 0]
        rfl
      have later := @ih (start + 1) spans (Nat.succ.inj parallel) fun place => by
        rw [Nat.add_assoc, Nat.add_comm 1, stand, List.getElem?_cons_succ]
      rw [Catalog.entriesOfContext, List.find?_cons, here, CatalogSpans.messageIn?,
        List.findIdx?_cons]
      cases span.element.contains offset with
      | true => rfl
      | false =>
          rw [if_neg Bool.false_ne_true, Option.map_map]
          refine later.trans ?_
          rw [CatalogSpans.messageIn?]
          congr 1
          funext place
          simp only [Function.comp_apply, Nat.add_assoc, Nat.add_comm 1]

theorem messageIn?_eq_none {context : ContextSpans}
    (inside : ∀ message ∈ context.messages, message.element.Within context.element)
    (apart : context.element.contains offset = false) :
    CatalogSpans.messageIn? offset context.messages = none := by
  apply List.findIdx?_eq_none_iff.mpr
  intro message member
  obtain ⟨start, stop⟩ := inside message member
  simp only [ByteSpan.contains, Bool.and_eq_false_iff, decide_eq_false_iff_not] at apart ⊢
  omega

theorem map_index_find?_entriesOfContexts {number : Nat} {contexts : List Context}
    {spans : List ContextSpans}
    (parallel : List.Forall₂
      (fun context spans => context.messages.length = spans.messages.length) contexts spans)
    (inside : ∀ context ∈ spans, ∀ message ∈ context.messages,
      message.element.Within context.element)
    (stand : ∀ place, document.spans.contexts[number + place]? = spans[place]?) :
    ((Catalog.entriesOfContexts number contexts).find? (document.touches offset)).map (·.index) =
      CatalogSpans.messageFrom? offset number spans := by
  induction parallel generalizing number with
  | nil => rfl
  | @cons context place contexts places lengths parallel ih =>
      have here : document.spans.contexts[number]? = some place := stand 0
      have own := @map_index_find?_entriesOfContext document offset number 0 context
        context.messages place.messages lengths fun message => by
          simp [CatalogSpans.message?, here]
      have searched : (if place.element.contains offset then
          CatalogSpans.messageIn? offset place.messages else none) =
            CatalogSpans.messageIn? offset place.messages := by
        split
        · rfl
        · next apart =>
            exact (messageIn?_eq_none (inside place List.mem_cons_self)
              ((Bool.not_eq_true _).mp apart)).symm
      have later := @ih (number + 1)
        (fun context member => inside context (List.mem_cons_of_mem _ member)) fun next => by
          rw [Nat.add_assoc, Nat.add_comm 1, stand, List.getElem?_cons_succ]
      rw [Catalog.entriesOfContexts, List.find?_append, CatalogSpans.messageFrom?, searched,
        Option.map_or, own, later]
      cases CatalogSpans.messageIn? offset place.messages <;> simp

/-- In a document that is read, the search through the places of the messages
finds the first message that an offset touches. -/
theorem messageAt?_eq {text : String} (read : Document.read text = .ok document) (offset : Nat) :
    document.spans.messageAt? offset = (document.entryAt? offset).map (·.index) := by
  have arranged := Reader.arranged_unmarked read
  have inside : ∀ context ∈ document.spans.contexts, ∀ message ∈ context.messages,
      message.element.Within context.element := fun context member message messageMem =>
    ((arranged.contexts context member).messages message messageMem).inside
  rw [CatalogSpans.messageAt?, entryAt?, Catalog.entries,
    map_index_find?_entriesOfContexts arranged.parallel inside fun place => by rw [Nat.zero_add]]

end Document

end CatalogServer
