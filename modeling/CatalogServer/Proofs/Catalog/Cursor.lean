import CatalogServer.Proofs.Catalog.Touched

/-!
# The message that a cursor is in

The elements of messages stand one behind the other, so no two of them cover
the same byte.  Two of them touch only where they follow each other in one
context without a gap: there the end of the first one is the start of the
second one.  As a cursor at the end of an element counts as inside, it is taken
for one in the first message there; at every other byte of a message, that
message is found.
-/

namespace CatalogServer

open Text Xml Reader

/-- A byte offset is that of one of the bytes of a span. -/
def Text.ByteSpan.Covers (span : ByteSpan) (offset : Nat) : Prop :=
  span.start ≤ offset ∧ offset < span.stop

/-- The message in front of the one at an index, in the same context, ends at
an offset. -/
def CatalogSpans.FrontEndsAt (spans : CatalogSpans) (index : MessageIndex) (offset : Nat) : Prop :=
  ∃ place front, index.message = place + 1 ∧
    spans.message? ⟨index.context, place⟩ = some front ∧ front.element.stop = offset

theorem CatalogSpans.message?_eq_some_iff {spans : CatalogSpans} {index : MessageIndex}
    {message : MessageSpans} :
    spans.message? index = some message ↔
      ∃ context, spans.contexts[index.context]? = some context ∧
        context.messages[index.message]? = some message := by
  simp only [message?, Option.bind_eq_bind, Option.bind_eq_some_iff]

theorem rel_of_getElem? {α : Type} {R : α → α → Prop} {items : List α} (ordered : items.Pairwise R)
    {first second : Nat} (before : first < second) {item other : α}
    (found : items[first]? = some item) (otherFound : items[second]? = some other) :
    R item other := by
  obtain ⟨within, rfl⟩ := List.getElem?_eq_some_iff.mp found
  obtain ⟨otherWithin, rfl⟩ := List.getElem?_eq_some_iff.mp otherFound
  exact List.pairwise_iff_getElem.mp ordered first second within otherWithin before

namespace Document

variable {text : String} {document : Document}

theorem start_lt_of_mem (read : Document.read text = .ok document) :
    ∀ context ∈ document.spans.contexts, ∀ message ∈ context.messages,
      context.element.start < message.element.start := by
  intro context contextMem message messageMem
  obtain ⟨root, -, outlines, stands⟩ := stands_of_read read
  obtain ⟨parent, parentMem, _, -, readsContext⟩ := outlines.contexts.exists_of_mem contextMem
  obtain ⟨child, childMem, _, -, readsMessage⟩ := readsContext.messages.exists_of_mem messageMem
  obtain ⟨parentStands, -, -⟩ := within_of_mem stands (Element.mem_of_named parentMem).1
  obtain ⟨-, -, behindTag⟩ := within_of_mem parentStands (Element.mem_of_named childMem).1
  rw [readsContext.extent, readsMessage.extent]
  exact Nat.lt_of_lt_of_le parentStands.ordered.1 behindTag

/-- Messages stand in document order, and only neighbours in one context can
touch each other. -/
theorem precedes_of_before (read : Document.read text = .ok document)
    {first second : MessageIndex} {message other : MessageSpans}
    (found : document.spans.message? first = some message)
    (otherFound : document.spans.message? second = some other) (before : first.Before second) :
    message.element.Precedes other.element ∧
      (message.element.stop = other.element.start →
        second = ⟨first.context, first.message + 1⟩) := by
  have arranged := arranged_unmarked read
  obtain ⟨context, contextAt, messageAt⟩ := CatalogSpans.message?_eq_some_iff.mp found
  obtain ⟨otherContext, otherContextAt, otherAt⟩ :=
    CatalogSpans.message?_eq_some_iff.mp otherFound
  have contextArranged := arranged.contexts context (List.mem_of_getElem? contextAt)
  rcases before with earlier | ⟨same, earlier⟩
  · -- a start tag stands between messages of different contexts
    have contexts := rel_of_getElem? arranged.increasing earlier contextAt otherContextAt
    have inside := (contextArranged.messages message (List.mem_of_getElem? messageAt)).inside.2
    have behindTag := start_lt_of_mem read otherContext (List.mem_of_getElem? otherContextAt)
      other (List.mem_of_getElem? otherAt)
    simp only [ByteSpan.Precedes] at contexts ⊢
    exact ⟨by omega, fun touching => by omega⟩
  · rw [← same, contextAt, Option.some.injEq] at otherContextAt
    subst otherContextAt
    have ordered := rel_of_getElem? contextArranged.increasing earlier messageAt otherAt
    refine ⟨ordered, fun touching => ?_⟩
    by_cases next : second.message = first.message + 1
    · obtain ⟨number, place⟩ := second
      cases same
      cases next
      rfl
    · have within := (List.getElem?_eq_some_iff.mp otherAt).1
      obtain ⟨between, betweenAt⟩ : ∃ between, context.messages[first.message + 1]? = some between :=
        ⟨_, List.getElem?_eq_getElem (by omega)⟩
      have betweenFits := (contextArranged.messages between (List.mem_of_getElem? betweenAt)).element
      have front := rel_of_getElem? contextArranged.increasing (by omega) messageAt betweenAt
      have behind := rel_of_getElem? contextArranged.increasing (by omega) betweenAt otherAt
      simp only [ByteSpan.Precedes, ByteSpan.Fits] at front behind betweenFits
      omega

theorem exists_entry_of_spans (read : Document.read text = .ok document) {index : MessageIndex}
    {message : MessageSpans} (found : document.spans.message? index = some message) :
    ∃ entry ∈ document.catalog.entries, entry.index = index := by
  obtain ⟨spans, spansAt, messageAt⟩ := CatalogSpans.message?_eq_some_iff.mp found
  obtain ⟨within, rfl⟩ := List.getElem?_eq_some_iff.mp spansAt
  obtain ⟨messageWithin, -⟩ := List.getElem?_eq_some_iff.mp messageAt
  obtain ⟨lengths, parallel⟩ := List.forall₂_iff_get.mp (arranged_unmarked read).parallel
  have catalogWithin : index.context < document.catalog.contexts.length := lengths ▸ within
  have same := parallel index.context catalogWithin within
  simp only [List.get_eq_getElem] at same
  have inContext : index.message < document.catalog.contexts[index.context].messages.length := by
    omega
  refine ⟨⟨index, document.catalog.contexts[index.context],
    document.catalog.contexts[index.context].messages[index.message]⟩, ?_, rfl⟩
  exact Catalog.mem_entries_iff.mpr
    ⟨List.getElem?_eq_getElem catalogWithin, List.getElem?_eq_getElem inContext⟩

/-- The first message that is touched is found. -/
theorem messageAt?_eq_some (read : Document.read text = .ok document) {offset : Nat}
    {index : MessageIndex} {message : MessageSpans}
    (found : document.spans.message? index = some message)
    (touched : message.element.contains offset = true)
    (first : ∀ earlier other, earlier.Before index →
      document.spans.message? earlier = some other → other.element.contains offset = false) :
    document.spans.messageAt? offset = some index := by
  obtain ⟨entry, member, rfl⟩ := exists_entry_of_spans read found
  obtain ⟨before, behind, whole⟩ := List.append_of_mem member
  have ordered := document.catalog.pairwise_entries
  rw [whole] at ordered
  have here : document.entryAt? offset = some entry := by
    rw [entryAt?, List.find?_eq_some_iff_append]
    refine ⟨by simp [touches, found, touched], before, behind, whole, ?_⟩
    intro other otherMem
    have earlier := (List.pairwise_append.mp ordered).2.2 other otherMem entry List.mem_cons_self
    rw [touches]
    cases placed : document.spans.message? other.index with
    | none => rfl
    | some place => simp [first _ _ earlier placed]
  rw [messageAt?_eq read, here]
  rfl

theorem messageAt?_eq_none (read : Document.read text = .ok document) {offset : Nat}
    (outside : ∀ index message, document.spans.message? index = some message →
      message.element.contains offset = false) :
    document.spans.messageAt? offset = none := by
  rw [messageAt?_eq read, Option.map_eq_none_iff, entryAt?, List.find?_eq_none]
  intro entry _
  rw [touches]
  cases placed : document.spans.message? entry.index with
  | none => simp
  | some place => simp [outside _ _ placed]

theorem start_lt_stop (read : Document.read text = .ok document) {index : MessageIndex}
    {message : MessageSpans} (found : document.spans.message? index = some message) :
    message.element.start < message.element.stop := by
  obtain ⟨context, contextAt, messageAt⟩ := CatalogSpans.message?_eq_some_iff.mp found
  have contextArranged := (arranged_unmarked read).contexts context (List.mem_of_getElem? contextAt)
  exact (contextArranged.messages message (List.mem_of_getElem? messageAt)).element.1

/-- At the end of a message, no message in front of it is touched. -/
theorem messageAt?_stop (read : Document.read text = .ok document) {index : MessageIndex}
    {message : MessageSpans} (found : document.spans.message? index = some message) :
    document.spans.messageAt? message.element.stop = some index := by
  have nonempty := start_lt_stop read found
  refine messageAt?_eq_some read found ?_ ?_
  · exact ByteSpan.contains_iff.mpr ⟨Nat.le_of_lt nonempty, Nat.le_refl _⟩
  · intro earlier other before otherFound
    have ordered := (precedes_of_before read otherFound found before).1
    exact ByteSpan.contains_eq_false_iff.mpr (.inr (Nat.lt_of_le_of_lt ordered nonempty))

/-- At a byte of a message, a message in front of it is touched only if it is
the one right in front and ends there. -/
theorem contains_eq_false_of_before (read : Document.read text = .ok document) {offset : Nat}
    {index earlier : MessageIndex} {message other : MessageSpans}
    (found : document.spans.message? index = some message)
    (covers : message.element.Covers offset)
    (apart : ¬ document.spans.FrontEndsAt index offset) (before : earlier.Before index)
    (otherFound : document.spans.message? earlier = some other) :
    other.element.contains offset = false := by
  obtain ⟨ordered, neighbours⟩ := precedes_of_before read otherFound found before
  have reached : other.element.stop ≤ offset := Nat.le_trans ordered covers.1
  have passed : other.element.stop ≠ offset := by
    rintro rfl
    have next := neighbours (Nat.le_antisymm ordered covers.1)
    exact apart ⟨earlier.message, other, by rw [next], by rw [next]; exact otherFound, rfl⟩
  exact ByteSpan.contains_eq_false_iff.mpr (.inr (Nat.lt_of_le_of_ne reached passed))

/-- In a document that is read, every byte of a message leads to the message,
unless the message right in front of it ends there.  The end of a message leads
to that message, and what lies in no message and at no end of one leads to
none. -/
theorem messageAt?_iff (read : Document.read text = .ok document) :
    (∀ index message offset, document.spans.message? index = some message →
      message.element.Covers offset →
        (document.spans.messageAt? offset = some index ↔
          ¬ document.spans.FrontEndsAt index offset)) ∧
    (∀ index message, document.spans.message? index = some message →
      document.spans.messageAt? message.element.stop = some index) ∧
    ∀ offset, (∀ index message, document.spans.message? index = some message →
        ¬ (message.element.start ≤ offset ∧ offset ≤ message.element.stop)) →
      document.spans.messageAt? offset = none := by
  refine ⟨?_, fun index message found => messageAt?_stop read found, ?_⟩
  · intro index message offset found covers
    constructor
    · rintro given ⟨place, front, next, frontFound, rfl⟩
      rw [messageAt?_stop read frontFound, Option.some.injEq] at given
      rw [← given] at next
      exact absurd next (Nat.ne_of_lt (Nat.lt_succ_self place))
    · intro apart
      have touched := ByteSpan.contains_iff.mpr ⟨covers.1, Nat.le_of_lt covers.2⟩
      exact messageAt?_eq_some read found touched fun earlier other before otherFound =>
        contains_eq_false_of_before read found covers apart before otherFound
  · intro offset outside
    refine messageAt?_eq_none read fun index message found => ?_
    rw [← Bool.not_eq_true, ByteSpan.contains_iff]
    exact outside index message found

end Document

/-- A document in which one message follows another without a gap. -/
def adjacentText : String :=
  "<TS><context><name/><message><source/></message><message><source/></message></context></TS>"

def adjacentDocument : Document :=
  { catalog := { contexts := [{ messages := [{}, {}] }] }
    spans :=
      { root := ⟨0, 4⟩
        contexts := [
          { element := ⟨4, 86⟩
            name := ⟨13, 20⟩
            messages := [⟨⟨20, 48⟩, ⟨29, 38⟩, none⟩, ⟨⟨48, 76⟩, ⟨57, 66⟩, none⟩] }] } }

theorem read_adjacentText : Document.read adjacentText = .ok adjacentDocument :=
  read_of_toList String.toList_ofList (by decide +kernel)

/-- The second byte of the second message leads to it. -/
theorem messageAt?_adjacentText :
    Document.read adjacentText = .ok adjacentDocument ∧
      adjacentDocument.spans.messageAt? 49 = some ⟨0, 1⟩ := by
  refine ⟨read_adjacentText, ?_⟩
  refine ((Document.messageAt?_iff read_adjacentText).1 ⟨0, 1⟩ _ 49 rfl ⟨by decide, by decide⟩).mpr ?_
  rintro ⟨place, front, next, found, ends⟩
  obtain rfl : place = 0 := Nat.succ.inj next.symm
  cases found
  cases ends

/-- Not every byte of a message leads to it. -/
theorem not_messageAt?_adjacentText :
    ¬ ∀ text document, Document.read text = .ok document → ∀ index message offset,
      document.spans.message? index = some message → message.element.Covers offset →
        document.spans.messageAt? offset = some index := by
  intro finds
  have found := finds _ _ read_adjacentText ⟨0, 1⟩ _ 48 rfl ⟨by decide, by decide⟩
  exact absurd found (by decide)

end CatalogServer
