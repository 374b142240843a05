import CatalogServer.Proofs.Catalog.Outline

/-!
# Messages with their places

The entries of a catalog are its messages, each with its context and its index,
in document order.  In a document that is read, the places of every message
stand at its index, and a message whose target is not the usual one has a target
element.
-/

namespace CatalogServer

open Text Reader

/-- An index comes before another one in document order. -/
def MessageIndex.Before (first second : MessageIndex) : Prop :=
  first.context < second.context ∨
    first.context = second.context ∧ first.message < second.message

theorem MessageIndex.Before.ne {first second : MessageIndex} (before : first.Before second) :
    first ≠ second := by
  rintro rfl
  rcases before with before | ⟨-, before⟩
  · exact before.false
  · exact before.false

theorem MessageIndex.before_trichotomy (first second : MessageIndex) :
    first.Before second ∨ first = second ∨ second.Before first := by
  obtain ⟨context, message⟩ := first
  obtain ⟨otherContext, otherMessage⟩ := second
  simp only [Before, MessageIndex.mk.injEq]
  omega

/-- What is chosen of some items stands side by side with them. -/
theorem forall₂_filterMap_filter {α β : Type} {Chosen : β → α → Prop} {choose : α → Option β}
    {picks : α → Bool} {items : List α}
    (picked : ∀ item ∈ items, picks item = true → ∃ value, choose item = some value ∧
      Chosen value item)
    (passed : ∀ item ∈ items, picks item = false → choose item = none) :
    List.Forall₂ Chosen (items.filterMap choose) (items.filter picks) := by
  induction items with
  | nil => exact .nil
  | cons item rest ih =>
      have later := ih (fun other member => picked other (List.mem_cons_of_mem _ member))
        fun other member => passed other (List.mem_cons_of_mem _ member)
      cases picks_eq : picks item with
      | true =>
          obtain ⟨value, chosen, holds⟩ := picked item List.mem_cons_self picks_eq
          rw [List.filterMap_cons_some chosen, List.filter_cons_of_pos picks_eq]
          exact .cons holds later
      | false =>
          rw [List.filterMap_cons_none (passed item List.mem_cons_self picks_eq),
            List.filter_cons_of_neg (by simp [picks_eq])]
          exact later

namespace Catalog

theorem entriesOfContext_eq (number : Nat) (context : Context) (start : Nat)
    (messages : List Message) :
    entriesOfContext number context start messages =
      (messages.zipIdx start).map fun (message, place) => ⟨⟨number, place⟩, context, message⟩ := by
  induction messages generalizing start with
  | nil => rfl
  | cons first rest ih => rw [entriesOfContext, ih, List.zipIdx_cons, List.map_cons]

theorem entriesOfContexts_eq (start : Nat) (contexts : List Context) :
    entriesOfContexts start contexts =
      (contexts.zipIdx start).flatMap fun numbered =>
        entriesOfContext numbered.2 numbered.1 0 numbered.1.messages := by
  induction contexts generalizing start with
  | nil => rfl
  | cons first rest ih => rw [entriesOfContexts, ih, List.zipIdx_cons, List.flatMap_cons]

theorem mem_entries_iff {catalog : Catalog} {entry : MessageEntry} :
    entry ∈ catalog.entries ↔ catalog.contexts[entry.index.context]? = some entry.context ∧
      entry.context.messages[entry.index.message]? = some entry.message := by
  obtain ⟨⟨number, place⟩, context, message⟩ := entry
  simp only [entries, entriesOfContexts_eq, entriesOfContext_eq, List.mem_flatMap, List.mem_map]
  constructor
  · rintro ⟨⟨held, count⟩, heldAt, ⟨found, position⟩, foundAt, same⟩
    cases same
    exact ⟨List.mk_mem_zipIdx_iff_getElem?.mp heldAt, List.mk_mem_zipIdx_iff_getElem?.mp foundAt⟩
  · rintro ⟨contextAt, messageAt⟩
    exact ⟨(context, number), List.mk_mem_zipIdx_iff_getElem?.mpr contextAt, (message, place),
      List.mk_mem_zipIdx_iff_getElem?.mpr messageAt, rfl⟩

theorem eq_of_index_eq {catalog : Catalog} {first second : MessageEntry}
    (firstMem : first ∈ catalog.entries) (secondMem : second ∈ catalog.entries)
    (same : first.index = second.index) : first = second := by
  obtain ⟨firstContextAt, firstMessageAt⟩ := mem_entries_iff.mp firstMem
  obtain ⟨secondContextAt, secondMessageAt⟩ := mem_entries_iff.mp secondMem
  obtain ⟨index, context, message⟩ := first
  cases same
  cases firstContextAt.symm.trans secondContextAt
  cases firstMessageAt.symm.trans secondMessageAt
  rfl

theorem message?_of_mem_entries {catalog : Catalog} {entry : MessageEntry}
    (member : entry ∈ catalog.entries) : catalog.message? entry.index = some entry.message := by
  obtain ⟨contextAt, messageAt⟩ := mem_entries_iff.mp member
  simp [message?, contextAt, messageAt]

theorem exists_entry {catalog : Catalog} {index : MessageIndex} {message : Message}
    (found : catalog.message? index = some message) :
    ∃ entry ∈ catalog.entries, entry.index = index ∧ entry.message = message := by
  simp only [message?, Option.bind_eq_bind, Option.bind_eq_some_iff] at found
  obtain ⟨context, contextAt, messageAt⟩ := found
  exact ⟨⟨index, context, message⟩, mem_entries_iff.mpr ⟨contextAt, messageAt⟩, rfl, rfl⟩

theorem pairwise_zipIdx {α : Type} (items : List α) (start : Nat) :
    (items.zipIdx start).Pairwise fun first second => first.2 < second.2 := by
  have increasing : ((items.zipIdx start).map Prod.snd).Pairwise (· < ·) := by
    rw [List.zipIdx_map_snd]
    exact List.pairwise_lt_range'
  exact List.pairwise_map.mp increasing

theorem pairwise_entries (catalog : Catalog) :
    catalog.entries.Pairwise fun first second => first.index.Before second.index := by
  rw [entries, entriesOfContexts_eq, List.pairwise_flatMap]
  constructor
  · intro numbered _
    rw [entriesOfContext_eq, List.pairwise_map]
    exact (pairwise_zipIdx numbered.1.messages 0).imp fun before => .inr ⟨rfl, before⟩
  · refine (pairwise_zipIdx catalog.contexts 0).imp fun before first firstMem second secondMem => ?_
    rw [entriesOfContext_eq, List.mem_map] at firstMem secondMem
    obtain ⟨-, -, rfl⟩ := firstMem
    obtain ⟨-, -, rfl⟩ := secondMem
    exact .inl before

end Catalog

namespace Document

variable {text : String} {document : Document} {index : MessageIndex} {message : Message}

/-- A message of a document that is read comes from an element, with its places
at its index. -/
theorem exists_readsMessage (read : Document.read text = .ok document)
    (found : document.catalog.message? index = some message) :
    ∃ element spans, document.spans.message? index = some spans ∧
      ReadsMessage element message spans := by
  obtain ⟨root, -, outlines⟩ := outlines_of_read read
  simp only [Catalog.message?, Option.bind_eq_bind, Option.bind_eq_some_iff] at found
  obtain ⟨context, contextAt, messageAt⟩ := found
  obtain ⟨parent, contextSpans, -, contextSpansAt, readsContext⟩ :=
    outlines.contexts.exists_of_getElem? contextAt
  obtain ⟨element, spans, -, spansAt, readsMessage⟩ :=
    readsContext.messages.exists_of_getElem? messageAt
  exact ⟨element, spans, by simp [CatalogSpans.message?, contextSpansAt, spansAt], readsMessage⟩

end Document

end CatalogServer
