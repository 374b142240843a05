import CatalogServer.Proofs.Catalog.Keys

/-!
# The table of keys

A message is looked up by its key by going through the messages in document
order, or in a table that is filled in this order and keeps the first index of
every key.  Both ways lead to the first message with the key, also where messages
are repeated or several contexts have the same name.
-/

namespace CatalogServer

theorem MessageIndex.Before.not_before {first second : MessageIndex}
    (before : first.Before second) : ¬ second.Before first := by
  unfold Before at *
  omega

namespace Catalog

/-- The message at an index is the first one with a key in document order. -/
structure FirstWith (catalog : Catalog) (key : MessageKey) (index : MessageIndex)
    (message : Message) : Prop where
  stands : catalog.message? index = some message
  context : (catalog.contexts[index.context]?).map (·.name) = some key.context
  source : message.source = key.source
  comment : message.comment = key.comment
  first : ∀ earlier : MessageIndex, earlier.Before index → ∀ context other,
    catalog.contexts[earlier.context]? = some context →
      context.messages[earlier.message]? = some other → other.keyIn context ≠ key

section Searching

variable {catalog : Catalog} {key : MessageKey} {entry : MessageEntry}

/-- A search through the entries finds one that it looks for and that no other
such one comes before. -/
theorem find?_entries_eq_some_iff {picks : MessageEntry → Bool} :
    catalog.entries.find? picks = some entry ↔ entry ∈ catalog.entries ∧ picks entry = true ∧
      ∀ other ∈ catalog.entries, other.index.Before entry.index → picks other = false := by
  rw [List.find?_eq_some_iff_append]
  constructor
  · rintro ⟨picked, before, behind, whole, others⟩
    have ordered := catalog.pairwise_entries
    rw [whole, List.pairwise_append, List.pairwise_cons] at ordered
    refine ⟨by simp [whole], picked, fun other member earlier => ?_⟩
    rw [whole, List.mem_append, List.mem_cons] at member
    rcases member with inFront | rfl | later
    · simpa using others other inFront
    · exact absurd rfl earlier.ne
    · exact absurd earlier (ordered.2.1.1 other later).not_before
  · rintro ⟨member, picked, others⟩
    obtain ⟨before, behind, whole⟩ := List.append_of_mem member
    have ordered := catalog.pairwise_entries
    rw [whole, List.pairwise_append] at ordered
    refine ⟨picked, before, behind, whole, fun other inFront => ?_⟩
    have passed := others other (by simp [whole, inFront])
      (ordered.2.2 other inFront entry List.mem_cons_self)
    simpa using passed

theorem find?_eq_some_iff_first :
    catalog.find? key = some entry ↔ entry ∈ catalog.entries ∧ entry.key = key ∧
      ∀ other ∈ catalog.entries, other.index.Before entry.index → other.key ≠ key := by
  rw [find?, find?_entries_eq_some_iff]
  simp only [beq_iff_eq, beq_eq_false_iff_ne]

theorem find?_eq_some_iff_firstWith {index : MessageIndex} {message : Message} :
    (catalog.find? key).map (fun entry => (entry.index, entry.message)) = some (index, message) ↔
      catalog.FirstWith key index message := by
  rw [Option.map_eq_some_iff]
  constructor
  · rintro ⟨entry, found, same⟩
    cases same
    obtain ⟨member, named, others⟩ := find?_eq_some_iff_first.mp found
    obtain ⟨contextAt, -⟩ := mem_entries_iff.mp member
    subst named
    refine ⟨message?_of_mem_entries member, by rw [contextAt]; rfl, rfl, rfl, ?_⟩
    intro earlier before context other otherContext otherAt
    exact others ⟨earlier, context, other⟩ (mem_entries_iff.mpr ⟨otherContext, otherAt⟩) before
  · intro firstWith
    obtain ⟨entry, member, rfl, rfl⟩ := exists_entry firstWith.stands
    obtain ⟨contextAt, -⟩ := mem_entries_iff.mp member
    have context := firstWith.context
    rw [contextAt, Option.map_some, Option.some.injEq] at context
    have named : entry.key = key := by
      obtain ⟨name, source, comment⟩ := key
      exact MessageKey.mk.injEq .. ▸ ⟨context, firstWith.source, firstWith.comment⟩
    refine ⟨entry, find?_eq_some_iff_first.mpr ⟨member, named, fun other otherMem before => ?_⟩, rfl⟩
    obtain ⟨otherContext, otherAt⟩ := mem_entries_iff.mp otherMem
    exact firstWith.first other.index before other.context other.message otherContext otherAt

end Searching

section Table

variable (table : List (MessageKey × MessageIndex)) (entry : MessageEntry) (key : MessageKey)

theorem any_key_eq_isSome_lookup : table.any (·.1 == key) = (table.lookup key).isSome := by
  induction table with
  | nil => rfl
  | cons held rest ih =>
      rw [List.any_cons, List.lookup_cons, ih, Bool.beq_comm]
      cases key == held.1 <;> rfl

theorem lookup_insertKey :
    (insertKey table entry).lookup key =
      (table.lookup key).or (if entry.key = key then some entry.index else none) := by
  unfold insertKey
  split
  · next present =>
      split
      · next named =>
          rw [any_key_eq_isSome_lookup, named] at present
          rw [Option.or_of_isSome present]
      · rw [Option.or_none]
  · rw [List.lookup_append, List.lookup_cons, List.lookup_nil]
    by_cases named : entry.key = key
    · rw [if_pos named, beq_iff_eq.mpr named.symm]
    · rw [if_neg named, beq_eq_false_iff_ne.mpr (Ne.symm named)]

theorem nodup_insertKey (distinct : (table.map (·.1)).Nodup) :
    ((insertKey table entry).map (·.1)).Nodup := by
  unfold insertKey
  split
  · exact distinct
  · next absent =>
      have differs : ∀ held ∈ table.map (·.1), held ≠ entry.key := by
        intro held member same
        obtain ⟨pair, pairMem, rfl⟩ := List.mem_map.mp member
        exact absent (List.any_eq_true.mpr ⟨pair, pairMem, beq_iff_eq.mpr same⟩)
      rw [List.map_append, List.nodup_append]
      exact ⟨distinct, List.nodup_singleton _, fun held member other only =>
        List.mem_singleton.mp only ▸ differs held member⟩

/-- Filling the table leads a key to where it led before, or else to the first of
the entries that have it. -/
theorem lookup_foldl_insertKey (entries : List MessageEntry) :
    (entries.foldl insertKey table).lookup key =
      (table.lookup key).or ((entries.find? (·.key == key)).map (·.index)) := by
  induction entries generalizing table with
  | nil => simp
  | cons entry rest ih =>
      -- The entry stands behind what the table holds and in front of the rest.
      rw [List.foldl_cons, ih, lookup_insertKey, Option.or_assoc, List.find?_cons]
      by_cases named : entry.key = key
      · simp [named]
      · rw [if_neg named, beq_eq_false_iff_ne.mpr named, Option.none_or]

theorem nodup_foldl_insertKey (entries : List MessageEntry)
    (distinct : (table.map (·.1)).Nodup) :
    ((entries.foldl insertKey table).map (·.1)).Nodup := by
  induction entries generalizing table with
  | nil => exact distinct
  | cons entry rest ih => exact ih _ (nodup_insertKey table entry distinct)

end Table

/-- The table of keys has every key once and leads it to the same index as the
search through the messages, or to none if that finds none.  What the search
finds is the first message with the key in document order. -/
theorem lookups_agree (catalog : Catalog) (key : MessageKey) :
    catalog.keyTable.lookup key = (catalog.find? key).map (·.index) ∧
      (catalog.keyTable.map (·.1)).Nodup ∧
      ∀ index message,
        (catalog.find? key).map (fun entry => (entry.index, entry.message)) =
            some (index, message) ↔
          catalog.FirstWith key index message := by
  have looked := lookup_foldl_insertKey [] key catalog.entries
  exact ⟨looked, nodup_foldl_insertKey [] catalog.entries List.nodup_nil,
    fun _ _ => find?_eq_some_iff_firstWith⟩

end Catalog

end CatalogServer
