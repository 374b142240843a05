import CatalogServer.Proofs.Catalog.Entries
import Mathlib.Data.List.Nodup

/-!
# Keys that name one message

A message is looked up by its key, and where several messages share a key the
first of them counts.  So all messages are found by their own keys just if no
two of them share one, and then the table of keys has an entry for each message.

The key names the context by its name, and several contexts of a catalog may
have the same name.  So two messages share a key either inside one context or
across two contexts with the same name.
-/

namespace CatalogServer

/-- Source and disambiguation of a message, which name it in its context. -/
def Message.localKey (message : Message) : String × Option String :=
  (message.source, message.comment)

theorem Message.keyIn_eq_iff {message other : Message} (context : Context) :
    message.keyIn context = other.keyIn context ↔ message.localKey = other.localKey := by
  simp [keyIn, localKey]

namespace Catalog

variable {catalog : Catalog}

/-- Every message is found by its own key, at its own place, and the table of
keys has as many entries as there are messages. -/
structure KeysUsable (catalog : Catalog) : Prop where
  found {number place : Nat} {context : Context} {message : Message} :
    catalog.contexts[number]? = some context → context.messages[place]? = some message →
      (catalog.find? ⟨context.name, message.source, message.comment⟩).map (·.index) =
        some ⟨number, place⟩
  counted : catalog.keyTable.length = (catalog.contexts.flatMap (·.messages)).length

/-- Where two contexts have the same name, each message of the one differs from
those of the other in its source or its disambiguation. -/
def ContextsApart (catalog : Catalog) : Prop :=
  catalog.contexts.Pairwise fun first second => first.name = second.name →
    ∀ message ∈ first.messages, ∀ other ∈ second.messages, message.localKey ≠ other.localKey

instance (catalog : Catalog) : Decidable catalog.ContextsApart :=
  inferInstanceAs (Decidable (catalog.contexts.Pairwise fun _ _ => _ → ∀ _ ∈ _, ∀ _ ∈ _, _))

theorem map_key_entries (catalog : Catalog) :
    catalog.entries.map (·.key) =
      catalog.contexts.flatMap fun context => context.messages.map (·.keyIn context) := by
  have ofContext (number : Nat) (context : Context) (start : Nat) (messages : List Message) :
      (entriesOfContext number context start messages).map (·.key) =
        messages.map (·.keyIn context) := by
    induction messages generalizing start with
    | nil => rfl
    | cons first rest ih =>
        rw [entriesOfContext, List.map_cons, List.map_cons, ih]
        rfl
  have ofContexts (number : Nat) (contexts : List Context) :
      (entriesOfContexts number contexts).map (·.key) =
        contexts.flatMap fun context => context.messages.map (·.keyIn context) := by
    induction contexts generalizing number with
    | nil => rfl
    | cons first rest ih =>
        rw [entriesOfContexts, List.map_append, ofContext, ih, List.flatMap_cons]
  exact ofContexts 0 catalog.contexts

theorem length_entries (catalog : Catalog) :
    catalog.entries.length = (catalog.contexts.flatMap (·.messages)).length := by
  have lengths := congrArg List.length catalog.map_key_entries
  simpa [List.length_flatMap] using lengths

/-- A message is found by its key just if no message in front of it has the
same key. -/
theorem nodup_keys_iff :
    (catalog.entries.map (·.key)).Nodup ↔
      ∀ entry ∈ catalog.entries, catalog.find? entry.key = some entry := by
  constructor
  · intro distinct entry member
    obtain ⟨before, behind, whole⟩ := List.append_of_mem member
    rw [find?, List.find?_eq_some_iff_append]
    refine ⟨beq_self_eq_true _, before, behind, whole, ?_⟩
    intro other otherMem
    rw [whole, List.map_append, List.map_cons] at distinct
    have apart := (List.nodup_append.mp distinct).2.2
    have differs := apart other.key (List.mem_map_of_mem otherMem) entry.key List.mem_cons_self
    simpa using differs
  · intro found
    apply List.pairwise_map.mpr
    apply catalog.pairwise_entries.imp_of_mem
    intro first second firstMem secondMem before same
    have firstFound := found first firstMem
    rw [same, found second secondMem] at firstFound
    exact before.ne (congrArg MessageEntry.index (Option.some.inj firstFound)).symm

theorem foldl_insertKey {entries : List MessageEntry} {table : List (MessageKey × MessageIndex)}
    (distinct : (table.map (·.1) ++ entries.map (·.key)).Nodup) :
    entries.foldl insertKey table = table ++ entries.map fun entry => (entry.key, entry.index) := by
  induction entries generalizing table with
  | nil => simp
  | cons entry rest ih =>
      have absent : ¬ table.any (·.1 == entry.key) = true := by
        intro present
        obtain ⟨held, heldMem, same⟩ := List.any_eq_true.mp present
        have apart := (List.nodup_append.mp distinct).2.2
        exact apart held.1 (List.mem_map_of_mem heldMem) entry.key List.mem_cons_self
          (beq_iff_eq.mp same)
      have taken : insertKey table entry = table ++ [(entry.key, entry.index)] := by
        rw [insertKey, if_neg absent]
      have later : ((table ++ [(entry.key, entry.index)]).map (·.1) ++ rest.map (·.key)).Nodup := by
        simpa using distinct
      rw [List.foldl_cons, taken, ih later]
      simp

theorem keysUsable_iff_nodup : catalog.KeysUsable ↔ (catalog.entries.map (·.key)).Nodup := by
  constructor
  · intro usable
    apply nodup_keys_iff.mpr
    intro entry member
    obtain ⟨contextAt, messageAt⟩ := mem_entries_iff.mp member
    obtain ⟨other, otherFound, sameIndex⟩ :=
      Option.map_eq_some_iff.mp (usable.found contextAt messageAt)
    have otherMem : other ∈ catalog.entries := List.mem_of_find?_eq_some otherFound
    have same : other = entry := eq_of_index_eq otherMem member sameIndex
    exact same ▸ otherFound
  · intro distinct
    constructor
    · intro number place context message contextAt messageAt
      have member : ⟨⟨number, place⟩, context, message⟩ ∈ catalog.entries :=
        mem_entries_iff.mpr ⟨contextAt, messageAt⟩
      have found := nodup_keys_iff.mp distinct _ member
      exact Option.map_eq_some_iff.mpr ⟨_, found, rfl⟩
    · have table : catalog.keyTable = catalog.entries.map fun entry => (entry.key, entry.index) :=
        foldl_insertKey distinct
      rw [table, List.length_map, length_entries]

/-- No two messages share a key just if none do inside a context, and none do
across contexts with the same name. -/
theorem nodup_keys_iff_apart :
    (catalog.entries.map (·.key)).Nodup ↔
      (∀ context ∈ catalog.contexts, (context.messages.map (·.localKey)).Nodup) ∧
        catalog.ContextsApart := by
  have inside (context : Context) :
      (context.messages.map (·.keyIn context)).Nodup ↔
        (context.messages.map (·.localKey)).Nodup := by
    simp only [List.Nodup, List.pairwise_map, ne_eq, Message.keyIn_eq_iff]
  have across (first second : Context) :
      List.Disjoint (first.messages.map (·.keyIn first))
          (second.messages.map (·.keyIn second)) ↔
        (first.name = second.name → ∀ message ∈ first.messages, ∀ other ∈ second.messages,
          message.localKey ≠ other.localKey) := by
    simp only [List.disjoint_left, List.mem_map, not_exists, not_and, forall_exists_index, and_imp,
      forall_apply_eq_imp_iff₂, Message.keyIn, Message.localKey, MessageKey.mk.injEq, ne_eq,
      Prod.mk.injEq]
    grind
  rw [map_key_entries, List.nodup_flatMap, ContextsApart]
  refine and_congr (forall₂_congr fun context _ => inside context) ?_
  exact ⟨fun apart => apart.imp fun disjoint => (across _ _).mp disjoint,
    fun apart => apart.imp fun differs => (across _ _).mpr differs⟩

end Catalog

end CatalogServer
