import CatalogServer.Proofs.Catalog.Keys
import CatalogServer.Proofs.Check.Reporting

/-!
# What the check for duplicates says about keys

The check for duplicates goes through the messages of one context at a time and
reports those whose source and disambiguation it has seen in this context.  A
message is looked up by the name of its context instead, and several contexts
may have the same name.  So a catalog without duplicates has usable keys just
if no message of a context has the key of a message in another context with
the same name.
-/

namespace CatalogServer

namespace Check

variable {document : Document} {options : CheckOptions} {entry : MessageEntry}

theorem kind_ne_of_not_mem {issues : List Issue} {kind : IssueKind}
    (absent : kind ∉ issues.map (·.kind)) : ∀ issue ∈ issues, issue.kind ≠ kind := by
  rintro issue member rfl
  exact absent (List.mem_map_of_mem member)

theorem mem_earlierKeys_iff {context : Context} {place : Nat} {key : LocalKey} :
    key ∈ earlierKeys context place ↔
      ∃ earlier < place, ∃ message, context.messages[earlier]? = some message ∧
        message.localKey = key := by
  rw [earlierKeys, List.mem_reverse, List.mem_map]
  constructor
  · rintro ⟨message, member, rfl⟩
    obtain ⟨earlier, found⟩ := List.mem_iff_getElem?.mp member
    rw [List.getElem?_take] at found
    split at found
    · next inFront => exact ⟨earlier, inFront, message, found, rfl⟩
    · cases found
  · rintro ⟨earlier, inFront, message, found, rfl⟩
    refine ⟨message, List.mem_iff_getElem?.mpr ⟨earlier, ?_⟩, rfl⟩
    rw [List.getElem?_take, if_pos inFront, found]

/-- The messages of a context differ in their local keys just if none has that
of a message in front of it. -/
theorem nodup_localKeys_iff {context : Context} :
    (context.messages.map (·.localKey)).Nodup ↔
      ∀ place message, context.messages[place]? = some message →
        message.localKey ∉ earlierKeys context place := by
  rw [List.nodup_iff_getElem?_ne_getElem?]
  constructor
  · intro differ place message found earlierMem
    obtain ⟨earlier, inFront, other, otherFound, same⟩ := mem_earlierKeys_iff.mp earlierMem
    obtain ⟨bound, -⟩ := List.getElem?_eq_some_iff.mp found
    apply differ earlier place inFront (by rwa [List.length_map])
    rw [List.getElem?_map, List.getElem?_map, found, otherFound, Option.map_some, Option.map_some,
      same]
  · intro fresh earlier place inFront bound same
    rw [List.length_map] at bound
    have found := List.getElem?_eq_getElem bound
    have otherFound := List.getElem?_eq_getElem (inFront.trans bound)
    rw [List.getElem?_map, List.getElem?_map, found, otherFound, Option.map_some, Option.map_some,
      Option.some.injEq] at same
    exact fresh place _ found (mem_earlierKeys_iff.mpr ⟨earlier, inFront, _, otherFound, same⟩)

theorem kind_ne_of_mem_messageIssues {setting : Setting} {message : Message}
    {spans : MessageSpans} {index : MessageIndex} :
    ∀ issue ∈ messageIssues setting message spans index, issue.kind ≠ .duplicateMessage := by
  obtain ⟨quality, qualitySublist, -, kinds⟩ :=
    exists_map_kind_messageIssues setting message spans index
  apply kind_ne_of_not_mem
  rw [kinds, List.mem_append, List.mem_append]
  rintro ((source | standing) | inQuality)
  · split at source <;> simp at source
  · cases standingEq : message.standing <;> simp [standingEq, Standing.kind?] at standing
  · exact absurd (qualitySublist.subset inQuality) (by decide)

theorem exists_duplicate_iff {text : String} (read : Document.read text = .ok document)
    (options : CheckOptions) (member : entry ∈ document.catalog.entries) :
    (∃ issue ∈ entryIssues document options entry, issue.kind = .duplicateMessage) ↔
      entry.message.localKey ∈ earlierKeys entry.context entry.index.message := by
  obtain ⟨-, spans, stand, -⟩ :=
    Document.exists_readsMessage read (Catalog.message?_of_mem_entries member)
  simp only [entryIssues, stand, List.mem_append]
  constructor
  · rintro ⟨issue, reported | reported, duplicate⟩
    · rw [duplicateIssues] at reported
      split at reported
      · next seen => exact List.contains_iff_mem.mp seen
      · cases reported
    · exact absurd duplicate (kind_ne_of_mem_messageIssues issue reported)
  · intro seen
    have contained : (earlierKeys entry.context entry.index.message).contains
        (entry.message.source, entry.message.comment) = true := List.contains_iff_mem.mpr seen
    rw [duplicateIssues, if_pos contained]
    exact ⟨_, .inl List.mem_cons_self, rfl⟩

theorem forall_kind_ne_duplicate_iff {text : String} (read : Document.read text = .ok document)
    (options : CheckOptions) :
    (∀ issue ∈ documentIssues document options, issue.kind ≠ .duplicateMessage) ↔
      ∀ context ∈ document.catalog.contexts, (context.messages.map (·.localKey)).Nodup := by
  constructor
  · intro unreported context contextMem
    obtain ⟨number, contextAt⟩ := List.mem_iff_getElem?.mp contextMem
    apply nodup_localKeys_iff.mpr
    intro place message messageAt seen
    have member : ⟨⟨number, place⟩, context, message⟩ ∈ document.catalog.entries :=
      Catalog.mem_entries_iff.mpr ⟨contextAt, messageAt⟩
    obtain ⟨issue, reported, duplicate⟩ :=
      (exists_duplicate_iff read options member).mpr seen
    exact unreported issue ((mem_entryIssues_iff read options member).mp reported).1 duplicate
  · intro differ issue reported duplicate
    have about : issue.index.isSome = true :=
      index_isSome_of_mem_documentIssues reported (by simp [duplicate]) (by simp [duplicate])
    obtain ⟨index, about⟩ := Option.isSome_iff_exists.mp about
    obtain ⟨entry, member, -, own⟩ := exists_entry_of_index read reported about
    have seen := (exists_duplicate_iff read options member).mp ⟨issue, own, duplicate⟩
    obtain ⟨contextAt, messageAt⟩ := Catalog.mem_entries_iff.mp member
    exact nodup_localKeys_iff.mp (differ _ (List.mem_of_getElem? contextAt)) _ _ messageAt seen

end Check

open Check

/-- The keys of a document that is read are usable just if no duplicate is
reported and contexts with the same name have no key in common. -/
theorem Document.keysUsable_iff {text : String} {document : Document}
    (read : Document.read text = .ok document) (options : CheckOptions) :
    document.catalog.KeysUsable ↔
      (∀ issue ∈ documentIssues document options, issue.kind ≠ .duplicateMessage) ∧
        document.catalog.ContextsApart := by
  rw [Catalog.keysUsable_iff_nodup, Catalog.nodup_keys_iff_apart,
    forall_kind_ne_duplicate_iff read options]

/-- A document with one source in contexts of two names, twice in the one with
different disambiguations. -/
def toldApartText : String :=
  "<TS><context><name>n</name><message><source>s</source></message><message><source>s</source>" ++
    "<comment>c</comment></message></context><context><name>m</name><message><source>s</source>" ++
    "</message></context></TS>"

theorem keysUsable_toldApartText :
    ∃ document, Document.read toldApartText = .ok document ∧
      document.catalog.entries.length = 3 ∧ document.catalog.KeysUsable := by
  have found : (Document.read toldApartText).toOption.map (fun document =>
      (document.catalog.entries.length, (documentIssues document {}).map (·.kind),
        decide document.catalog.ContextsApart)) =
        some (3, [.unknownLanguage, .missingTarget, .missingTarget, .missingTarget], true) := by
    decide +kernel
  obtain ⟨document, read, parts⟩ := Option.map_eq_some_iff.mp found
  rw [Except.toOption_eq_some_iff] at read
  simp only [Prod.mk.injEq, decide_eq_true_eq] at parts
  obtain ⟨several, kinds, apart⟩ := parts
  refine ⟨document, read, several, (Document.keysUsable_iff read {}).mpr ⟨?_, apart⟩⟩
  apply kind_ne_of_not_mem
  rw [kinds]
  decide

/-- A document with a message in each of two contexts that have the same name. -/
def splitContextText : String :=
  "<TS><context><name>n</name><message><source>s</source></message></context>" ++
    "<context><name>n</name><message><source>s</source></message></context></TS>"

/-- A catalog without reported duplicates need not have usable keys: a message
in the second of two contexts with the same name is hidden by one in the
first. -/
theorem not_keysUsable_splitContextText :
    ¬ ∀ text document, Document.read text = .ok document →
      (∀ issue ∈ documentIssues document {}, issue.kind ≠ .duplicateMessage) →
        document.catalog.KeysUsable := by
  intro usable
  have found : (Document.read splitContextText).toOption.map (fun document =>
      ((documentIssues document {}).map (·.kind), document.catalog.keyTable.length,
        (document.catalog.contexts.flatMap (·.messages)).length)) =
        some ([.unknownLanguage, .missingTarget, .missingTarget], 1, 2) := by
    decide +kernel
  obtain ⟨document, read, parts⟩ := Option.map_eq_some_iff.mp found
  rw [Except.toOption_eq_some_iff] at read
  simp only [Prod.mk.injEq] at parts
  obtain ⟨kinds, single, several⟩ := parts
  have unreported : ∀ issue ∈ documentIssues document {}, issue.kind ≠ .duplicateMessage := by
    apply kind_ne_of_not_mem
    rw [kinds]
    decide
  have counted := (usable _ document read unreported).counted
  rw [single, several] at counted
  exact absurd counted (by decide)

end CatalogServer
