import CatalogServer.Proofs.Catalog.Entries
import CatalogServer.Proofs.Catalog.Spans
import CatalogServer.Proofs.Check.Standing

/-!
# The issues of a catalog, message by message

The checks walk through the contexts of a catalog and the places of their
messages side by side.  In a document that is read, this gives every message of
the catalog its issues, in document order: each kind of issue at most once, and
one issue for its standing, unless it is finished.
-/

namespace CatalogServer.Check

variable {document : Document} {options : CheckOptions} {entry : MessageEntry}

/-- Source and disambiguation of the messages in front of a place, the last one
first. -/
def earlierKeys (context : Context) (place : Nat) : List LocalKey :=
  ((context.messages.take place).map fun message => (message.source, message.comment)).reverse

/-- The issues of a message of a document. -/
def entryIssues (document : Document) (options : CheckOptions) (entry : MessageEntry) :
    List Issue :=
  match document.spans.message? entry.index with
  | none => []
  | some spans =>
      duplicateIssues entry.context (earlierKeys entry.context entry.index.message) entry.message
          spans entry.index ++
        messageIssues (settingOf document.catalog options) entry.message spans entry.index

theorem of_mem_duplicateIssues {context : Context} {seen : List LocalKey} {message : Message}
    {spans : MessageSpans} {index : MessageIndex} {issue : Issue}
    (member : issue ∈ duplicateIssues context seen message spans index) :
    issue.kind = .duplicateMessage ∧ issue.index = some index := by
  rw [duplicateIssues] at member
  split at member
  · rw [List.mem_singleton.mp member]
    exact ⟨rfl, rfl⟩
  · cases member

theorem index_of_mem_entryIssues {issue : Issue}
    (member : issue ∈ entryIssues document options entry) :
    issue.index = some entry.index := by
  rw [entryIssues] at member
  split at member
  · cases member
  · rcases List.mem_append.mp member with member | member
    · exact (of_mem_duplicateIssues member).2
    · exact index_of_mem_messageIssues member

theorem earlierKeys_eq {context : Context} {done rest : List Message}
    (whole : context.messages = done ++ rest) : earlierKeys context done.length =
      (done.map fun message => (message.source, message.comment)).reverse := by
  rw [earlierKeys, whole, List.take_left]

theorem messagesIssues_eq {context : Context} {number : Nat} {done rest : List Message}
    (whole : context.messages = done ++ rest) {spans : List MessageSpans}
    (parallel : rest.length = spans.length)
    (stand : ∀ place, document.spans.message? ⟨number, done.length + place⟩ = spans[place]?) :
    messagesIssues (settingOf document.catalog options) context number
        (earlierKeys context done.length) done.length (rest.zip spans) =
      (Catalog.entriesOfContext number context done.length rest).flatMap
        (entryIssues document options) := by
  induction rest generalizing done spans with
  | nil => rfl
  | cons first rest ih =>
      obtain ⟨place, places, rfl⟩ := List.exists_cons_of_length_eq_add_one parallel.symm
      have here : document.spans.message? ⟨number, done.length⟩ = some place := stand 0
      have doneLength : (done ++ [first]).length = done.length + 1 := List.length_append
      have wholeNext : context.messages = (done ++ [first]) ++ rest := by simp [whole]
      have keys : earlierKeys context (done ++ [first]).length =
          (first.source, first.comment) :: earlierKeys context done.length := by
        rw [earlierKeys_eq wholeNext, earlierKeys_eq whole, List.map_append, List.reverse_append]
        rfl
      have later := ih wholeNext (Nat.succ.inj parallel) fun next => by
        rw [doneLength, Nat.add_assoc, Nat.add_comm 1, stand, List.getElem?_cons_succ]
      rw [keys, doneLength] at later
      rw [List.zip_cons_cons, messagesIssues, later, Catalog.entriesOfContext, List.flatMap_cons,
        entryIssues, here]

theorem contextsIssues_eq {number : Nat} {contexts : List Context} {spans : List ContextSpans}
    (parallel : List.Forall₂
      (fun context spans => context.messages.length = spans.messages.length) contexts spans)
    (stand : ∀ place, document.spans.contexts[number + place]? = spans[place]?) :
    (contextsIssues (settingOf document.catalog options) number (contexts.zip spans)).filter
        (·.index.isSome) =
      (Catalog.entriesOfContexts number contexts).flatMap (entryIssues document options) := by
  induction parallel generalizing number with
  | nil => rfl
  | @cons context place contexts places lengths parallel ih =>
      have here : document.spans.contexts[number]? = some place := stand 0
      have standHere (message : Nat) :
          document.spans.message? ⟨number, 0 + message⟩ = place.messages[message]? := by
        simp [CatalogSpans.message?, here]
      have messages : messagesIssues (settingOf document.catalog options) context number [] 0
          (context.messages.zip place.messages) =
            (Catalog.entriesOfContext number context 0 context.messages).flatMap
              (entryIssues document options) :=
        messagesIssues_eq (List.nil_append _).symm lengths standHere
      have name : (contextNameIssues context place).filter (·.index.isSome) = [] := by
        rw [contextNameIssues]
        split <;> rfl
      have kept : ((Catalog.entriesOfContext number context 0 context.messages).flatMap
          (entryIssues document options)).filter (·.index.isSome) =
            (Catalog.entriesOfContext number context 0 context.messages).flatMap
              (entryIssues document options) := by
        refine List.filter_eq_self.mpr fun issue member => ?_
        obtain ⟨entry, -, member⟩ := List.mem_flatMap.mp member
        rw [index_of_mem_entryIssues member]
        rfl
      have later := @ih (number + 1) fun next => by
        rw [Nat.add_assoc, Nat.add_comm 1, stand]
        rfl
      rw [List.zip_cons_cons, contextsIssues, List.filter_append, List.filter_append, name, later,
        messages, kept, List.nil_append, Catalog.entriesOfContexts, List.flatMap_append]

theorem located_documentIssues {text : String} (read : Document.read text = .ok document)
    (options : CheckOptions) :
    (documentIssues document options).filter (·.index.isSome) =
      document.catalog.entries.flatMap (entryIssues document options) := by
  have language : (languageIssues document options).filter (·.index.isSome) = [] := by
    unfold languageIssues
    split
    · rfl
    · split <;> rfl
  obtain ⟨root, -, outlines⟩ := Reader.outlines_of_read read
  have parallel := Reader.parallel_of_outlines outlines
  rw [documentIssues, List.filter_append, language, List.nil_append,
    contextsIssues_eq parallel fun place => by rw [Nat.zero_add]]
  rfl

theorem issues_at_entry {text : String} (read : Document.read text = .ok document)
    (options : CheckOptions) (member : entry ∈ document.catalog.entries) :
    (documentIssues document options).filter (·.index == some entry.index) =
      entryIssues document options entry := by
  have located : (documentIssues document options).filter (·.index == some entry.index) =
      ((documentIssues document options).filter (·.index.isSome)).filter
        (·.index == some entry.index) := by
    rw [List.filter_filter]
    refine List.filter_congr fun issue _ => ?_
    cases issue.index <;> simp
  obtain ⟨before, behind, entriesEq⟩ := List.append_of_mem member
  have ordered := Catalog.pairwise_entries document.catalog
  rw [entriesEq, List.pairwise_append, List.pairwise_cons] at ordered
  obtain ⟨-, ⟨behindLater, -⟩, beforeEarlier⟩ := ordered
  have others {entries : List MessageEntry}
      (apart : ∀ other ∈ entries, other.index ≠ entry.index) :
      (entries.flatMap (entryIssues document options)).filter (·.index == some entry.index) =
        [] := by
    refine List.filter_eq_nil_iff.mpr fun issue issueMem same => ?_
    obtain ⟨other, otherMem, issueMem⟩ := List.mem_flatMap.mp issueMem
    rw [index_of_mem_entryIssues issueMem, beq_iff_eq, Option.some.injEq] at same
    exact apart other otherMem same
  have own : (entryIssues document options entry).filter (·.index == some entry.index) =
      entryIssues document options entry :=
    List.filter_eq_self.mpr fun issue issueMem => by
      rw [index_of_mem_entryIssues issueMem, beq_self_eq_true]
  have apartBefore : ∀ other ∈ before, other.index ≠ entry.index := fun other otherMem =>
    (beforeEarlier other otherMem entry List.mem_cons_self).ne
  have apartBehind : ∀ other ∈ behind, other.index ≠ entry.index := fun other otherMem =>
    (behindLater other otherMem).ne.symm
  rw [located, located_documentIssues read, entriesEq, List.flatMap_append, List.flatMap_cons,
    List.filter_append, List.filter_append, own, others apartBefore, others apartBehind,
    List.nil_append, List.append_nil]

theorem mem_entryIssues_iff {text : String} (read : Document.read text = .ok document)
    (options : CheckOptions) (member : entry ∈ document.catalog.entries) {issue : Issue} :
    issue ∈ entryIssues document options entry ↔
      issue ∈ documentIssues document options ∧ issue.index = some entry.index := by
  rw [← issues_at_entry read options member, List.mem_filter, beq_iff_eq]

theorem exists_entry_of_index {text : String} (read : Document.read text = .ok document)
    {issue : Issue} (reported : issue ∈ documentIssues document options) {index : MessageIndex}
    (about : issue.index = some index) :
    ∃ entry ∈ document.catalog.entries, entry.index = index ∧
      issue ∈ entryIssues document options entry := by
  have located : issue ∈ (documentIssues document options).filter (·.index.isSome) :=
    List.mem_filter.mpr ⟨reported, by rw [about]; rfl⟩
  rw [located_documentIssues read] at located
  obtain ⟨entry, entryMem, own⟩ := List.mem_flatMap.mp located
  have same := (index_of_mem_entryIssues own).symm.trans about
  exact ⟨entry, entryMem, Option.some.inj same, own⟩

/-- A message has its issues in the order of the checks, one of them for its
standing and none about the quality of a target that is no longer in use. -/
theorem exists_map_kind_entryIssues {text : String} (read : Document.read text = .ok document)
    (options : CheckOptions) (member : entry ∈ document.catalog.entries) :
    ∃ first quality : List IssueKind, first.Sublist [.duplicateMessage, .emptySource] ∧
      quality.Sublist qualityKinds ∧
      (entry.message.target.status.isActive = false → quality = []) ∧
      (entryIssues document options entry).map (·.kind) =
        first ++ entry.message.standing.kind?.toList ++ quality := by
  obtain ⟨-, spans, stand, -⟩ :=
    Document.exists_readsMessage read (Catalog.message?_of_mem_entries member)
  obtain ⟨quality, sublist, inactive, kinds⟩ := exists_map_kind_messageIssues
    (settingOf document.catalog options) entry.message spans entry.index
  have duplicate (seen : List LocalKey) :
      ((duplicateIssues entry.context seen entry.message spans entry.index).map (·.kind)).Sublist
        [.duplicateMessage] := by
    rw [duplicateIssues]
    split
    · exact .refl _
    · exact List.nil_sublist _
  have source : (if entry.message.source == "" then [IssueKind.emptySource] else []).Sublist
      [.emptySource] := by
    split
    · exact .refl _
    · exact List.nil_sublist _
  refine ⟨_, quality, (duplicate (earlierKeys entry.context entry.index.message)).append source,
    sublist, inactive, ?_⟩
  simp only [entryIssues, stand, List.map_append, kinds, List.append_assoc]

theorem of_mem_languageIssues {issue : Issue} (member : issue ∈ languageIssues document options) :
    issue.kind = .unknownLanguage ∧ issue.span = document.spans.root ∧ issue.index = none := by
  unfold languageIssues at member
  split at member
  · rw [List.mem_singleton.mp member]
    exact ⟨rfl, rfl, rfl⟩
  · split at member
    · rw [List.mem_singleton.mp member]
      exact ⟨rfl, rfl, rfl⟩
    · cases member

theorem of_mem_contextNameIssues {context : Context} {spans : ContextSpans} {issue : Issue}
    (member : issue ∈ contextNameIssues context spans) :
    issue.kind = .emptyContextName ∧ issue.span = spans.name ∧ issue.index = none := by
  unfold contextNameIssues at member
  split at member
  · rw [List.mem_singleton.mp member]
    exact ⟨rfl, rfl, rfl⟩
  · cases member

theorem exists_index_of_mem_messagesIssues {setting : Setting} {context : Context}
    {number place : Nat} {seen : List LocalKey} {messages : List (Message × MessageSpans)}
    {issue : Issue}
    (member : issue ∈ messagesIssues setting context number seen place messages) :
    ∃ later, issue.index = some ⟨number, later⟩ := by
  induction messages generalizing seen place with
  | nil => cases member
  | cons first rest ih =>
      rw [messagesIssues, List.mem_append, List.mem_append] at member
      rcases member with (member | member) | member
      · exact ⟨place, (of_mem_duplicateIssues member).2⟩
      · exact ⟨place, index_of_mem_messageIssues member⟩
      · exact ih member

theorem of_mem_contextsIssues {setting : Setting} {number : Nat}
    {numbered : List (Context × ContextSpans)} {issue : Issue}
    (member : issue ∈ contextsIssues setting number numbered) :
    ∃ place context, numbered[place]? = some context ∧
      (issue ∈ contextNameIssues context.1 context.2 ∨
        issue ∈ messagesIssues setting context.1 (number + place) [] 0
          (context.1.messages.zip context.2.messages)) := by
  induction numbered generalizing number with
  | nil => cases member
  | cons first rest ih =>
      rw [contextsIssues, List.mem_append, List.mem_append] at member
      rcases member with (member | member) | member
      · exact ⟨0, first, rfl, .inl member⟩
      · exact ⟨0, first, rfl, .inr member⟩
      · obtain ⟨place, context, found, about⟩ := ih member
        rw [Nat.add_assoc, Nat.add_comm 1] at about
        exact ⟨place + 1, context, found, about⟩

/-- Only the issues of a language and of the names of contexts are not about a
message. -/
theorem index_isSome_of_mem_documentIssues {issue : Issue}
    (member : issue ∈ documentIssues document options) (language : issue.kind ≠ .unknownLanguage)
    (name : issue.kind ≠ .emptyContextName) : issue.index.isSome = true := by
  rw [documentIssues, List.mem_append] at member
  rcases member with member | member
  · exact absurd (of_mem_languageIssues member).1 language
  · obtain ⟨place, context, -, member | member⟩ := of_mem_contextsIssues member
    · exact absurd (of_mem_contextNameIssues member).1 name
    · obtain ⟨later, about⟩ := exists_index_of_mem_messagesIssues member
      rw [about]
      rfl

end CatalogServer.Check
