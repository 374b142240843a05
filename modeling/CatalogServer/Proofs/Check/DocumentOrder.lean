import CatalogServer.Proofs.Catalog.Cursor
import CatalogServer.Proofs.Check.Duplicates

/-!
# Issues in document order

The issues of a document are listed as a reader comes by what they are about:
first the language of the catalog, then one context after the other, of each
its name and then its messages.  What is reported about a message stands inside
the element of the message.
-/

namespace CatalogServer

open Check Text

/-- An issue reports the name of the context with a number. -/
structure Issue.NamesContext (issue : Issue) (document : Document) (number : Nat) : Prop where
  kind : issue.kind = .emptyContextName
  index : issue.index = none
  span : (document.spans.contexts[number]?).map (·.name) = some issue.span

/-- Some message in front of the one at an index, in the same context, has the
same source and the same disambiguation. -/
def Catalog.Repeats (catalog : Catalog) (index : MessageIndex) : Prop :=
  ∃ context message, catalog.contexts[index.context]? = some context ∧
    context.messages[index.message]? = some message ∧
    ∃ earlier < index.message, ∃ other, context.messages[earlier]? = some other ∧
      other.source = message.source ∧ other.comment = message.comment

/-- Issues are listed in the order of a document and stay in its messages. -/
structure Document.ListsInOrder (document : Document) (issues : List Issue) : Prop where
  root : issues.Pairwise fun _ second => second.kind ≠ .unknownLanguage
  names (number : Nat) : issues.Pairwise fun first second => ∀ index,
    (first.NamesContext document number → second.index = some index → number ≤ index.context) ∧
      (second.NamesContext document number → first.index = some index → index.context < number)
  messages : issues.Pairwise fun first second => ∀ index other, first.index = some index →
    second.index = some other → index = other ∨ index.Before other
  unlocated : ∀ issue ∈ issues, issue.index = none →
    issue.kind = .unknownLanguage ∧ issue.span = document.spans.root ∨
      ∃ number, issue.NamesContext document number
  inside : ∀ issue ∈ issues, ∀ index, issue.index = some index →
    ∃ spans, document.spans.message? index = some spans ∧ issue.span.Within spans.element
  duplicates (index : MessageIndex) :
    (∃ issue ∈ issues, issue.kind = .duplicateMessage ∧ issue.index = some index) ↔
      document.catalog.Repeats index

/-- The places of a message that issues about it are reported at. -/
def MessageSpans.reported (spans : MessageSpans) : List ByteSpan :=
  [spans.element, spans.source, targetSpan spans, markSpan spans]

theorem MessageSpans.forall_mem_reported {spans : MessageSpans} {Holds : ByteSpan → Prop}
    (element : Holds spans.element) (source : Holds spans.source)
    (target : ∀ target, spans.target = some target →
      Holds target.element ∧ Holds target.startTag) :
    ∀ place ∈ spans.reported, Holds place := by
  have parts : Holds (targetSpan spans) ∧ Holds (markSpan spans) := by
    unfold targetSpan markSpan
    cases given : spans.target with
    | none => exact ⟨element, element⟩
    | some places => exact target places given
  simpa [reported] using ⟨element, source, parts.1, parts.2⟩

theorem MessageSpans.Arranged.within_of_mem_reported {spans : MessageSpans} {context : ByteSpan}
    {size : Nat} (arranged : spans.Arranged context size) :
    ∀ place ∈ spans.reported, place.Within spans.element ∧ place.Fits size := by
  refine MessageSpans.forall_mem_reported ⟨⟨Nat.le_refl _, Nat.le_refl _⟩, arranged.element⟩
    ⟨arranged.sourceInside, arranged.source⟩ fun target given => ?_
  obtain ⟨element, inside, startTag, starts, ends⟩ := arranged.target given
  exact ⟨⟨inside, element⟩, ⟨starts ▸ inside.1, ends.trans inside.2⟩, startTag⟩

namespace Check

variable {document : Document} {options : CheckOptions} {entry : MessageEntry} {issue : Issue}

theorem span_of_mem_targetIssue {kind : IssueKind} {spans : MessageSpans} {index : MessageIndex}
    {wording : Option String} (member : issue ∈ targetIssue kind spans index wording) :
    issue.span = targetSpan spans := by
  cases wording with
  | none => cases member
  | some wording => rw [List.mem_singleton.mp member]

theorem span_of_mem_stateIssues {message : Message} {spans : MessageSpans} {index : MessageIndex}
    (member : issue ∈ stateIssues message spans index) :
    issue.span = targetSpan spans ∨ issue.span = markSpan spans := by
  unfold stateIssues at member
  split at member
  · exact .inl (by rw [List.mem_singleton.mp member])
  · split at member
    · exact .inr (by rw [List.mem_singleton.mp member])
    · cases member

theorem span_of_mem_pluralIssues {setting : Setting} {message : Message} {spans : MessageSpans}
    {index : MessageIndex} (member : issue ∈ pluralIssues setting message spans index) :
    issue.span = targetSpan spans := by
  unfold pluralIssues at member
  split at member
  · cases member
  · rw [List.mem_singleton.mp member]

theorem span_of_mem_markerIssues {setting : Setting} {message : Message} {spans : MessageSpans}
    {index : MessageIndex} (member : issue ∈ markerIssues setting message spans index) :
    issue.span = targetSpan spans := by
  simp only [markerIssues] at member
  split at member
  · cases member
  · simp only [List.mem_append] at member
    rcases member with (member | member) | member
    all_goals exact span_of_mem_targetIssue member

theorem span_mem_reported_of_mem_messageIssues {setting : Setting} {message : Message}
    {spans : MessageSpans} {index : MessageIndex}
    (member : issue ∈ messageIssues setting message spans index) :
    issue.span ∈ spans.reported := by
  simp only [MessageSpans.reported, List.mem_cons, List.not_mem_nil, or_false]
  rw [messageIssues, List.mem_append] at member
  rcases member with source | member
  · unfold sourceIssues at source
    split at source
    · exact .inr (.inl (by rw [List.mem_singleton.mp source]))
    · cases source
  · split at member
    · simp only [List.mem_append] at member
      rcases member with (state | plural) | markers
      · exact .inr (.inr (span_of_mem_stateIssues state))
      · exact .inr (.inr (.inl (span_of_mem_pluralIssues plural)))
      · exact .inr (.inr (.inl (span_of_mem_markerIssues markers)))
    · exact .inl (by rw [List.mem_singleton.mp member])

theorem span_mem_reported {spans : MessageSpans}
    (stand : document.spans.message? entry.index = some spans)
    (member : issue ∈ entryIssues document options entry) : issue.span ∈ spans.reported := by
  rw [entryIssues, stand, List.mem_append] at member
  rcases member with duplicate | member
  · rw [duplicateIssues] at duplicate
    split at duplicate
    · rw [List.mem_singleton.mp duplicate]
      simp [MessageSpans.reported]
    · cases duplicate
  · exact span_mem_reported_of_mem_messageIssues member

/-- What is reported about a message is neither about the language nor about the
name of a context. -/
theorem kind_ne_of_mem_entryIssues {text : String} (read : Document.read text = .ok document)
    (entryMem : entry ∈ document.catalog.entries)
    (member : issue ∈ entryIssues document options entry) :
    issue.kind ≠ .unknownLanguage ∧ issue.kind ≠ .emptyContextName := by
  obtain ⟨first, quality, firstKinds, qualityKinds, -, kinds⟩ :=
    exists_map_kind_entryIssues read options entryMem
  have among := List.mem_map_of_mem (f := (·.kind)) member
  rw [kinds, List.mem_append, List.mem_append, Option.mem_toList] at among
  rcases among with (among | standing) | among
  · have allowed := firstKinds.subset among
    revert allowed
    cases issue.kind <;> decide
  · revert standing
    cases entry.message.standing <;> cases issue.kind <;> decide
  · have allowed := qualityKinds.subset among
    revert allowed
    cases issue.kind <;> decide

/-- An issue is about the context with a number: about its name or about one of
its messages. -/
def Concerns (document : Document) (issue : Issue) (number : Nat) : Prop :=
  issue.NamesContext document number ∨ ∃ place, issue.index = some ⟨number, place⟩

/-- An issue stands in front of another one, which is about a later context or
about a message of the same one. -/
def InOrder (document : Document) (first second : Issue) : Prop :=
  ∃ number later, Concerns document first number ∧ Concerns document second later ∧
    (number < later ∨ number = later ∧ second.index ≠ none)

theorem concerns_of_mem_contextNameIssues {number : Nat} {context : Context} {spans : ContextSpans}
    (stands : document.spans.contexts[number]? = some spans)
    (member : issue ∈ contextNameIssues context spans) : Concerns document issue number := by
  obtain ⟨kind, span, index⟩ := of_mem_contextNameIssues member
  exact .inl ⟨kind, index, by rw [stands, span]; rfl⟩

theorem concerns_of_mem_messagesIssues {setting : Setting} {context : Context} {number place : Nat}
    {seen : List LocalKey} {messages : List (Message × MessageSpans)}
    (member : issue ∈ messagesIssues setting context number seen place messages) :
    Concerns document issue number ∧ issue.index ≠ none := by
  obtain ⟨later, about⟩ := exists_index_of_mem_messagesIssues member
  exact ⟨.inr ⟨later, about⟩, by simp [about]⟩

theorem concerns_of_mem_contextsIssues {setting : Setting} {number : Nat}
    {contexts : List Context} {places : List ContextSpans}
    (stand : ∀ place, document.spans.contexts[number + place]? = places[place]?)
    (member : issue ∈ contextsIssues setting number (contexts.zip places)) :
    ∃ place, Concerns document issue (number + place) := by
  obtain ⟨place, ⟨context, spans⟩, found, member | member⟩ := of_mem_contextsIssues member
  · have placeAt := (stand place).trans (List.getElem?_zip_eq_some.mp found).2
    exact ⟨place, concerns_of_mem_contextNameIssues placeAt member⟩
  · exact ⟨place, (concerns_of_mem_messagesIssues member).1⟩

/-- The issues of contexts stand in the order of the contexts, and those of a
name in front of those of messages. -/
theorem pairwise_contextsIssues {setting : Setting} {number : Nat} {contexts : List Context}
    {places : List ContextSpans}
    (stand : ∀ place, document.spans.contexts[number + place]? = places[place]?) :
    (contextsIssues setting number (contexts.zip places)).Pairwise (InOrder document) := by
  induction contexts generalizing number places with
  | nil => exact .nil
  | cons context contexts ih =>
      cases places with
      | nil => exact .nil
      | cons spans places =>
          have standLater (place : Nat) :
              document.spans.contexts[number + 1 + place]? = places[place]? := by
            rw [Nat.add_assoc, Nat.add_comm 1, stand, List.getElem?_cons_succ]
          have name : (contextNameIssues context spans).Pairwise (InOrder document) := by
            unfold contextNameIssues
            split
            · exact List.pairwise_singleton _ _
            · exact .nil
          have messages : (messagesIssues setting context number [] 0
              (context.messages.zip spans.messages)).Pairwise (InOrder document) := by
            refine List.pairwise_of_forall_mem_list fun first firstMem second secondMem => ?_
            obtain ⟨secondConcerns, located⟩ := concerns_of_mem_messagesIssues secondMem
            exact ⟨number, number, (concerns_of_mem_messagesIssues firstMem).1, secondConcerns,
              .inr ⟨rfl, located⟩⟩
          rw [List.zip_cons_cons, contextsIssues, List.pairwise_append, List.pairwise_append]
          refine ⟨⟨name, messages, ?_⟩, ih standLater, ?_⟩
          · intro first firstMem second secondMem
            obtain ⟨secondConcerns, located⟩ := concerns_of_mem_messagesIssues secondMem
            exact ⟨number, number, concerns_of_mem_contextNameIssues (stand 0) firstMem,
              secondConcerns, .inr ⟨rfl, located⟩⟩
          · intro first firstMem second secondMem
            obtain ⟨place, later⟩ := concerns_of_mem_contextsIssues standLater secondMem
            have here : Concerns document first number := by
              rcases List.mem_append.mp firstMem with firstMem | firstMem
              · exact concerns_of_mem_contextNameIssues (stand 0) firstMem
              · exact (concerns_of_mem_messagesIssues firstMem).1
            exact ⟨number, number + 1 + place, here, later, .inl (by omega)⟩

theorem context_eq_of_concerns {number : Nat} {index : MessageIndex}
    (concerns : Concerns document issue number) (about : issue.index = some index) :
    index.context = number := by
  rcases concerns with names | ⟨place, located⟩
  · rw [names.index] at about
    cases about
  · cases located.symm.trans about
    rfl

theorem number_eq_of_concerns {text : String} (read : Document.read text = .ok document)
    {number other : Nat} (concerns : Concerns document issue number)
    (names : issue.NamesContext document other) : number = other := by
  rcases concerns with ⟨-, -, span⟩ | ⟨place, about⟩
  · obtain ⟨context, contextAt, spanEq⟩ := Option.map_eq_some_iff.mp span
    obtain ⟨otherContext, otherAt, otherSpan⟩ := Option.map_eq_some_iff.mp names.span
    have arranged := Reader.arranged_unmarked read
    have first := arranged.contexts context (List.mem_of_getElem? contextAt)
    have second := arranged.contexts otherContext (List.mem_of_getElem? otherAt)
    have apart {size : Nat} {first second : ContextSpans} (firstArranged : first.Arranged size)
        (secondArranged : second.Arranged size)
        (precedes : first.element.Precedes second.element) : first.name ≠ second.name := by
      intro same
      have inside := firstArranged.nameInside.2
      have behind := secondArranged.nameInside.1
      have filled := secondArranged.name.1
      rw [same] at inside
      simp only [ByteSpan.Precedes] at precedes
      omega
    rcases Nat.lt_trichotomy number other with before | same | before
    · exact absurd (spanEq.trans otherSpan.symm)
        (apart first second (rel_of_getElem? arranged.increasing before contextAt otherAt))
    · exact same
    · exact absurd (otherSpan.trans spanEq.symm)
        (apart second first (rel_of_getElem? arranged.increasing before otherAt contextAt))
  · rw [names.index] at about
    cases about

theorem kind_ne_of_mem_contextsIssues {text : String} (read : Document.read text = .ok document)
    (options : CheckOptions)
    (member : issue ∈ contextsIssues (settingOf document.catalog options) 0
      (document.catalog.contexts.zip document.spans.contexts)) :
    issue.kind ≠ .unknownLanguage := by
  have reported : issue ∈ documentIssues document options := List.mem_append_right _ member
  obtain ⟨place, context, -, member | member⟩ := of_mem_contextsIssues member
  · rw [(of_mem_contextNameIssues member).1]
    decide
  · obtain ⟨later, about⟩ := exists_index_of_mem_messagesIssues member
    obtain ⟨entry, entryMem, -, own⟩ := exists_entry_of_index read reported about
    exact (kind_ne_of_mem_entryIssues read entryMem own).1

theorem pairwise_root {text : String} (read : Document.read text = .ok document)
    (options : CheckOptions) :
    (documentIssues document options).Pairwise fun _ second => second.kind ≠ .unknownLanguage := by
  rw [documentIssues, List.pairwise_append]
  refine ⟨?_, ?_, fun _ _ _ => kind_ne_of_mem_contextsIssues read options⟩
  · unfold languageIssues
    split
    · exact List.pairwise_singleton _ _
    · split
      · exact List.pairwise_singleton _ _
      · exact .nil
  · exact List.pairwise_of_forall_mem_list fun _ _ _ => kind_ne_of_mem_contextsIssues read options

theorem pairwise_names {text : String} (read : Document.read text = .ok document)
    (options : CheckOptions) (number : Nat) :
    (documentIssues document options).Pairwise fun first second => ∀ index,
      (first.NamesContext document number → second.index = some index → number ≤ index.context) ∧
        (second.NamesContext document number → first.index = some index →
          index.context < number) := by
  have unaffected {first second : Issue} (member : first ∈ languageIssues document options)
      (index : MessageIndex) :
      (first.NamesContext document number → second.index = some index → number ≤ index.context) ∧
        (second.NamesContext document number → first.index = some index →
          index.context < number) := by
    obtain ⟨kind, -, unlocated⟩ := of_mem_languageIssues member
    constructor
    · intro names
      exact absurd (kind.symm.trans names.kind) (by decide)
    · intro _ about
      rw [unlocated] at about
      cases about
  rw [documentIssues, List.pairwise_append]
  refine ⟨List.pairwise_of_forall_mem_list fun _ member _ _ => unaffected member, ?_,
    fun _ member _ _ => unaffected member⟩
  refine (pairwise_contextsIssues fun place => by rw [Nat.zero_add]).imp ?_
  rintro first second ⟨here, later, firstConcerns, secondConcerns, order⟩ index
  constructor
  · intro names about
    rw [← number_eq_of_concerns read firstConcerns names,
      context_eq_of_concerns secondConcerns about]
    rcases order with before | ⟨same, -⟩
    · exact Nat.le_of_lt before
    · exact Nat.le_of_eq same
  · intro names about
    rw [← number_eq_of_concerns read secondConcerns names,
      context_eq_of_concerns firstConcerns about]
    rcases order with before | ⟨-, located⟩
    · exact before
    · exact absurd names.index located

theorem pairwise_messages {text : String} (read : Document.read text = .ok document)
    (options : CheckOptions) :
    (documentIssues document options).Pairwise fun first second =>
      ∀ index other, first.index = some index → second.index = some other →
        index = other ∨ index.Before other := by
  have located : ((documentIssues document options).filter (·.index.isSome)).Pairwise
      fun first second => ∀ index other, first.index = some index → second.index = some other →
        index = other ∨ index.Before other := by
    rw [located_documentIssues read, List.pairwise_flatMap]
    constructor
    · intro entry _
      refine List.pairwise_of_forall_mem_list fun first firstMem second secondMem => ?_
      rw [index_of_mem_entryIssues firstMem, index_of_mem_entryIssues secondMem]
      rintro index other ⟨⟩ ⟨⟩
      exact .inl rfl
    · refine document.catalog.pairwise_entries.imp fun before first firstMem second secondMem => ?_
      rw [index_of_mem_entryIssues firstMem, index_of_mem_entryIssues secondMem]
      rintro index other ⟨⟩ ⟨⟩
      exact .inr before
  refine (List.pairwise_filter.mp located).imp fun ordered index other about otherAbout => ?_
  exact ordered (by rw [about]; rfl) (by rw [otherAbout]; rfl) index other about otherAbout

theorem exists_duplicate_at_iff {text : String} (read : Document.read text = .ok document)
    (options : CheckOptions) (index : MessageIndex) :
    (∃ issue ∈ documentIssues document options, issue.kind = .duplicateMessage ∧
        issue.index = some index) ↔ document.catalog.Repeats index := by
  constructor
  · rintro ⟨issue, reported, duplicate, about⟩
    obtain ⟨entry, entryMem, rfl, own⟩ := exists_entry_of_index read reported about
    have seen := (exists_duplicate_iff read options entryMem).mp ⟨issue, own, duplicate⟩
    obtain ⟨earlier, inFront, other, otherAt, same⟩ := mem_earlierKeys_iff.mp seen
    obtain ⟨contextAt, messageAt⟩ := Catalog.mem_entries_iff.mp entryMem
    obtain ⟨source, comment⟩ := Prod.ext_iff.mp same
    exact ⟨entry.context, entry.message, contextAt, messageAt, earlier, inFront, other, otherAt,
      source, comment⟩
  · rintro ⟨context, message, contextAt, messageAt, earlier, inFront, other, otherAt, source,
      comment⟩
    have entryMem : ⟨index, context, message⟩ ∈ document.catalog.entries :=
      Catalog.mem_entries_iff.mpr ⟨contextAt, messageAt⟩
    have seen : message.localKey ∈ earlierKeys context index.message :=
      mem_earlierKeys_iff.mpr ⟨earlier, inFront, other, otherAt, Prod.ext source comment⟩
    obtain ⟨issue, own, duplicate⟩ := (exists_duplicate_iff read options entryMem).mpr seen
    obtain ⟨reported, about⟩ := (mem_entryIssues_iff read options entryMem).mp own
    exact ⟨issue, reported, duplicate, about⟩

theorem exists_spans_of_index {text : String} (read : Document.read text = .ok document)
    (reported : issue ∈ documentIssues document options) {index : MessageIndex}
    (about : issue.index = some index) :
    ∃ spans, document.spans.message? index = some spans ∧ issue.span ∈ spans.reported := by
  obtain ⟨entry, entryMem, rfl, own⟩ := exists_entry_of_index read reported about
  obtain ⟨-, spans, spansAt, -⟩ :=
    Document.exists_readsMessage read (Catalog.message?_of_mem_entries entryMem)
  exact ⟨spans, spansAt, span_mem_reported spansAt own⟩

end Check

theorem Document.exists_arranged_message {text : String} {document : Document}
    (read : Document.read text = .ok document) {index : MessageIndex} {spans : MessageSpans}
    (spansAt : document.spans.message? index = some spans) :
    ∃ (context : ContextSpans) (size : Nat), spans.Arranged context.element size := by
  obtain ⟨context, contextAt, messageAt⟩ := CatalogSpans.message?_eq_some_iff.mp spansAt
  have arranged := (Reader.arranged_unmarked read).contexts context
    (List.mem_of_getElem? contextAt)
  exact ⟨context, _, arranged.messages spans (List.mem_of_getElem? messageAt)⟩

/-- The issues of every document that is read are listed in its order. -/
theorem Document.listsInOrder_of_read {text : String} {document : Document}
    (read : Document.read text = .ok document) (options : CheckOptions) :
    document.ListsInOrder (documentIssues document options) where
  root := pairwise_root read options
  names := pairwise_names read options
  messages := pairwise_messages read options
  unlocated := by
    intro issue reported index
    rw [documentIssues, List.mem_append] at reported
    rcases reported with reported | reported
    · obtain ⟨kind, span, -⟩ := of_mem_languageIssues reported
      exact .inl ⟨kind, span⟩
    · obtain ⟨place, names | ⟨message, about⟩⟩ :=
        concerns_of_mem_contextsIssues (fun place => by rw [Nat.zero_add]) reported
      · exact .inr ⟨_, names⟩
      · rw [index] at about
        cases about
  inside := by
    intro issue reported index about
    obtain ⟨spans, spansAt, place⟩ := exists_spans_of_index read reported about
    obtain ⟨context, size, arranged⟩ := exists_arranged_message read spansAt
    exact ⟨spans, spansAt, (arranged.within_of_mem_reported _ place).1⟩
  duplicates := exists_duplicate_at_iff read options

/-- A document with a context without a name behind another one, and in it a
message twice. -/
def disorderedText : String :=
  "<TS><context><name>n</name><message><source/></message></context><context>" ++
    "<message><source>s</source></message><message><source>s</source></message><name/>" ++
    "</context></TS>"

theorem listsInOrder_disorderedText :
    ∃ document, Document.read disorderedText = .ok document ∧
      (documentIssues document {}).map (·.kind) = [.unknownLanguage, .emptySource, .missingTarget,
        .emptyContextName, .missingTarget, .duplicateMessage, .missingTarget] ∧
      document.ListsInOrder (documentIssues document {}) := by
  have found : (Document.read disorderedText).toOption.map (fun document =>
      (documentIssues document {}).map (·.kind)) =
        some [.unknownLanguage, .emptySource, .missingTarget, .emptyContextName, .missingTarget,
          .duplicateMessage, .missingTarget] := by
    unfold Document.read Xml.events disorderedText
    simp only [String.toList_append]
    repeat rw [String.toList_ofList]
    decide +kernel
  obtain ⟨document, read, kinds⟩ := Option.map_eq_some_iff.mp found
  rw [Except.toOption_eq_some_iff] at read
  exact ⟨document, read, kinds, Document.listsInOrder_of_read read {}⟩

end CatalogServer
