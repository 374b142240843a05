import CatalogServer.Proofs.Catalog.Contexts
import CatalogServer.Proofs.Catalog.Retention

/-!
# Which catalogs survive writing and reading

A catalog is representable when writing it and reading the text again gives
the same catalog.  The equations for written elements say that this takes no
more than names and values that can be written and targets whose shape the
reader recognises.  It also takes no less: whatever else is read instead of a
part that cannot be written, what was read stays, so that another catalog
comes out or none.
-/

namespace CatalogServer.Reader

open Text Xml

/-- The message stands behind the messages read so far, in the context behind
the contexts read so far. -/
def InContext.Awaits (place : InContext) (catalog : Catalog) (messages : List Message) : Prop :=
  ∃ context later, catalog.contexts = place.document.catalog.contexts ++ context :: later ∧
    context.messages = place.context.context.messages ++ messages

theorem context_eq_of_leads {contexts later : List Context} {context other : Context}
    (leads : contexts ++ [other] <+: contexts ++ context :: later) : other = context := by
  rw [List.prefix_append_right_inj, List.cons_prefix_cons] at leads
  exact leads.1

theorem message_eq_of_leads {messages later : List Message} {message other : Message}
    (leads : messages ++ [other] <+: messages ++ message :: later) : other = message := by
  rw [List.prefix_append_right_inj, List.cons_prefix_cons] at leads
  exact leads.1

/-- The additional data at hand stands in the message that was awaited. -/
theorem extras_of_leadsTo {place : InMessage} {extras : List Extra} {catalog : Catalog}
    {message : Message} {later : List Message} (leads : place.LeadsTo extras catalog)
    (awaits : place.toInContext.Awaits catalog (message :: later)) : extras <+: message.extras := by
  obtain ⟨context, laterContexts, contexts, messages⟩ := awaits
  obtain ⟨other, otherMessage, otherContexts, otherMessages, otherExtras, -⟩ := leads
  rw [contexts] at otherContexts
  rw [context_eq_of_leads otherContexts, messages] at otherMessages
  rw [← message_eq_of_leads otherMessages]
  exact otherExtras

/-- An element of additional data whose name is not plain adds something
else, if it is read at all. -/
theorem leadsTo_of_odd_extra {place : InMessage} {extra : Extra}
    (odd : isPlainName extra.name.toList = false) {opened : List (List Char)}
    {rest : List Char} {catalog : Catalog}
    (read : catalogFrom (.message place) opened
      ((Writer.extraElement extra).toList ++ rest) = some catalog) :
    ∃ name value, name ≠ extra.name ∧
      place.LeadsTo (place.message.message.extras ++ [⟨name, value⟩]) catalog := by
  obtain ⟨tail, layout⟩ : ∃ tail, (Writer.extraElement extra).toList ++ rest =
      Writer.messageIndent.toList ++
        '<' :: ("extra-".toList ++ (extra.name.toList ++ '>' :: tail)) := by
    refine ⟨extra.value.toList.flatMap Escape.contentChar ++
      '<' :: '/' :: (("extra-" ++ extra.name).toList ++ '>' :: '\n' :: rest), ?_⟩
    simp [Writer.extraElement, textElement_eq, leafElement]
  have begins : isElementName "extra-".toList := by decide
  rw [layout, catalogFrom_blanks (skipsBlanks_message place) blank_messageIndent] at read
  rcases scanMarkup_of_not_isPlainName begins odd tail with
    fault | ⟨tag, event, taken, after, other, markup, kind, named, differs⟩
  · rw [catalogFrom_of_fault (scan_of_fault fault 0 opened)] at read
    simp at read
  · have parts := parts_scanMarkup (by rw [markup]; rfl)
    rw [parts] at markup read
    have takes : Takes opened ('<' :: taken) event (openedBehind opened event) after :=
      .markup markup
    have name : tag.name = "extra-" ++ String.ofList other := by
      rw [Tag.name, named, String.ofList_append]
      rfl
    change catalogFrom _ _ ('<' :: taken ++ after) = _ at read
    rw [catalogFrom_of_takes takes, Option.bind_eq_some_iff] at read
    obtain ⟨next, step, read⟩ := read
    have leads := leadsTo_of_catalogFrom read
    have nameDiffers : String.ofList other ≠ extra.name := by
      intro same
      apply differs
      rw [← same, String.toList_ofList]
    refine ⟨String.ofList other, ?_⟩
    rcases kind with rfl | rfl
    · simp only [State.step, messageStep, name, beq_iff_eq, extra_ne "location" (by decide),
        extra_ne "translation" (by decide), if_false, Except.toOption_ok,
        Option.some.injEq] at step
      subst step
      obtain ⟨value, leads⟩ := leads
      rw [extraOf_extra] at leads
      exact ⟨value, nameDiffers, leads⟩
    · simp only [State.step, messageStep, name, beq_iff_eq, extra_ne "location" (by decide),
        extra_ne "translation" (by decide), extra_ne "source" (by decide), if_false,
        setText, storeText_extra] at step
      cases step
      exact ⟨"", nameDiffers, leads⟩

theorem plain_of_catalogFrom {extras : List Extra} {place : InMessage}
    {opened : List (List Char)} {rest : List Char} {catalog : Catalog} {message : Message}
    {later : List Message}
    (read : catalogFrom (.message place) opened (messageTail extras ++ rest) = some catalog)
    (awaits : place.toInContext.Awaits catalog (message :: later))
    (whole : message.extras = place.message.message.extras ++ extras) :
    ∀ extra ∈ extras, isPlainName extra.name.toList := by
  induction extras generalizing place with
  | nil => simp
  | cons extra extras ih =>
      have layout : messageTail (extra :: extras) ++ rest =
          (Writer.extraElement extra).toList ++ (messageTail extras ++ rest) := by
        simp [messageTail]
      rw [layout] at read
      cases plain : isPlainName extra.name.toList with
      | false =>
          obtain ⟨name, value, differs, leads⟩ := leadsTo_of_odd_extra plain read
          have found := extras_of_leadsTo leads awaits
          rw [whole, List.prefix_append_right_inj, List.cons_prefix_cons] at found
          rw [← found.1] at differs
          exact absurd rfl differs
      | true =>
          have single : ∀ other ∈ [extra], isPlainName other.name.toList := by
            simpa using plain
          have first := catalogFrom_extras single place opened (messageTail extras ++ rest)
          rw [List.flatMap_singleton] at first
          rw [first] at read
          have others := ih read awaits (by simp [whole])
          intro other member
          rcases List.mem_cons.mp member with rfl | member
          · exact plain
          · exact others other member

/-- A message that is written and read back as it is. -/
structure MessageFaithful (message : Message) : Prop extends MessageWritable message where
  shape : rereadTarget message.numerus message.target = message.target

theorem rereadMessage_of_shape {message : Message}
    (shape : rereadTarget message.numerus message.target = message.target) :
    rereadMessage message = message := by
  rw [rereadMessage, shape]

theorem faithful_of_catalogFrom {message : Message} {place : InContext}
    {opened : List (List Char)} {rest : List Char} {catalog : Catalog} {later : List Message}
    (read : catalogFrom (.context place) opened
      ((Writer.messageElement message).toList ++ rest) = some catalog)
    (awaits : place.Awaits catalog (message :: later)) : MessageFaithful message := by
  by_cases nullFree : MessageNullFree message
  · have toExtras := read
    rw [catalogFrom_toExtras, if_pos nullFree] at toExtras
    have plain := plain_of_catalogFrom toExtras awaits rfl
    rw [catalogFrom_messageElement nullFree plain] at read
    obtain ⟨other, contexts, messages⟩ := leadsTo_of_catalogFrom read
    obtain ⟨context, laterContexts, catalogContexts, contextMessages⟩ := awaits
    rw [catalogContexts] at contexts
    have same := context_eq_of_leads contexts
    rw [same, contextMessages] at messages
    have reread := message_eq_of_leads messages
    exact ⟨⟨nullFree, plain⟩, congrArg Message.target reread⟩
  · rw [catalogFrom_toExtras, if_neg nullFree] at read
    simp at read

theorem faithful_of_messages {messages : List Message} {place : InContext}
    {opened : List (List Char)} {rest : List Char} {catalog : Catalog}
    (read : catalogFrom (.context place) opened (contextTail messages ++ rest) = some catalog)
    (awaits : place.Awaits catalog messages) :
    ∀ message ∈ messages, MessageFaithful message := by
  induction messages generalizing place with
  | nil => simp
  | cons message messages ih =>
      have layout : contextTail (message :: messages) ++ rest =
          (Writer.messageElement message).toList ++ (contextTail messages ++ rest) := by
        simp [contextTail]
      rw [layout] at read
      have first := faithful_of_catalogFrom read awaits
      rw [catalogFrom_messageElement first.nullFree first.plain,
        rereadMessage_of_shape first.shape] at read
      obtain ⟨context, later, contexts, contextMessages⟩ := awaits
      have others := ih read ⟨context, later, contexts, by simp [contextMessages, addMessage]⟩
      intro other member
      rcases List.mem_cons.mp member with rfl | member
      · exact first
      · exact others other member

theorem faithful_of_contexts {contexts : List Context} {document : Document}
    {opened : List (List Char)} {catalog : Catalog}
    (read : catalogFrom (.root document) opened (rootTail contexts) = some catalog)
    (awaits : catalog.contexts = document.catalog.contexts ++ contexts) :
    ∀ context ∈ contexts, ∀ message ∈ context.messages, MessageFaithful message := by
  induction contexts generalizing document with
  | nil => simp
  | cons context contexts ih =>
      have layout : rootTail (context :: contexts) =
          (Writer.contextElement context).toList ++ rootTail contexts := by
        simp [rootTail]
      rw [layout] at read
      have toMessages := read
      rw [catalogFrom_toMessages] at toMessages
      have first : ∀ message ∈ context.messages, MessageFaithful message :=
        faithful_of_messages toMessages ⟨context, contexts, awaits, rfl⟩
      have reread : rereadContext context = context := by
        have same : context.messages.map rereadMessage = context.messages :=
          (List.map_congr_left fun message member =>
            rereadMessage_of_shape (first message member).shape).trans (List.map_id' _)
        rw [rereadContext, same]
      rw [catalogFrom_contextElement (fun message member => (first message member).toMessageWritable),
        reread] at read
      have others := ih read (by simp [awaits, addContext])
      intro other member
      rcases List.mem_cons.mp member with rfl | member
      · exact first
      · exact others other member

/-- A written catalog is read back as it is exactly when its attributes hold
no null character and all its messages are faithful. -/
theorem catalogFrom_write_eq_iff (catalog : Catalog) :
    catalogFrom .prolog [] (Writer.write catalog).toList = some catalog ↔
      (rootGiven catalog).NullFree ∧
        ∀ context ∈ catalog.contexts, ∀ message ∈ context.messages, MessageFaithful message := by
  constructor
  · intro read
    rw [catalogFrom_toContexts] at read
    by_cases nullFree : (rootGiven catalog).NullFree
    · rw [if_pos nullFree] at read
      exact ⟨nullFree, faithful_of_contexts read rfl⟩
    · rw [if_neg nullFree] at read
      simp at read
  · rintro ⟨nullFree, faithful⟩
    have reread : catalog.contexts.map rereadContext = catalog.contexts := by
      refine (List.map_congr_left fun context member => ?_).trans (List.map_id' _)
      have messages : context.messages.map rereadMessage = context.messages :=
        (List.map_congr_left fun message inside =>
          rereadMessage_of_shape (faithful context member message inside).shape).trans
          (List.map_id' _)
      rw [rereadContext, messages]
    rw [catalogFrom_write nullFree fun context member message inside =>
      (faithful context member message inside).toMessageWritable, rereadCatalog, reread]

end CatalogServer.Reader

namespace CatalogServer

open Text Xml Reader

/-- The values of the attributes that a message is written with. -/
def Message.attributeValues (message : Message) : List String :=
  message.id.toList ++ message.locations.flatMap fun location =>
    location.filename.toList ++ location.line.toList

namespace Catalog

def messages (catalog : Catalog) : List Message :=
  catalog.contexts.flatMap (·.messages)

/-- The values of the attributes that a catalog is written with. -/
def attributeValues (catalog : Catalog) : List String :=
  catalog.version.toList ++ catalog.language.toList ++ catalog.sourceLanguage.toList ++
    catalog.messages.flatMap (·.attributeValues)

end Catalog

/-- The reader recognises the shape in which the target of a message is
written: a message with numerus needs plural forms, length variants or a
visible character, a message without numerus must not have plural forms of
which there are none. -/
structure Message.Recognisable (message : Message) : Prop where
  /-- The plain text of a message with numerus shows. -/
  visible : message.numerus = true → ∀ text, message.target.text = .single (.plain text) →
    text.toList.any isVisible = true
  /-- A message without numerus has plural forms, or one form. -/
  formed : message.numerus = false → message.target.text ≠ .plural []

theorem rereadTarget_eq_iff (message : Message) :
    rereadTarget message.numerus message.target = message.target ↔ message.Recognisable := by
  have shape : rereadTarget message.numerus message.target = message.target ↔
      rereadText message.numerus message.target.text = message.target.text := by
    obtain ⟨status, text⟩ := message.target
    simp [rereadTarget]
  rw [shape]
  constructor
  · intro same
    constructor
    · intro numerus text single
      rw [single, numerus] at same
      by_contra hidden
      rw [Bool.not_eq_true] at hidden
      simp only [rereadText, hidden, Bool.not_false, Bool.and_self, if_true, reduceCtorEq] at same
    · intro single plural
      rw [plural, single] at same
      simp [rereadText] at same
  · rintro ⟨visible, formed⟩
    cases text : message.target.text with
    | single form =>
        cases form with
        | plain text' =>
            cases numerus : message.numerus with
            | false => rfl
            | true => simp [rereadText, visible numerus text' text]
        | lengthVariants texts => rfl
    | plural forms =>
        cases forms with
        | nil =>
            cases numerus : message.numerus with
            | false => exact absurd text (formed numerus)
            | true => rfl
        | cons form forms => rfl

theorem nullFree_iff (given : Given) :
    given.NullFree ↔ ∀ value ∈ given.filterMap (·.2), '\x00' ∉ value.toList := by
  constructor
  · intro nullFree value member
    obtain ⟨⟨name, shown⟩, inside, rfl⟩ := List.mem_filterMap.mp member
    exact nullFree ⟨name, value⟩ (Given.mem_present.mpr inside)
  · intro values attr member
    exact values attr.value (List.mem_filterMap.mpr ⟨_, Given.mem_present.mp member, rfl⟩)

theorem messageNullFree_iff (message : Message) :
    MessageNullFree message ↔ ∀ value ∈ message.attributeValues, '\x00' ∉ value.toList := by
  have id : (messageGiven message).NullFree ↔
      ∀ value ∈ message.id.toList, '\x00' ∉ value.toList := by
    have values : (messageGiven message).filterMap (·.2) =
        message.id.toList ++ if message.numerus then ["yes"] else [] := by
      unfold messageGiven
      cases message.id <;> cases message.numerus <;> rfl
    have yes : ∀ value ∈ (if message.numerus then ["yes"] else []), '\x00' ∉ value.toList := by
      cases message.numerus <;> decide
    rw [nullFree_iff, values]
    constructor
    · intro all value member
      exact all value (List.mem_append_left _ member)
    · intro ids value member
      rcases List.mem_append.mp member with member | member
      · exact ids value member
      · exact yes value member
  have location (location : CodeLocation) : (locationGiven location).NullFree ↔
      ∀ value ∈ location.filename.toList ++ location.line.toList, '\x00' ∉ value.toList := by
    rw [nullFree_iff]
    obtain ⟨filename, line⟩ := location
    cases filename <;> cases line <;> rfl
  simp only [MessageNullFree, id, location, Message.attributeValues, List.mem_append,
    List.mem_flatMap]
  constructor
  · rintro ⟨ids, locations⟩ value (member | ⟨location, inside, member⟩)
    · exact ids value member
    · exact locations location inside value member
  · intro values
    refine ⟨fun value member => values value (.inl member), ?_⟩
    intro location inside value member
    exact values value (.inr ⟨location, inside, member⟩)

theorem rootNullFree_iff (catalog : Catalog) :
    (rootGiven catalog).NullFree ↔
      ∀ value ∈ catalog.version.toList ++ catalog.language.toList ++
        catalog.sourceLanguage.toList, '\x00' ∉ value.toList := by
  rw [nullFree_iff]
  obtain ⟨version, language, source, contexts⟩ := catalog
  cases version <;> cases language <;> cases source <;> rfl

/-- A written catalog is read back as it is exactly when no attribute holds
the null character, the names of additional data are plain, and the shapes of
targets are recognised. -/
theorem read_write_eq_iff (catalog : Catalog) :
    (∃ document, Document.read (Writer.write catalog) = .ok document ∧
        document.catalog = catalog) ↔
      (∀ value ∈ catalog.attributeValues, '\x00' ∉ value.toList) ∧
        ∀ message ∈ catalog.messages,
          (∀ extra ∈ message.extras, isPlainName extra.name.toList) ∧ message.Recognisable := by
  rw [← Except.toOption_map_eq_some_iff, catalog_read_write, catalogFrom_write_eq_iff, rootNullFree_iff]
  constructor
  · rintro ⟨root, faithful⟩
    have each : ∀ message ∈ catalog.messages, MessageFaithful message := by
      intro message member
      obtain ⟨context, inside, member⟩ := List.mem_flatMap.mp member
      exact faithful context inside message member
    refine ⟨fun value member => ?_, fun message member => ⟨(each message member).plain,
      (rereadTarget_eq_iff message).mp (each message member).shape⟩⟩
    rcases List.mem_append.mp member with member | member
    · exact root value member
    · obtain ⟨message, inside, member⟩ := List.mem_flatMap.mp member
      exact (messageNullFree_iff message).mp (each message inside).nullFree value member
  · rintro ⟨values, messages⟩
    refine ⟨fun value member => values value (List.mem_append_left _ member), ?_⟩
    intro context inside message member
    have listed : message ∈ catalog.messages := List.mem_flatMap.mpr ⟨context, inside, member⟩
    obtain ⟨plain, recognisable⟩ := messages message listed
    refine ⟨⟨(messageNullFree_iff message).mpr ?_, plain⟩,
      (rereadTarget_eq_iff message).mpr recognisable⟩
    intro value given
    exact values value (List.mem_append_right _ (List.mem_flatMap.mpr ⟨message, listed, given⟩))

def isNameChar (c : Char) : Bool :=
  c.isAlphanum || c == '-' || c == '_' || c == '.'

theorem isPlainName_of_isNameChar {name : List Char} (ordinary : ∀ c ∈ name, isNameChar c) :
    isPlainName name := by
  have unmarked : ∀ c ∈ name,
      c ≠ '>' ∧ c ≠ '"' ∧ c ≠ '\'' ∧ c ≠ '/' ∧ isMarkupBlank c = false := by
    intro c member
    have word := ordinary c member
    refine ⟨?_, ?_, ?_, ?_, ?_⟩
    · rintro rfl
      exact absurd word (by decide)
    · rintro rfl
      exact absurd word (by decide)
    · rintro rfl
      exact absurd word (by decide)
    · rintro rfl
      exact absurd word (by decide)
    · by_contra blank
      simp only [isMarkupBlank, Bool.not_eq_false, Bool.or_eq_true, beq_iff_eq] at blank
      rcases blank with ((rfl | rfl) | rfl) | rfl <;> exact absurd word (by decide)
  have closed : isClosed name := by
    clear ordinary
    induction name with
    | nil => decide
    | cons c name ih =>
        have first := unmarked c List.mem_cons_self
        have others := ih fun d member => unmarked d (List.mem_cons_of_mem c member)
        simp only [isClosed, beq_iff_eq] at others ⊢
        simp [quoteBehind, first, others]
  simp only [isPlainName, Bool.and_eq_true, List.all_eq_true, bne_iff_ne, closed, true_and]
  refine ⟨fun c member => by simp [unmarked c member], fun slash => ?_⟩
  exact (unmarked _ (List.mem_of_getLast? slash)).2.2.2.1 rfl

/-- Every catalog with ordinary names and shapes is read back from its text:
attributes without the null character, names of additional data that are
words, plural forms in messages without numerus only where there are some,
and in messages with numerus no plain text that is blank.  All other texts
are arbitrary. -/
theorem read_write_of_ordinary (catalog : Catalog)
    (nullFree : ∀ value ∈ catalog.attributeValues, '\x00' ∉ value.toList)
    (ordinary : ∀ message ∈ catalog.messages, ∀ extra ∈ message.extras,
      ∀ c ∈ extra.name.toList, isNameChar c)
    (formed : ∀ message ∈ catalog.messages, message.numerus = false →
      message.target.text ≠ .plural [])
    (unblank : ∀ message ∈ catalog.messages, message.numerus = true → ∀ text,
      message.target.text = .single (.plain text) → isBlankText text.toList = false) :
    ∃ document, Document.read (Writer.write catalog) = .ok document ∧
      document.catalog = catalog := by
  rw [read_write_eq_iff]
  refine ⟨nullFree, fun message member => ⟨fun extra inside => ?_, ?_, formed message member⟩⟩
  · exact isPlainName_of_isNameChar (ordinary message member extra inside)
  · intro numerus text single
    have blank := unblank message member numerus text single
    simp only [isBlankText, List.all_eq_false, Bool.not_eq_true] at blank
    obtain ⟨c, inside, visible⟩ := blank
    exact List.any_eq_true.mpr ⟨c, inside, by simp [isVisible, visible]⟩

/-- A catalog with one message of each kind. -/
def sampleCatalog : Catalog :=
  { version := some "2.1"
    language := some "de_DE"
    contexts := [
      { name := "Main & <window>"
        messages := [
          { id := some "tab\t\"quoted\""
            locations := [⟨some "main.cpp", some "+12"⟩]
            source := "\x01 bell"
            comment := some ""
            target := ⟨.unfinished, .single (.lengthVariants ["lang", "kurz", ""])⟩
            extras := [⟨"po-flags", "\n c-format "⟩] },
          { numerus := true
            source := "%n file(s)"
            target := ⟨.finished, .plural [.plain "\x00", .lengthVariants []]⟩ },
          { numerus := true
            source := "%n"
            target := ⟨.vanished, .single (.plain " %n ")⟩ }] }] }

theorem read_write_sampleCatalog :
    ∃ document, Document.read (Writer.write sampleCatalog) = .ok document ∧
      document.catalog = sampleCatalog := by
  have names : ∀ message ∈ sampleCatalog.messages, ∀ extra ∈ message.extras,
      extra.name.toList.all isNameChar = true := by
    decide
  apply read_write_of_ordinary sampleCatalog
  · decide
  · intro message member extra inside
    exact List.all_eq_true.mp (names message member extra inside)
  · decide
  · intro message member numerus text single
    simp only [Catalog.messages, sampleCatalog, List.flatMap_cons, List.flatMap_nil,
      List.append_nil, List.mem_cons, List.not_mem_nil, or_false] at member
    rcases member with rfl | rfl | rfl
    · exact absurd numerus (by decide)
    · simp at single
    · simp only [TargetText.single.injEq, FormText.plain.injEq] at single
      subst single
      decide

end CatalogServer
