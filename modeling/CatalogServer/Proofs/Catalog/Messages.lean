import CatalogServer.Proofs.Catalog.Targets

/-!
# Written messages are read back

The parts of a message are written in a fixed order, the absent ones left
out.  Each part is read back on its own, whatever follows it; together they
give the message again, but for the shape of its target.
-/

namespace CatalogServer.Reader

open Text Xml

theorem gathers_messageText (place : InMessage) (element : String) :
    Gathers fun taken => .messageText place element 0 taken.text :=
  gathers_gather (.messageText place element 0 []) rfl

theorem textElement_eq (indent name text : String) :
    (Writer.textElement indent name text).toList =
      indent.toList ++ leafElement name text.toList ++ ['\n'] := by
  simp [Writer.textElement, leafElement, Escape.content]

theorem blank_messageIndent : Writer.messageIndent.toList.all isAsciiBlank := by
  decide

theorem catalogFrom_lineEnd {state : State} (skips : SkipsBlanks state)
    (opened : List (List Char)) (rest : List Char) :
    catalogFrom state opened ('\n' :: rest) = catalogFrom state opened rest :=
  catalogFrom_blank skips (by decide) opened rest

theorem catalogFrom_textElement {element : String} (isElement : isElementName element.toList)
    (noLocation : element ≠ "location") (noTarget : element ≠ "translation")
    {place behind : InMessage} {text : String}
    (closes : (closeMessageText place element 0 text 0).toOption = some (.message behind))
    (opened : List (List Char)) (rest : List Char) :
    catalogFrom (.message place) opened
        ((Writer.textElement Writer.messageIndent element text).toList ++ rest) =
      catalogFrom (.message behind) opened rest := by
  have plain : isPlainName element.toList := by
    simp only [isElementName, Bool.and_eq_true] at isElement
    exact isElement.1
  have enters : ((State.message place).step
      ⟨default, .opening ⟨element.toList⟩⟩).toOption =
        some (.messageText place element 0 []) := by
    simp only [State.step, messageStep, name_of_isPlainName element plain, beq_iff_eq, noLocation,
      noTarget, if_false]
    rfl
  have leaves : ((State.messageText place element 0 text.toList).step
      ⟨default, .closing⟩).toOption = some (.message behind) := by
    rw [← closes, State.step, messageTextStep, String.ofList_toList]
    rfl
  rw [textElement_eq, List.append_assoc, List.append_assoc,
    catalogFrom_blanks (skipsBlanks_message place) blank_messageIndent,
    catalogFrom_leafElement isElement enters (gathers_messageText place element)]
  simp only [writtenPiece, leaves, Option.bind_some]
  exact catalogFrom_lineEnd (skipsBlanks_message behind) opened rest

/-- A message that is read anew in its place. -/
def InMessage.withMessage (place : InMessage) (message : Message) : InMessage :=
  { place with message := { place.message with message := message } }

@[simp]
theorem InMessage.withMessage_withMessage (place : InMessage) (first second : Message) :
    (place.withMessage first).withMessage second = place.withMessage second :=
  rfl

@[simp]
theorem InMessage.message_withMessage (place : InMessage) (message : Message) :
    (place.withMessage message).message.message = message :=
  rfl

theorem catalogFrom_optionalElement (element : String) (assign : Option String → Message)
    (isElement : isElementName element.toList)
    (other : element ≠ "location" ∧ element ≠ "translation" ∧ element ≠ "source")
    (stores : ∀ text, storeText (assign none) element text 0 = .ok (assign (some text)))
    (place : InMessage) (value : Option String) (opened : List (List Char))
    (rest : List Char) :
    catalogFrom (.message (place.withMessage (assign none))) opened
        ((Writer.optionalElement Writer.messageIndent element value).toList ++ rest) =
      catalogFrom (.message (place.withMessage (assign value))) opened rest := by
  cases value with
  | none => rfl
  | some text =>
      apply catalogFrom_textElement isElement other.1 other.2.1
      simp only [closeMessageText, beq_iff_eq, other.2.2, if_false, setText,
        InMessage.message_withMessage, stores]
      rfl

theorem isElementName_extra {name : String} (plain : isPlainName name.toList) :
    isElementName ("extra-" ++ name).toList := by
  rw [String.toList_append, isElementName, Bool.and_eq_true]
  exact ⟨isPlainName_append (by decide) plain, startsElement_append (by decide) _⟩

theorem catalogFrom_extras {extras : List Extra}
    (plain : ∀ extra ∈ extras, isPlainName extra.name.toList) (place : InMessage)
    (opened : List (List Char)) (rest : List Char) :
    catalogFrom (.message place) opened
        (extras.flatMap (fun extra => (Writer.extraElement extra).toList) ++ rest) =
      catalogFrom (.message (place.withMessage { place.message.message with
        extras := place.message.message.extras ++ extras })) opened rest := by
  induction extras generalizing place with
  | nil =>
      rw [List.flatMap_nil, List.nil_append, List.append_nil]
      rfl
  | cons extra extras ih =>
      have first := plain extra List.mem_cons_self
      have others := ih fun other member => plain other (List.mem_cons_of_mem extra member)
      have closes : (closeMessageText place ("extra-" ++ extra.name) 0 extra.value 0).toOption =
          some (.message (place.withMessage { place.message.message with
            extras := place.message.message.extras ++ [extra] })) := by
        simp only [closeMessageText, beq_iff_eq, extra_ne "source" (by decide),
          if_false, setText, storeText_extra]
        rfl
      rw [List.flatMap_cons, List.append_assoc, Writer.extraElement,
        catalogFrom_textElement (isElementName_extra first) (extra_ne _ (by decide) _)
          (extra_ne _ (by decide) _) closes, others]
      simp

def locationGiven (location : CodeLocation) : Given :=
  [("filename", location.filename), ("line", location.line)]

theorem named_locationGiven (location : CodeLocation) : (locationGiven location).Named := by
  constructor
  · simp only [locationGiven, List.mem_cons, List.not_mem_nil, or_false, forall_eq_or_imp,
      forall_eq]
    decide
  · simp [locationGiven]

theorem locationElement_eq (location : CodeLocation) :
    (Writer.locationElement location).toList =
      Writer.messageIndent.toList ++
        '<' :: ("location".toList ++ (locationGiven location).raws.flatMap (·.written) ++
          '/' :: '>' :: ['\n']) := by
  have attributes := Given.written_append [("filename", location.filename)]
    [("line", location.line)]
  rw [List.singleton_append] at attributes
  simp only [Writer.locationElement, String.toList_append, locationGiven, attributes,
    Given.written_single, List.append_assoc]
  rfl

theorem step_location (place : InMessage) (location : CodeLocation) :
    ((State.message place).step ⟨default, .selfClosing (writtenTag "location".toList
      (locationGiven location).raws)⟩).toOption =
      if (locationGiven location).NullFree then some (.message (addLocation place location))
      else none := by
  have plain : isPlainName "location".toList := by decide
  have name := name_writtenTag plain (locationGiven location).raws
  have named := named_locationGiven location
  have filename := Given.attribute_present named "filename" List.mem_cons_self
  have line := Given.attribute_present named "line"
    (List.mem_cons_of_mem _ (List.mem_singleton.mpr rfl))
  simp only [State.step, messageStep, name, beq_self_eq_true, if_true, locationAt,
    Except.toOption_map, Except.toOption_bind, toOption_attributesAt,
    Given.toOption_attributes named plain]
  split
  · simp only [Option.bind_some, Except.toOption_ok, Option.map_some, filename, line]
  · rfl

theorem catalogFrom_locations (locations : List CodeLocation) (place : InMessage)
    (opened : List (List Char)) (rest : List Char) :
    catalogFrom (.message place) opened
        (locations.flatMap (fun location => (Writer.locationElement location).toList) ++ rest) =
      if ∀ location ∈ locations, (locationGiven location).NullFree then
        catalogFrom (.message (place.withMessage { place.message.message with
          locations := place.message.message.locations ++ locations })) opened rest
      else none := by
  induction locations generalizing place with
  | nil =>
      rw [if_pos (by simp), List.flatMap_nil, List.nil_append, List.append_nil]
      rfl
  | cons location locations ih =>
      have layout : ((location :: locations).flatMap fun location =>
          (Writer.locationElement location).toList) ++ rest =
          Writer.messageIndent.toList ++
            '<' :: ("location".toList ++ (locationGiven location).raws.flatMap (·.written) ++
              '/' :: '>' :: '\n' :: (locations.flatMap (fun location =>
                (Writer.locationElement location).toList) ++ rest)) := by
        simp [locationElement_eq]
      rw [layout, catalogFrom_blanks (skipsBlanks_message place) blank_messageIndent,
        catalogFrom_emptyTag (by decide) (named_locationGiven location), step_location]
      by_cases first : (locationGiven location).NullFree
      · rw [if_pos first, Option.bind_some, catalogFrom_lineEnd (skipsBlanks_message _), ih]
        simp [first, addLocation, InMessage.withMessage]
      · rw [if_neg first, if_neg fun all => first (all location List.mem_cons_self)]
        rfl

def messageGiven (message : Message) : Given :=
  [("id", message.id), ("numerus", if message.numerus then some "yes" else none)]

theorem named_messageGiven (message : Message) : (messageGiven message).Named := by
  constructor
  · simp only [messageGiven, List.mem_cons, List.not_mem_nil, or_false, forall_eq_or_imp,
      forall_eq]
    decide
  · simp [messageGiven]

theorem numerusAttribute_eq (numerus : Bool) :
    Writer.numerusAttribute numerus =
      Writer.attributeText "numerus" (if numerus then some "yes" else none) := by
  cases numerus with
  | false => rfl
  | true =>
      rw [if_pos rfl, attributeText_of_isAlphanum "numerus" (List.all_eq_true.mp (by decide))]
      rfl

/-- A message of which only the start tag was read. -/
def startedMessage (place : InContext) (message : Message) : InMessage :=
  { place with
    message := { start := 0, message := { id := message.id, numerus := message.numerus } } }

theorem step_openMessage (place : InContext) (message : Message) :
    ((State.context place).step ⟨default, .opening (writtenTag "message".toList
      (messageGiven message).raws)⟩).toOption =
      if (messageGiven message).NullFree then some (.message (startedMessage place message))
      else none := by
  have plain : isPlainName "message".toList := by decide
  have name := name_writtenTag plain (messageGiven message).raws
  have named := named_messageGiven message
  have id := Given.attribute_present named "id" List.mem_cons_self
  have numerus := Given.attribute_present named "numerus"
    (List.mem_cons_of_mem _ (List.mem_singleton.mpr rfl))
  have counted : ((if message.numerus then some "yes" else none) == some "yes") =
      message.numerus := by
    cases message.numerus <;> rfl
  simp only [State.step, contextStep, name, show ("message" == "name") = false by decide,
    show ("message" == "comment") = false by decide, Bool.false_eq_true, if_false,
    beq_self_eq_true, if_true, openMessage, Except.toOption_bind, toOption_attributesAt,
    Given.toOption_attributes named plain]
  split
  · simp only [Option.bind_some, Except.toOption_ok, id, numerus, counted]
    rfl
  · rfl

/-- The parts of a message between its locations and its additional data. -/
def messageBody (message : Message) : String :=
  Writer.textElement Writer.messageIndent "source" message.source ++
  Writer.optionalElement Writer.messageIndent "oldsource" message.oldSource ++
  Writer.optionalElement Writer.messageIndent "comment" message.comment ++
  Writer.optionalElement Writer.messageIndent "oldcomment" message.oldComment ++
  Writer.optionalElement Writer.messageIndent "extracomment" message.extraComment ++
  Writer.optionalElement Writer.messageIndent "translatorcomment" message.translatorComment ++
  Writer.targetElement message.target ++ "\n" ++
  Writer.optionalElement Writer.messageIndent "userdata" message.userData

theorem messageElement_eq (message : Message) :
    (Writer.messageElement message).toList =
      "    ".toList ++
        '<' :: ("message".toList ++ (messageGiven message).raws.flatMap (·.written) ++
          '>' :: '\n' ::
            (message.locations.flatMap (fun location =>
                (Writer.locationElement location).toList) ++
              ((messageBody message).toList ++
                (message.extras.flatMap (fun extra => (Writer.extraElement extra).toList) ++
                  ("    ".toList ++ '<' :: '/' :: ("message".toList ++ '>' :: ['\n'])))))) := by
  have attributes := Given.written_append [("id", message.id)]
    [("numerus", if message.numerus then some "yes" else none)]
  rw [List.singleton_append] at attributes
  have tag : "    <message".toList = "    ".toList ++ '<' :: "message".toList := rfl
  have tagEnd : ">\n".toList = ['>', '\n'] := rfl
  have endTag : "    </message>\n".toList =
      "    ".toList ++ '<' :: '/' :: ("message".toList ++ '>' :: ['\n']) := rfl
  unfold Writer.messageElement messageBody messageGiven
  simp only [attributes, Given.written_single, String.toList_append, toList_join_map,
    numerusAttribute_eq, tag, tagEnd, endTag, List.append_assoc, List.cons_append,
    List.nil_append]

/-- The message as which a written message is read back. -/
def rereadMessage (message : Message) : Message :=
  { message with target := rereadTarget message.numerus message.target }

theorem catalogFrom_source (place : InMessage) (text : String) (opened : List (List Char))
    (rest : List Char) :
    catalogFrom (.message place) opened
        ((Writer.textElement Writer.messageIndent "source" text).toList ++ rest) =
      catalogFrom (.message (setSource place text default)) opened rest := by
  apply catalogFrom_textElement (by decide) (by decide) (by decide)
  rfl

/-- The parts of a message between its locations and its additional data are
read back. -/
theorem catalogFrom_messageBody (place : InMessage) (message : Message)
    (opened : List (List Char)) (rest : List Char) :
    catalogFrom (.message (place.withMessage
          { id := message.id, numerus := message.numerus, locations := message.locations }))
        opened ((messageBody message).toList ++ rest) =
      catalogFrom (.message (setSource (setTarget (place.withMessage
          { rereadMessage message with extras := [] }) (rereadTarget message.numerus message.target)
          default) message.source default)) opened rest := by
  let place := setSource place message.source default
  unfold messageBody Writer.targetElement
  simp only [String.toList_append, List.append_assoc]
  refine (catalogFrom_source _ _ opened _).trans ?_
  refine (catalogFrom_optionalElement "oldsource"
    (fun value => { message with
      oldSource := value, comment := none, oldComment := none, extraComment := none
      translatorComment := none, target := {}, userData := none, extras := [] })
    (by decide) (by decide) (by simp [storeText]) place message.oldSource opened _).trans ?_
  refine (catalogFrom_optionalElement "comment"
    (fun value => { message with
      comment := value, oldComment := none, extraComment := none, translatorComment := none
      target := {}, userData := none, extras := [] })
    (by decide) (by decide) (by simp [storeText]) place message.comment opened _).trans ?_
  refine (catalogFrom_optionalElement "oldcomment"
    (fun value => { message with
      oldComment := value, extraComment := none, translatorComment := none, target := {}
      userData := none, extras := [] })
    (by decide) (by decide) (by simp [storeText]) place message.oldComment opened _).trans ?_
  refine (catalogFrom_optionalElement "extracomment"
    (fun value => { message with
      extraComment := value, translatorComment := none, target := {}, userData := none
      extras := [] })
    (by decide) (by decide) (by simp [storeText]) place message.extraComment opened _).trans ?_
  refine (catalogFrom_optionalElement "translatorcomment"
    (fun value => { message with
      translatorComment := value, target := {}, userData := none, extras := [] })
    (by decide) (by decide) (by simp [storeText]) place message.translatorComment opened
    _).trans ?_
  refine (catalogFrom_blanks (skipsBlanks_message _) blank_messageIndent opened _).trans ?_
  refine (catalogFrom_bareTargetElement _ message.target opened _).trans ?_
  refine (catalogFrom_lineEnd (skipsBlanks_message _) opened _).trans ?_
  exact catalogFrom_optionalElement "userdata"
    (fun value => { rereadMessage message with userData := value, extras := [] })
    (by decide) (by decide) (by simp [storeText])
    (setTarget place (rereadTarget message.numerus message.target) default) message.userData
    opened rest

/-- A message of which everything was read but its additional data. -/
def bareMessage (place : InContext) (message : Message) : InMessage :=
  { place with
    message :=
      { start := 0
        message := { rereadMessage message with extras := [] }
        source := some default
        target := some default } }

/-- No attribute of a message or one of its locations holds the null
character. -/
def MessageNullFree (message : Message) : Prop :=
  (messageGiven message).NullFree ∧
    ∀ location ∈ message.locations, (locationGiven location).NullFree

instance (message : Message) : Decidable (MessageNullFree message) :=
  inferInstanceAs (Decidable ((messageGiven message).NullFree ∧
    ∀ location ∈ message.locations, (locationGiven location).NullFree))

/-- The additional data of a message and its end tag. -/
def messageTail (extras : List Extra) : List Char :=
  extras.flatMap (fun extra => (Writer.extraElement extra).toList) ++
    ("    ".toList ++ '<' :: '/' :: ("message".toList ++ '>' :: ['\n']))

/-- A message is read up to its additional data, unless an attribute holds
the null character. -/
theorem catalogFrom_toExtras (place : InContext) (message : Message)
    (opened : List (List Char)) (rest : List Char) :
    catalogFrom (.context place) opened ((Writer.messageElement message).toList ++ rest) =
      if MessageNullFree message then
        catalogFrom (.message (bareMessage place message)) ("message".toList :: opened)
          (messageTail message.extras ++ rest)
      else none := by
  have layout : (Writer.messageElement message).toList ++ rest =
      "    ".toList ++
        '<' :: ("message".toList ++ (messageGiven message).raws.flatMap (·.written) ++
          '>' :: '\n' ::
            (message.locations.flatMap (fun location =>
                (Writer.locationElement location).toList) ++
              ((messageBody message).toList ++ (messageTail message.extras ++ rest)))) := by
    rw [messageElement_eq]
    simp only [messageTail, List.append_assoc, List.cons_append, List.nil_append]
  rw [layout, catalogFrom_blanks (skipsBlanks_context place) (by decide),
    catalogFrom_startTag (by decide) (named_messageGiven message), step_openMessage]
  by_cases attributes : (messageGiven message).NullFree
  · rw [if_pos attributes, Option.bind_some, catalogFrom_lineEnd (skipsBlanks_message _),
      catalogFrom_locations]
    by_cases locations : ∀ location ∈ message.locations, (locationGiven location).NullFree
    · rw [if_pos locations, if_pos ⟨attributes, locations⟩]
      exact catalogFrom_messageBody (startedMessage place message) message _ _
    · rw [if_neg locations, if_neg fun nullFree => locations nullFree.2]
  · rw [if_neg attributes, if_neg fun nullFree => attributes nullFree.1]
    rfl

theorem catalogFrom_messageEnd (place : InContext) (message : Message)
    (opened : List (List Char)) (rest : List Char) :
    catalogFrom (.message ((bareMessage place message).withMessage (rereadMessage message)))
        ("message".toList :: opened) (messageTail [] ++ rest) =
      catalogFrom (.context (addMessage place (rereadMessage message) default)) opened rest := by
  have layout : messageTail [] ++ rest =
      "    ".toList ++ '<' :: '/' :: ("message".toList ++ '>' :: '\n' :: rest) := by
    simp [messageTail]
  rw [layout, catalogFrom_blanks (skipsBlanks_message _) (by decide),
    catalogFrom_endTag (by decide)]
  refine (catalogFrom_lineEnd (skipsBlanks_context _) opened rest).trans ?_
  refine catalogFrom_congr (.context ?_) opened rest
  exact ⟨rfl, rfl, rfl⟩

/-- A message is read back, but for the shape of its target. -/
theorem catalogFrom_messageElement {message : Message} (nullFree : MessageNullFree message)
    (plain : ∀ extra ∈ message.extras, isPlainName extra.name.toList) (place : InContext)
    (opened : List (List Char)) (rest : List Char) :
    catalogFrom (.context place) opened ((Writer.messageElement message).toList ++ rest) =
      catalogFrom (.context (addMessage place (rereadMessage message) default)) opened rest := by
  have tail : messageTail message.extras ++ rest =
      message.extras.flatMap (fun extra => (Writer.extraElement extra).toList) ++
        (messageTail [] ++ rest) := by
    simp [messageTail]
  rw [catalogFrom_toExtras, if_pos nullFree, tail, catalogFrom_extras plain]
  exact catalogFrom_messageEnd place message opened rest

end CatalogServer.Reader
