import CatalogServer.Proofs.Catalog.StartTags

/-!
# Written content is read back

Between structural elements a reader skips blanks; inside a text element it
gathers the pieces of the text.  In both cases the character data at the
front of a text can be taken off on its own, although the scan sees it as
one piece together with the character data behind it.  So written blanks
vanish and written content is gathered, whatever follows them.
-/

namespace CatalogServer.Reader

open Text Xml

theorem exists_data (text : List Char) :
    ∃ raw after, text = raw ++ after ∧ '<' ∉ raw ∧ (after = [] ∨ ∃ rest, after = '<' :: rest) := by
  induction text with
  | nil => exact ⟨[], [], rfl, by simp, .inl rfl⟩
  | cons c rest ih =>
      by_cases bracket : c = '<'
      · subst bracket
        exact ⟨[], _, rfl, by simp, .inr ⟨rest, rfl⟩⟩
      · obtain ⟨raw, after, rfl, data, boundary⟩ := ih
        refine ⟨c :: raw, after, rfl, ?_, boundary⟩
        simp only [List.mem_cons, not_or]
        exact ⟨fun equal => bracket equal.symm, data⟩

/-- A state that skips blanks and refuses all other character data. -/
def SkipsBlanks (state : State) : Prop :=
  ∀ raw, (state.step ⟨default, .text raw⟩).toOption =
    if raw.all isAsciiBlank then some state else none

theorem catalogFrom_blank {state : State} (skips : SkipsBlanks state) {c : Char}
    (blank : isAsciiBlank c = true) (opened : List (List Char)) (text : List Char) :
    catalogFrom state opened (c :: text) = catalogFrom state opened text := by
  obtain ⟨raw, after, rfl, data, boundary⟩ := exists_data text
  have ordinary : c ≠ '<' := by
    rintro rfl
    exact absurd blank (by decide)
  have whole : Takes opened (c :: raw) (.text (c :: raw)) opened after := by
    refine .text (by simp) ?_ boundary
    simp only [List.mem_cons, not_or]
    exact ⟨ordinary.symm, data⟩
  rw [← List.cons_append, catalogFrom_of_takes whole, skips, List.all_cons, blank, Bool.true_and]
  cases raw with
  | nil => rfl
  | cons d raw =>
      have later : Takes opened (d :: raw) (.text (d :: raw)) opened after :=
        .text (by simp) data boundary
      rw [catalogFrom_of_takes later, skips]

theorem catalogFrom_blanks {state : State} (skips : SkipsBlanks state) {blanks : List Char}
    (blank : blanks.all isAsciiBlank = true) (opened : List (List Char)) (text : List Char) :
    catalogFrom state opened (blanks ++ text) = catalogFrom state opened text := by
  induction blanks with
  | nil => rfl
  | cons c rest ih =>
      simp only [List.all_cons, Bool.and_eq_true] at blank
      rw [List.cons_append, catalogFrom_blank skips blank.1]
      exact ih blank.2

theorem skipsBlanks_prolog : SkipsBlanks .prolog := by
  intro raw
  simp only [State.step, prologStep]
  split <;> rfl

theorem skipsBlanks_root (document : Document) : SkipsBlanks (.root document) := by
  intro raw
  simp [State.step, rootStep, isInsignificant]

theorem skipsBlanks_context (place : InContext) : SkipsBlanks (.context place) := by
  intro raw
  simp [State.step, contextStep, isInsignificant]

theorem skipsBlanks_message (place : InMessage) : SkipsBlanks (.message place) := by
  intro raw
  simp [State.step, messageStep, isInsignificant]

theorem skipsBlanks_formVariants (place : InTarget) (texts : List String) :
    SkipsBlanks (.formVariants place texts) := by
  intro raw
  simp [State.step, formVariantsStep, isInsignificant]

theorem skipsBlanks_epilog (document : Document) : SkipsBlanks (.epilog document) := by
  intro raw
  simp only [State.step, epilogStep]
  split <;> rfl

/-- Two pieces of text, one behind the other. -/
def Piece.append (first second : Piece) : Piece :=
  ⟨first.text ++ second.text, first.significant || second.significant⟩

/-- Inside an element that holds text. -/
def State.isText : State → Bool
  | .contextText .. | .messageText .. | .target _ | .variant .. | .form .. | .formVariant .. => true
  | _ => false

/-- A reader inside an element that holds text, with another piece of it, which
starts at an offset. -/
def State.gather (piece : Piece) (offset : Nat) : State → State
  | .contextText place part start text => .contextText place part start (text ++ piece.text)
  | .messageText place element start text =>
      .messageText place element start (text ++ piece.text)
  | .target place => .target (addPiece place piece offset)
  | .variant place text => .variant place (text ++ piece.text)
  | .form place text => .form place (text ++ piece.text)
  | .formVariant place texts text => .formVariant place texts (text ++ piece.text)
  | state => state

@[simp]
theorem State.isText_gather (piece : Piece) (offset : Nat) (state : State) :
    (state.gather piece offset).isText = state.isText := by
  cases state <;> rfl

theorem State.gather_nothing (offset : Nat) (state : State) :
    state.gather ⟨[], false⟩ offset = state := by
  cases state with
  | target place =>
      obtain ⟨place, tag, status, announces, text, start, forms, variants⟩ := place
      cases start <;> simp [gather, addPiece]
  | _ => simp [gather]

theorem State.gather_gather (first second : Piece) (offset other : Nat) (state : State) :
    (state.gather first offset).gather second other =
      state.gather (first.append second) (if first.significant then offset else other) := by
  cases state with
  | target place =>
      cases started : place.target.textStart <;> cases visible : first.significant <;>
        simp [gather, addPiece, started, visible, Piece.append]
  | _ => simp [gather, Piece.append]

/-- In an element that holds text, an event that starts or ends no other element
adds its piece, if it may stand there. -/
theorem State.toOption_step {state : State} (inText : state.isText = true) (span : ByteSpan)
    {event : Event} (within : event ≠ .closing)
    (byte : ∀ tag, event = .opening tag ∨ event = .selfClosing tag → tag.name = "byte") :
    (state.step ⟨span, event⟩).toOption =
      (pieceOf event).map fun piece => state.gather piece span.start := by
  cases event with
  | closing => exact absurd rfl within
  | opening tag =>
      have name := byte tag (.inl rfl)
      cases state with
      | contextText | messageText | target | variant | form | formVariant =>
          simp [State.step, contextTextStep, messageTextStep, targetStep, targetPiece, leafStep,
            name, State.gather]
      | _ => cases inText
  | selfClosing tag =>
      have name := byte tag (.inr rfl)
      cases state with
      | contextText | messageText | target | variant | form | formVariant =>
          simp [State.step, contextTextStep, messageTextStep, targetStep, targetPiece, leafStep,
            name, State.gather]
      | _ => cases inText
  | _ =>
      cases state with
      | contextText | messageText | target | variant | form | formVariant =>
          simp [State.step, contextTextStep, messageTextStep, targetStep, targetPiece, leafStep,
            State.gather]
      | _ => cases inText

/-- The states of a reader that gathers text: a piece that may stand there
is added to what it has. -/
structure Gathers (within : Piece → State) : Prop where
  data : ∀ taken raw, ((within taken).step ⟨default, .text raw⟩).toOption =
    (pieceOf (.text raw)).map fun piece => within (taken.append piece)
  /-- The character of a `byte` element is added. -/
  byte : ∀ taken tag, tag.name = "byte" →
    ((within taken).step ⟨default, .selfClosing tag⟩).toOption =
      (pieceOf (.selfClosing tag)).map fun piece => within (taken.append piece)

theorem gathers_gather (state : State) (inText : state.isText = true) :
    Gathers fun taken => state.gather taken 0 := by
  have behind (taken piece : Piece) :
      (state.gather taken 0).gather piece (default : ByteSpan).start =
        state.gather (taken.append piece) 0 := by
    rw [State.gather_gather, show (default : ByteSpan).start = 0 from rfl, ite_self]
  constructor
  · intro taken raw
    rw [State.toOption_step ((State.isText_gather taken 0 state).trans inText) default
      Event.noConfusion (by rintro tag (⟨⟨⟩⟩ | ⟨⟨⟩⟩))]
    simp only [behind]
  · intro taken tag name
    rw [State.toOption_step ((State.isText_gather taken 0 state).trans inText) default
      Event.noConfusion (by rintro other (same | same) <;> cases same; exact name)]
    simp only [behind]

/-- A character that shows in a text: it is no blank, or it is written as a
`byte` element. -/
def isVisible (c : Char) : Bool :=
  !isBlank c || Escape.isByte c

/-- The piece that a written text is read back as. -/
def writtenPiece (text : List Char) : Piece :=
  ⟨text, text.any isVisible⟩

theorem writtenPiece_cons (c : Char) (text : List Char) :
    writtenPiece (c :: text) = (writtenPiece [c]).append (writtenPiece text) := by
  simp [writtenPiece, Piece.append]

theorem Piece.append_assoc (first second third : Piece) :
    (first.append second).append third = first.append (second.append third) := by
  simp [Piece.append, Bool.or_assoc]

theorem pieceOf_contentChar {c : Char} (plain : Escape.isByte c = false) (raw : List Char) :
    pieceOf (.text (Escape.contentChar c ++ raw)) =
      (pieceOf (.text raw)).map (writtenPiece [c]).append := by
  simp only [pieceOf, Escape.toOption_unescape_contentChar plain, Option.map_map]
  congr 1
  funext text
  simp [writtenPiece, Piece.append, isVisible, isBlankText, plain, Bool.not_and]

theorem not_isAlphanum_of_lt : ∀ code < 0x20, (Char.ofNat code).isAlphanum = false := by
  decide

theorem flatMap_attributeChar_of_isAlphanum {text : List Char}
    (words : ∀ d ∈ text, d.isAlphanum = true) : text.flatMap Escape.attributeChar = text := by
  induction text with
  | nil => rfl
  | cons d rest ih =>
      have word := words d List.mem_cons_self
      have unwritten : Escape.entity? d = none := by
        simp [Escape.entity?, Escape.ne_of_isAlphanum word]
      have visible : Escape.isControl d = false := by
        by_contra control
        simp only [Bool.not_eq_false] at control
        have none := not_isAlphanum_of_lt d.toNat (Escape.toNat_lt_of_isControl control)
        rw [Char.ofNat_toNat, word] at none
        exact absurd none (by decide)
      have others := ih fun e member => words e (List.mem_cons_of_mem d member)
      rw [List.flatMap_cons, others]
      simp [Escape.attributeChar, unwritten, visible]

theorem nullFree_of_isAlphanum {given : Given}
    (words : ∀ name value, (name, some value) ∈ given → ∀ d ∈ value.toList, d.isAlphanum = true) :
    given.NullFree := by
  intro attr member null
  have word := words attr.key attr.value (Given.mem_present.mp member) _ null
  exact absurd word (by decide)

/-- The attributes of the `byte` element that is written for a character. -/
def byteGiven (c : Char) : Given :=
  [("value", some (String.ofList ('x' :: hexDigits c.toNat)))]

theorem named_byteGiven (c : Char) : (byteGiven c).Named := by
  constructor
  · simp only [byteGiven, List.mem_singleton, forall_eq]
    decide
  · simp [byteGiven]

theorem name_byteGiven (c : Char) :
    (writtenTag "byte".toList (byteGiven c).raws).name = "byte" :=
  name_writtenTag (by decide) _

theorem raws_byteGiven {c : Char} (byte : Escape.isByte c = true) :
    (byteGiven c).raws = [⟨"value".toList, 'x' :: hexDigits c.toNat⟩] := by
  simp only [Escape.isByte, Bool.and_eq_true] at byte
  have words := Escape.isAlphanum_of_mem_hexDigits byte.1
  have spelled : ('x' :: hexDigits c.toNat).flatMap Escape.attributeChar =
      'x' :: hexDigits c.toNat := by
    apply flatMap_attributeChar_of_isAlphanum
    intro d member
    rcases List.mem_cons.mp member with rfl | digit
    · decide
    · exact words d digit
  simp [Given.raws, Given.present, byteGiven, spelled]

theorem contentChar_of_isByte {c : Char} (byte : Escape.isByte c = true) :
    Escape.contentChar c =
      '<' :: ("byte".toList ++ (byteGiven c).raws.flatMap (·.written) ++ ['/', '>']) := by
  rcases Escape.contentChar_cases c with ⟨reference, -, plain, -⟩ | ⟨-, plain, -⟩ | ⟨-, written⟩
  · rw [byte] at plain
    exact absurd plain (by decide)
  · rw [byte] at plain
    exact absurd plain (by decide)
  · rw [written, raws_byteGiven byte]
    simp [RawAttribute.written]

theorem pieceOf_byteGiven {c : Char} (byte : Escape.isByte c = true) :
    pieceOf (.selfClosing (writtenTag "byte".toList (byteGiven c).raws)) =
      some (writtenPiece [c]) := by
  have control : Escape.isControl c = true := by
    simp only [Escape.isByte, Bool.and_eq_true] at byte
    exact byte.1
  have words := Escape.isAlphanum_of_mem_hexDigits control
  have nullFree : (byteGiven c).NullFree := by
    apply nullFree_of_isAlphanum
    intro name value member d digit
    simp only [byteGiven, List.mem_singleton, Prod.mk.injEq, Option.some.injEq] at member
    rw [member.2, String.toList_ofList] at digit
    rcases List.mem_cons.mp digit with rfl | later
    · decide
    · exact words d later
  have value := Given.attribute_present (named_byteGiven c) "value" (List.mem_singleton.mpr rfl)
  simp only [pieceOf, name_byteGiven, beq_self_eq_true, if_true,
    Given.toOption_attributes (named_byteGiven c) (show isPlainName "byte".toList by decide),
    nullFree, Option.bind_some, value, Option.getD_some, Escape.byteValue_hexDigits control,
    Option.map_some]
  simp [writtenPiece, isVisible, byte]

variable {within : Piece → State}

theorem catalogFrom_contentChar (gathers : Gathers within) (taken : Piece) (c : Char)
    (opened : List (List Char)) (text : List Char) :
    catalogFrom (within taken) opened (Escape.contentChar c ++ text) =
      catalogFrom (within (taken.append (writtenPiece [c]))) opened text := by
  cases byte : Escape.isByte c with
  | false =>
      obtain ⟨raw, after, rfl, data, boundary⟩ := exists_data text
      have whole : Takes opened (Escape.contentChar c ++ raw) (.text (Escape.contentChar c ++ raw))
          opened after := by
        refine .text ?_ ?_ boundary
        · simp [Escape.contentChar_ne_nil]
        · intro bracket
          rcases List.mem_append.mp bracket with inside | later
          · exact (Escape.ne_of_mem_contentChar byte inside).1 rfl
          · exact data later
      rw [← List.append_assoc, catalogFrom_of_takes whole, gathers.data, pieceOf_contentChar byte]
      cases raw with
      | nil => simp [pieceOf, unescape, unescapeFrom, isBlankText, writtenPiece, Piece.append]
      | cons d raw =>
          have later : Takes opened (d :: raw) (.text (d :: raw)) opened after :=
            .text (by simp) data boundary
          rw [catalogFrom_of_takes later, gathers.data]
          simp only [Option.map_map, Function.comp_def, Piece.append_assoc]
  | true =>
      have read := catalogFrom_emptyTag (show isElementName "byte".toList by decide)
        (named_byteGiven c) (within taken) opened text
      rw [gathers.byte _ _ (name_byteGiven c), pieceOf_byteGiven byte] at read
      rw [contentChar_of_isByte byte]
      simpa using read

theorem catalogFrom_content (gathers : Gathers within) (taken : Piece) (content : List Char)
    (opened : List (List Char)) (text : List Char) :
    catalogFrom (within taken) opened (content.flatMap Escape.contentChar ++ text) =
      catalogFrom (within (taken.append (writtenPiece content))) opened text := by
  induction content generalizing taken with
  | nil => simp [writtenPiece, Piece.append]
  | cons c rest ih =>
      rw [List.flatMap_cons, List.append_assoc, catalogFrom_contentChar gathers, ih,
        Piece.append_assoc, ← writtenPiece_cons]

/-- An element that holds only text, as written. -/
def leafElement (name : String) (content : List Char) : List Char :=
  '<' :: (name.toList ++ '>' :: (content.flatMap Escape.contentChar ++
    '<' :: '/' :: (name.toList ++ ['>'])))

theorem name_of_isPlainName (name : String) (plain : isPlainName name.toList) :
    (Tag.mk name.toList).name = name := by
  unfold Tag.name
  rw [nameChars_of_isPlainName plain, String.ofList_toList]

/-- An element that holds only text is read by gathering the text between its
start tag and its end tag. -/
theorem catalogFrom_leafElement {state : State} {name : String}
    (element : isElementName name.toList)
    (enters : (state.step ⟨default, .opening ⟨name.toList⟩⟩).toOption = some (within ⟨[], false⟩))
    (gathers : Gathers within) (content : List Char) (opened : List (List Char))
    (text : List Char) :
    catalogFrom state opened (leafElement name content ++ text) =
      ((within (writtenPiece content)).step ⟨default, .closing⟩).toOption.bind fun next =>
        catalogFrom next opened text := by
  have plain : isPlainName name.toList := by
    simp only [isElementName, Bool.and_eq_true] at element
    exact element.1
  have starts : startsElement name.toList := by
    simp only [isElementName, Bool.and_eq_true] at element
    exact element.2
  have layout : leafElement name content ++ text =
      '<' :: (name.toList ++ '>' :: (content.flatMap Escape.contentChar ++
        '<' :: '/' :: (name.toList ++ '>' :: text))) := by
    simp [leafElement]
  have taken : Piece.append ⟨[], false⟩ (writtenPiece content) = writtenPiece content := by
    simp [Piece.append]
  rw [layout, catalogFrom_opening (isClosed_of_isPlainName plain) starts
    (getLast_of_isPlainName plain), enters, Option.bind_some, catalogFrom_content gathers, taken,
    nameChars_of_isPlainName plain, catalogFrom_endTag plain]

end CatalogServer.Reader
