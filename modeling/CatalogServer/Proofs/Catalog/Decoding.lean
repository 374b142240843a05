import CatalogServer.Proofs.Catalog.Content
import CatalogServer.Proofs.Catalog.Stages

/-!
# Escaped texts decode

A text that is escaped for the content of an element is read there as the
text, wherever the element stands: the reader gathers it stage by stage, a run
of character data or a `byte` element at a time.  A text that is escaped for an
attribute is read as the text in every tag and in quotes of either kind, unless
it holds the null character.  What is escaped holds no markup of its own but
references and, in content, `byte` elements.
-/

namespace CatalogServer

open Text Xml

namespace Xml

/-- The place of an attribute's value in a tag: the tag is legible as long as
the value is empty. -/
structure AttributePlace where
  name : List Char
  before : QuotedAttributes
  quote : Char
  key : List Char
  after : QuotedAttributes
  named : isElementName name
  legible : QuotedAttributes.Legible (before ++ (quote, ⟨key, []⟩) :: after)

namespace AttributePlace

variable (place : AttributePlace)

def attributes (value : List Char) : QuotedAttributes :=
  place.before ++ (place.quote, ⟨place.key, value⟩) :: place.after

/-- The tag with a value in the place. -/
def tag (value : List Char) : Tag :=
  quotedTag place.name (place.attributes value)

variable {place} {value : List Char}

theorem legible_attributes (unquoted : place.quote ∉ value) :
    (place.attributes value).Legible := by
  obtain ⟨quotable, distinct⟩ := place.legible
  constructor
  · intro entry member
    rcases List.mem_append.mp member with front | behind
    · exact quotable entry (List.mem_append_left _ front)
    · rcases List.mem_cons.mp behind with rfl | back
      · have bare := quotable (place.quote, ⟨place.key, []⟩)
          (List.mem_append_right _ List.mem_cons_self)
        exact { bare with unquoted := unquoted }
      · exact quotable entry (List.mem_append_right _ (List.mem_cons_of_mem _ back))
  · have keys : (place.attributes value).keys =
        QuotedAttributes.keys (place.before ++ (place.quote, ⟨place.key, []⟩) :: place.after) := by
      simp [attributes, QuotedAttributes.keys]
    rw [keys]
    exact distinct

/-- The scan recognises the tag, whether it opens an element or closes it at
once. -/
theorem scanMarkup_tag (unquoted : place.quote ∉ value) (rest : List Char) :
    scanMarkup ((place.tag value).content ++ '>' :: rest) =
        .event (.opening (place.tag value)) ((place.tag value).content ++ ['>']) rest ∧
      scanMarkup ((place.tag value).content ++ '/' :: '>' :: rest) =
        .event (.selfClosing (place.tag value)) ((place.tag value).content ++ ['/', '>']) rest := by
  have quotable := (legible_attributes unquoted).quotable
  have named := place.named
  simp only [isElementName, Bool.and_eq_true] at named
  have closed : isClosed (place.tag value).content := isClosed_quotedTag named.1 quotable
  have starts : startsElement (place.tag value).content := startsElement_append named.2 _
  have unslashed : (place.tag value).content.getLast? ≠ some '/' := by
    refine getLast_quotedTag named.1 fun entry member => ?_
    rcases (quotable entry member).mark with same | same <;> rw [same] <;> decide
  exact ⟨scanMarkup_opening closed starts unslashed rest, scanMarkup_selfClosing closed starts rest⟩

theorem toOption_attributes_tag (unquoted : place.quote ∉ value) {front back : List Attribute}
    (readFront : place.before.mapM (·.2.resolve) = .ok front)
    (readBack : place.after.mapM (·.2.resolve) = .ok back) :
    (place.tag value).attributes.toOption =
      (unescape value).toOption.map fun resolved =>
        front ++ ⟨String.ofList place.key, String.ofList resolved⟩ :: back := by
  have named := place.named
  simp only [isElementName, Bool.and_eq_true] at named
  have attributes : (place.tag value).attributes =
      (place.attributes value).mapM (·.2.resolve) := by
    rw [Tag.attributes, tag, rawAttributes_quotedTag named.1 (legible_attributes unquoted),
      List.mapM_map]
    rfl
  rw [attributes, AttributePlace.attributes, List.mapM_append, List.mapM_cons, readFront, readBack]
  simp only [Except.toOption_bind, Except.toOption_ok, Option.bind_some, RawAttribute.resolve,
    Except.toOption_mapError]
  cases (unescape value).toOption <;> rfl

end AttributePlace

end Xml

namespace Escape

/-- Where an escaped text stands. -/
inductive Place where
  | content
  | attributeValue

/-- A character may stand for itself: it is no markup and no control character,
but for tab, line feed and carriage return in content. -/
def Place.Admits (place : Place) (c : Char) : Prop :=
  c ∉ ['<', '>', '"', '\'', '&'] ∧
    match place with
    | .content => isControl c = true → c ∈ ['\t', '\n', '\r']
    | .attributeValue => isControl c = false

/-- The digits of a character code in base sixteen. -/
def isHexNumeral (digits : List Char) : Bool :=
  !digits.isEmpty && digits.all "0123456789abcdef".toList.contains

/-- A text that consists of characters that stand for themselves, of references
and, in content, of `byte` elements for control characters. -/
inductive Escaped : Place → List Char → Prop where
  | nil (place : Place) : Escaped place []
  | char {place : Place} {c : Char} {rest : List Char} (admits : place.Admits c) :
      Escaped place rest → Escaped place (c :: rest)
  | entity {place : Place} {name rest : List Char} {c : Char}
      (predefined : predefinedEntity? name = some c) :
      Escaped place rest → Escaped place ('&' :: (name ++ ';' :: rest))
  | code {place : Place} {digits rest : List Char} (numeral : isHexNumeral digits = true) :
      Escaped place rest → Escaped place ('&' :: '#' :: 'x' :: (digits ++ ';' :: rest))
  | byte {code : Nat} {rest : List Char} (control : code < 0x20) :
      Escaped .content rest →
        Escaped .content
          ("<byte value=\"x".toList ++ (hexDigits code ++ ("\"/>".toList ++ rest)))

theorem predefinedEntity_of_entity {c : Char} {reference : List Char}
    (written : entity? c = some reference) :
    ∃ name, predefinedEntity? name = some c ∧ reference = '&' :: (name ++ [';']) := by
  obtain ⟨body, rfl, words, resolved⟩ := resolve_entity written
  refine ⟨body, ?_, rfl⟩
  unfold resolveReference at resolved
  split at resolved
  · exact absurd (words '#' List.mem_cons_self) (by decide)
  · split at resolved
    · next found =>
        rw [found]
        exact resolved
    · cases resolved

theorem isHexNumeral_hexDigits : ∀ code < 0x20, isHexNumeral (hexDigits code) = true := by
  decide

theorem not_mem_of_entity_eq_none {c : Char} (plain : entity? c = none) :
    c ∉ ['<', '>', '"', '\'', '&'] := by
  simp [ne_of_entity_eq_none plain]

theorem Escaped.contentChar (c : Char) {rest : List Char} (escaped : Escaped .content rest) :
    Escaped .content (contentChar c ++ rest) := by
  rcases contentChar_cases c with ⟨reference, written, -, spelled⟩ | ⟨plain, text, spelled⟩ |
    ⟨byte, spelled⟩
  · obtain ⟨name, predefined, rfl⟩ := predefinedEntity_of_entity written
    rw [spelled, List.cons_append, List.append_assoc]
    exact .entity predefined escaped
  · rw [spelled]
    refine .char ⟨not_mem_of_entity_eq_none plain, fun control => ?_⟩ escaped
    have layout : (c = '\t' ∨ c = '\n') ∨ c = '\r' := by
      simpa [isByte, control, or_iff_not_imp_left] using text
    simpa [or_assoc] using layout
  · simp only [isByte, Bool.and_eq_true] at byte
    rw [spelled, List.append_assoc, List.append_assoc]
    exact .byte (toNat_lt_of_isControl byte.1) escaped

theorem Escaped.attributeChar (c : Char) {rest : List Char}
    (escaped : Escaped .attributeValue rest) :
    Escaped .attributeValue (attributeChar c ++ rest) := by
  unfold Escape.attributeChar
  split
  · next reference written =>
      obtain ⟨name, predefined, rfl⟩ := predefinedEntity_of_entity written
      rw [List.cons_append, List.append_assoc]
      exact .entity predefined escaped
  · next plain =>
      split
      · next control =>
          rw [List.append_assoc, List.append_assoc]
          exact .code (isHexNumeral_hexDigits _ (toNat_lt_of_isControl control)) escaped
      · next visible =>
          exact .char ⟨not_mem_of_entity_eq_none plain, by simpa using visible⟩ escaped

theorem escaped_content (text : String) : Escaped .content (content text).toList := by
  rw [content, String.toList_ofList]
  induction text.toList with
  | nil => exact .nil _
  | cons c rest ih =>
      rw [List.flatMap_cons]
      exact ih.contentChar c

theorem escaped_attributeValue (text : String) :
    Escaped .attributeValue (attributeValue text).toList := by
  rw [attributeValue, String.toList_ofList]
  induction text.toList with
  | nil => exact .nil _
  | cons c rest ih =>
      rw [List.flatMap_cons]
      exact ih.attributeChar c

theorem toOption_unescape_content {text : List Char} (plain : ∀ c ∈ text, isByte c = false) :
    (unescape (text.flatMap Escape.contentChar)).toOption = some text := by
  induction text with
  | nil => simp [unescape, unescapeFrom]
  | cons c rest ih =>
      rw [List.flatMap_cons, toOption_unescape_contentChar (plain c List.mem_cons_self),
        ih fun d member => plain d (List.mem_cons_of_mem c member)]
      rfl

end Escape

namespace Reader

theorem State.step_eq_gather {state : State} (inText : state.isText = true) {located : Located}
    {piece : Piece} (read : pieceOf located.event = some piece) :
    state.step located = .ok (state.gather piece located.span.start) := by
  obtain ⟨span, event⟩ := located
  have within : event ≠ .closing := by
    rintro rfl
    cases read
  have byte : ∀ tag, event = .opening tag ∨ event = .selfClosing tag → tag.name = "byte" := by
    rintro tag (rfl | rfl)
    · cases read
    · by_contra other
      simp [pieceOf, other] at read
  rw [← Except.toOption_eq_some_iff, State.toOption_step inText span within byte]
  dsimp only at read
  rw [read, Option.map_some]

theorem pieceOf_content {text : List Char} (plain : ∀ c ∈ text, Escape.isByte c = false) :
    pieceOf (.text (text.flatMap Escape.contentChar)) = some (writtenPiece text) := by
  have shows : text.any isVisible = !isBlankText text := by
    rw [isBlankText, List.not_all_eq_any_not, Bool.eq_iff_iff, List.any_eq_true, List.any_eq_true]
    exact exists_congr fun c => and_congr_right fun member => by simp [isVisible, plain c member]
  simp [pieceOf, Escape.toOption_unescape_content plain, writtenPiece, shows]

theorem takes_byte {c : Char} (byte : Escape.isByte c = true) (opened : List (List Char))
    (after : List Char) :
    Takes opened (Escape.contentChar c)
      (.selfClosing (writtenTag "byte".toList (byteGiven c).raws)) opened after := by
  have plain : isPlainName "byte".toList := by decide
  have recognised := scanMarkup_selfClosing
    (isClosed_writtenTag plain (Given.writable_raws (named_byteGiven c)))
    (startsElement_append (by decide) _) after
  rw [contentChar_of_isByte byte]
  apply Takes.markup
  rw [List.append_assoc]
  exact recognised

/-- A run of characters without `byte` elements is a piece of its own in front of
markup. -/
theorem takes_content {text : List Char} (plain : ∀ c ∈ text, Escape.isByte c = false)
    (nonempty : text ≠ []) (opened : List (List Char)) {after : List Char}
    (boundary : Boundary after) :
    Takes opened (text.flatMap Escape.contentChar) (.text (text.flatMap Escape.contentChar)) opened
      after := by
  refine .text ?_ ?_ boundary
  · obtain ⟨c, rest, rfl⟩ := List.exists_cons_of_ne_nil nonempty
    simp [Escape.contentChar_ne_nil]
  · intro bracket
    obtain ⟨c, member, inside⟩ := List.mem_flatMap.mp bracket
    exact (Escape.ne_of_mem_contentChar (plain c member) inside).1 rfl

theorem boundary_content {c : Char} (byte : Escape.isByte c = true) (text rest : List Char) :
    Boundary ((c :: text).flatMap Escape.contentChar ++ rest) := by
  rw [List.flatMap_cons, contentChar_of_isByte byte]
  exact .inr ⟨_, rfl⟩

theorem exists_takes_content {text : List Char} (nonempty : text ≠ []) :
    ∃ front behind event, text = front ++ behind ∧ front ≠ [] ∧
      pieceOf event = some (writtenPiece front) ∧
      ∀ opened rest, Boundary rest →
        Takes opened (front.flatMap Escape.contentChar) event opened
          (behind.flatMap Escape.contentChar ++ rest) := by
  obtain ⟨c, others, rfl⟩ := List.exists_cons_of_ne_nil nonempty
  cases byte : Escape.isByte c with
  | true =>
      refine ⟨[c], others, _, rfl, by simp, pieceOf_byteGiven byte, fun opened rest _ => ?_⟩
      rw [List.flatMap_singleton]
      exact takes_byte byte opened _
  | false =>
      -- The run of character data goes up to the next `byte` element.
      have plain : ∀ d ∈ c :: others.takeWhile (!Escape.isByte ·), Escape.isByte d = false := by
        intro d member
        rcases List.mem_cons.mp member with rfl | inside
        · exact byte
        · simpa using List.mem_takeWhile_imp inside
      refine ⟨c :: others.takeWhile (!Escape.isByte ·), others.dropWhile (!Escape.isByte ·), _,
        by rw [List.cons_append, List.takeWhile_append_dropWhile], by simp,
        pieceOf_content plain, fun opened rest boundary => ?_⟩
      apply takes_content plain (by simp)
      cases dropped : others.dropWhile (!Escape.isByte ·) with
      | nil => exact boundary
      | cons d behind =>
          have stops := List.head_dropWhile_not (l := others) (!Escape.isByte ·) (by simp [dropped])
          simp only [dropped, List.head_cons, Bool.not_eq_false'] at stops
          exact boundary_content stops behind rest

/-- A reader inside an element that holds text gathers all of an escaped text in
front of markup. -/
theorem reaches_content {state : State} (inText : state.isText = true) (text taken : List Char)
    (opened : List (List Char)) {rest : List Char} (boundary : Boundary rest) :
    ∃ offset, Stage.Reaches
      ⟨taken, opened, state, text.flatMap Escape.contentChar ++ rest⟩
      ⟨taken ++ text.flatMap Escape.contentChar, opened,
        state.gather (writtenPiece text) offset, rest⟩ := by
  induction size : text.length using Nat.strong_induction_on generalizing state text taken with
  | _ size ih =>
      subst size
      by_cases empty : text = []
      · subst empty
        refine ⟨0, ?_⟩
        rw [List.flatMap_nil, List.append_nil, List.nil_append,
          show writtenPiece [] = ⟨[], false⟩ from rfl, State.gather_nothing]
        exact .refl
      · obtain ⟨front, behind, event, rfl, nonempty, read, takes⟩ := exists_takes_content empty
        have next : Stage.Next
            ⟨taken, opened, state, front.flatMap Escape.contentChar ++
              (behind.flatMap Escape.contentChar ++ rest)⟩
            ⟨taken ++ front.flatMap Escape.contentChar, opened,
              state.gather (writtenPiece front) (byteSize taken),
              behind.flatMap Escape.contentChar ++ rest⟩ :=
          .piece (takes opened rest boundary) (State.step_eq_gather inText read)
        have shorter : behind.length < (front ++ behind).length := by
          have positive := List.length_pos_iff.mpr nonempty
          rw [List.length_append]
          omega
        obtain ⟨offset, reaches⟩ := ih behind.length shorter
          ((State.isText_gather (writtenPiece front) (byteSize taken) state).trans inText) behind
          (taken ++ front.flatMap Escape.contentChar) rfl
        have pieces : (writtenPiece front).append (writtenPiece behind) =
            writtenPiece (front ++ behind) := by
          simp [writtenPiece, Piece.append]
        rw [State.gather_gather, pieces, List.append_assoc, ← List.flatMap_append] at reaches
        rw [← List.append_assoc, ← List.flatMap_append] at next
        exact ⟨_, Relation.ReflTransGen.head next reaches⟩

end Reader

namespace Escape

open Reader

/-- An escaped text decodes: it is read as the text, and it holds no markup of
its own. -/
structure Decodes (text : String) : Prop where
  /-- Inside every element that holds text, and in front of any markup, the reader
  gathers the text, and nothing else of it changes. -/
  content : ∀ state : State, state.isText = true → ∀ taken opened rest, Boundary rest →
    ∃ offset, Stage.Reaches
      ⟨taken, opened, state, (Escape.content text).toList ++ rest⟩
      ⟨taken ++ (Escape.content text).toList, opened,
        state.gather ⟨text.toList, text.toList.any isVisible⟩ offset, rest⟩
  /-- In every tag that can be read apart from this attribute, the attribute has
  the text as its value. -/
  attributeValue : ∀ (place : AttributePlace) (front back : List Attribute),
    place.before.mapM (·.2.resolve) = .ok front → place.after.mapM (·.2.resolve) = .ok back →
      (∀ rest,
        let tag := place.tag (Escape.attributeValue text).toList
        scanMarkup (tag.content ++ '>' :: rest) =
            .event (.opening tag) (tag.content ++ ['>']) rest ∧
          scanMarkup (tag.content ++ '/' :: '>' :: rest) =
            .event (.selfClosing tag) (tag.content ++ ['/', '>']) rest) ∧
      (place.tag (Escape.attributeValue text).toList).attributes =
        .ok (front ++ ⟨String.ofList place.key, text⟩ :: back)
  contentEscaped : Escaped .content (Escape.content text).toList
  attributeValueEscaped : Escaped .attributeValue (Escape.attributeValue text).toList

theorem unquoted_attributeValue (place : AttributePlace) (text : String) :
    place.quote ∉ (attributeValue text).toList := by
  rw [attributeValue, String.toList_ofList]
  intro quoted
  obtain ⟨c, -, inside⟩ := List.mem_flatMap.mp quoted
  have plain := ne_of_mem_attributeChar inside
  have mark := (place.legible.quotable (place.quote, ⟨place.key, []⟩)
    (List.mem_append_right _ List.mem_cons_self)).mark
  rcases mark with double | single
  · exact plain.2.2.1 double
  · exact plain.2.2.2 single

/-- The attributes of a tag with an escaped value are refused exactly when the
value holds the null character. -/
theorem toOption_attributes_attributeValue (place : AttributePlace) (text : String)
    {front back : List Attribute} (readFront : place.before.mapM (·.2.resolve) = .ok front)
    (readBack : place.after.mapM (·.2.resolve) = .ok back) :
    (place.tag (attributeValue text).toList).attributes.toOption =
      if '\x00' ∈ text.toList then none
      else some (front ++ ⟨String.ofList place.key, text⟩ :: back) := by
  rw [AttributePlace.toOption_attributes_tag (unquoted_attributeValue place text) readFront
    readBack, attributeValue, String.toList_ofList, toOption_unescape_attributeValue]
  split <;> simp

/-- The place of the only attribute of a root element. -/
def rootPlace : AttributePlace where
  name := "TS".toList
  before := []
  quote := '"'
  key := "language".toList
  after := []
  named := by decide
  legible :=
    { quotable := by
        intro entry member
        obtain rfl := List.mem_singleton.mp member
        exact ⟨.inl rfl, by decide, by decide, by decide, by decide⟩
      distinct := by decide }

theorem nullFree_of_decodes {text : String} (decodes : Decodes text) : '\x00' ∉ text.toList := by
  intro null
  have read := (decodes.attributeValue rootPlace [] [] rfl rfl).2
  rw [← Except.toOption_eq_some_iff, toOption_attributes_attributeValue rootPlace text rfl rfl,
    if_pos null] at read
  cases read

/-- Escaped texts decode, except that the null character cannot be read back
from an attribute. -/
theorem decodes_iff (text : String) : Decodes text ↔ '\x00' ∉ text.toList := by
  refine ⟨nullFree_of_decodes, fun nullFree => ⟨?_, ?_, ?_, ?_⟩⟩
  · intro state inText taken opened rest boundary
    rw [content, String.toList_ofList]
    exact reaches_content inText text.toList taken opened boundary
  · intro place front back readFront readBack
    have unquoted := unquoted_attributeValue place text
    refine ⟨fun rest => AttributePlace.scanMarkup_tag unquoted rest, ?_⟩
    rw [← Except.toOption_eq_some_iff,
      toOption_attributes_attributeValue place text readFront readBack, if_neg nullFree]
  · exact escaped_content text
  · exact escaped_attributeValue text

theorem not_decodes_null : ¬ Decodes "\x00" :=
  fun decodes => nullFree_of_decodes decodes (by decide)

end Escape

end CatalogServer
