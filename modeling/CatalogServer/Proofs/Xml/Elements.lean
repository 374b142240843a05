import CatalogServer.Proofs.Text.Slices
import CatalogServer.Proofs.Xml.Locality

/-!
# The elements of a document

The events of a well-formed document are nested: every start tag has its end
tag, and what stands between the two is nested again.  `Content.nested?`
recovers this structure from a sequence of events, going through it from the
end, so that every start tag finds its end tag on top of a stack.

The events also cover the text without gaps.  So an element stands in the
text as a stretch that starts with its start tag and ends with an angle
bracket, and the elements of one content follow each other.
-/

namespace CatalogServer.Xml

open Text

theorem Tag.name_prefix (tag : Tag) (rest : List Char) :
    '<' :: tag.name.toList <+: '<' :: (tag.content ++ rest) := by
  rw [Tag.name, String.toList_ofList, List.cons_prefix_cons]
  exact ⟨rfl, (List.takeWhile_prefix _).trans (List.prefix_append _ _)⟩

/-- An event that neither opens nor closes an element. -/
def Event.isFlat : Event → Bool
  | .opening _ | .closing => false
  | _ => true

/-- What stands between the tags of an element: pieces without content of
their own, and elements. -/
inductive Content where
  | nothing
  | piece (located : Located) (flat : located.event.isFlat = true) (rest : Content)
  | element (startTag : ByteSpan) (tag : Tag) (inner : Content) (endTag : ByteSpan)
      (rest : Content)

/-- An element.  One that closes itself has no content, and its start tag is
all there is of it. -/
structure Element where
  startTag : ByteSpan
  tag : Tag
  content : Option Content
  stop : Nat

namespace Content

def events : Content → List Located
  | .nothing => []
  | .piece located _ rest => located :: rest.events
  | .element startTag tag inner endTag rest =>
      ⟨startTag, .opening tag⟩ :: (inner.events ++ ⟨endTag, .closing⟩ :: rest.events)

/-- The elements that stand directly in a content, in their order. -/
def elements : Content → List Element
  | .nothing => []
  | .piece located _ rest =>
      match located.event with
      | .selfClosing tag => ⟨located.span, tag, none, located.span.stop⟩ :: rest.elements
      | _ => rest.elements
  | .element startTag tag inner endTag rest =>
      ⟨startTag, tag, some inner, endTag.stop⟩ :: rest.elements

/-- The first events as a content, and what stands behind each end tag of an
element that starts before them, innermost first. -/
def nest : List Located → Option (Content × List (ByteSpan × Content))
  | [] => some (.nothing, [])
  | located :: events => do
      let (content, closed) ← nest events
      match located.event, closed with
      | .opening _, [] => none
      | .opening tag, (endTag, behind) :: outer =>
          some (.element located.span tag content endTag behind, outer)
      | .closing, _ => some (.nothing, (located.span, content) :: closed)
      | _, _ =>
          if flat : located.event.isFlat then some (.piece located flat content, closed) else none

section Nest

variable {span : ByteSpan} {events : List Located} {content : Content}
  {closed : List (ByteSpan × Content)}

theorem nest_flat {event : Event} (flat : event.isFlat = true)
    (found : nest events = some (content, closed)) :
    nest (⟨span, event⟩ :: events) = some (.piece ⟨span, event⟩ flat content, closed) := by
  cases event with
  | opening | closing => cases flat
  | _ => simp [nest, found, flat]

theorem nest_opening {tag : Tag} {endTag : ByteSpan} {behind : Content}
    (found : nest events = some (content, (endTag, behind) :: closed)) :
    nest (⟨span, .opening tag⟩ :: events) =
      some (.element span tag content endTag behind, closed) := by
  simp [nest, found]

theorem nest_closing (found : nest events = some (content, closed)) :
    nest (⟨span, .closing⟩ :: events) = some (.nothing, (span, content) :: closed) := by
  simp [nest, found]

end Nest

/-- The content with the given events, if they are nested. -/
def nested? (events : List Located) : Option Content :=
  match nest events with
  | some (content, []) => some content
  | _ => none

/-- The events of end tags and of what stands behind each of them. -/
def closedEvents (closed : List (ByteSpan × Content)) : List Located :=
  closed.flatMap fun behind => ⟨behind.1, .closing⟩ :: behind.2.events

theorem events_of_nest {events : List Located} {content : Content}
    {closed : List (ByteSpan × Content)} (nested : nest events = some (content, closed)) :
    events = content.events ++ closedEvents closed := by
  induction events generalizing content closed with
  | nil =>
      cases nested
      rfl
  | cons located events ih =>
      obtain ⟨span, event⟩ := located
      simp only [nest, Option.bind_eq_bind, Option.bind_eq_some_iff, Prod.exists] at nested
      obtain ⟨inner, behind, found, nested⟩ := nested
      rw [ih found]
      cases event with
      | opening tag =>
          cases behind with
          | nil => cases nested
          | cons first outer =>
              cases nested
              simp [Content.events, closedEvents]
      | closing =>
          cases nested
          simp [Content.events, closedEvents]
      | _ =>
          cases nested
          rfl

/-- The content that is recovered from events has these events. -/
theorem events_of_nested {events : List Located} {content : Content}
    (nested : nested? events = some content) : content.events = events := by
  unfold nested? at nested
  split at nested
  · next found =>
      cases nested
      simpa [closedEvents] using (events_of_nest found).symm
  · cases nested

end Content

/-- The last of some elements that has a name. -/
def lastNamed? (name : String) (elements : List Element) : Option Element :=
  (elements.filter (·.tag.name == name)).getLast?

theorem lastNamed?_cons (name : String) (element : Element) (elements : List Element) :
    lastNamed? name (element :: elements) =
      (lastNamed? name elements).or (if element.tag.name = name then some element else none) := by
  unfold lastNamed?
  by_cases named : element.tag.name = name
  · rw [List.filter_cons_of_pos (by simpa using named), List.getLast?_cons, if_pos named]
    cases (elements.filter (·.tag.name == name)).getLast? <;> rfl
  · rw [List.filter_cons_of_neg (by simpa using named), if_neg named, Option.or_none]

namespace Element

def span (element : Element) : ByteSpan :=
  ⟨element.startTag.start, element.stop⟩

/-- The content of an element, without any for one that closes itself. -/
def inner (element : Element) : Content :=
  element.content.getD .nothing

/-- The elements with a name that stand directly in an element. -/
def named (element : Element) (name : String) : List Element :=
  element.inner.elements.filter (·.tag.name == name)

/-- The last element with a name, which is the one that counts. -/
def last? (element : Element) (name : String) : Option Element :=
  lastNamed? name element.inner.elements

theorem mem_of_named {element child : Element} {name : String}
    (member : child ∈ element.named name) :
    child ∈ element.inner.elements ∧ child.tag.name = name := by
  rw [named, List.mem_filter, beq_iff_eq] at member
  exact member

theorem mem_of_last? {element child : Element} {name : String}
    (last : element.last? name = some child) :
    child ∈ element.inner.elements ∧ child.tag.name = name :=
  mem_of_named (List.mem_of_getLast? last)

end Element

/-- The root element of a document: its events are nested, and a single
element stands among them. -/
def root? (document : String) : Option Element := do
  let content ← Content.nested? (events document).events
  match content.elements with
  | [root] => some root
  | _ => none

/-- How an event is written. -/
def Event.WrittenAs (event : Event) (piece : List Char) : Prop :=
  match event with
  | .opening tag => piece = '<' :: (tag.content ++ ['>'])
  | .selfClosing tag => piece = '<' :: (tag.content ++ ['/', '>'])
  | .text raw => piece = raw ∧ raw ≠ []
  | _ => (∃ inner, piece = '<' :: inner) ∧ piece.getLast? = some '>'

/-- Events cover a text that begins at an offset: each stands right behind the
one before it. -/
inductive Covers : (offset : Nat) → List Located → List Char → Prop where
  | nil {offset : Nat} : Covers offset [] []
  | cons {offset : Nat} {event : Event} {events : List Located} {piece text : List Char}
      (written : event.WrittenAs piece)
      (rest : Covers (offset + byteSize piece) events text) :
      Covers offset (⟨⟨offset, offset + byteSize piece⟩, event⟩ :: events) (piece ++ text)

theorem opening_of_scanMarkup {text taken after : List Char} {tag : Tag}
    (recognised : scanMarkup text = .event (.opening tag) taken after) :
    taken = tag.content ++ ['>'] := by
  unfold scanMarkup scanComment scanCdata scanDoctype scanInstruction scanEndTag scanStartTag
    at recognised
  repeat' split at recognised
  all_goals cases recognised
  rfl

theorem selfClosing_of_scanMarkup {text taken after : List Char} {tag : Tag}
    (recognised : scanMarkup text = .event (.selfClosing tag) taken after) :
    taken = tag.content ++ ['/', '>'] := by
  unfold scanMarkup scanComment scanCdata scanDoctype scanInstruction scanEndTag scanStartTag
    at recognised
  repeat' split at recognised
  all_goals cases recognised
  rename_i slash _
  obtain ⟨front, rfl⟩ := List.getLast?_eq_some_iff.mp (beq_iff_eq.mp slash)
  simp

theorem Takes.writtenAs {opened behind : List (List Char)} {piece after : List Char}
    {event : Event} (takes : Takes opened piece event behind after) : event.WrittenAs piece := by
  cases event with
  | opening tag =>
      cases takes with
      | markup recognised => exact congrArg _ (opening_of_scanMarkup recognised)
  | selfClosing tag =>
      cases takes with
      | markup recognised => exact congrArg _ (selfClosing_of_scanMarkup recognised)
  | text raw =>
      cases takes with
      | markup recognised => exact absurd rfl (ne_text_of_scanMarkup recognised raw)
      | text nonempty => exact ⟨rfl, nonempty⟩
  | _ => exact takes.brackets (by simp)

theorem covers_scan {opened : List (List Char)} {text : List Char} :
    ∀ {offset stop : Nat}, (scan offset opened text).ending = .complete stop →
      Covers offset (scan offset opened text).events text := by
  induction opened, text using scan_induction with
  | done opened =>
      intro offset stop _
      rw [scan_nil]
      exact .nil
  | fault opened text error distance failed =>
      intro offset stop complete
      rw [failed] at complete
      cases complete
  | takes opened piece event behind after first ih =>
      intro offset stop complete
      rw [scan_of_takes first] at complete ⊢
      exact .cons first.writtenAs (ih complete)

namespace Covers

theorem cons_inv {offset : Nat} {span : ByteSpan} {event : Event} {events : List Located}
    {text : List Char} (covers : Covers offset (⟨span, event⟩ :: events) text) :
    ∃ piece rest, text = piece ++ rest ∧ span = ⟨offset, offset + byteSize piece⟩ ∧
      event.WrittenAs piece ∧ Covers (offset + byteSize piece) events rest := by
  cases covers with
  | cons written rest => exact ⟨_, _, rfl, rfl, written, rest⟩

theorem append_inv {offset : Nat} {first second : List Located} {text : List Char}
    (covers : Covers offset (first ++ second) text) :
    ∃ front back, text = front ++ back ∧ Covers offset first front ∧
      Covers (offset + byteSize front) second back := by
  induction first generalizing offset text with
  | nil => exact ⟨[], text, rfl, .nil, by simpa [byteSize] using covers⟩
  | cons located first ih =>
      obtain ⟨span, event⟩ := located
      obtain ⟨piece, rest, rfl, rfl, written, behind⟩ := covers.cons_inv
      obtain ⟨front, back, rfl, covered, later⟩ := ih behind
      refine ⟨piece ++ front, back, by rw [List.append_assoc], .cons written covered, ?_⟩
      rw [byteSize_append, ← Nat.add_assoc]
      exact later

end Covers

theorem Event.WrittenAs.nonempty {event : Event} {piece : List Char}
    (written : event.WrittenAs piece) : 0 < byteSize piece := by
  refine byteSize_pos ?_
  rintro rfl
  cases event with
  | opening => cases written
  | selfClosing => cases written
  | text => exact written.2 written.1.symm
  | _ => cases written.2

theorem Event.WrittenAs.getLast {event : Event} {piece : List Char}
    (written : event.WrittenAs piece) (markup : ∀ raw, event ≠ .text raw) :
    piece.getLast? = some '>' := by
  cases event with
  | opening tag =>
      subst written
      exact getLast_append (by simp) ('<' :: tag.content)
  | selfClosing tag =>
      subst written
      exact getLast_append (by simp) ('<' :: tag.content)
  | text raw => exact absurd rfl (markup raw)
  | _ => exact written.2

namespace Element

/-- An element stands in a text: its start tag, its content and its end tag do,
one behind the other. -/
inductive Stands (text : List Char) : Element → Prop where
  | empty {before startTag after : List Char} {tag : Tag}
      (whole : text = before ++ startTag ++ after)
      (written : (Event.selfClosing tag).WrittenAs startTag) :
      Stands text ⟨⟨byteSize before, byteSize (before ++ startTag)⟩, tag, none,
        byteSize (before ++ startTag)⟩
  | paired {before startTag inner endTag after : List Char} {tag : Tag} {content : Content}
      (whole : text = before ++ startTag ++ inner ++ endTag ++ after)
      (written : (Event.opening tag).WrittenAs startTag)
      (covered : Covers (byteSize (before ++ startTag)) content.events inner)
      (closed : Event.closing.WrittenAs endTag) :
      Stands text ⟨⟨byteSize before, byteSize (before ++ startTag)⟩, tag, some content,
        byteSize (before ++ startTag ++ inner ++ endTag)⟩

end Element

/-- The elements of a content stand where its events cover the text, one behind
the other. -/
theorem Content.stands_of_covers {text : List Char} (content : Content) :
    ∀ {before covered after : List Char}, text = before ++ covered ++ after →
      Covers (byteSize before) content.events covered →
        (∀ element ∈ content.elements, element.Stands text ∧
          byteSize before ≤ element.startTag.start ∧
          element.stop ≤ byteSize (before ++ covered)) ∧
        content.elements.Pairwise fun first second => first.stop ≤ second.startTag.start := by
  induction content with
  | nothing =>
      intro before covered after whole covers
      exact ⟨by simp [elements], .nil⟩
  | piece located flat rest ih =>
      intro before covered after whole covers
      obtain ⟨span, event⟩ := located
      obtain ⟨piece, behind, rfl, rfl, written, covers⟩ := covers.cons_inv
      have positive := written.nonempty
      rw [← byteSize_append] at covers
      -- the rest of the content is covered behind the piece
      have behindPiece : text = before ++ piece ++ behind ++ after := by simp [whole]
      obtain ⟨stand, ordered⟩ := ih behindPiece covers
      have later : ∀ element ∈ rest.elements, element.Stands text ∧
          byteSize before ≤ element.startTag.start ∧
          element.stop ≤ byteSize (before ++ (piece ++ behind)) := by
        intro element elementMem
        obtain ⟨stands, start, stop⟩ := stand element elementMem
        rw [byteSize_append] at start
        rw [List.append_assoc] at stop
        exact ⟨stands, by omega, stop⟩
      cases event with
      | selfClosing tag =>
          rw [← byteSize_append]
          constructor
          · intro element elementMem
            rcases List.mem_cons.mp elementMem with rfl | inRest
            · have stands : text = before ++ piece ++ (behind ++ after) := by simp [whole]
              refine ⟨.empty stands written, Nat.le_refl _, ?_⟩
              simp only [byteSize_append]
              omega
            · exact later element inRest
          · exact List.pairwise_cons.mpr ⟨fun element elementMem => (stand element elementMem).2.1,
              ordered⟩
      | _ => exact ⟨later, ordered⟩
  | element startTag tag inner endTag rest innerIh restIh =>
      intro before covered after whole covers
      obtain ⟨tagText, behindTag, rfl, rfl, written, covers⟩ := covers.cons_inv
      obtain ⟨innerText, behindInner, rfl, innerCovers, covers⟩ := covers.append_inv
      obtain ⟨endText, behind, rfl, rfl, closed, covers⟩ := covers.cons_inv
      have tagPositive := written.nonempty
      have stands : text = before ++ tagText ++ innerText ++ endText ++ (behind ++ after) := by
        simp [whole]
      simp only [← byteSize_append] at innerCovers covers ⊢
      have behindEnd : text = before ++ tagText ++ innerText ++ endText ++ behind ++ after := by
        simp [whole]
      obtain ⟨stand, ordered⟩ := restIh behindEnd covers
      constructor
      · intro element elementMem
        rcases List.mem_cons.mp elementMem with rfl | inRest
        · refine ⟨.paired stands written innerCovers closed, Nat.le_refl _, ?_⟩
          simp only [byteSize_append]
          omega
        · obtain ⟨stands, start, stop⟩ := stand element inRest
          simp only [byteSize_append] at start stop ⊢
          exact ⟨stands, by omega, by omega⟩
      · exact List.pairwise_cons.mpr ⟨fun element elementMem => (stand element elementMem).2.1,
          ordered⟩

namespace Element

variable {text : List Char} {element : Element}

theorem Stands.ordered (stands : element.Stands text) :
    element.startTag.start < element.startTag.stop ∧ element.startTag.stop ≤ element.stop ∧
      element.stop ≤ byteSize text := by
  cases stands with
  | empty whole written =>
      have positive := written.nonempty
      rw [whole]
      simp only [byteSize_append]
      omega
  | paired whole written _ _ =>
      have positive := written.nonempty
      rw [whole]
      simp only [byteSize_append]
      omega

theorem Stands.inner (stands : element.Stands text) :
    (∀ child ∈ element.inner.elements, child.Stands text ∧
        element.startTag.stop ≤ child.startTag.start ∧ child.stop ≤ element.stop) ∧
      element.inner.elements.Pairwise fun first second => first.stop ≤ second.startTag.start := by
  cases stands with
  | empty => exact ⟨by simp [Element.inner, Content.elements], .nil⟩
  | @paired before startTag inner endTag after tag content whole written covered closed =>
      have inside : text = before ++ startTag ++ inner ++ (endTag ++ after) := by simp [whole]
      obtain ⟨stand, ordered⟩ := content.stands_of_covers inside covered
      refine ⟨fun child childMem => ?_, ordered⟩
      obtain ⟨childStands, start, stop⟩ := stand child childMem
      refine ⟨childStands, start, Nat.le_trans stop ?_⟩
      rw [byteSize_append _ endTag]
      exact Nat.le_add_right _ _

/-- An element and its start tag show the name of its tag. -/
theorem Stands.shows (stands : element.Stands text) :
    element.span.Shows text element.tag.name ∧ element.startTag.Shows text element.tag.name := by
  cases stands with
  | @empty before startTag after tag whole written =>
      have closed := written.getLast (by simp)
      subst written
      have shown := shows_of_append whole (tag.name_prefix _) closed
      exact ⟨shown, shown⟩
  | @paired before startTag inner endTag after tag content whole written covered closed =>
      have tagClosed := written.getLast (by simp)
      have spelled : '<' :: tag.name.toList <+: startTag := by
        subst written
        exact tag.name_prefix _
      constructor
      · have grouped : text = before ++ (startTag ++ inner ++ endTag) ++ after := by simp [whole]
        have stop : byteSize (before ++ startTag ++ inner ++ endTag) =
            byteSize (before ++ (startTag ++ inner ++ endTag)) := by simp
        simp only [span, stop]
        refine shows_of_append grouped (spelled.trans ?_) (getLast_append closed.2 _)
        rw [List.append_assoc]
        exact List.prefix_append _ _
      · have grouped : text = before ++ startTag ++ (inner ++ endTag ++ after) := by simp [whole]
        exact shows_of_append grouped spelled tagClosed

end Element

theorem stands_of_root {document : String} {root : Element} {stop : Nat}
    (found : root? document = some root) (complete : (events document).ending = .complete stop) :
    root.Stands (dropByteOrderMark document.toList) := by
  simp only [root?, Option.bind_eq_bind, Option.bind_eq_some_iff] at found
  obtain ⟨content, nested, single⟩ := found
  have covered : Covers (byteSize []) content.events (dropByteOrderMark document.toList) := by
    rw [Content.events_of_nested nested]
    exact covers_scan complete
  have whole : dropByteOrderMark document.toList =
      [] ++ dropByteOrderMark document.toList ++ [] := by simp
  obtain ⟨stand, -⟩ := content.stands_of_covers whole covered
  refine (stand root ?_).1
  split at single
  · next elements =>
      cases single
      simp [elements]
  · cases single

end CatalogServer.Xml
