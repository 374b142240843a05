import CatalogServer.Proofs.Catalog.Depth
import CatalogServer.Proofs.Catalog.Escaping

/-!
# What a reader takes from the content of an element

A reader goes through the content of an element and stands in the same element
behind it.  Inside an element that holds only text it gathers the character
data, inside one that is skipped it takes nothing, and inside one that holds
only elements each of them leads it from one place to the next.
-/

namespace CatalogServer.Xml

namespace Content

/-- The character data that stands directly in a content. -/
def data : Content → List Char
  | .nothing => []
  | .piece located _ rest =>
      ((Reader.pieceOf located.event).map (·.text)).getD [] ++ rest.data
  | .element _ _ _ _ rest => rest.data

/-- Some character data is more than a blank, or given as a `byte` element. -/
def isSignificant : Content → Bool
  | .nothing => false
  | .piece located _ rest =>
      ((Reader.pieceOf located.event).map (·.significant)).getD false || rest.isSignificant
  | .element _ _ _ _ rest => rest.isSignificant

end Content

end CatalogServer.Xml

namespace CatalogServer.Reader

open Text Xml

/-- Goes through a content from a state. -/
def State.reads (state : State) (content : Content) : Except ReadError State :=
  content.events.foldlM State.step state

section Parts

variable {state last : State} {rest : Content}

theorem reads_piece {located : Located} {flat : located.event.isFlat = true}
    (run : state.reads (.piece located flat rest) = .ok last) :
    ∃ next, state.step located = .ok next ∧ next.reads rest = .ok last := by
  simp only [State.reads, Content.events, List.foldlM_cons] at run
  exact Except.bind_eq_ok run

/-- An element is read from its start tag through its content to its end tag. -/
theorem reads_element {startTag endTag : ByteSpan} {tag : Tag} {inner : Content}
    (run : state.reads (.element startTag tag inner endTag rest) = .ok last) :
    ∃ opened full next, state.step ⟨startTag, .opening tag⟩ = .ok opened ∧
      opened.reads inner = .ok full ∧ full.step ⟨endTag, .closing⟩ = .ok next ∧
        next.reads rest = .ok last := by
  simp only [State.reads, Content.events, List.foldlM_cons, List.foldlM_append] at run
  obtain ⟨opened, opening, run⟩ := Except.bind_eq_ok run
  obtain ⟨full, filling, run⟩ := Except.bind_eq_ok run
  obtain ⟨next, closing, run⟩ := Except.bind_eq_ok run
  exact ⟨opened, full, next, opening, filling, closing, run⟩

end Parts

theorem pieceOf_of_textPiece {parent : String} {span : ByteSpan} {event : Event} {piece : Piece}
    (read : textPiece parent ⟨span, event⟩ = .ok piece) : pieceOf event = some piece := by
  rw [← toOption_textPiece parent span, read, Except.toOption_ok]

theorem attributes_of_attributesAt {offset : Nat} {tag : Tag} {attributes : List Attribute}
    (given : attributesAt offset tag = .ok attributes) :
    tag.attributes.toOption = some attributes := by
  rw [← toOption_attributesAt offset, given, Except.toOption_ok]

theorem name_of_pieceOf {tag : Tag} {piece : Piece}
    (given : pieceOf (.selfClosing tag) = some piece) : tag.name = "byte" := by
  simp only [pieceOf] at given
  split at given
  · next named => exact eq_of_beq named
  · cases given

theorem reads_text (stay : List Char → State) (parent : String)
    (steps : ∀ text span event, event ≠ .closing → (stay text).step ⟨span, event⟩ =
      (textPiece parent ⟨span, event⟩).map fun piece => stay (text ++ piece.text))
    {content : Content} :
    ∀ {text : List Char} {last : State}, (stay text).reads content = .ok last →
      last = stay (text ++ content.data) ∧ ∀ child ∈ content.elements, child.tag.name = "byte" := by
  induction content with
  | nothing =>
      intro text last run
      cases run
      exact ⟨by rw [Content.data, List.append_nil], by simp [Content.elements]⟩
  | piece located flat rest ih =>
      intro text last run
      obtain ⟨span, event⟩ := located
      obtain ⟨next, step, run⟩ := reads_piece run
      have stays : event ≠ .closing := by
        rintro rfl
        cases flat
      rw [steps text span event stays] at step
      obtain ⟨piece, read, rfl⟩ := Except.map_eq_ok step
      have given := pieceOf_of_textPiece read
      obtain ⟨rfl, bytes⟩ := ih run
      refine ⟨by rw [Content.data, given, Option.map_some, Option.getD_some, List.append_assoc], ?_⟩
      cases event with
      | selfClosing tag => exact List.forall_mem_cons.mpr ⟨name_of_pieceOf given, bytes⟩
      | _ => exact bytes
  | element startTag tag inner endTag rest =>
      intro text last run
      obtain ⟨opened, full, next, step, -⟩ := reads_element run
      rw [steps text startTag _ (by simp)] at step
      cases step

theorem reads_skip (inside : Nat → State) {outside : State}
    (steps : ∀ depth located,
      (inside depth).step located = .ok (skipStep inside outside depth located.event))
    {content : Content} :
    ∀ {depth : Nat} {last : State}, (inside depth).reads content = .ok last →
      last = inside depth := by
  induction content with
  | nothing =>
      intro depth last run
      cases run
      rfl
  | piece located flat rest ih =>
      intro depth last run
      obtain ⟨span, event⟩ := located
      obtain ⟨next, step, run⟩ := reads_piece run
      rw [steps] at step
      cases event with
      | opening | closing => cases flat
      | _ =>
          cases step
          exact ih run
  | element startTag tag inner endTag rest innerIh restIh =>
      intro depth last run
      obtain ⟨opened, full, next, opening, filling, closing, run⟩ := reads_element run
      rw [steps] at opening
      cases opening
      cases innerIh filling
      rw [steps] at closing
      cases closing
      exact restIh run

/-- Elements lead one after the other from one place to another. -/
inductive Chain {Place : Type} (Leads : Place → Element → Place → Prop) :
    Place → List Element → Place → Prop where
  | nil {place : Place} : Chain Leads place [] place
  | cons {place next behind : Place} {element : Element} {elements : List Element}
      (first : Leads place element next) (later : Chain Leads next elements behind) :
      Chain Leads place (element :: elements) behind

/-- Inside an element where only elements count, each of them leads a reader
from one place to the next, and nothing else moves it. -/
structure Guides {Place : Type} (inside : Place → State)
    (Leads : Place → Element → Place → Prop) : Prop where
  stays {place : Place} {span : ByteSpan} {event : Event} {next : State}
    (flat : event.isFlat = true) (other : ∀ tag, event ≠ .selfClosing tag)
    (step : (inside place).step ⟨span, event⟩ = .ok next) : next = inside place
  empty {place : Place} {span : ByteSpan} {tag : Tag} {next : State}
    (step : (inside place).step ⟨span, .selfClosing tag⟩ = .ok next) :
    ∃ behind, next = inside behind ∧ Leads place ⟨span, tag, none, span.stop⟩ behind
  paired {place : Place} {startTag endTag : ByteSpan} {tag : Tag} {inner : Content}
    {opened full next : State} (opening : (inside place).step ⟨startTag, .opening tag⟩ = .ok opened)
    (filling : opened.reads inner = .ok full)
    (closing : full.step ⟨endTag, .closing⟩ = .ok next) :
    ∃ behind, next = inside behind ∧ Leads place ⟨startTag, tag, some inner, endTag.stop⟩ behind

theorem Guides.chain {Place : Type} {inside : Place → State}
    {Leads : Place → Element → Place → Prop} (guides : Guides inside Leads) {content : Content} :
    ∀ {place : Place} {last : State}, (inside place).reads content = .ok last →
      ∃ behind, last = inside behind ∧ Chain Leads place content.elements behind := by
  induction content with
  | nothing =>
      intro place last run
      cases run
      exact ⟨place, rfl, .nil⟩
  | piece located flat rest ih =>
      intro place last run
      obtain ⟨span, event⟩ := located
      obtain ⟨next, step, run⟩ := reads_piece run
      cases event with
      | selfClosing tag =>
          obtain ⟨middle, rfl, first⟩ := guides.empty step
          obtain ⟨behind, rfl, later⟩ := ih run
          exact ⟨behind, rfl, .cons first later⟩
      | _ =>
          cases guides.stays flat (by simp) step
          exact ih run
  | element startTag tag inner endTag rest _ ih =>
      intro place last run
      obtain ⟨opened, full, next, opening, filling, closing, run⟩ := reads_element run
      obtain ⟨middle, rfl, first⟩ := guides.paired opening filling closing
      obtain ⟨behind, rfl, later⟩ := ih run
      exact ⟨behind, rfl, .cons first later⟩

/-- A structural element keeps a reader where it is at an event that is neither
a tag nor an end. -/
theorem eq_of_acceptInsignificant {parent : String} {span : ByteSpan} {event : Event}
    {state next : State}
    (step : (acceptInsignificant parent ⟨span, event⟩).map (fun _ => state) = .ok next) :
    next = state := by
  obtain ⟨_, -, rfl⟩ := Except.map_eq_ok step
  rfl

theorem leafStep_eq_textPiece {element : String} {close stay : List Char → State}
    {text : List Char} {span : ByteSpan} {event : Event} (stays : event ≠ .closing) :
    leafStep element close stay text ⟨span, event⟩ =
      (textPiece element ⟨span, event⟩).map fun piece => stay (text ++ piece.text) := by
  cases event with
  | closing => exact absurd rfl stays
  | _ => rfl

theorem reads_leaf {element : String} {close : List Char → State} (stay : List Char → State)
    (steps : ∀ text located, (stay text).step located = leafStep element close stay text located)
    {content : Content} {full next : State} {span : ByteSpan}
    (filling : (stay []).reads content = .ok full)
    (closing : full.step ⟨span, .closing⟩ = .ok next) :
    next = close content.data ∧ ∀ child ∈ content.elements, child.tag.name = "byte" := by
  obtain ⟨rfl, bytes⟩ := reads_text stay element
    (fun text span event stays => by rw [steps]; exact leafStep_eq_textPiece stays) filling
  rw [steps] at closing
  cases closing
  exact ⟨rfl, bytes⟩

theorem toOption_unescape_of_blank {raw : List Char} (blank : raw.all isAsciiBlank = true) :
    (unescape raw).toOption = some raw := by
  induction raw with
  | nil => simp [unescape, unescapeFrom]
  | cons c rest ih =>
      rw [List.all_cons, Bool.and_eq_true] at blank
      obtain ⟨blankFirst, blankRest⟩ := blank
      have ordinary : c ≠ '&' := by
        rintro rfl
        exact absurd blankFirst (by decide)
      rw [toOption_unescape_cons ordinary, ih blankRest, Option.map_some]

/-- What may stand between structural elements adds at most blanks. -/
theorem blank_of_acceptInsignificant {parent : String} {span : ByteSpan} {event : Event}
    (accepted : acceptInsignificant parent ⟨span, event⟩ = .ok ()) :
    isBlankText (((pieceOf event).map (·.text)).getD []) = true := by
  cases event with
  | text raw =>
      simp only [acceptInsignificant] at accepted
      split at accepted
      · next blank =>
          rw [pieceOf, toOption_unescape_of_blank blank]
          rw [List.all_eq_true] at blank
          exact List.all_eq_true.mpr fun c member => isBlank_of_isAsciiBlank (blank c member)
      · cases accepted
  | comment | instruction => rfl
  | _ => cases accepted

theorem significant_of_not_blank {content : Content} (data : isBlankText content.data = false) :
    content.isSignificant = true := by
  induction content with
  | nothing => cases data
  | piece located flat rest ih =>
      rw [Content.data, isBlankText, List.all_append, Bool.and_eq_false_iff] at data
      rw [Content.isSignificant, Bool.or_eq_true]
      rcases data with here | later
      · left
        obtain ⟨span, event⟩ := located
        cases event with
        | text raw =>
            simp only [pieceOf] at here ⊢
            cases found : (unescape raw).toOption with
            | none => simp [found] at here
            | some text =>
                rw [found] at here
                exact congrArg (!·) here
        | cdata content => exact congrArg (!·) here
        | selfClosing tag =>
            cases found : pieceOf (.selfClosing tag) with
            | none => simp [found] at here
            | some piece =>
                simp only [pieceOf] at found
                split at found
                · obtain ⟨attributes, -, found⟩ := Option.bind_eq_some_iff.mp found
                  obtain ⟨c, -, rfl⟩ := Option.map_eq_some_iff.mp found
                  rfl
                · cases found
        | _ => cases here
      · exact .inr (ih later)
  | element startTag tag inner endTag rest _ ih => exact ih data

end CatalogServer.Reader
