import CatalogServer.Catalog.Reader
import CatalogServer.Proofs.Outcome
import Mathlib.Data.List.TakeWhile

/-!
# What events are to a reader

Apart from the errors, which name offsets, what a reader takes from an event
depends on the event alone: its attributes, whether it may stand between
structural elements, the piece of text it adds to an element, and the part
of a message that an element is.
-/

namespace CatalogServer.Reader

open Text Xml

@[simp]
theorem toOption_attributesAt (offset : Nat) (tag : Tag) :
    (attributesAt offset tag).toOption = tag.attributes.toOption := by
  simp [attributesAt]

/-- Comments, processing instructions and blanks, which may stand between
structural elements. -/
def isInsignificant : Event → Bool
  | .comment | .instruction => true
  | .text raw => raw.all isAsciiBlank
  | _ => false

@[simp]
theorem toOption_acceptInsignificant (parent : String) (span : ByteSpan) (event : Event) :
    (acceptInsignificant parent ⟨span, event⟩).toOption =
      if isInsignificant event then some () else none := by
  cases event with
  | text raw =>
      simp only [acceptInsignificant, isInsignificant]
      split <;> simp_all
  | _ => rfl

/-- The text that an event adds to the element it stands in, if it may stand
there. -/
def pieceOf : Event → Option Piece
  | .text raw => (unescape raw).toOption.map fun text => ⟨text, !isBlankText text⟩
  | .cdata content => some ⟨content, !isBlankText content⟩
  | .selfClosing tag =>
      if tag.name == "byte" then
        tag.attributes.toOption.bind fun attributes =>
          (Escape.byteValue? ((attribute? attributes "value").getD "")).map fun c => ⟨[c], true⟩
      else
        none
  | .comment | .instruction => some ⟨[], false⟩
  | _ => none

@[simp]
theorem toOption_textPiece (parent : String) (span : ByteSpan) (event : Event) :
    (textPiece parent ⟨span, event⟩).toOption = pieceOf event := by
  cases event with
  | text raw =>
      simp only [textPiece, pieceOf]
      cases unescape raw <;> rfl
  | selfClosing tag =>
      simp only [textPiece, pieceOf]
      split
      · simp only [Except.toOption_bind, toOption_attributesAt]
        congr 1
        funext attributes
        cases Escape.byteValue? ((attribute? attributes "value").getD "") <;> rfl
      · rfl
  | _ => rfl

theorem toOption_storeText (message : Message) (element text : String) (offset other : Nat) :
    (storeText message element text offset).toOption =
      (storeText message element text other).toOption := by
  unfold storeText
  repeat' split
  all_goals rfl

theorem target_of_storeText {message behind : Message} {element text : String} {offset : Nat}
    (stored : storeText message element text offset = .ok behind) :
    behind.numerus = message.numerus ∧ behind.target = message.target := by
  unfold storeText at stored
  repeat' split at stored
  all_goals
    first
    | cases stored
      exact ⟨rfl, rfl⟩
    | simp at stored

theorem storeText_unique {message first second : Message} {element text : String}
    {offset other : Nat} (stored : storeText message element text offset = .ok first)
    (otherStored : storeText message element text other = .ok second) : first = second := by
  have same := toOption_storeText message element text offset other
  rw [stored, otherStored] at same
  simpa using same

theorem extra_ne (element : String) (other : "extra-".toList.isPrefixOf element.toList = false)
    (name : String) : "extra-" ++ name ≠ element := by
  rintro rfl
  have begins : "extra-".toList.isPrefixOf ("extra-" ++ name).toList = true := by
    rw [List.isPrefixOf_iff_prefix, String.toList_append]
    exact List.prefix_append _ _
  rw [begins] at other
  exact absurd other (by decide)

theorem storeText_extra (message : Message) (name text : String) (offset : Nat) :
    storeText message ("extra-" ++ name) text offset =
      .ok { message with extras := message.extras ++ [⟨name, text⟩] } := by
  have begins : "extra-".toList.isPrefixOf ("extra-" ++ name).toList = true := by
    rw [List.isPrefixOf_iff_prefix, String.toList_append]
    exact List.prefix_append _ _
  have behind : String.ofList (("extra-" ++ name).toList.drop "extra-".length) = name := by
    rw [String.toList_append, show "extra-".length = "extra-".toList.length from rfl,
      List.drop_left, String.ofList_toList]
  unfold storeText
  simp only [beq_iff_eq, extra_ne "oldsource" (by decide),
    extra_ne "comment" (by decide), extra_ne "oldcomment" (by decide),
    extra_ne "extracomment" (by decide),
    extra_ne "translatorcomment" (by decide),
    extra_ne "userdata" (by decide), if_false, begins, if_true, behind]

end CatalogServer.Reader
