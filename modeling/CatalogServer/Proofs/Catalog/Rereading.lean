import CatalogServer.Proofs.Catalog.RoundTrip

/-!
# Which documents survive reading, writing and reading again

What a reader puts into a catalog is less than what a catalog can hold: names
of additional data have no blanks, and a message without numerus never has
plural forms of which there are none.  What is left of the conditions under
which a written catalog is read back tells exactly which documents are lost.
-/

namespace CatalogServer

open Text Xml Reader

/-- What every message has that was read from a document. -/
structure Message.AsRead (message : Message) : Prop where
  /-- No blank stands in the name of additional data. -/
  unblank : ∀ extra ∈ message.extras, ∀ c ∈ extra.name.toList, isMarkupBlank c = false
  /-- Without numerus there are plural forms, or one form. -/
  formed : Likeness.Admits message.numerus message.target.text

/-- The messages that are complete are as they are read. -/
def Reader.InContext.AsRead (place : InContext) : Prop :=
  (∀ message ∈ place.document.catalog.messages, message.AsRead) ∧
    ∀ message ∈ place.context.context.messages, message.AsRead

/-- So is the message at hand. -/
def Reader.InMessage.AsRead (place : InMessage) : Prop :=
  place.toInContext.AsRead ∧ place.message.message.AsRead

/-- The messages that a reader holds are as they are read. -/
def messagesAsRead : Trait where
  prolog := True
  document document := ∀ message ∈ document.catalog.messages, message.AsRead
  context place := place.AsRead
  part place _ := place.AsRead
  message place := place.AsRead
  location place := place.AsRead
  text element place _ := place.AsRead ∧ ∀ c ∈ element.toList, isMarkupBlank c = false
  target place _ := place.AsRead

theorem asRead_of_storeText {message behind : Message} {element text : String} {offset : Nat}
    (stored : storeText message element text offset = .ok behind) (asRead : message.AsRead)
    (unblank : ∀ c ∈ element.toList, isMarkupBlank c = false) : behind.AsRead := by
  obtain ⟨numerus, target⟩ := target_of_storeText stored
  constructor
  · intro extra member
    rw [extras_of_storeText stored, List.mem_append] at member
    rcases member with member | member
    · exact asRead.unblank extra member
    · unfold extraOf at member
      split at member
      · rw [List.mem_singleton] at member
        subst member
        intro c inside
        rw [String.toList_ofList] at inside
        exact unblank c (List.mem_of_mem_drop inside)
      · simp at member
  · rw [numerus, target]
    exact asRead.formed

theorem messagesAsRead_laws (span : ByteSpan) :
    Trait.Laws messagesAsRead messagesAsRead span where
  prolog := id
  document := id
  context := id
  part := id
  message := id
  location := id
  text := id
  target := id
  root _ _ _ _ := by simp [messagesAsRead, Catalog.messages]
  openContext holds := ⟨holds, by simp⟩
  openPart := id
  closePart part _ holds := by cases part <;> exact holds
  emptyName := id
  emptyComment := id
  closeContext holds _ := by
    intro message member
    simp only [addContext, Catalog.messages, List.flatMap_append, List.flatMap_singleton,
      List.mem_append] at member
    rcases member with member | member
    · exact holds.1 message member
    · exact holds.2 message member
  openMessage _ _ holds := ⟨holds, by simp, by simp [Likeness.Admits]⟩
  openLocation _ holds := ⟨holds.1, holds.2.unblank, holds.2.formed⟩
  closeLocation := id
  emptyLocation _ holds := ⟨holds.1, holds.2.unblank, holds.2.formed⟩
  openText unblank holds := ⟨holds, unblank⟩
  closeSource _ holds := ⟨holds.1.1, holds.1.2.unblank, holds.1.2.formed⟩
  emptySource holds := ⟨holds.1, holds.2.unblank, holds.2.formed⟩
  closeText holds stored := ⟨holds.1.1, asRead_of_storeText stored holds.1.2 holds.2⟩
  emptyText unblank holds stored := ⟨holds.1, asRead_of_storeText stored holds.2 unblank⟩
  openTarget := id
  closeTarget _ admits holds := ⟨holds.1, holds.2.unblank, admits⟩
  emptyTarget _ admits holds := ⟨holds.1, holds.2.unblank, admits⟩
  closeMessage holds _ := by
    refine ⟨holds.1.1, fun message member => ?_⟩
    rcases List.mem_append.mp member with member | member
    · exact holds.1.2 message member
    · rw [List.mem_singleton.mp member]
      exact holds.2

/-- Every message that is read from a document is as messages are read. -/
theorem asRead_of_read {text : String} {document : Document}
    (read : Document.read text = .ok document) :
    ∀ message ∈ document.catalog.messages, message.AsRead :=
  Trait.holds_of_read messagesAsRead_laws trivial read

theorem isPlainName_iff_of_unblank {name : List Char}
    (unblank : ∀ c ∈ name, isMarkupBlank c = false) :
    isPlainName name = true ↔ isClosed name = true ∧ name.getLast? ≠ some '/' := by
  have blanks : (name.all fun c => !isMarkupBlank c) = true := by
    rw [List.all_eq_true]
    intro c member
    rw [unblank c member]
    rfl
  rw [isPlainName, blanks, Bool.and_true, Bool.and_eq_true, bne_iff_ne]

/-- A document that was read survives being written and read again exactly
when no attribute holds the null character, no name of additional data leaves
a quote open or ends in a slash, and no message with numerus has a plain text
without a visible character. -/
theorem read_write_of_read {text : String} {document : Document}
    (read : Document.read text = .ok document) :
    (∃ again, Document.read (Writer.write document.catalog) = .ok again ∧
        again.catalog = document.catalog) ↔
      (∀ value ∈ document.catalog.attributeValues, '\x00' ∉ value.toList) ∧
        ∀ message ∈ document.catalog.messages,
          (∀ extra ∈ message.extras,
            isClosed extra.name.toList = true ∧ extra.name.toList.getLast? ≠ some '/') ∧
          (message.numerus = true → ∀ text, message.target.text = .single (.plain text) →
            text.toList.any isVisible = true) := by
  have asRead := asRead_of_read read
  rw [read_write_eq_iff]
  refine and_congr Iff.rfl (forall₂_congr fun message member => ?_)
  have names : (∀ extra ∈ message.extras, isPlainName extra.name.toList = true) ↔
      ∀ extra ∈ message.extras,
        isClosed extra.name.toList = true ∧ extra.name.toList.getLast? ≠ some '/' :=
    forall₂_congr fun extra inside =>
      isPlainName_iff_of_unblank ((asRead message member).unblank extra inside)
  have shapes : message.Recognisable ↔
      (message.numerus = true → ∀ text, message.target.text = .single (.plain text) →
        text.toList.any isVisible = true) :=
    ⟨fun recognisable => recognisable.visible,
      fun visible => ⟨visible, (asRead message member).formed⟩⟩
  exact and_congr names shapes

/-- A document with a plural form and additional data. -/
def countedText : String :=
  "<TS><context><name>n</name><message numerus=\"yes\"><source>s</source><translation>" ++
    "<numerusform>a</numerusform></translation><extra-x>v</extra-x></message></context></TS>"

def countedDocument : Document :=
  { catalog :=
      { contexts := [
          { name := "n"
            messages := [
              { numerus := true
                source := "s"
                target := ⟨.finished, .plural [.plain "a"]⟩
                extras := [⟨"x", "v"⟩] }] }] }
    spans :=
      { root := ⟨0, 4⟩
        contexts := [
          { element := ⟨4, 163⟩
            name := ⟨13, 27⟩
            messages := [⟨⟨27, 153⟩, ⟨50, 68⟩, some ⟨⟨68, 123⟩, ⟨68, 81⟩⟩⟩] }] } }

theorem read_write_countedText :
    ∃ document, Document.read countedText = .ok document ∧
      ∃ again, Document.read (Writer.write document.catalog) = .ok again ∧
        again.catalog = document.catalog := by
  have read : Document.read countedText = .ok countedDocument :=
    Except.toOption_eq_some_iff.mp (by decide +kernel)
  refine ⟨countedDocument, read, (read_write_of_read read).mpr ⟨by decide, ?_⟩⟩
  intro message member
  simp only [Catalog.messages, countedDocument, List.flatMap_cons, List.flatMap_nil,
    List.append_nil, List.mem_singleton] at member
  subst member
  exact ⟨by decide, fun _ text single => by simp at single⟩

/-- A document in which a message with numerus has no target. -/
def untranslatedText : String :=
  "<TS><context><name>n</name><message numerus=\"yes\"><source>s</source></message></context></TS>"

def untranslatedDocument : Document :=
  { catalog := { contexts := [{ name := "n", messages := [{ numerus := true, source := "s" }] }] }
    spans :=
      { root := ⟨0, 4⟩
        contexts := [
          { element := ⟨4, 88⟩
            name := ⟨13, 27⟩
            messages := [⟨⟨27, 78⟩, ⟨50, 68⟩, none⟩] }] } }

/-- Not every document survives: a message with numerus and without a target
is read as one with an empty text, and read again as one without forms. -/
theorem not_read_write_untranslatedText :
    ¬ ∀ text document, Document.read text = .ok document →
      ∃ again, Document.read (Writer.write document.catalog) = .ok again ∧
        again.catalog = document.catalog := by
  intro survives
  have read : Document.read untranslatedText = .ok untranslatedDocument :=
    Except.toOption_eq_some_iff.mp (by decide +kernel)
  have same := survives untranslatedText untranslatedDocument read
  rw [read_write_eq_iff] at same
  have recognisable := (same.2 { numerus := true, source := "s" } (by decide)).2
  exact absurd (recognisable.visible rfl "" rfl) (by decide)

end CatalogServer
