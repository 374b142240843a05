import CatalogServer.Proofs.Catalog.Depth
import CatalogServer.Proofs.Catalog.Traits
import CatalogServer.Workspace.Detection

/-!
# The language of a catalog file

The language of a file is looked for in the start tag of the first element of
its text, while a reader goes through the whole text and keeps what the root
element gives.  In a text that is read the two agree, as nothing but blanks,
comments and declarations stands in front of the root and all of its attributes
can be read.  So a language that is given and not blank counts, without the
blanks around it, and otherwise the language is that of the name of the file.
-/

namespace CatalogServer

open Text Xml Reader

namespace Reader

/-- The catalog that a reader is filling gives a language. -/
def givesLanguage (language : Option String) : Trait where
  prolog := False
  document document := document.catalog.language = language
  context place := place.document.catalog.language = language
  part place _ := place.document.catalog.language = language
  message place := place.document.catalog.language = language
  location place := place.document.catalog.language = language
  text _ place _ := place.document.catalog.language = language
  target place _ := place.document.catalog.language = language

theorem givesLanguage_laws (language : Option String) (span : ByteSpan) :
    Trait.Laws (givesLanguage language) (givesLanguage language) span where
  prolog := id
  document := id
  context := id
  part := id
  message := id
  location := id
  text := id
  target := id
  root _ _ _ := False.elim
  openContext := id
  openPart := id
  closePart part _ given := by cases part <;> exact given
  emptyName := id
  emptyComment := id
  closeContext given _ := given
  openMessage _ _ := id
  openLocation _ := id
  closeLocation := id
  emptyLocation _ := id
  openText _ := id
  closeSource _ := id
  emptySource := id
  closeText given _ := given
  emptyText _ given _ := given
  openTarget := id
  closeTarget _ _ := id
  emptyTarget _ _ := id
  closeMessage given _ := given

theorem language_of_rootDocument {span : ByteSpan} {tag : Tag} {document : Document}
    (opened : rootDocument span tag = .ok document) :
    ∃ attributes, tag.attributes = .ok attributes ∧
      document.catalog.language = attribute? attributes "language" := by
  unfold rootDocument at opened
  obtain ⟨attributes, given, opened⟩ := Except.bind_eq_ok opened
  cases opened
  exact ⟨attributes, Except.mapError_eq_ok given, rfl⟩

end Reader

theorem Xml.Tag.attribute?_of_attributes {tag : Tag} {attributes : List Attribute}
    (given : tag.attributes = .ok attributes) (key : String) :
    attribute? attributes key =
      ((tag.rawAttributes.filterMap Except.toOption).find? (·.key == key.toList)).bind
        fun raw => raw.resolve.toOption.map (·.value) := by
  unfold Tag.attributes at given
  generalize tag.rawAttributes = reads at given ⊢
  induction reads generalizing attributes with
  | nil =>
      cases given
      rfl
  | cons read reads ih =>
      rw [List.mapM_cons] at given
      obtain ⟨found, first, behind⟩ := Except.bind_eq_ok given
      obtain ⟨raw, rfl, resolved⟩ := Except.bind_eq_ok first
      obtain ⟨others, later, same⟩ := Except.bind_eq_ok behind
      cases same
      have keyEq : found.key = String.ofList raw.key := by
        unfold RawAttribute.resolve at resolved
        obtain ⟨value, -, resolved⟩ := Except.bind_eq_ok resolved
        cases resolved
        rfl
      have sameTest : (found.key == key) = (raw.key == key.toList) := by
        rw [Bool.eq_iff_iff, beq_iff_eq, beq_iff_eq, keyEq, ← String.toList_inj, String.toList_ofList]
      rw [attribute?, List.find?_cons, sameTest, List.filterMap_cons_some (Except.toOption_ok raw),
        List.find?_cons]
      cases raw.key == key.toList with
      | true => simp [resolved]
      | false => exact ih later

namespace Detection

/-- A language without the blanks around it, if there is anything else. -/
def usableLanguage? (given : String) : Option String :=
  if trimmed given == "" then none else some (trimmed given)

theorem trimmed_eq_empty_iff {text : String} :
    trimmed text = "" ↔ isBlankText text.toList = true := by
  rw [trimmed, String.ofList_eq_empty_iff, trim, trimEnd, List.reverse_eq_nil_iff,
    List.dropWhile_eq_nil_iff, isBlankText, List.all_eq_true]
  simp only [List.mem_reverse]
  constructor
  · intro blank
    rw [← List.dropWhile_eq_nil_iff]
    by_contra nonempty
    have visible := List.head_dropWhile_not isBlank nonempty
    have member := blank _ (List.head_mem nonempty)
    rw [visible] at member
    cases member
  · intro blank c member
    exact blank c ((List.dropWhile_suffix _).mem member)

theorem languageAttribute?_eq {tag : Tag} {attributes : List Attribute}
    (given : tag.attributes = .ok attributes) :
    languageAttribute? tag = (attribute? attributes "language").bind usableLanguage? := by
  rw [tag.attribute?_of_attributes given]
  unfold languageAttribute?
  simp only [Option.bind_eq_bind]
  cases (tag.rawAttributes.filterMap Except.toOption).find? (·.key == "language".toList) with
  | none => rfl
  | some raw =>
      simp only [Option.bind_some]
      cases raw.resolve <;> rfl

/-- The first element among events that are read is the root element, and it
gives the language of the catalog. -/
theorem rootLanguage?_of_run {events : List Located} {document : Document}
    (run : events.foldlM State.step .prolog = .ok (.epilog document)) :
    rootLanguage? events = document.catalog.language.bind usableLanguage? := by
  have kept {tag : Tag} {opened : Document} {behind : List Located} {state : State} {span : ByteSpan}
      (given : rootDocument span tag = .ok opened)
      (holds : (givesLanguage opened.catalog.language).Holds state)
      (run : behind.foldlM State.step state = .ok (.epilog document)) :
      languageAttribute? tag = document.catalog.language.bind usableLanguage? := by
    obtain ⟨attributes, read, languageEq⟩ := language_of_rootDocument given
    have same : document.catalog.language = opened.catalog.language :=
      Trait.holds_of_events (givesLanguage_laws _) holds run
    rw [languageAttribute?_eq read, ← languageEq, same]
  induction events with
  | nil => cases run
  | cons located events ih =>
      obtain ⟨span, event⟩ := located
      rw [List.foldlM_cons] at run
      obtain ⟨next, step, run⟩ := Except.bind_eq_ok run
      simp only [State.step] at step
      cases event with
      | opening tag | selfClosing tag =>
          simp only [prologStep] at step
          split at step
          · next named =>
              obtain ⟨opened, given, rfl⟩ := Except.map_eq_ok step
              simp only [rootLanguage?, named, if_true]
              exact kept given (by rfl) run
          · cases step
      | text raw =>
          simp only [prologStep] at step
          split at step
          · cases step
            exact ih run
          · cases step
      | cdata | closing => cases step
      | _ =>
          cases step
          exact ih run

/-- The language of a text that is read is the one that its root element gives,
without the blanks around it.  Where none is given or it is blank, the language
depends on the path alone. -/
theorem language_of_read {text : String} {document : Document}
    (read : Document.read text = .ok document) (path : String) :
    (∀ given, document.catalog.language = some given → isBlankText given.toList = false →
      language path text = trimmed given) ∧
    ((∀ given, document.catalog.language = some given → isBlankText given.toList = true) →
      language path text = (nameLocale? path).getD unknownLanguage) := by
  have found := rootLanguage?_of_run (run_of_read read).1
  refine ⟨?_, ?_⟩
  · intro given languageEq visible
    have usable : trimmed given ≠ "" := by
      rw [ne_eq, trimmed_eq_empty_iff, visible]
      exact Bool.false_ne_true
    rw [languageEq, Option.bind_some, usableLanguage?, if_neg (by simpa using usable)] at found
    rw [language, found]
  · intro blank
    have unusable : rootLanguage? (events text).events = none := by
      rw [found]
      cases languageEq : document.catalog.language with
      | none => rfl
      | some given =>
          rw [Option.bind_some, usableLanguage?, if_pos]
          rw [beq_iff_eq, trimmed_eq_empty_iff]
          exact blank given languageEq
    rw [language, unusable]

/-- A document whose root element stands behind one in a comment and spells its
language with blanks and a reference. -/
def declaredText : String :=
  "<?xml version='1.0'?>\n<!-- <TS language='sv'> --><TS version='2.1' language='\n d&#97; '/>"

/-- A document with a blank language. -/
def blankText : String :=
  "<TS language=' '></TS>"

theorem language_declaredText :
    (Document.read declaredText).toOption.isSome = true ∧
      language "locale/bitcoin_de.ts" declaredText = "da" ∧
      (Document.read blankText).toOption.isSome = true ∧
        language "locale/bitcoin_de.ts" blankText = "de" := by
  have given : (Document.read declaredText).toOption.map (·.catalog.language) =
      some (some "\n da ") := by decide +kernel
  have blank : (Document.read blankText).toOption.map (·.catalog.language) =
      some (some " ") := by decide +kernel
  obtain ⟨document, read, languageEq⟩ := Except.toOption_map_eq_some_iff.mp given
  obtain ⟨other, otherRead, blankEq⟩ := Except.toOption_map_eq_some_iff.mp blank
  have declared := (language_of_read read "locale/bitcoin_de.ts").1 _ languageEq (by decide)
  have named := (language_of_read otherRead "locale/bitcoin_de.ts").2 fun given givenEq => by
    rw [blankEq, Option.some.injEq] at givenEq
    subst givenEq
    decide
  refine ⟨by rw [read]; rfl, ?_, by rw [otherRead]; rfl, ?_⟩
  · rw [declared]
    decide
  · rw [named]
    decide +kernel

end Detection

end CatalogServer
