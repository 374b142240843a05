import CatalogServer.Proofs.Catalog.Outline

/-!
# What is kept of a target element

A target should hold what stands in its element: character data that is more
than blanks, or else the plural forms and length variants, in their order.
Character data beside plural forms or length variants is refused.  Two other
mixtures are accepted, although a target cannot hold them: character data in an
element that announces length variants, and plural forms beside length
variants.  Apart from these two, a target keeps everything.
-/

namespace CatalogServer

open Text Xml Reader

/-- A part of a target: a plural form or a length variant. -/
inductive TargetPart where
  | form (form : FormText)
  | variant (text : String)

/-- A part holds what stands in an element of its kind. -/
def TargetPart.Holds : TargetPart → Element → Prop
  | .form held, element => element.tag.name = "numerusform" ∧ held.Holds element
  | .variant held, element => element.tag.name = "lengthvariant" ∧ held = element.text

def TargetText.parts : TargetText → List TargetPart
  | .single (.plain _) => []
  | .single (.lengthVariants texts) => texts.map .variant
  | .plural forms => forms.map .form

namespace Xml.Element

/-- An element is a plural form or a length variant. -/
def isPart (element : Element) : Bool :=
  element.tag.name == "numerusform" || element.tag.name == "lengthvariant"

/-- The plural forms and length variants that stand directly in an element. -/
def parts (element : Element) : List Element :=
  element.inner.elements.filter isPart

/-- Some character data directly in an element is more than blanks. -/
def HasData (element : Element) : Prop :=
  isBlankText element.inner.data = false

/-- A mixture that is accepted although no target text can hold it. -/
def Mixes (element : Element) : Prop :=
  element.announcesVariants = true ∧ element.HasData ∨
    element.named "numerusform" ≠ [] ∧ element.named "lengthvariant" ≠ []

theorem parts_eq_forms {element : Element} (noVariant : element.named "lengthvariant" = []) :
    element.parts = element.named "numerusform" := by
  refine List.filter_congr fun child member => ?_
  have other := List.filter_eq_nil_iff.mp noVariant child member
  simp only [Bool.not_eq_true] at other
  rw [isPart, other, Bool.or_false]

theorem parts_eq_variants {element : Element} (noForm : element.named "numerusform" = []) :
    element.parts = element.named "lengthvariant" := by
  refine List.filter_congr fun child member => ?_
  have other := List.filter_eq_nil_iff.mp noForm child member
  simp only [Bool.not_eq_true] at other
  rw [isPart, other, Bool.false_or]

end Xml.Element

/-- A target text keeps what stands in an element. -/
structure TargetText.Keeps (text : TargetText) (element : Element) : Prop where
  data : element.HasData → text = .single (.plain element.text)
  parts : ¬ element.HasData → List.Forall₂ TargetPart.Holds text.parts element.parts

namespace Reader

/-- A draft has taken what stands in an element. -/
structure TakenFrom (draft : TargetDraft) (element : Element) : Prop where
  announces : draft.announcesVariants = element.announcesVariants
  text : draft.text = element.inner.data
  forms : draft.forms = element.forms
  variants : draft.variants = element.variants
  whole : ∀ child ∈ element.named "numerusform", child.form.Holds child
  /-- Beside data that counts there are neither plural forms nor length
  variants. -/
  alone : element.HasData →
    draft.textStart.isSome = true ∧ element.forms = [] ∧ element.variants = []

theorem takenFrom_of_gathered {startTag : ByteSpan} {tag : Tag} {inner : Content} {stop : Nat}
    {attributes : List Attribute} {draft : TargetDraft} {status : Status}
    (given : tag.attributes.toOption = some attributes)
    (gathered : Gathered
      { startTag, status, announcesVariants := announcesVariants attributes } draft inner)
    (alone : draft.textStart.isSome = true → draft.forms = [] ∧ draft.variants = []) :
    TakenFrom draft ⟨startTag, tag, some inner, stop⟩ where
  announces := by
    rw [gathered.announces, Element.announcesVariants, given]
    rfl
  text := gathered.text
  forms := gathered.forms
  variants := gathered.variants
  whole := gathered.whole
  alone data := by
    have counts : inner.isSignificant = true := significant_of_not_blank data
    have significant : draft.textStart.isSome = true := by
      rw [gathered.significant, counts, Bool.or_true]
    refine ⟨significant, ?_⟩
    have none := alone significant
    rw [gathered.forms, gathered.variants] at none
    exact none

section Draft

variable {element : Element} {draft : TargetDraft} {numerus : Bool}

/-- Plural forms are all that is kept exactly if no length variants stand beside
them. -/
theorem holds_forms_iff
    (whole : ∀ child ∈ element.named "numerusform", child.form.Holds child) :
    List.Forall₂ TargetPart.Holds (TargetText.plural element.forms).parts element.parts ↔
      element.named "lengthvariant" = [] := by
  constructor
  · intro kept
    refine List.eq_nil_iff_forall_not_mem.mpr fun child member => ?_
    obtain ⟨inside, named⟩ := Element.mem_of_named member
    have isPart : child ∈ element.parts :=
      List.mem_filter.mpr ⟨inside, by simp [Element.isPart, named]⟩
    obtain ⟨number, bound, found⟩ := List.mem_iff_getElem.mp isPart
    have holds := kept.get (by rw [kept.length_eq]; exact bound) bound
    simp only [TargetText.parts, List.get_eq_getElem, List.getElem_map, found,
      TargetPart.Holds, named] at holds
    exact absurd holds.1 (by decide)
  · intro noVariant
    rw [Element.parts_eq_forms noVariant, Element.forms, TargetText.parts, List.map_map,
      List.forall₂_map_left_iff, List.forall₂_same]
    exact fun child member => ⟨(Element.mem_of_named member).2, whole child member⟩

theorem holds_variants (noForm : element.named "numerusform" = []) :
    List.Forall₂ TargetPart.Holds (element.variants.map .variant) element.parts := by
  rw [Element.parts_eq_variants noForm, Element.variants, List.map_map,
    List.forall₂_map_left_iff, List.forall₂_same]
  exact fun child member => ⟨(Element.mem_of_named member).2, rfl⟩

/-- Character data that counts is kept exactly if no length variants are
announced. -/
theorem keeps_iff_of_data (taken : TakenFrom draft element) (data : element.HasData) :
    (targetText numerus draft).Keeps element ↔ ¬ element.Mixes := by
  obtain ⟨started, noForms, noVariants⟩ := taken.alone data
  obtain ⟨start, startEq⟩ := Option.isSome_iff_exists.mp started
  have noForm : element.named "numerusform" = [] := List.map_eq_nil_iff.mp noForms
  have textEq : targetText numerus draft =
      if element.announcesVariants then .single (.lengthVariants [])
      else .single (.plain element.text) := by
    simp [targetText, taken.forms, taken.variants, noForms, noVariants, taken.announces,
      taken.text, startEq, Element.text]
  cases announces : element.announcesVariants with
  | false =>
      rw [textEq, announces]
      refine iff_of_true ⟨fun _ => rfl, fun noData => absurd data noData⟩ ?_
      rintro (⟨announced, -⟩ | ⟨someForm, -⟩)
      · rw [announces] at announced
        cases announced
      · exact someForm noForm
  | true =>
      rw [textEq, announces]
      refine iff_of_false (fun keeps => ?_) fun apart => apart (.inl ⟨announces, data⟩)
      have equal := keeps.data data
      cases equal

/-- Without such data, plural forms and length variants are kept exactly if
there are not both. -/
theorem keeps_iff_of_blank (taken : TakenFrom draft element) (blank : ¬ element.HasData) :
    (targetText numerus draft).Keeps element ↔ ¬ element.Mixes := by
  have keepsIff (text : TargetText) : text.Keeps element ↔
      List.Forall₂ TargetPart.Holds text.parts element.parts :=
    ⟨fun keeps => keeps.parts blank, fun parts => ⟨fun data => absurd data blank, fun _ => parts⟩⟩
  rw [keepsIff]
  by_cases noForm : element.named "numerusform" = []
  · have noForms : element.forms = [] := List.map_eq_nil_iff.mpr noForm
    refine iff_of_true ?_ ?_
    · have parts : (targetText numerus draft).parts = element.variants.map .variant := by
        simp only [targetText, taken.forms, noForms, taken.variants, List.isEmpty_nil,
          Bool.not_true, Bool.false_eq_true, if_false]
        split
        · rfl
        · next noneAnnounced =>
            have noVariants : element.variants = [] := by simp_all
            rw [noVariants]
            split <;> rfl
      rw [parts]
      exact holds_variants noForm
    · rintro (⟨-, data⟩ | ⟨someForm, -⟩)
      · exact blank data
      · exact someForm noForm
  · have someForms : element.forms ≠ [] := fun none => noForm (List.map_eq_nil_iff.mp none)
    have plural : targetText numerus draft = .plural element.forms := by
      simp [targetText, taken.forms, someForms]
    rw [plural, holds_forms_iff taken.whole, Element.Mixes]
    constructor
    · rintro noVariant (⟨-, data⟩ | ⟨-, someVariant⟩)
      · exact blank data
      · exact someVariant noVariant
    · intro unmixed
      by_contra someVariant
      exact unmixed (.inr ⟨noForm, someVariant⟩)

end Draft

theorem keeps_emptyTargetText {element : Element} (empty : element.content = none)
    (numerus announced : Bool) :
    (emptyTargetText numerus announced).Keeps element ∧ ¬ element.Mixes := by
  have innerEq : element.inner = .nothing := by rw [Element.inner, empty, Option.getD_none]
  have noData : ¬ element.HasData := by
    rw [Element.HasData, innerEq]
    decide
  refine ⟨⟨fun data => absurd data noData, fun _ => ?_⟩, ?_⟩
  · have noParts : (emptyTargetText numerus announced).parts = [] := by
      cases numerus <;> cases announced <;> rfl
    rw [noParts, Element.parts, innerEq]
    exact .nil
  · rintro (⟨-, data⟩ | ⟨someForm, -⟩)
    · exact noData data
    · rw [Element.named, innerEq] at someForm
      exact someForm rfl

/-- The target that is read from an element keeps what stands in it, unless it
is one of the two mixtures. -/
theorem keeps_iff_of_readsTarget {numerus : Bool} {element : Element} {target : Target}
    (reads : ReadsTarget numerus element target) :
    target.text.Keeps element ↔ ¬ element.Mixes := by
  cases reads with
  | @empty startTag tag stop attributes given =>
      have empty : Element.content ⟨startTag, tag, none, stop⟩ = none := rfl
      obtain ⟨keeps, unmixed⟩ := keeps_emptyTargetText empty numerus (announcesVariants attributes)
      exact iff_of_true keeps unmixed
  | @paired startTag tag inner stop attributes draft given gathered alone =>
      have taken : TakenFrom draft ⟨startTag, tag, some inner, stop⟩ :=
        takenFrom_of_gathered given gathered alone
      by_cases data : Element.HasData ⟨startTag, tag, some inner, stop⟩
      · exact keeps_iff_of_data taken data
      · exact keeps_iff_of_blank taken data

end Reader

/-- The element of the message at an index of a document. -/
def messageElement? (text : String) (index : MessageIndex) : Option Element := do
  let root ← root? text
  let context ← (root.named "context")[index.context]?
  (context.named "message")[index.message]?

/-- Every message of a document that is read has its element in the text.  If
there is a target element in it, the last one counts, and what stands in that
is kept exactly if it does not mix what no target can hold. -/
theorem Document.keeps_iff {text : String} {document : Document}
    (read : Document.read text = .ok document) {index : MessageIndex} {message : Message}
    (found : document.catalog.message? index = some message) :
    ∃ element, messageElement? text index = some element ∧
      ∀ target, element.last? "translation" = some target →
        (message.target.text.Keeps target ↔ ¬ target.Mixes) := by
  obtain ⟨root, rootEq, outlines⟩ := outlines_of_read read
  simp only [Catalog.message?, Option.bind_eq_bind, Option.bind_eq_some_iff] at found
  obtain ⟨context, contextAt, messageAt⟩ := found
  obtain ⟨parent, spans, parentAt, -, readsContext⟩ :=
    outlines.contexts.exists_of_getElem? contextAt
  obtain ⟨element, _, elementAt, -, readsMessage⟩ :=
    readsContext.messages.exists_of_getElem? messageAt
  refine ⟨element, ?_, fun target last => keeps_iff_of_readsTarget (readsMessage.target last)⟩
  simp [messageElement?, rootEq, parentAt, elementAt]

/-- A document in which a message has two plural forms, one of them with length
variants. -/
def variedForms : String :=
  "<TS><context><name/><message><source/><translation><numerusform/>" ++
    "<numerusform variants=\"yes\"><lengthvariant>a</lengthvariant></numerusform>" ++
    "</translation></message></context></TS>"

theorem keeps_variedForms :
    ∃ document message, Document.read variedForms = .ok document ∧
      document.catalog.message? ⟨0, 0⟩ = some message ∧
      message.target.text = .plural [.plain "", .lengthVariants ["a"]] ∧
      ∃ element target, messageElement? variedForms ⟨0, 0⟩ = some element ∧
        element.last? "translation" = some target ∧ message.target.text.Keeps target := by
  have held : ((Document.read variedForms).toOption.bind (·.catalog.message? ⟨0, 0⟩)).map
      (·.target.text) = some (.plural [.plain "", .lengthVariants ["a"]]) := by
    decide +kernel
  obtain ⟨message, found, textEq⟩ := Option.map_eq_some_iff.mp held
  obtain ⟨document, read, found⟩ := Option.bind_eq_some_iff.mp found
  rw [Except.toOption_eq_some_iff] at read
  obtain ⟨element, elementEq, keeps⟩ := Document.keeps_iff read found
  have unmixed : ((messageElement? variedForms ⟨0, 0⟩).bind (·.last? "translation")).map
      (fun target => (target.announcesVariants, (target.named "lengthvariant").length)) =
        some (false, 0) := by
    decide +kernel
  rw [elementEq, Option.bind_some] at unmixed
  obtain ⟨target, last, kinds⟩ := Option.map_eq_some_iff.mp unmixed
  rw [Prod.mk.injEq, List.length_eq_zero_iff] at kinds
  obtain ⟨noneAnnounced, noVariant⟩ := kinds
  refine ⟨document, message, read, found, textEq, element, target, elementEq, last,
    (keeps target last).mpr ?_⟩
  rintro (⟨announced, -⟩ | ⟨-, someVariant⟩)
  · rw [noneAnnounced] at announced
    cases announced
  · exact someVariant noVariant

/-- A document in which a target announces length variants and has a plain
text. -/
def announcedText : String :=
  "<TS><context><name/><message><source/><translation variants=\"yes\">a</translation>" ++
    "</message></context></TS>"

/-- Not every target keeps what stands in its element: where length variants
are announced, the text is lost. -/
theorem not_keeps_announcedText :
    ¬ ∀ text document index message element target, Document.read text = .ok document →
      document.catalog.message? index = some message →
      messageElement? text index = some element →
      element.last? "translation" = some target → message.target.text.Keeps target := by
  intro keeps
  have held : ((Document.read announcedText).toOption.bind (·.catalog.message? ⟨0, 0⟩)).map
      (·.target.text) = some (.single (.lengthVariants [])) := by
    decide +kernel
  obtain ⟨message, found, textEq⟩ := Option.map_eq_some_iff.mp held
  obtain ⟨document, read, found⟩ := Option.bind_eq_some_iff.mp found
  rw [Except.toOption_eq_some_iff] at read
  have data : ((messageElement? announcedText ⟨0, 0⟩).bind (·.last? "translation")).map
      (fun target => isBlankText target.inner.data) = some false := by
    decide +kernel
  obtain ⟨target, place, data⟩ := Option.map_eq_some_iff.mp data
  obtain ⟨element, elementEq, last⟩ := Option.bind_eq_some_iff.mp place
  have kept := (keeps _ _ _ _ _ _ read found elementEq last).data data
  rw [textEq] at kept
  cases kept

end CatalogServer
