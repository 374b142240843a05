import CatalogServer.Proofs.Catalog.InnerContent

/-!
# What a reader takes from a target element

Inside a target a reader gathers character data, plural forms and length
variants, each in the order in which they stand in the text, and each plural
form with all that stands in it.
-/

namespace CatalogServer.Xml

namespace Element

/-- The text of an element that holds only text. -/
def text (element : Element) : String :=
  String.ofList element.inner.data

def announcesVariants (element : Element) : Bool :=
  (element.tag.attributes.toOption.map Reader.announcesVariants).getD false

/-- The length variants that stand directly in an element. -/
def variants (element : Element) : List String :=
  (element.named "lengthvariant").map text

/-- The plural form that an element stands for. -/
def form (element : Element) : FormText :=
  if element.content.isSome && element.announcesVariants then
    .lengthVariants element.variants
  else
    .plain element.text

/-- The plural forms that stand directly in an element. -/
def forms (element : Element) : List FormText :=
  (element.named "numerusform").map form

end Element

end CatalogServer.Xml

namespace CatalogServer

open Text Xml

/-- A form holds what stands in an element: all its character data, or all its
length variants, and there is nothing else to hold. -/
def FormText.Holds (form : FormText) (element : Element) : Prop :=
  match form with
  | .plain text => text = element.text ∧ element.named "lengthvariant" = []
  | .lengthVariants texts => texts = element.variants ∧ isBlankText element.inner.data = true

end CatalogServer

namespace CatalogServer.Reader

open Text Xml

section Target

variable {place : InTarget}

/-- An element of a plural form is one of its length variants. -/
def AddsVariant (texts : List String) (element : Element) (behind : List String) : Prop :=
  element.tag.name = "lengthvariant" ∧ behind = texts ++ [element.text]

theorem guides_formVariants (place : InTarget) : Guides (State.formVariants place) AddsVariant where
  stays {texts span event next} flat other step := by
    cases event with
    | opening | closing => cases flat
    | selfClosing tag => exact absurd rfl (other tag)
    | _ =>
        simp only [State.step, formVariantsStep] at step
        exact eq_of_acceptInsignificant step
  empty {texts span tag next} step := by
    simp only [State.step, formVariantsStep] at step
    split at step
    · next named =>
        cases step
        exact ⟨_, rfl, eq_of_beq named, rfl⟩
    · cases step
  paired {texts startTag endTag tag inner opened full next} opening filling closing := by
    simp only [State.step, formVariantsStep] at opening
    split at opening
    · next named =>
        cases opening
        cases (reads_leaf (.formVariant place texts) (fun _ _ => rfl) filling closing).1
        exact ⟨_, rfl, eq_of_beq named, rfl⟩
    · cases opening

theorem texts_of_chain {texts behind : List String} {elements : List Element}
    (chain : Chain AddsVariant texts elements behind) :
    behind = texts ++ (elements.filter (·.tag.name == "lengthvariant")).map Element.text := by
  induction chain with
  | nil => simp
  | cons first _ ih =>
      obtain ⟨named, rfl⟩ := first
      rw [ih]
      simp [named]

theorem blank_of_reads_formVariants {content : Content} :
    ∀ {texts : List String} {last : State},
      (State.formVariants place texts).reads content = .ok last →
        isBlankText content.data = true := by
  induction content with
  | nothing =>
      intro texts last _
      rfl
  | piece located flat rest ih =>
      intro texts last run
      obtain ⟨span, event⟩ := located
      obtain ⟨next, step, run⟩ := reads_piece run
      have both (first : isBlankText (((pieceOf event).map (·.text)).getD []) = true)
          (later : isBlankText rest.data = true) :
          isBlankText (Content.piece ⟨span, event⟩ flat rest).data = true := by
        rw [Content.data, isBlankText, List.all_append, Bool.and_eq_true]
        exact ⟨first, later⟩
      cases event with
      | opening | closing => cases flat
      | selfClosing tag =>
          simp only [State.step, formVariantsStep] at step
          split at step
          · next named =>
              cases step
              have noPiece : pieceOf (.selfClosing tag) = none := by
                simp [pieceOf, eq_of_beq named]
              exact both (by rw [noPiece]; rfl) (ih run)
          · cases step
      | _ =>
          simp only [State.step, formVariantsStep] at step
          obtain ⟨_, accepted, rfl⟩ := Except.map_eq_ok step
          exact both (blank_of_acceptInsignificant accepted) (ih run)
  | element startTag tag inner endTag rest _ ih =>
      intro texts last run
      obtain ⟨opened, full, next, opening, filling, closing, run⟩ := reads_element run
      obtain ⟨behind, rfl, -⟩ := (guides_formVariants place).paired opening filling closing
      exact ih run

/-- A plural form is read as the one that its element stands for, which holds
all that stands in the element. -/
theorem reads_form {startTag endTag : ByteSpan} {tag : Tag} {inner : Content}
    {opened full next : State} (opening : openForm place startTag.start tag = .ok opened)
    (filling : opened.reads inner = .ok full) (closing : full.step ⟨endTag, .closing⟩ = .ok next)
    {element : Element} (whole : element = ⟨startTag, tag, some inner, endTag.stop⟩) :
    next = .target (addForm place element.form) ∧ element.form.Holds element := by
  subst whole
  unfold openForm at opening
  obtain ⟨attributes, given, opening⟩ := Except.bind_eq_ok opening
  have announced : Element.announcesVariants ⟨startTag, tag, some inner, endTag.stop⟩ =
      announcesVariants attributes := by
    rw [Element.announcesVariants, attributes_of_attributesAt given]
    rfl
  simp only [Element.form, Option.isSome_some, Bool.true_and, announced]
  split at opening
  · next announces =>
      cases opening
      have blank := blank_of_reads_formVariants filling
      obtain ⟨texts, rfl, chain⟩ := (guides_formVariants place).chain filling
      cases closing
      rw [if_pos announces, texts_of_chain chain]
      exact ⟨rfl, rfl, blank⟩
  · next announces =>
      cases opening
      obtain ⟨nextEq, bytes⟩ := reads_leaf (.form place) (fun _ _ => rfl) filling closing
      rw [if_neg announces]
      refine ⟨nextEq, rfl, List.filter_eq_nil_iff.mpr fun child member => ?_⟩
      rw [bytes child member]
      decide

/-- A target has gathered what stands directly in a content. -/
structure Gathered (before after : TargetDraft) (content : Content) : Prop where
  startTag : after.startTag = before.startTag
  status : after.status = before.status
  announces : after.announcesVariants = before.announcesVariants
  text : after.text = before.text ++ content.data
  significant : after.textStart.isSome = (before.textStart.isSome || content.isSignificant)
  forms : after.forms = before.forms ++
    (content.elements.filter (·.tag.name == "numerusform")).map Element.form
  variants : after.variants = before.variants ++
    (content.elements.filter (·.tag.name == "lengthvariant")).map Element.text
  whole : ∀ child ∈ content.elements.filter (·.tag.name == "numerusform"), child.form.Holds child

variable {after : TargetDraft} {rest : Content}

theorem gathered_nothing (draft : TargetDraft) : Gathered draft draft .nothing :=
  ⟨rfl, rfl, rfl, by simp [Content.data], by simp [Content.isSignificant],
    by simp [Content.elements], by simp [Content.elements], by simp [Content.elements]⟩

theorem Gathered.piece {span : ByteSpan} {event : Event} {flat : event.isFlat = true}
    {piece : Piece} {offset : Nat} (read : pieceOf event = some piece)
    (other : ∀ tag, event = .selfClosing tag →
      tag.name ≠ "numerusform" ∧ tag.name ≠ "lengthvariant")
    (later : Gathered (addPiece place piece offset).target after rest) :
    Gathered place.target after (.piece ⟨span, event⟩ flat rest) := by
  have elements (name : String) (named : name = "numerusform" ∨ name = "lengthvariant") :
      (Content.piece ⟨span, event⟩ flat rest).elements.filter (·.tag.name == name) =
        rest.elements.filter (·.tag.name == name) := by
    cases event with
    | selfClosing tag =>
        obtain ⟨noForm, noVariant⟩ := other tag rfl
        rw [Content.elements, List.filter_cons_of_neg]
        rcases named with rfl | rfl
        · simpa using noForm
        · simpa using noVariant
    | _ => rfl
  refine ⟨later.startTag, later.status, later.announces, ?_, ?_, ?_, ?_, ?_⟩
  · rw [later.text, Content.data, read, Option.map_some, Option.getD_some, ← List.append_assoc]
    rfl
  · rw [later.significant, Content.isSignificant, read, Option.map_some, Option.getD_some,
      ← Bool.or_assoc]
    congr 1
    simp only [addPiece]
    cases place.target.textStart with
    | some start => rfl
    | none => cases piece.significant <;> rfl
  · rw [elements _ (.inl rfl)]
    exact later.forms
  · rw [elements _ (.inr rfl)]
    exact later.variants
  · rw [elements _ (.inl rfl)]
    exact later.whole

theorem Gathered.emptyForm {span : ByteSpan} {tag : Tag}
    {flat : (Event.selfClosing tag).isFlat = true} (named : tag.name = "numerusform")
    (later : Gathered (addForm place (.plain "")).target after rest) :
    Gathered place.target after (.piece ⟨span, .selfClosing tag⟩ flat rest) := by
  have noPiece : pieceOf (.selfClosing tag) = none := by simp [pieceOf, named]
  refine ⟨later.startTag, later.status, later.announces, ?_, ?_, ?_, ?_, ?_⟩
  · simp [later.text, Content.data, noPiece, addForm]
  · simp [later.significant, Content.isSignificant, noPiece, addForm]
  · simp [later.forms, Content.elements, named, addForm, Element.form, Element.text, Element.inner,
      Content.data]
  · simp [later.variants, Content.elements, named, addForm]
  · rw [Content.elements, List.filter_cons_of_pos (by simpa using named)]
    exact List.forall_mem_cons.mpr ⟨⟨rfl, rfl⟩, later.whole⟩

theorem Gathered.emptyVariant {span : ByteSpan} {tag : Tag}
    {flat : (Event.selfClosing tag).isFlat = true} (named : tag.name = "lengthvariant")
    (later : Gathered (addVariant place "").target after rest) :
    Gathered place.target after (.piece ⟨span, .selfClosing tag⟩ flat rest) := by
  have noPiece : pieceOf (.selfClosing tag) = none := by simp [pieceOf, named]
  refine ⟨later.startTag, later.status, later.announces, ?_, ?_, ?_, ?_, ?_⟩
  · simp [later.text, Content.data, noPiece, addVariant]
  · simp [later.significant, Content.isSignificant, noPiece, addVariant]
  · simp [later.forms, Content.elements, named, addVariant]
  · simp [later.variants, Content.elements, named, addVariant, Element.text, Element.inner,
      Content.data]
  · rw [Content.elements, List.filter_cons_of_neg (by simp [named])]
    exact later.whole

variable {startTag endTag : ByteSpan} {tag : Tag} {inner : Content}

theorem Gathered.form {child : Element} (whole : child = ⟨startTag, tag, some inner, endTag.stop⟩)
    (named : tag.name = "numerusform") (holds : child.form.Holds child)
    (later : Gathered (addForm place child.form).target after rest) :
    Gathered place.target after (.element startTag tag inner endTag rest) := by
  subst whole
  refine ⟨later.startTag, later.status, later.announces, later.text, later.significant, ?_, ?_,
    ?_⟩
  · simp [later.forms, Content.elements, named, addForm]
  · simp [later.variants, Content.elements, named, addForm]
  · rw [Content.elements, List.filter_cons_of_pos (by simpa using named)]
    exact List.forall_mem_cons.mpr ⟨holds, later.whole⟩

theorem Gathered.variant (named : tag.name = "lengthvariant")
    (later : Gathered (addVariant place (String.ofList inner.data)).target after rest) :
    Gathered place.target after (.element startTag tag inner endTag rest) := by
  refine ⟨later.startTag, later.status, later.announces, later.text, later.significant, ?_, ?_,
    ?_⟩
  · simp [later.forms, Content.elements, named, addVariant]
  · simp [later.variants, Content.elements, named, addVariant, Element.text, Element.inner]
  · rw [Content.elements, List.filter_cons_of_neg (by simp [named])]
    exact later.whole

/-- Inside a target a reader gathers character data, plural forms and length
variants. -/
theorem gathered_of_reads {content : Content} :
    ∀ {place : InTarget} {last : State}, (State.target place).reads content = .ok last →
      ∃ target, last = .target { place with target := target } ∧
        Gathered place.target target content := by
  induction content with
  | nothing =>
      intro place last run
      cases run
      exact ⟨place.target, rfl, gathered_nothing _⟩
  | piece located flat rest ih =>
      intro place last run
      obtain ⟨span, event⟩ := located
      obtain ⟨next, step, run⟩ := reads_piece run
      -- what is no part of the target adds to its character data
      have taken (other : ∀ tag, event = .selfClosing tag →
            tag.name ≠ "numerusform" ∧ tag.name ≠ "lengthvariant")
          (step : targetPiece place ⟨span, event⟩ = .ok next) :
          ∃ target, last = .target { place with target := target } ∧
            Gathered place.target target (.piece ⟨span, event⟩ flat rest) := by
        obtain ⟨piece, read, rfl⟩ := Except.map_eq_ok step
        obtain ⟨target, rfl, later⟩ := ih run
        exact ⟨target, rfl, later.piece (pieceOf_of_textPiece read) other⟩
      cases event with
      | opening | closing => cases flat
      | selfClosing tag =>
          simp only [State.step, targetStep] at step
          split at step
          · next named =>
              cases step
              obtain ⟨target, rfl, later⟩ := ih run
              exact ⟨target, rfl, later.emptyForm (eq_of_beq named)⟩
          split at step
          · next named =>
              cases step
              obtain ⟨target, rfl, later⟩ := ih run
              exact ⟨target, rfl, later.emptyVariant (eq_of_beq named)⟩
          · next noForm noVariant =>
              refine taken ?_ step
              rintro _ ⟨⟩
              exact ⟨by simpa using noForm, by simpa using noVariant⟩
      | _ => exact taken (by simp) step
  | element startTag tag inner endTag rest _ ih =>
      intro place last run
      obtain ⟨opened, full, next, opening, filling, closing, run⟩ := reads_element run
      simp only [State.step, targetStep] at opening
      split at opening
      · next named =>
          obtain ⟨rfl, holds⟩ := reads_form opening filling closing rfl
          obtain ⟨target, rfl, later⟩ := ih run
          exact ⟨target, rfl, later.form rfl (eq_of_beq named) holds⟩
      split at opening
      · next named =>
          cases opening
          cases (reads_leaf (.variant place) (fun _ _ => rfl) filling closing).1
          obtain ⟨target, rfl, later⟩ := ih run
          exact ⟨target, rfl, later.variant (eq_of_beq named)⟩
      · cases opening

/-- What a message holds for a target element, by the attributes and the
content of the element. -/
inductive ReadsTarget (numerus : Bool) : Element → Target → Prop where
  | empty {startTag : ByteSpan} {tag : Tag} {stop : Nat} {attributes : List Attribute}
      (given : tag.attributes.toOption = some attributes) :
      ReadsTarget numerus ⟨startTag, tag, none, stop⟩
        ⟨statusOf attributes, emptyTargetText numerus (announcesVariants attributes)⟩
  | paired {startTag : ByteSpan} {tag : Tag} {inner : Content} {stop : Nat}
      {attributes : List Attribute} {draft : TargetDraft}
      (given : tag.attributes.toOption = some attributes)
      (gathered : Gathered
        { startTag, status := statusOf attributes
          announcesVariants := announcesVariants attributes } draft inner)
      (alone : draft.textStart.isSome = true → draft.forms = [] ∧ draft.variants = []) :
      ReadsTarget numerus ⟨startTag, tag, some inner, stop⟩
        ⟨statusOf attributes, targetText numerus draft⟩

/-- Behind its end tag a target is stored, unless character data stands beside
plural forms or length variants. -/
theorem eq_of_closeTarget {stop : Nat} {next : State}
    (closing : closeTarget place stop = .ok next) :
    next = .message (setTarget place.toInMessage
      ⟨place.target.status, targetText place.message.message.numerus place.target⟩
      ⟨⟨place.target.startTag.start, stop⟩, place.target.startTag⟩) ∧
    (place.target.textStart.isSome = true →
      place.target.forms = [] ∧ place.target.variants = []) := by
  simp only [closeTarget] at closing
  split at closing
  · split at closing
    · next alone =>
        cases closing
        refine ⟨rfl, fun _ => ?_⟩
        simpa using alone
    · cases closing
  · next absent =>
      cases closing
      refine ⟨rfl, fun present => ?_⟩
      rw [absent] at present
      cases present

theorem reads_target {place : InMessage} {opened full next : State}
    (opening : openTarget place startTag tag = .ok opened) (filling : opened.reads inner = .ok full)
    (closing : full.step ⟨endTag, .closing⟩ = .ok next) :
    ∃ target, next = .message (setTarget place target ⟨⟨startTag.start, endTag.stop⟩, startTag⟩) ∧
      ReadsTarget place.message.message.numerus ⟨startTag, tag, some inner, endTag.stop⟩
        target := by
  unfold openTarget at opening
  obtain ⟨attributes, given, opening⟩ := Except.bind_eq_ok opening
  cases opening
  obtain ⟨draft, rfl, gathered⟩ := gathered_of_reads filling
  obtain ⟨rfl, alone⟩ := eq_of_closeTarget closing
  have read : ReadsTarget place.message.message.numerus
      ⟨startTag, tag, some inner, endTag.stop⟩ ⟨statusOf attributes, targetText _ draft⟩ :=
    .paired (attributes_of_attributesAt given) gathered alone
  refine ⟨_, ?_, read⟩
  rw [gathered.startTag, gathered.status]

theorem reads_emptyTarget {place : InMessage} {span : ByteSpan} {next : State}
    (step : emptyTarget place span tag = .ok next) :
    ∃ target, next = .message (setTarget place target ⟨span, span⟩) ∧
      ReadsTarget place.message.message.numerus ⟨span, tag, none, span.stop⟩ target := by
  unfold emptyTarget at step
  obtain ⟨attributes, given, step⟩ := Except.bind_eq_ok step
  cases step
  exact ⟨_, rfl, .empty (attributes_of_attributesAt given)⟩

end Target

end CatalogServer.Reader
