import CatalogServer.Proofs.Catalog.Content

/-!
# Written targets are read back

A target is written as one element, whose content depends on the shape of
its text.  It is read back as it is, with two exceptions that come from the
reader's rules for shapes: a plain text without a visible character in a
message with numerus becomes a text without plural forms, and a text without
plural forms in a message without numerus becomes the layout of its element.
-/

namespace CatalogServer.Reader

open Text Xml

/-- The text as which a written target text is read back. -/
def rereadText (numerus : Bool) : TargetText → TargetText
  | .single (.plain text) =>
      if numerus && !text.toList.any isVisible then .plural [] else .single (.plain text)
  | .plural [] => if numerus then .plural [] else .single (.plain ("\n" ++ Writer.messageIndent))
  | text => text

/-- The target as which a written target is read back. -/
def rereadTarget (numerus : Bool) (target : Target) : Target :=
  { target with text := rereadText numerus target.text }

/-- The attribute that announces length variants. -/
def announced : FormText → Option String
  | .plain _ => none
  | .lengthVariants _ => some "yes"

/-- The content of an element with a form. -/
def formInner (indent : String) : FormText → List Char
  | .plain text => text.toList.flatMap Escape.contentChar
  | .lengthVariants texts =>
      texts.flatMap (fun text => (Writer.variantElement indent text).toList) ++
        '\n' :: indent.toList

theorem toList_join_map {α : Type} (write : α → String) (items : List α) :
    (String.join (items.map write)).toList = items.flatMap fun item => (write item).toList := by
  rw [String.toList_join, List.flatMap_map]

theorem attributeText_of_isAlphanum (name : String) {value : String}
    (words : ∀ d ∈ value.toList, d.isAlphanum = true) :
    Writer.attributeText name (some value) = " " ++ name ++ "=\"" ++ value ++ "\"" := by
  rw [Writer.attributeText, Escape.attributeValue, flatMap_attributeChar_of_isAlphanum words,
    String.ofList_toList]

theorem isAlphanum_of_typeAttribute {status : Status} {value : String}
    (given : status.typeAttribute? = some value) : ∀ d ∈ value.toList, d.isAlphanum = true := by
  cases status with
  | finished => simp [Status.typeAttribute?] at given
  | unfinished =>
      cases given
      exact List.all_eq_true.mp (by decide)
  | vanished =>
      cases given
      exact List.all_eq_true.mp (by decide)
  | obsolete =>
      cases given
      exact List.all_eq_true.mp (by decide)

theorem isAlphanum_of_announced {form : FormText} {value : String}
    (given : announced form = some value) : ∀ d ∈ value.toList, d.isAlphanum = true := by
  cases form with
  | plain text => simp [announced] at given
  | lengthVariants texts =>
      cases given
      exact List.all_eq_true.mp (by decide)

theorem statusAttribute_eq (status : Status) :
    Writer.statusAttribute status = Writer.attributeText "type" status.typeAttribute? := by
  unfold Writer.statusAttribute
  cases given : status.typeAttribute? with
  | none => rfl
  | some value =>
      rw [attributeText_of_isAlphanum "type" (isAlphanum_of_typeAttribute given)]
      rfl

theorem formContent_eq (indent : String) (form : FormText) :
    Writer.formContent indent form =
      Writer.attributeText "variants" (announced form) ++ ">" ++
        String.ofList (formInner indent form) := by
  cases form with
  | plain text =>
      have absent : Writer.attributeText "variants" (announced (.plain text)) = "" := rfl
      rw [absent, String.empty_append]
      rfl
  | lengthVariants texts =>
      have present : Writer.attributeText "variants" (announced (.lengthVariants texts)) =
          " variants=\"yes\"" :=
        attributeText_of_isAlphanum "variants" (List.all_eq_true.mp (by decide))
      have written : Writer.formContent indent (.lengthVariants texts) =
          " variants=\"yes\">" ++ String.join (texts.map (Writer.variantElement indent)) ++
            "\n" ++ indent :=
        rfl
      rw [present, written, ← String.toList_inj]
      simp only [String.toList_append, toList_join_map, formInner, String.toList_ofList,
        List.append_assoc]
      rfl

theorem written_announced (indent : String) (form : FormText) :
    (Writer.formContent indent form).toList =
      (Given.raws [("variants", announced form)]).flatMap (·.written) ++
        '>' :: formInner indent form := by
  rw [Given.written_single, formContent_eq]
  simp only [String.toList_append, String.toList_ofList, List.append_assoc]
  rfl

/-- Inside a target: the forms and variants read so far and the text directly
inside it. -/
def targetWith (place : InMessage) (status : Status) (announces : Bool) (forms : List FormText)
    (variants : List String) (taken : Piece) : State :=
  .target { place with
    target :=
      { startTag := default
        status := status
        announcesVariants := announces
        text := taken.text
        textStart := if taken.significant then some 0 else none
        forms := forms
        variants := variants } }

theorem gathers_targetWith (place : InMessage) (status : Status) (announces : Bool)
    (forms : List FormText) (variants : List String) :
    Gathers (targetWith place status announces forms variants) :=
  gathers_gather (targetWith place status announces forms variants ⟨[], false⟩) rfl

theorem gathers_variant (place : InTarget) : Gathers fun taken => .variant place taken.text :=
  gathers_gather (.variant place []) rfl

theorem gathers_form (place : InTarget) : Gathers fun taken => .form place taken.text :=
  gathers_gather (.form place []) rfl

theorem gathers_formVariant (place : InTarget) (texts : List String) :
    Gathers fun taken => .formVariant place texts taken.text :=
  gathers_gather (.formVariant place texts []) rfl

theorem catalogFrom_variant (place : InTarget) (text : String) (opened : List (List Char))
    (rest : List Char) :
    catalogFrom (.target place) opened (leafElement "lengthvariant" text.toList ++ rest) =
      catalogFrom (.target (addVariant place text)) opened rest := by
  have element : isElementName "lengthvariant".toList := by decide
  have enters : ((State.target place).step
      ⟨default, .opening ⟨"lengthvariant".toList⟩⟩).toOption = some (.variant place []) := by
    have name := name_of_isPlainName "lengthvariant" (by decide)
    simp only [State.step, targetStep, name]
    rfl
  rw [catalogFrom_leafElement element enters (gathers_variant place)]
  simp [State.step, leafStep, writtenPiece]

theorem catalogFrom_formVariant (place : InTarget) (texts : List String) (text : String)
    (opened : List (List Char)) (rest : List Char) :
    catalogFrom (.formVariants place texts) opened
        (leafElement "lengthvariant" text.toList ++ rest) =
      catalogFrom (.formVariants place (texts ++ [text])) opened rest := by
  have element : isElementName "lengthvariant".toList := by decide
  have enters : ((State.formVariants place texts).step
      ⟨default, .opening ⟨"lengthvariant".toList⟩⟩).toOption =
        some (.formVariant place texts []) := by
    have name := name_of_isPlainName "lengthvariant" (by decide)
    simp only [State.step, formVariantsStep, name]
    rfl
  rw [catalogFrom_leafElement element enters (gathers_formVariant place texts)]
  simp [State.step, leafStep, writtenPiece]

theorem variantElement_eq (indent text : String) :
    (Writer.variantElement indent text).toList =
      "\n    ".toList ++ indent.toList ++ leafElement "lengthvariant" text.toList := by
  simp [Writer.variantElement, leafElement, Escape.content]

theorem catalogFrom_formVariants {indent : String} (blank : indent.toList.all isAsciiBlank)
    (place : InTarget) (texts more : List String) (opened : List (List Char))
    (rest : List Char) :
    catalogFrom (.formVariants place texts) opened
        (more.flatMap (fun text => (Writer.variantElement indent text).toList) ++ rest) =
      catalogFrom (.formVariants place (texts ++ more)) opened rest := by
  have skips := skipsBlanks_formVariants place
  have margin : ("\n    ".toList ++ indent.toList).all isAsciiBlank := by
    rw [List.all_append, blank, Bool.and_true]
    decide
  induction more generalizing texts with
  | nil => rw [List.append_nil, List.flatMap_nil, List.nil_append]
  | cons text more ih =>
      rw [List.flatMap_cons, variantElement_eq, List.append_assoc, List.append_assoc,
        catalogFrom_blanks (skips texts) margin, catalogFrom_formVariant, ih, List.append_assoc,
        List.singleton_append]

theorem named_announced (value : Option String) : Given.Named [("variants", value)] := by
  constructor
  · simp only [List.mem_singleton, forall_eq]
    decide
  · simp

theorem nullFree_announced (form : FormText) :
    Given.NullFree [("variants", announced form)] := by
  apply nullFree_of_isAlphanum
  intro name value member
  simp only [List.mem_singleton, Prod.mk.injEq] at member
  exact isAlphanum_of_announced member.2.symm

/-- A plural form as written, from its start tag on. -/
def formElement (form : FormText) : List Char :=
  '<' :: ("numerusform".toList ++
    (Given.raws [("variants", announced form)]).flatMap (·.written) ++
    '>' :: (formInner Writer.formIndent form ++ '<' :: '/' :: ("numerusform".toList ++ ['>'])))

theorem pluralFormElement_eq (form : FormText) :
    (Writer.pluralFormElement form).toList =
      "\n".toList ++ Writer.formIndent.toList ++ formElement form := by
  simp only [Writer.pluralFormElement, String.toList_append, written_announced, formElement,
    List.append_assoc]
  rfl

theorem step_openForm (place : InTarget) (form : FormText) :
    ((State.target place).step ⟨default, .opening (writtenTag "numerusform".toList
      (Given.raws [("variants", announced form)]))⟩).toOption =
      some (if announced form == some "yes" then .formVariants place [] else .form place []) := by
  have plain : isPlainName "numerusform".toList := by decide
  have name := name_writtenTag plain (Given.raws [("variants", announced form)])
  have attributes := Given.toOption_attributes (named_announced (announced form)) plain
  rw [if_pos (nullFree_announced form)] at attributes
  have value := Given.attribute_present (named_announced (announced form)) "variants"
    (List.mem_singleton.mpr rfl)
  simp only [State.step, targetStep, name, beq_self_eq_true, if_true, openForm,
    Except.toOption_bind, toOption_attributesAt, attributes, Option.bind_some, Except.toOption_ok,
    announcesVariants, value]

theorem catalogFrom_formElement (place : InTarget) (form : FormText)
    (opened : List (List Char)) (rest : List Char) :
    catalogFrom (.target place) opened (formElement form ++ rest) =
      catalogFrom (.target (addForm place form)) opened rest := by
  have element : isElementName "numerusform".toList := by decide
  have plain : isPlainName "numerusform".toList := by decide
  have layout : formElement form ++ rest =
      '<' :: ("numerusform".toList ++
        (Given.raws [("variants", announced form)]).flatMap (·.written) ++
        '>' :: (formInner Writer.formIndent form ++
          '<' :: '/' :: ("numerusform".toList ++ '>' :: rest))) := by
    simp [formElement]
  rw [layout, catalogFrom_startTag element (named_announced _), step_openForm, Option.bind_some]
  cases form with
  | plain text =>
      change catalogFrom (.form place (Piece.text ⟨[], false⟩)) _
        (text.toList.flatMap Escape.contentChar ++ _) = _
      rw [catalogFrom_content (gathers_form place), catalogFrom_endTag plain]
      simp [State.step, leafStep, Piece.append, writtenPiece]
  | lengthVariants texts =>
      have blank : Writer.formIndent.toList.all isAsciiBlank := by decide
      have margin : ('\n' :: Writer.formIndent.toList).all isAsciiBlank := by decide
      change catalogFrom (.formVariants place []) _ (formInner Writer.formIndent
        (.lengthVariants texts) ++ _) = _
      rw [formInner, List.append_assoc, catalogFrom_formVariants blank, List.nil_append,
        catalogFrom_blanks (skipsBlanks_formVariants place texts) margin, catalogFrom_endTag plain]
      rfl

/-- Layout inside a target is gathered as text that does not count. -/
theorem catalogFrom_layout {within : Piece → State} (gathers : Gathers within) (taken : Piece)
    {layout : List Char} (blank : ∀ c ∈ layout, c = '\n' ∨ c = ' ')
    (opened : List (List Char)) (rest : List Char) :
    catalogFrom (within taken) opened (layout ++ rest) =
      catalogFrom (within (taken.append ⟨layout, false⟩)) opened rest := by
  have spelled : layout.flatMap Escape.contentChar = layout := by
    induction layout with
    | nil => rfl
    | cons c layout ih =>
        have others := ih fun d member => blank d (List.mem_cons_of_mem c member)
        rcases blank c List.mem_cons_self with rfl | rfl
        · rw [List.flatMap_cons, others]
          rfl
        · rw [List.flatMap_cons, others]
          rfl
  have invisible : writtenPiece layout = ⟨layout, false⟩ := by
    simp only [writtenPiece, Piece.mk.injEq, true_and, List.any_eq_false]
    intro c member
    rcases blank c member with rfl | rfl <;> decide
  have gathered := catalogFrom_content gathers taken layout opened rest
  rw [spelled, invisible] at gathered
  exact gathered

section Inside

variable (place : InMessage) (status : Status) (announces : Bool)

theorem catalogFrom_variantElements (variants more : List String) (taken : Piece)
    (layout : taken.significant = false) :
    ∃ behind : Piece, behind.significant = false ∧ ∀ opened rest,
      catalogFrom (targetWith place status announces [] variants taken) opened
          (more.flatMap (fun text => (Writer.variantElement Writer.messageIndent text).toList) ++
            rest) =
        catalogFrom (targetWith place status announces [] (variants ++ more) behind) opened
          rest := by
  induction more generalizing variants taken with
  | nil =>
      refine ⟨taken, layout, fun opened rest => ?_⟩
      rw [List.append_nil, List.flatMap_nil, List.nil_append]
  | cons text more ih =>
      have margin : ∀ c ∈ "\n    ".toList ++ Writer.messageIndent.toList, c = '\n' ∨ c = ' ' :=
        List.all_iff_forall_prop.mp (by decide)
      obtain ⟨behind, layoutBehind, read⟩ := ih (variants ++ [text])
        (taken.append ⟨"\n    ".toList ++ Writer.messageIndent.toList, false⟩)
        (by simp [Piece.append, layout])
      refine ⟨behind, layoutBehind, fun opened rest => ?_⟩
      rw [List.flatMap_cons, variantElement_eq, List.append_assoc, List.append_assoc,
        catalogFrom_layout (gathers_targetWith place status announces [] variants) taken margin]
      unfold targetWith
      rw [catalogFrom_variant]
      have following := read opened rest
      rw [List.append_assoc, List.singleton_append] at following
      exact following

theorem catalogFrom_pluralForms (forms more : List FormText) (taken : Piece)
    (layout : taken.significant = false) :
    ∃ behind : Piece, behind.significant = false ∧ ∀ opened rest,
      catalogFrom (targetWith place status announces forms [] taken) opened
          (more.flatMap (fun form => (Writer.pluralFormElement form).toList) ++ rest) =
        catalogFrom (targetWith place status announces (forms ++ more) [] behind) opened
          rest := by
  induction more generalizing forms taken with
  | nil =>
      refine ⟨taken, layout, fun opened rest => ?_⟩
      rw [List.append_nil, List.flatMap_nil, List.nil_append]
  | cons form more ih =>
      have margin : ∀ c ∈ "\n".toList ++ Writer.formIndent.toList, c = '\n' ∨ c = ' ' :=
        List.all_iff_forall_prop.mp (by decide)
      obtain ⟨behind, layoutBehind, read⟩ := ih (forms ++ [form])
        (taken.append ⟨"\n".toList ++ Writer.formIndent.toList, false⟩)
        (by simp [Piece.append, layout])
      refine ⟨behind, layoutBehind, fun opened rest => ?_⟩
      rw [List.flatMap_cons, pluralFormElement_eq, List.append_assoc, List.append_assoc,
        catalogFrom_layout (gathers_targetWith place status announces forms []) taken margin]
      unfold targetWith
      rw [catalogFrom_formElement]
      have following := read opened rest
      rw [List.append_assoc, List.singleton_append] at following
      exact following

theorem step_closeTarget {forms : List FormText} {variants : List String} {taken : Piece}
    (fits : taken.significant = true → forms = [] ∧ variants = []) :
    ((targetWith place status announces forms variants taken).step
        ⟨default, .closing⟩).toOption =
      some (.message (setTarget place ⟨status, targetText place.message.message.numerus
        { startTag := default
          status := status
          announcesVariants := announces
          text := taken.text
          textStart := if taken.significant then some 0 else none
          forms := forms
          variants := variants }⟩ default)) := by
  -- The branch that refuses character data is not taken, and the others agree.
  cases significant : taken.significant with
  | false =>
      simp only [targetWith, State.step, targetStep, closeTarget, significant, Bool.false_eq_true,
        if_false, Except.toOption_ok]
      rfl
  | true =>
      obtain ⟨rfl, rfl⟩ := fits significant
      simp only [targetWith, State.step, targetStep, closeTarget, significant, if_true,
        List.isEmpty_nil, Bool.and_self, Except.toOption_ok]
      rfl

end Inside

/-- The attribute that announces the length variants of a target. -/
def announcedText : TargetText → Option String
  | .single form => announced form
  | .plural _ => none

/-- The content of a target element. -/
def textInner : TargetText → List Char
  | .single form => formInner Writer.messageIndent form
  | .plural forms =>
      forms.flatMap (fun form => (Writer.pluralFormElement form).toList) ++
        '\n' :: Writer.messageIndent.toList

/-- The attributes of a target element. -/
def targetGiven (target : Target) : Given :=
  [("type", target.status.typeAttribute?), ("variants", announcedText target.text)]

theorem toList_targetContent (text : TargetText) :
    (Writer.targetContent text).toList =
      (Given.raws [("variants", announcedText text)]).flatMap (·.written) ++
        '>' :: textInner text := by
  cases text with
  | single form => exact written_announced Writer.messageIndent form
  | plural forms =>
      simp only [Writer.targetContent, String.toList_append, toList_join_map, textInner,
        announcedText, List.append_assoc]
      rfl

theorem toList_bareTargetElement (target : Target) :
    (Writer.bareTargetElement target).toList =
      '<' :: ("translation".toList ++ (targetGiven target).raws.flatMap (·.written) ++
        '>' :: (textInner target.text ++ '<' :: '/' :: ("translation".toList ++ ['>']))) := by
  have attributes := Given.written_append [("type", target.status.typeAttribute?)]
    [("variants", announcedText target.text)]
  rw [List.singleton_append] at attributes
  simp only [Writer.bareTargetElement, String.toList_append, statusAttribute_eq,
    toList_targetContent, targetGiven, attributes, Given.written_single, List.append_assoc]
  rfl

theorem named_targetGiven (target : Target) : (targetGiven target).Named := by
  constructor
  · simp only [targetGiven, List.mem_cons, List.not_mem_nil, or_false, forall_eq_or_imp, forall_eq]
    decide
  · simp [targetGiven]

theorem nullFree_targetGiven (target : Target) : (targetGiven target).NullFree := by
  apply nullFree_of_isAlphanum
  intro name value member
  simp only [targetGiven, List.mem_cons, Prod.mk.injEq, List.not_mem_nil, or_false] at member
  rcases member with ⟨-, status⟩ | ⟨-, variants⟩
  · exact isAlphanum_of_typeAttribute status.symm
  · cases text : target.text with
    | single form =>
        rw [text] at variants
        exact isAlphanum_of_announced variants.symm
    | plural forms =>
        rw [text] at variants
        simp [announcedText] at variants

theorem statusOf_present (target : Target) :
    statusOf (targetGiven target).present = target.status := by
  have read := Given.attribute_present (named_targetGiven target) "type"
    List.mem_cons_self
  unfold statusOf
  rw [read]
  cases given : target.status.typeAttribute? with
  | none =>
      cases status : target.status with
      | finished => rfl
      | _ => simp [status, Status.typeAttribute?] at given
  | some value =>
      rw [Option.bind_some, Status.ofTypeAttribute_typeAttribute given, Option.getD_some]

theorem announcesVariants_present (target : Target) :
    announcesVariants (targetGiven target).present =
      (announcedText target.text == some "yes") := by
  have read := Given.attribute_present (named_targetGiven target) "variants"
    (List.mem_cons_of_mem _ (List.mem_singleton.mpr rfl))
  unfold announcesVariants
  rw [read]

theorem step_openTarget (place : InMessage) (target : Target) :
    ((State.message place).step ⟨default, .opening (writtenTag "translation".toList
      (targetGiven target).raws)⟩).toOption =
      some (targetWith place target.status (announcedText target.text == some "yes") [] []
        ⟨[], false⟩) := by
  have plain : isPlainName "translation".toList := by decide
  have name := name_writtenTag plain (targetGiven target).raws
  have named := named_targetGiven target
  have attributes := Given.toOption_attributes named plain
  rw [if_pos (nullFree_targetGiven target)] at attributes
  simp only [State.step, messageStep, name, show ("translation" == "location") = false by decide,
    Bool.false_eq_true, if_false, beq_self_eq_true, if_true, openTarget, Except.toOption_bind,
    toOption_attributesAt, attributes, Option.bind_some, Except.toOption_ok,
    statusOf_present, announcesVariants_present]
  rfl

theorem targetText_of_data (numerus : Bool) (status : Status) (taken : Piece) :
    targetText numerus
        { startTag := default
          status := status
          announcesVariants := false
          text := taken.text
          textStart := if taken.significant then some 0 else none
          forms := []
          variants := [] } =
      if numerus && !taken.significant then .plural []
      else .single (.plain (String.ofList taken.text)) := by
  cases significant : taken.significant with
  | false => simp [targetText]
  | true => simp [targetText]

/-- What stands in front of the end tag of a target with several elements. -/
theorem messageIndent_margin : ∀ c ∈ '\n' :: Writer.messageIndent.toList, c = '\n' ∨ c = ' ' :=
  List.all_iff_forall_prop.mp (by decide)

section Content

variable (place : InMessage) (status : Status) (opened : List (List Char)) (rest : List Char)

theorem catalogFrom_plainContent (text : String) :
    catalogFrom (targetWith place status false [] [] ⟨[], false⟩) ("translation".toList :: opened)
        (text.toList.flatMap Escape.contentChar ++
          '<' :: '/' :: ("translation".toList ++ '>' :: rest)) =
      catalogFrom (.message (setTarget place (rereadTarget place.message.message.numerus
        ⟨status, .single (.plain text)⟩) default)) opened rest := by
  have plain : isPlainName "translation".toList := by decide
  rw [catalogFrom_content (gathers_targetWith place status false [] []),
    catalogFrom_endTag plain, step_closeTarget place status false (by simp),
    Option.bind_some, targetText_of_data]
  simp only [Piece.append, writtenPiece, List.nil_append, Bool.false_or, String.ofList_toList]
  rfl

theorem catalogFrom_variantContent (texts : List String) :
    catalogFrom (targetWith place status true [] [] ⟨[], false⟩) ("translation".toList :: opened)
        (formInner Writer.messageIndent (.lengthVariants texts) ++
          '<' :: '/' :: ("translation".toList ++ '>' :: rest)) =
      catalogFrom (.message (setTarget place ⟨status, .single (.lengthVariants texts)⟩ default))
        opened rest := by
  have plain : isPlainName "translation".toList := by decide
  obtain ⟨behind, insignificant, read⟩ :=
    catalogFrom_variantElements place status true [] texts ⟨[], false⟩ rfl
  rw [formInner, List.append_assoc, read, List.nil_append,
    catalogFrom_layout (gathers_targetWith place status true [] texts) behind
      messageIndent_margin,
    catalogFrom_endTag plain, step_closeTarget place status true
      (by simp [Piece.append, insignificant]),
    Option.bind_some]
  rfl

theorem catalogFrom_pluralContent (forms : List FormText) :
    catalogFrom (targetWith place status false [] [] ⟨[], false⟩) ("translation".toList :: opened)
        (textInner (.plural forms) ++ '<' :: '/' :: ("translation".toList ++ '>' :: rest)) =
      catalogFrom (.message (setTarget place (rereadTarget place.message.message.numerus
        ⟨status, .plural forms⟩) default)) opened rest := by
  have plain : isPlainName "translation".toList := by decide
  cases forms with
  | nil =>
      rw [textInner, List.flatMap_nil, List.nil_append,
        catalogFrom_layout (gathers_targetWith place status false [] []) _ messageIndent_margin,
        catalogFrom_endTag plain, step_closeTarget place status false (by simp [Piece.append]),
        Option.bind_some, targetText_of_data]
      cases numerus : place.message.message.numerus with
      | false => rfl
      | true => rfl
  | cons form forms =>
      obtain ⟨behind, insignificant, read⟩ :=
        catalogFrom_pluralForms place status false [] (form :: forms) ⟨[], false⟩ rfl
      rw [textInner, List.append_assoc, read, List.nil_append,
        catalogFrom_layout (gathers_targetWith place status false (form :: forms) []) behind
          messageIndent_margin,
        catalogFrom_endTag plain, step_closeTarget place status false
          (by simp [Piece.append, insignificant]),
        Option.bind_some]
      rfl

end Content

/-- A target element is read back, whatever follows it. -/
theorem catalogFrom_bareTargetElement (place : InMessage) (target : Target)
    (opened : List (List Char)) (rest : List Char) :
    catalogFrom (.message place) opened ((Writer.bareTargetElement target).toList ++ rest) =
      catalogFrom (.message (setTarget place
        (rereadTarget place.message.message.numerus target) default)) opened rest := by
  have element : isElementName "translation".toList := by decide
  have layout : (Writer.bareTargetElement target).toList ++ rest =
      '<' :: ("translation".toList ++ (targetGiven target).raws.flatMap (·.written) ++
        '>' :: (textInner target.text ++
          '<' :: '/' :: ("translation".toList ++ '>' :: rest))) := by
    rw [toList_bareTargetElement]
    simp
  rw [layout, catalogFrom_startTag element (named_targetGiven target), step_openTarget,
    Option.bind_some]
  obtain ⟨status, text⟩ := target
  cases text with
  | single form =>
      cases form with
      | plain text => exact catalogFrom_plainContent place status opened rest text
      | lengthVariants texts => exact catalogFrom_variantContent place status opened rest texts
  | plural forms => exact catalogFrom_pluralContent place status opened rest forms

end CatalogServer.Reader
