import CatalogServer.Proofs.Check.Reporting
import CatalogServer.Proofs.Editor.FormChanges
import CatalogServer.Proofs.Editor.QuickFixes

/-!
# The fix of the number of forms and the check of plural forms

A fix that gives a target another number of forms should answer an issue of the
check of plural forms, and use the number that the check expects.  Both derive
activity, language and number by themselves.  They agree exactly on messages in
use whose target has no forms yet or whose language is given without blanks
around it, or gets the same number with them.
-/

namespace CatalogServer

open Check Text

/-- The title of the fix that gives a target a number of forms. -/
def formsTitle (count : Nat) (language : String) : String :=
  "Use " ++ toString count ++ " plural form" ++ (if count == 1 then "" else "s") ++ " for '" ++
    language ++ "'"

/-- The check of plural forms reports a message, and if it finds a wrong number
of forms it expects the given one. -/
def Document.Supports (document : Document) (options : CheckOptions) (index : MessageIndex)
    (count : Nat) : Prop :=
  ∃ issue ∈ documentIssues document options, issue.kind = .pluralForms ∧
    issue.index = some index ∧
    ∀ expected found, issue.message = (PluralProblem.wrongCount expected found).message
      (settingOf document.catalog options).language → expected = count

section Wordings

theorem takeWhile_isDigit_toString (count : Nat) {c : Char} (other : c.isDigit = false)
    (rest : List Char) :
    ((toString count).toList ++ c :: rest).takeWhile Char.isDigit = (toString count).toList := by
  have figures : ∀ figure ∈ (toString count).toList, figure.isDigit = true := by
    intro figure member
    rw [Nat.toString_eq_repr, Nat.toList_repr] at member
    exact Nat.isDigit_of_mem_toDigits (by decide) (by decide) member
  rw [List.takeWhile_append_of_pos figures, List.takeWhile_cons_of_neg (by simp [other]),
    List.append_nil]

/-- A number of forms can be read off the words about it. -/
theorem count_eq_of_words {lead : String} {first second : Nat} {rest others : String}
    (same : lead ++ (toString first ++ (" plural form" ++ rest)) =
      lead ++ (toString second ++ (" plural form" ++ others))) : first = second := by
  have behind := congrArg String.toList ((String.append_right_inj lead).mp same)
  have words (count : Nat) (rest : String) :
      (toString count ++ (" plural form" ++ rest)).toList =
        (toString count).toList ++ ' ' :: ("plural form".toList ++ rest.toList) := by
    rw [String.toList_append, String.toList_append]
    rfl
  rw [words, words] at behind
  have figures := congrArg (List.takeWhile Char.isDigit) behind
  rw [takeWhile_isDigit_toString _ (by decide), takeWhile_isDigit_toString _ (by decide)] at figures
  rw [Nat.toString_eq_repr, Nat.toString_eq_repr, Nat.toList_repr, Nat.toList_repr] at figures
  have counts := congrArg (fun figures => Nat.ofDigitChars 10 figures 0) figures
  rwa [Nat.ofDigitChars_ten_toDigits, Nat.ofDigitChars_ten_toDigits] at counts

theorem exists_formsTitle_eq (count : Nat) (language : String) :
    ∃ rest, formsTitle count language = "Use " ++ (toString count ++ (" plural form" ++ rest)) := by
  refine ⟨(if count == 1 then "" else "s") ++ (" for '" ++ (language ++ "'")), ?_⟩
  rw [formsTitle, ← String.toList_inj]
  simp only [String.toList_append, List.append_assoc]

theorem count_eq_of_formsTitle {first second : Nat} {language other : String}
    (same : formsTitle first language = formsTitle second other) : first = second := by
  obtain ⟨rest, firstEq⟩ := exists_formsTitle_eq first language
  obtain ⟨others, secondEq⟩ := exists_formsTitle_eq second other
  exact count_eq_of_words (firstEq.symm.trans (same.trans secondEq))

-- Unfolding the words of every problem at once is slow.
theorem message_noForms (language : String) :
    PluralProblem.noForms.message language =
      "Message is numerus but the translation has no numerusform elements" :=
  rfl

theorem message_wrongCount (language : String) (expected found : Nat) :
    (PluralProblem.wrongCount expected found).message language =
      "Expected " ++ toString expected ++ " plural form" ++ (if expected == 1 then "" else "s") ++
        " for '" ++ language ++ "', found " ++ toString found :=
  rfl

theorem exists_message_eq (language : String) (expected found : Nat) :
    ∃ rest, (PluralProblem.wrongCount expected found).message language =
      "Expected " ++ (toString expected ++ (" plural form" ++ rest)) := by
  refine ⟨(if expected == 1 then "" else "s") ++
    (" for '" ++ (language ++ ("', found " ++ toString found))), ?_⟩
  rw [message_wrongCount, ← String.toList_inj]
  simp only [String.toList_append, List.append_assoc]

theorem expected_eq_of_message {language : String} {expected found other several : Nat}
    (same : (PluralProblem.wrongCount expected found).message language =
      (PluralProblem.wrongCount other several).message language) : expected = other := by
  obtain ⟨rest, firstEq⟩ := exists_message_eq language expected found
  obtain ⟨others, secondEq⟩ := exists_message_eq language other several
  exact count_eq_of_words (firstEq.symm.trans (same.trans secondEq))

theorem noForms_message_ne (language : String) (expected found : Nat) :
    PluralProblem.noForms.message language ≠
      (PluralProblem.wrongCount expected found).message language := by
  intro same
  have heads := congrArg (·.toList.head?) same
  simp [message_noForms, message_wrongCount] at heads

theorem finishing_ne_formsTitle (count : Nat) (language : String) :
    "Mark translation as finished" ≠ formsTitle count language := by
  intro same
  have heads := congrArg (·.toList.head?) same
  simp [formsTitle] at heads

end Wordings

variable {text : String} {document : Document} {options : CheckOptions} {index : MessageIndex}
  {message : Message}

theorem mem_pluralForms_iff (read : Document.read text = .ok document)
    (found : document.catalog.message? index = some message) (options : CheckOptions)
    (wording : String) :
    (∃ issue ∈ documentIssues document options, issue.kind = .pluralForms ∧
        issue.index = some index ∧ issue.message = wording) ↔
      message.target.status.isActive = true ∧
        ∃ problem, pluralProblem? (settingOf document.catalog options).expectedForms message =
          some problem ∧
          problem.message (settingOf document.catalog options).language = wording := by
  obtain ⟨entry, member, rfl, rfl⟩ := Catalog.exists_entry found
  obtain ⟨-, spans, spansAt, -⟩ := Document.exists_readsMessage read found
  have plural (issue : Issue) : issue ∈ entryIssues document options entry ∧
      issue.kind = .pluralForms ↔ entry.message.target.status.isActive = true ∧
        issue ∈ pluralIssues (settingOf document.catalog options) entry.message spans
          entry.index := by
    simp only [entryIssues, spansAt, List.mem_append, or_and_right]
    rw [mem_messageIssues_pluralForms_iff, or_iff_right]
    rintro ⟨duplicate, isPlural⟩
    exact absurd ((of_mem_duplicateIssues duplicate).1.symm.trans isPlural) (by decide)
  constructor
  · rintro ⟨issue, reported, isPlural, about, words⟩
    have own := (mem_entryIssues_iff read options member).mpr ⟨reported, about⟩
    obtain ⟨active, checked⟩ := (plural issue).mp ⟨own, isPlural⟩
    exact ⟨active, exists_mem_pluralIssues_iff.mp ⟨issue, checked, words⟩⟩
  · rintro ⟨active, problem⟩
    obtain ⟨issue, checked, words⟩ := exists_mem_pluralIssues_iff.mpr problem
    obtain ⟨own, isPlural⟩ := (plural issue).mpr ⟨active, checked⟩
    obtain ⟨reported, about⟩ := (mem_entryIssues_iff read options member).mp own
    exact ⟨issue, reported, isPlural, about, words⟩

/-- What a message is like that can be given another number of forms. -/
theorem fixed_cases {count : Nat} {target : Target}
    (fixed : QuickFix.withFormCount? message count = some target) :
    message.numerus = true ∧ ((∃ form, message.target.text = .single form) ∨
      ∃ forms, message.target.text = .plural forms ∧ forms ≠ [] ∧ forms.length ≠ count) := by
  obtain ⟨numerus, filled, differs, -⟩ := QuickFix.withFormCount?_eq_some_iff.mp fixed
  refine ⟨numerus, ?_⟩
  cases textEq : message.target.text with
  | single form => exact .inl ⟨form, rfl⟩
  | plural forms =>
      refine .inr ⟨forms, rfl, ?_, ?_⟩
      · rintro rfl
        simp [Target.isEmpty, Target.forms, textEq] at filled
      · simpa [Target.isPlural, Target.forms, textEq] using differs

theorem supports_iff_of_single (read : Document.read text = .ok document)
    (found : document.catalog.message? index = some message) (numerus : message.numerus = true)
    {form : FormText} (textEq : message.target.text = .single form) (count : Nat) :
    document.Supports options index count ↔ message.target.status.isActive = true := by
  have reported := mem_pluralForms_iff read found options
  have problem (expected : Option Nat) : pluralProblem? expected message = some .noForms := by
    rw [pluralProblem?, textEq, numerus]
  constructor
  · rintro ⟨issue, member, isPlural, about, -⟩
    exact ((reported _).mp ⟨issue, member, isPlural, about, rfl⟩).1
  · intro active
    obtain ⟨issue, member, isPlural, about, wording⟩ :=
      (reported _).mpr ⟨active, _, problem _, rfl⟩
    refine ⟨issue, member, isPlural, about, fun expected several same => ?_⟩
    exact absurd (wording.symm.trans same) (noForms_message_ne _ _ _)

/-- A message in use with another number of forms is reported if the number of
its language is known, with that number. -/
theorem supports_iff_of_plural (read : Document.read text = .ok document)
    (found : document.catalog.message? index = some message) (numerus : message.numerus = true)
    {forms : List FormText} (textEq : message.target.text = .plural forms) (filled : forms ≠ [])
    {count : Nat} (different : forms.length ≠ count) :
    document.Supports options index count ↔
      message.target.status.isActive = true ∧
        (settingOf document.catalog options).expectedForms = some count := by
  have reported := mem_pluralForms_iff read found options
  have nonempty : forms.isEmpty = false := by simpa using filled
  constructor
  · rintro ⟨issue, member, isPlural, about, count⟩
    obtain ⟨active, problem, problemEq, wording⟩ :=
      (reported _).mp ⟨issue, member, isPlural, about, rfl⟩
    refine ⟨active, ?_⟩
    simp only [pluralProblem?, textEq, numerus, nonempty] at problemEq
    cases expectedEq : (settingOf document.catalog options).expectedForms with
    | none => simp [expectedEq] at problemEq
    | some expected =>
        simp only [expectedEq, Option.ite_none_right_eq_some, Option.some.injEq] at problemEq
        obtain ⟨-, rfl⟩ := problemEq
        rw [count _ _ wording.symm]
  · rintro ⟨active, expected⟩
    have problem : pluralProblem? (settingOf document.catalog options).expectedForms message =
        some (.wrongCount count forms.length) := by
      rw [pluralProblem?, textEq, numerus, expected]
      simp [nonempty, different]
    obtain ⟨issue, member, isPlural, about, wording⟩ := (reported _).mpr ⟨active, _, problem, rfl⟩
    refine ⟨issue, member, isPlural, about, fun expected several same => ?_⟩
    exact (expected_eq_of_message (wording.symm.trans same)).symm

/-- The check supports a number of forms for a message in use that has no forms
yet, or a wrong number of them where it expects the given one. -/
theorem supports_iff (read : Document.read text = .ok document)
    (found : document.catalog.message? index = some message) {count : Nat} {target : Target}
    (fixed : QuickFix.withFormCount? message count = some target) :
    document.Supports options index count ↔
      message.target.status.isActive = true ∧
        (message.target.isPlural = true →
          (settingOf document.catalog options).expectedForms = some count) := by
  obtain ⟨numerus, ⟨form, textEq⟩ | ⟨forms, textEq, filled, different⟩⟩ := fixed_cases fixed
  · rw [supports_iff_of_single read found numerus textEq]
    simp [Target.isPlural, textEq]
  · rw [supports_iff_of_plural read found numerus textEq filled different]
    simp [Target.isPlural, textEq]

theorem QuickFix.useForms_mem_atOffset {offset count : Nat} {fixable : Fixable} {target : Target}
    (found : (document.spans.messageAt? offset).bind (fixable? document) = some fixable)
    (counted : options.expectedFormCount? (document.catalog.language.getD "") = some count)
    (fixed : withFormCount? fixable.message count = some target) (content : List Char)
    (diagnostics : List Diagnostic) :
    useForms content fixable (document.catalog.language.getD "") count target diagnostics ∈
      atOffset document content offset options diagnostics := by
  rw [atOffset, found]
  refine List.mem_append_right _ ?_
  rw [useForms?, counted]
  simp [fixed]

theorem expectedForms_of_unpadded {catalog : Catalog} {language : String}
    (given : catalog.language = some language) (unpadded : trimmed language = language)
    (named : language ≠ "") :
    (settingOf catalog options).expectedForms =
      options.expectedFormCount? (catalog.language.getD "") := by
  simp [settingOf, namedLanguage?, given, unpadded, named]

/-- A fix that gives the message at an offset another number of forms answers
an issue of the check of plural forms exactly if the message is in use and, in
case its target has forms already, the check expects this number.  The latter
holds for a language without blanks around it. -/
theorem useForms_supported_iff (read : Document.read text = .ok document) {offset count : Nat}
    {diagnostics : List Diagnostic} {fix : QuickFix}
    (offered : fix ∈ QuickFix.atOffset document text.toList offset options diagnostics)
    (titled : fix.title = formsTitle count (document.catalog.language.getD "")) :
    ∃ index message, document.spans.messageAt? offset = some index ∧
      document.catalog.message? index = some message ∧
      (document.Supports options index count ↔
        message.target.status.isActive = true ∧
          (message.target.isPlural = true →
            (settingOf document.catalog options).expectedForms = some count)) ∧
      ∀ language, document.catalog.language = some language → trimmed language = language →
        language ≠ "" →
          (document.Supports options index count ↔ message.target.status.isActive = true) := by
  obtain ⟨index, message, spans, target, here, found, -, intends, -⟩ :=
    QuickFix.exists_intended offered
  refine ⟨index, message, here, found, ?_⟩
  rcases intends with ⟨finishing, -⟩ | ⟨expected, looked, forms, fixed⟩
  · exact absurd (finishing.symm.trans titled) (finishing_ne_formsTitle _ _)
  · cases count_eq_of_formsTitle (forms.symm.trans titled)
    refine ⟨supports_iff read found fixed, fun language given unpadded named => ?_⟩
    rw [supports_iff read found fixed, expectedForms_of_unpadded given unpadded named, looked]
    exact and_iff_left fun _ => rfl

/-- A text with a message in use that has one form of two. -/
def singularText : String :=
  "<TS language=\"da\"><context><name>n</name><message numerus=\"yes\"><source>s</source>" ++
    "<translation><numerusform>a</numerusform></translation></message></context></TS>"

def singularDocument : Document :=
  { catalog :=
      { language := some "da"
        contexts := [
          { name := "n"
            messages := [
              { source := "s", numerus := true, target := ⟨.finished, .plural [.plain "a"]⟩ }] }] }
    spans :=
      { root := ⟨0, 18⟩
        contexts := [
          { element := ⟨18, 157⟩
            name := ⟨27, 41⟩
            messages := [⟨⟨41, 147⟩, ⟨64, 82⟩, some ⟨⟨82, 137⟩, ⟨82, 95⟩⟩⟩] }] } }

theorem supports_singularText :
    ∃ fix ∈ QuickFix.atOffset singularDocument singularText.toList 50 {} [],
      fix.title = "Use 2 plural forms for 'da'" ∧ singularDocument.Supports {} ⟨0, 0⟩ 2 := by
  have read : Document.read singularText = .ok singularDocument :=
    Except.toOption_eq_some_iff.mp (by decide +kernel)
  have fixable : (singularDocument.spans.messageAt? 50).bind
      (QuickFix.fixable? singularDocument) =
        some ⟨{ source := "s", numerus := true, target := ⟨.finished, .plural [.plain "a"]⟩ },
          ⟨41, 147⟩, ⟨82, 137⟩⟩ := rfl
  have needed : CheckOptions.expectedFormCount? {} "da" = some 2 := by decide +kernel
  have offered := QuickFix.useForms_mem_atOffset fixable needed rfl singularText.toList []
  obtain ⟨index, message, here, found, -, supported⟩ := useForms_supported_iff read offered rfl
  cases here
  cases found
  refine ⟨_, offered, by decide +kernel, ?_⟩
  exact (supported "da" rfl (by decide +kernel) (by decide)).mpr rfl

/-- A text with a message that is no longer in use and has one form of two. -/
def obsoleteText : String :=
  "<TS language=\"da\"><context><name>n</name><message numerus=\"yes\"><source>s</source>" ++
    "<translation type=\"obsolete\"><numerusform>a</numerusform></translation></message>" ++
    "</context></TS>"

def obsoleteDocument : Document :=
  { catalog :=
      { language := some "da"
        contexts := [
          { name := "n"
            messages := [
              { source := "s", numerus := true, target := ⟨.obsolete, .plural [.plain "a"]⟩ }] }] }
    spans :=
      { root := ⟨0, 18⟩
        contexts := [
          { element := ⟨18, 173⟩
            name := ⟨27, 41⟩
            messages := [⟨⟨41, 163⟩, ⟨64, 82⟩, some ⟨⟨82, 153⟩, ⟨82, 111⟩⟩⟩] }] } }

/-- Not every fix of the number of forms answers an issue: a message that is no
longer in use is offered one, which would even bring it back as unfinished. -/
theorem not_supports_obsoleteText :
    ¬ ∀ text document options offset count diagnostics fix, Document.read text = .ok document →
      fix ∈ QuickFix.atOffset document text.toList offset options diagnostics →
        fix.title = formsTitle count (document.catalog.language.getD "") →
          ∃ index, document.spans.messageAt? offset = some index ∧
            document.Supports options index count := by
  intro does
  have read : Document.read obsoleteText = .ok obsoleteDocument :=
    Except.toOption_eq_some_iff.mp (by decide +kernel)
  have fixable : (obsoleteDocument.spans.messageAt? 50).bind
      (QuickFix.fixable? obsoleteDocument) =
        some ⟨{ source := "s", numerus := true, target := ⟨.obsolete, .plural [.plain "a"]⟩ },
          ⟨41, 163⟩, ⟨82, 153⟩⟩ := rfl
  have needed : CheckOptions.expectedFormCount? {} "da" = some 2 := by decide +kernel
  have offered := QuickFix.useForms_mem_atOffset fixable needed rfl obsoleteText.toList []
  obtain ⟨index, here, supported⟩ := does _ _ _ _ _ _ _ read offered rfl
  cases here
  have inUse := (supports_iff read rfl rfl).mp supported
  exact absurd inUse.1 (by decide)

end CatalogServer
