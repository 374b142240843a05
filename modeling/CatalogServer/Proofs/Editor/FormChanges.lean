import CatalogServer.Editor.QuickFix
import CatalogServer.Proofs.Check.Standing

/-!
# Adding forms and cutting them off

A fix gives a target the number of plural forms that its language needs.  It
keeps the forms as far as the number allows and adds empty ones where they are
too few, and neither the check of plural forms nor the fix itself then finds
anything wrong.

The fix is offered only where a target has text, but what it cuts off may be all
of it: a target keeps text exactly if one of the forms that stay has some.
-/

namespace CatalogServer

open Check

/-- Forms brought to a number: the last ones are cut off, or empty ones added. -/
def FormText.resized (forms : List FormText) (count : Nat) : List FormText :=
  forms.take count ++ List.replicate (count - forms.length) (.plain "")

namespace FormText

variable (forms : List FormText) (count : Nat)

theorem length_resized : (resized forms count).length = count := by
  rw [resized, List.length_append, List.length_take, List.length_replicate]
  omega

theorem take_resized :
    (resized forms count).take (min forms.length count) = forms.take (min forms.length count) := by
  rw [resized, List.take_append_of_le_length (by simp [Nat.min_comm]), List.take_take, Nat.min_assoc,
    Nat.min_self]

theorem drop_resized : ∀ form ∈ (resized forms count).drop forms.length, form = .plain "" := by
  intro form member
  rw [resized, List.drop_append, List.drop_eq_nil_of_le (List.length_take_le' ..),
    List.nil_append] at member
  exact List.eq_of_mem_replicate (List.mem_of_mem_drop member)

/-- Whatever keeps the forms as far as the number allows and has only empty ones
besides is the resized list. -/
theorem eq_resized {others : List FormText} (length : others.length = count)
    (kept : others.take (min forms.length count) = forms.take (min forms.length count))
    (added : ∀ form ∈ others.drop forms.length, form = .plain "") :
    others = resized forms count := by
  rcases Nat.le_total forms.length count with fewer | more
  · rw [Nat.min_eq_left fewer, List.take_length] at kept
    have rest : others.drop forms.length = List.replicate (count - forms.length) (.plain "") := by
      rw [List.eq_replicate_iff, List.length_drop, length]
      exact ⟨rfl, added⟩
    calc
      others = others.take forms.length ++ others.drop forms.length :=
        (List.take_append_drop ..).symm
      _ = resized forms count := by
        rw [kept, rest, resized, List.take_of_length_le fewer]
  · rw [Nat.min_eq_right more, ← length, List.take_length] at kept
    rw [resized, ← length, ← kept, length, Nat.sub_eq_zero_of_le more, List.replicate_zero,
      List.append_nil]

/-- Only the forms that are kept can have text. -/
theorem all_isEmpty_resized :
    (resized forms count).all (·.isEmpty) = (forms.take count).all (·.isEmpty) := by
  have blank : (FormText.plain "").isEmpty = true := by decide
  rw [resized, List.all_append, List.all_replicate, blank]
  simp

end FormText

/-- The target of a message with its forms brought to a number.  Added forms leave
it unfinished. -/
def Message.resizedTarget (message : Message) (count : Nat) : Target where
  status := if message.target.forms.length < count then .unfinished else message.target.status
  text := .plural (FormText.resized message.target.forms count)

/-- A target is that of a message with another number of forms, and settles what
was wrong with them. -/
structure Message.FitsForms (message : Message) (count : Nat) (target : Target) : Prop where
  numerus : message.numerus = true
  filled : message.target.isEmpty = false
  differs : message.target.isPlural = true → message.target.forms.length ≠ count
  plural : target.isPlural = true
  length : target.forms.length = count
  kept : target.forms.take (min message.target.forms.length count) =
    message.target.forms.take (min message.target.forms.length count)
  added : ∀ form ∈ target.forms.drop message.target.forms.length, form = .plain ""
  status : target.status =
    if message.target.forms.length < count then .unfinished else message.target.status
  unreported : pluralProblem? (some count) { message with target := target } = none
  settled : QuickFix.withFormCount? { message with target := target } count = none

/-- A form that stays when a message gets a number of forms has text. -/
def Message.KeepsText (message : Message) (count : Nat) : Prop :=
  ∃ form ∈ message.target.forms.take count, form.isEmpty = false

namespace QuickFix

variable {message : Message} {count : Nat} {target : Target}

/-- The fix applies to a numerus message whose target has text and is not plural
with the right number of forms already. -/
theorem withFormCount?_of_differs (numerus : message.numerus = true)
    (filled : message.target.isEmpty = false)
    (differs : message.target.isPlural = true → message.target.forms.length ≠ count) :
    withFormCount? message count = some (message.resizedTarget count) := by
  have other : (message.target.isPlural && message.target.forms.length == count) = false := by
    simpa using differs
  simp only [withFormCount?, numerus, filled, other, Message.resizedTarget, FormText.resized]
  by_cases fewer : message.target.forms.length < count
  · simp [fewer, List.take_of_length_le (Nat.le_of_lt fewer)]
  · simp [fewer, Nat.sub_eq_zero_of_le (Nat.le_of_not_lt fewer)]

theorem withFormCount?_eq_some_iff :
    withFormCount? message count = some target ↔
      message.numerus = true ∧ message.target.isEmpty = false ∧
        (message.target.isPlural = true → message.target.forms.length ≠ count) ∧
        target = message.resizedTarget count := by
  constructor
  · intro fixed
    have numerus : message.numerus = true := by
      cases numerusEq : message.numerus with
      | true => rfl
      | false => simp [withFormCount?, numerusEq] at fixed
    have filled : message.target.isEmpty = false := by
      cases emptyEq : message.target.isEmpty with
      | false => rfl
      | true => simp [withFormCount?, emptyEq] at fixed
    have differs : message.target.isPlural = true → message.target.forms.length ≠ count := by
      intro plural length
      simp [withFormCount?, numerus, filled, plural, length] at fixed
    rw [withFormCount?_of_differs numerus filled differs] at fixed
    exact ⟨numerus, filled, differs, (Option.some.inj fixed).symm⟩
  · rintro ⟨numerus, filled, differs, rfl⟩
    exact withFormCount?_of_differs numerus filled differs

theorem pluralProblem?_eq_none (numerus : message.numerus = true)
    (plural : message.target.isPlural = true) (length : message.target.forms.length = count) :
    pluralProblem? (some count) message = none := by
  cases textEq : message.target.text with
  | single form => simp [Target.isPlural, textEq] at plural
  | plural forms =>
      simp only [Target.forms, textEq] at length
      simp [pluralProblem?, textEq, numerus, length]

theorem withFormCount?_eq_none (plural : message.target.isPlural = true)
    (length : message.target.forms.length = count) : withFormCount? message count = none := by
  rw [Option.eq_none_iff_forall_ne_some]
  intro target fixed
  obtain ⟨-, -, differs, -⟩ := withFormCount?_eq_some_iff.mp fixed
  exact differs plural length

/-- The fix of the number of forms gives a message exactly the target that fits
it, and gives none if there is no such target. -/
theorem withFormCount?_eq_some_iff_fitsForms (message : Message) (count : Nat) (target : Target) :
    withFormCount? message count = some target ↔ message.FitsForms count target := by
  rw [withFormCount?_eq_some_iff]
  constructor
  · rintro ⟨numerus, filled, differs, rfl⟩
    exact {
      numerus, filled, differs
      plural := rfl
      length := FormText.length_resized _ _
      kept := FormText.take_resized _ _
      added := FormText.drop_resized _ _
      status := rfl
      unreported := pluralProblem?_eq_none numerus rfl (FormText.length_resized _ _)
      settled := withFormCount?_eq_none rfl (FormText.length_resized _ _) }
  · intro fits
    refine ⟨fits.numerus, fits.filled, fits.differs, ?_⟩
    obtain ⟨status, text⟩ := target
    cases text with
    | single form => exact absurd fits.plural Bool.false_ne_true
    | plural forms =>
        have same : forms = FormText.resized message.target.forms count :=
          FormText.eq_resized _ _ fits.length fits.kept fits.added
        rw [Message.resizedTarget, ← same, ← fits.status]

example : withFormCount? { numerus := true, target := ⟨.finished, .single (.plain "a")⟩ } 2 =
    some ⟨.unfinished, .plural [.plain "a", .plain ""]⟩ := by decide

/-- The fix leaves a target with text exactly if it keeps a form with text, which
it does where it cuts none off.  Otherwise it turns a message in use, whose target
was not missing, into one whose target is. -/
theorem keepsText_iff (fixed : withFormCount? message count = some target) :
    (target.isEmpty = false ↔ message.KeepsText count) ∧
      (message.target.forms.length ≤ count → message.KeepsText count) ∧
      message.standing ≠ .missing ∧
      (({ message with target := target } : Message).standing = .missing ↔
        message.target.status.isActive = true ∧ ¬ message.KeepsText count) := by
  obtain ⟨-, filled, -, rfl⟩ := withFormCount?_eq_some_iff.mp fixed
  have kept : (message.resizedTarget count).isEmpty = false ↔ message.KeepsText count := by
    rw [Target.isEmpty, Target.forms, Message.resizedTarget, FormText.all_isEmpty_resized]
    simp [Message.KeepsText]
  have whole : message.target.forms.length ≤ count → message.KeepsText count := by
    intro fewer
    rw [Target.isEmpty] at filled
    simpa [Message.KeepsText, List.take_of_length_le fewer] using filled
  refine ⟨kept, whole, ?_, ?_⟩
  · rw [ne_eq, Message.standing_eq_missing_iff, filled]
    exact fun missing => absurd missing.2 Bool.false_ne_true
  · rw [Message.standing_eq_missing_iff, ← kept, Bool.not_eq_false]
    -- A target that gets another status has forms added, and keeps its text.
    by_cases fewer : message.target.forms.length < count
    · simp [kept.mpr (whole (Nat.le_of_lt fewer))]
    · simp [Message.resizedTarget, fewer]

/-- A message with a form that has text, though its primary text is empty, and a
form too many. -/
def variedMessage : Message :=
  { source := "s"
    numerus := true
    target := ⟨.finished, .plural [.lengthVariants ["", "a"], .plain "b"]⟩ }

theorem keepsText_variedMessage :
    withFormCount? variedMessage 1 = some ⟨.finished, .plural [.lengthVariants ["", "a"]]⟩ ∧
      Target.isEmpty ⟨.finished, .plural [.lengthVariants ["", "a"]]⟩ = false := by
  have fixed : withFormCount? variedMessage 1 =
      some ⟨.finished, .plural [.lengthVariants ["", "a"]]⟩ := by decide
  obtain ⟨kept, -⟩ := keepsText_iff fixed
  exact ⟨fixed, kept.mpr ⟨.lengthVariants ["", "a"], List.mem_cons_self, by decide⟩⟩

/-- A finished message whose text stands in its second form. -/
def secondFormMessage : Message :=
  { source := "s"
    numerus := true
    target := ⟨.finished, .plural [.plain "", .plain "a"]⟩ }

/-- A fix may take all the text away: the target of a language with one form loses
the second one, which is the only one with text, and stays finished. -/
theorem not_keepsText_secondFormMessage :
    ¬ ∀ message count target, 1 ≤ count → withFormCount? message count = some target →
      target.isEmpty = false := by
  intro keeps
  have fixed : withFormCount? secondFormMessage 1 = some ⟨.finished, .plural [.plain ""]⟩ := by
    decide
  exact absurd (keeps _ _ _ (Nat.le_refl 1) fixed) (by decide)

end QuickFix

end CatalogServer
