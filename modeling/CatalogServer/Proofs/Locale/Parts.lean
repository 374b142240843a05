import CatalogServer.Locale.Tag

/-!
# Parts of locale tags

A tag is cut at its separators, and the words of a locale hold neither
separators nor blanks.
-/

namespace CatalogServer

open Text

/-- A text that is cut at its separators from the front is cut like a list. -/
theorem eq_splitOnP {cut : List Char → List (List Char)} {separates : Char → Bool}
    (nil : cut [] = [[]])
    (cons : ∀ c rest, cut (c :: rest) =
      if separates c then [] :: cut rest
      else match cut rest with
        | [] => [[c]]
        | first :: others => (c :: first) :: others) (text : List Char) :
    cut text = text.splitOnP separates := by
  induction text with
  | nil => exact nil
  | cons c rest ih =>
      rw [cons, List.splitOnP_cons_eq_if_modifyHead, ih]
      split
      · rfl
      · cases parts : List.splitOnP separates rest with
        | nil => exact absurd parts (List.splitOnP_ne_nil _ _)
        | cons first others => rfl

section Characters

variable {c : Char} {text : List Char}

theorem toNat_of_isAlphanum (word : c.isAlphanum = true) : 48 ≤ c.toNat ∧ c.toNat ≤ 122 := by
  have value : c.val.toNat = c.toNat := rfl
  unfold Char.isAlphanum Char.isAlpha Char.isUpper Char.isLower Char.isDigit at word
  simp only [Bool.or_eq_true, Bool.and_eq_true, decide_eq_true_eq, ge_iff_le,
    UInt32.le_iff_toNat_le, value] at word
  have codes : 'A'.val.toNat = 65 ∧ 'Z'.val.toNat = 90 ∧ 'a'.val.toNat = 97 ∧
      'z'.val.toNat = 122 ∧ '0'.val.toNat = 48 ∧ '9'.val.toNat = 57 := by decide
  omega

theorem isBlank_of_isAlphanum (word : c.isAlphanum = true) : isBlank c = false := by
  have range := toNat_of_isAlphanum word
  simp only [isBlank, Bool.or_eq_false_iff, Bool.and_eq_false_iff, decide_eq_false_iff_not,
    beq_eq_false_iff_ne]
  omega

theorem isSeparator_of_isAlphanum (word : c.isAlphanum = true) :
    LocaleTag.isSeparator c = false := by
  rw [LocaleTag.isSeparator, Bool.or_eq_false_iff, beq_eq_false_iff_ne, beq_eq_false_iff_ne]
  constructor <;> rintro rfl <;> revert word <;> decide

theorem trimStart_eq_self (visible : ∀ d ∈ text.head?, isBlank d = false) :
    trimStart text = text := by
  cases text with
  | nil => rfl
  | cons d rest => exact List.dropWhile_cons_of_neg (by simp [visible d rfl])

theorem trimEnd_eq_self (visible : ∀ d ∈ text.getLast?, isBlank d = false) :
    trimEnd text = text := by
  rw [← List.head?_reverse] at visible
  rw [trimEnd, ← trimStart, trimStart_eq_self visible, List.reverse_reverse]

theorem trim_eq_self (visible : ∀ d ∈ text, isBlank d = false) : trim text = text := by
  rw [trim, trimStart_eq_self fun d first => visible d (List.mem_of_head? first)]
  exact trimEnd_eq_self fun d last => visible d (List.mem_of_getLast? last)

end Characters

namespace LocaleTag

theorem splitParts_eq (text : List Char) : splitParts text = text.splitOnP isSeparator :=
  eq_splitOnP rfl (fun _ _ => rfl) text

theorem splitParts_append (front behind : List Char) :
    splitParts (front ++ '_' :: behind) = splitParts front ++ splitParts behind := by
  simp only [splitParts_eq]
  exact List.splitOnP_append_cons front behind rfl

theorem splitParts_of_isAlphanum {word : List Char} (plain : word.all Char.isAlphanum = true) :
    splitParts word = [word] := by
  rw [splitParts_eq]
  apply List.splitOnP_eq_singleton
  intro c member
  exact isSeparator_of_isAlphanum (List.all_eq_true.mp plain c member)

theorem isAlphanum_of_isAlpha {word : List Char} (letters : word.all Char.isAlpha = true) :
    word.all Char.isAlphanum = true := by
  refine List.all_eq_true.mpr fun c member => ?_
  rw [Char.isAlphanum, List.all_eq_true.mp letters c member, Bool.true_or]

theorem isAlphanum_of_isLanguage {word : List Char} (language : isLanguage word = true) :
    word ≠ [] ∧ word.all Char.isAlphanum = true := by
  simp only [isLanguage, Bool.and_eq_true] at language
  obtain ⟨size, letters⟩ := language
  refine ⟨?_, isAlphanum_of_isAlpha letters⟩
  rintro rfl
  cases size

theorem isAlphanum_of_isTerritory {code : List Char} (territory : isTerritory code = true) :
    code ≠ [] ∧ code.all Char.isAlphanum = true := by
  simp only [isTerritory, Bool.or_eq_true, Bool.and_eq_true] at territory
  rcases territory with ⟨size, letters⟩ | ⟨size, digits⟩
  · refine ⟨?_, isAlphanum_of_isAlpha letters⟩
    rintro rfl
    cases size
  · refine ⟨?_, List.all_eq_true.mpr fun c member => ?_⟩
    · rintro rfl
      cases size
    · rw [Char.isAlphanum, List.all_eq_true.mp digits c member, Bool.or_true]

end LocaleTag

end CatalogServer
