import CatalogServer.Locale.Plural
import CatalogServer.Proofs.Text.SortedMap
import Mathlib.Data.Set.Finite.Basic

/-!
# Numbers of forms and the spelling of locales

One locale has many spellings: the letter case, the separators, a script and
blanks around it make no difference.  The number of forms that it needs is
looked up under the spelling, then under its language, and then it is that of
the plural rule; only the last two go by the locale alone.

There are more spellings of a locale than a user can set numbers for.  So all
spellings need the same number of forms exactly if every number that is set
under one of them is the one that the locale needs without it.  Numbers that
are set for languages do no harm.
-/

namespace CatalogServer

open Text

namespace LocaleTag

/-- A spelling of a locale with blanks in front. -/
def padded (spelling : String) (blanks : Nat) : String :=
  String.ofList (List.replicate blanks ' ' ++ spelling.toList)

theorem parse?_padded (spelling : String) (blanks : Nat) :
    parse? (padded spelling blanks) = parse? spelling := by
  have skipped : ∀ c ∈ List.replicate blanks ' ', isBlank c = true := by
    intro c member
    rw [List.eq_of_mem_replicate member]
    decide
  simp only [parse?, padded, String.toList_ofList, trim, trimStart,
    List.dropWhile_append_of_pos skipped]

theorem padded_injective (spelling : String) : Function.Injective (padded spelling) := by
  intro first second same
  have lengths := congrArg (fun text => text.toList.length) same
  simpa [padded] using lengths

/-- Of the spellings of a locale, one is not among the keys of a map. -/
theorem exists_unset_spelling (overrides : FormCounts) (spelling : String) :
    ∃ other, parse? other = parse? spelling ∧ overrides.get? other = none := by
  obtain ⟨_, ⟨blanks, rfl⟩, absent⟩ :=
    (Set.infinite_range_of_injective (padded_injective spelling)).exists_notMem_finset
      (overrides.entries.map Prod.fst).toFinset
  refine ⟨padded spelling blanks, parse?_padded spelling blanks, ?_⟩
  rw [SortedMap.get?_eq_none_iff]
  intro entry member same
  exact absent (List.mem_toFinset.mpr (List.mem_map.mpr ⟨entry, member, same⟩))

end LocaleTag

namespace FormCounts

variable {overrides : FormCounts} {tag : LocaleTag} {spelling : String}

/-- Number of forms that a locale needs, however it is spelled: the number set
for its language, or else that of its family. -/
def ofTag? (overrides : FormCounts) (tag : LocaleTag) : Option Nat :=
  (overrides.get? tag.language).or ((PluralRule.ofTag? tag).map PluralRule.formCount)

/-- A number that is set under a spelling comes before what the locale
needs. -/
theorem expectedFormCount?_eq (named : LocaleTag.parse? spelling = some tag) :
    expectedFormCount? overrides spelling =
      (overrides.get? spelling).or (overrides.ofTag? tag) := by
  unfold expectedFormCount? PluralRule.ofLocale? ofTag?
  rw [named]
  cases overrides.get? spelling with
  | some count => rfl
  | none => cases found : overrides.get? tag.language <;> simp [found]

/-- All spellings of a locale need the same number of forms. -/
def SpelledAlike (overrides : FormCounts) (tag : LocaleTag) : Prop :=
  ∀ first second, LocaleTag.parse? first = some tag → LocaleTag.parse? second = some tag →
    expectedFormCount? overrides first = expectedFormCount? overrides second

/-- All spellings of a locale need the same number of forms exactly if the
numbers set under its spellings are the one that it needs anyway. -/
theorem spelledAlike_iff (overrides : FormCounts) (tag : LocaleTag) :
    overrides.SpelledAlike tag ↔
      ∀ spelling count, LocaleTag.parse? spelling = some tag →
        overrides.get? spelling = some count → overrides.ofTag? tag = some count := by
  constructor
  · intro alike spelling count named given
    obtain ⟨other, same, unset⟩ := LocaleTag.exists_unset_spelling overrides spelling
    have otherNamed : LocaleTag.parse? other = some tag := same.trans named
    have needed := alike other spelling otherNamed named
    rwa [expectedFormCount?_eq otherNamed, expectedFormCount?_eq named, unset, given,
      Option.none_or, Option.some_or] at needed
  · intro harmless first second named otherNamed
    have needed (spelling : String) (named : LocaleTag.parse? spelling = some tag) :
        expectedFormCount? overrides spelling = overrides.ofTag? tag := by
      rw [expectedFormCount?_eq named]
      cases given : overrides.get? spelling with
      | none => rfl
      | some count => exact (harmless spelling count named given).symm
    rw [needed first named, needed second otherNamed]

theorem spelledAlike_of_languages
    (languages : ∀ spelling count, overrides.get? spelling = some count →
      ∀ tag, LocaleTag.parse? spelling = some tag → spelling = tag.language)
    (tag : LocaleTag) : overrides.SpelledAlike tag := by
  rw [spelledAlike_iff]
  intro spelling count named given
  rw [ofTag?, ← languages spelling count given tag named, given, Option.some_or]

/-- A number that is set for `pt_BR` does not count for `pt-BR`. -/
theorem not_spelledAlike_brazil :
    ¬SpelledAlike (SortedMap.ofList [("pt_BR", 4)]) ⟨"pt", some "BR"⟩ := by
  intro alike
  have differ : expectedFormCount? (SortedMap.ofList [("pt_BR", 4)]) "pt_BR" ≠
      expectedFormCount? (SortedMap.ofList [("pt_BR", 4)]) "pt-BR" := by
    decide +kernel
  exact differ (alike "pt_BR" "pt-BR" (by decide +kernel) (by decide +kernel))

end FormCounts

end CatalogServer
