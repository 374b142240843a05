import CatalogServer.Locale.Plural

/-!
# Counts select all forms

A family of languages says what forms it has in two places: by their number,
and by the form that it selects for a count.  The two agree.  No count selects
a form that translations need not have, and each form that they must have is
selected by some count.
-/

namespace CatalogServer.PluralRule

theorem formIndex_lt (rule : PluralRule) (count : Nat) :
    rule.formIndex count < rule.formCount := by
  cases rule <;> simp only [formIndex, formCount] <;> (repeat' split) <;> decide

/-- Counts that select the forms of a family in their order. -/
def selectingCounts : PluralRule → List UInt64
  | .japanese => [0]
  | .english | .icelandic => [1, 0]
  | .french => [0, 2]
  | .latvian | .irish | .czech | .macedonian | .lithuanian | .russian | .polish => [1, 2, 0]
  | .romanian => [1, 0, 20]
  | .tagalog => [0, 4, 2]
  | .slovenian => [1, 2, 3, 0]
  | .maltese => [1, 0, 11, 20]
  | .welsh => [1, 2, 8, 0]
  | .arabic => [0, 1, 2, 3, 11, 100]

theorem map_selectingCounts (rule : PluralRule) :
    rule.selectingCounts.map (fun count => rule.formIndex count.toNat) =
      List.range rule.formCount := by
  cases rule <;> decide

/-- The forms that counts of 64 bits select are exactly those that a family
has. -/
theorem exists_formIndex_eq_iff (rule : PluralRule) (index : Nat) :
    (∃ count : UInt64, rule.formIndex count.toNat = index) ↔ index < rule.formCount := by
  constructor
  · rintro ⟨count, rfl⟩
    exact rule.formIndex_lt count.toNat
  · intro required
    have selected : index ∈ rule.selectingCounts.map fun count => rule.formIndex count.toNat := by
      rw [map_selectingCounts]
      exact List.mem_range.mpr required
    obtain ⟨count, -, selects⟩ := List.mem_map.mp selected
    exact ⟨count, selects⟩

end CatalogServer.PluralRule
