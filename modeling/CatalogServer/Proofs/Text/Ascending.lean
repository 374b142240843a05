import CatalogServer.Text.Ascending
import Mathlib.Data.List.Sort

/-!
# Ascending lists increase strictly

Listing elements in increasing order gives a list in which every element comes
before the greater ones, and none comes twice.
-/

namespace CatalogServer.Text

variable {α : Type} [LT α] [DecidableLT α] [DecidableEq α]
  [Std.Trichotomous fun first second : α => first < second]
  [IsTrans α fun first second => first < second]

theorem pairwise_insertAscending (element : α) {elements : List α}
    (sorted : elements.Pairwise fun first second => first < second) :
    (insertAscending element elements).Pairwise fun first second => first < second := by
  induction elements with
  | nil => exact List.pairwise_singleton _ element
  | cons first rest ih =>
      obtain ⟨below, restSorted⟩ := List.pairwise_cons.mp sorted
      simp only [insertAscending]
      split
      · next less =>
          refine List.pairwise_cons.mpr ⟨fun other member => ?_, sorted⟩
          rcases List.mem_cons.mp member with rfl | later
          · exact less
          · exact IsTrans.trans _ _ _ less (below other later)
      · next notLess =>
          split
          · exact sorted
          · next different =>
              refine List.pairwise_cons.mpr ⟨fun other member => ?_, ih restSorted⟩
              rcases mem_insertAscending.mp member with rfl | later
              · by_contra notMore
                exact different (Std.Trichotomous.trichotomous _ _ notLess notMore)
              · exact below other later

theorem pairwise_ascending (elements : List α) :
    (ascending elements).Pairwise fun first second => first < second := by
  induction elements with
  | nil => exact .nil
  | cons element rest ih => exact pairwise_insertAscending element ih

end CatalogServer.Text
