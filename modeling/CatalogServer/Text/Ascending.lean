/-!
# Lists in increasing order

Numbers of placeholders and languages are listed in increasing order, each
once.  An element that is already there is not added again.
-/

namespace CatalogServer.Text

variable {α : Type} [LT α] [DecidableLT α] [DecidableEq α]

def insertAscending (element : α) : List α → List α
  | [] => [element]
  | first :: rest =>
      if element < first then element :: first :: rest
      else if element = first then first :: rest
      else first :: insertAscending element rest

/-- The elements of a list in increasing order, each once. -/
def ascending (elements : List α) : List α :=
  elements.foldr insertAscending []

@[simp] theorem mem_insertAscending {element other : α} {elements : List α} :
    other ∈ insertAscending element elements ↔ other = element ∨ other ∈ elements := by
  induction elements with
  | nil => simp [insertAscending]
  | cons first rest ih =>
      simp only [insertAscending]
      split
      · simp
      · split
        · next same => simp [same]
        · simp only [List.mem_cons, ih]
          constructor
          · rintro (atHead | atNew | below)
            · exact .inr (.inl atHead)
            · exact .inl atNew
            · exact .inr (.inr below)
          · rintro (atNew | atHead | below)
            · exact .inr (.inl atNew)
            · exact .inl atHead
            · exact .inr (.inr below)

@[simp] theorem mem_ascending {element : α} {elements : List α} :
    element ∈ ascending elements ↔ element ∈ elements := by
  induction elements with
  | nil => simp [ascending]
  | cons first rest ih =>
      rw [ascending, List.foldr_cons, ← ascending, mem_insertAscending, ih, List.mem_cons]

end CatalogServer.Text
