import CatalogServer.Text.SortedMap

/-!
# Maps from their entries

Setting a key that a map does not have adds one entry and keeps the others.  So
a map is made of the entries that were set, whatever their order, and the
entries of a map lead back to it.
-/

namespace CatalogServer.Text.SortedMap

variable {κ α : Type} [Ord κ]

theorem ext {first second : SortedMap κ α} (same : first.entries = second.entries) :
    first = second := by
  cases first
  cases second
  cases same
  rfl

theorem get?_eq_none_iff [Std.LawfulEqOrd κ] {map : SortedMap κ α} {key : κ} :
    map.get? key = none ↔ ∀ entry ∈ map.entries, entry.1 ≠ key := by
  simp [get?]

theorem nodup_keys [Std.LawfulEqOrd κ] (map : SortedMap κ α) :
    (map.entries.map Prod.fst).Nodup := by
  refine List.pairwise_map.mpr (map.sorted.imp ?_)
  intro first second below same
  rw [same, Std.ReflOrd.compare_self] at below
  cases below

theorem eq_of_perm [Std.TransOrd κ] {first second : SortedMap κ α}
    (same : first.entries.Perm second.entries) : first = second := by
  refine ext (same.eq_of_pairwise ?_ first.sorted second.sorted)
  intro one other _ _ below above
  rw [Std.OrientedCmp.gt_iff_lt.mpr above] at below
  cases below

theorem perm_insertEntry [Std.LawfulEqOrd κ] {key : κ} {entries : List (κ × α)}
    (fresh : ∀ entry ∈ entries, entry.1 ≠ key) (value : α) :
    (insertEntry key value entries).Perm ((key, value) :: entries) := by
  induction entries with
  | nil => rfl
  | cons head rest ih =>
      obtain ⟨first, held⟩ := head
      simp only [insertEntry]
      split
      · rfl
      · next same =>
          exact absurd (Std.LawfulEqOrd.eq_of_compare same).symm (fresh _ List.mem_cons_self)
      · have later := ih fun entry member => fresh entry (List.mem_cons_of_mem _ member)
        exact (later.cons _).trans (.swap _ _ _)

variable [Std.TransOrd κ] [Std.LawfulEqOrd κ]

theorem perm_foldl_insert (entries : List (κ × α)) (map : SortedMap κ α)
    (distinct : ((entries ++ map.entries).map Prod.fst).Nodup) :
    (entries.foldl (fun map (key, value) => map.insert key value) map).entries.Perm
      (entries ++ map.entries) := by
  induction entries generalizing map with
  | nil => rfl
  | cons entry rest ih =>
      obtain ⟨key, value⟩ := entry
      obtain ⟨fresh, restDistinct⟩ := List.nodup_cons.mp distinct
      have inserted : (map.insert key value).entries.Perm ((key, value) :: map.entries) := by
        refine perm_insertEntry (fun held member same => fresh ?_) value
        exact List.mem_map.mpr ⟨held, List.mem_append_right rest member, same⟩
      have moved : (rest ++ (map.insert key value).entries).Perm
          ((key, value) :: (rest ++ map.entries)) :=
        (inserted.append_left rest).trans List.perm_middle
      have stillDistinct : ((rest ++ (map.insert key value).entries).map Prod.fst).Nodup :=
        ((moved.map Prod.fst).nodup_iff).mpr distinct
      exact (ih _ stillDistinct).trans moved

theorem perm_ofList {entries : List (κ × α)} (distinct : (entries.map Prod.fst).Nodup) :
    (ofList entries).entries.Perm entries := by
  have whole : entries ++ (empty : SortedMap κ α).entries = entries := List.append_nil entries
  have made := perm_foldl_insert entries empty (by rwa [whole])
  rwa [whole] at made

/-- The entries of a map, in any order, make the map. -/
theorem ofList_of_perm {map : SortedMap κ α} {entries : List (κ × α)}
    (same : entries.Perm map.entries) : ofList entries = map := by
  have distinct : (entries.map Prod.fst).Nodup := ((same.map _).nodup_iff).mpr map.nodup_keys
  exact eq_of_perm ((perm_ofList distinct).trans same)

end CatalogServer.Text.SortedMap
