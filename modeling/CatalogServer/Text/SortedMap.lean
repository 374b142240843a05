/-!
# Maps in the order of their keys

A map is a list of entries whose keys increase strictly, so maps with the
same entries are equal.  Setting a key keeps the order.
-/

namespace CatalogServer.Text

/-- A finite map in the order of its keys. -/
structure SortedMap (κ α : Type) [Ord κ] where
  entries : List (κ × α)
  sorted : entries.Pairwise fun first second => compare first.1 second.1 = .lt

namespace SortedMap

variable {κ α : Type} [Ord κ]

instance [DecidableEq κ] [DecidableEq α] : DecidableEq (SortedMap κ α) := fun first second =>
  decidable_of_iff (first.entries = second.entries) <| by
    cases first
    cases second
    simp

instance [Repr κ] [Repr α] : Repr (SortedMap κ α) :=
  ⟨fun map precedence => reprPrec map.entries precedence⟩

def empty : SortedMap κ α := ⟨[], List.Pairwise.nil⟩

instance : Inhabited (SortedMap κ α) := ⟨empty⟩

def get? (map : SortedMap κ α) (key : κ) : Option α :=
  (map.entries.find? fun entry => compare entry.1 key == .eq).map (·.2)

/-- Sets the value of a key among entries in order. -/
def insertEntry (key : κ) (value : α) : List (κ × α) → List (κ × α)
  | [] => [(key, value)]
  | (first, held) :: rest =>
      match compare key first with
      | .lt => (key, value) :: (first, held) :: rest
      | .eq => (key, value) :: rest
      | .gt => (first, held) :: insertEntry key value rest

theorem mem_insertEntry {key : κ} {value : α} {entries : List (κ × α)} {entry : κ × α}
    (member : entry ∈ insertEntry key value entries) :
    entry = (key, value) ∨ entry ∈ entries := by
  induction entries with
  | nil => simpa [insertEntry] using member
  | cons head rest ih =>
      obtain ⟨first, held⟩ := head
      simp only [insertEntry] at member
      split at member
      · simpa using member
      · rcases List.mem_cons.mp member with rfl | inside
        · exact .inl rfl
        · exact .inr (List.mem_cons_of_mem _ inside)
      · rcases List.mem_cons.mp member with rfl | inside
        · exact .inr List.mem_cons_self
        · rcases ih inside with same | inside
          · exact .inl same
          · exact .inr (List.mem_cons_of_mem _ inside)

theorem pairwise_insertEntry [Std.TransOrd κ] [Std.LawfulEqOrd κ] (key : κ) (value : α)
    {entries : List (κ × α)}
    (sorted : entries.Pairwise fun first second => compare first.1 second.1 = .lt) :
    (insertEntry key value entries).Pairwise
      fun first second => compare first.1 second.1 = .lt := by
  induction entries with
  | nil => simp [insertEntry]
  | cons head rest ih =>
      obtain ⟨first, held⟩ := head
      obtain ⟨below, restSorted⟩ := List.pairwise_cons.mp sorted
      simp only [insertEntry]
      split
      · next less =>
          refine List.pairwise_cons.mpr ⟨?_, sorted⟩
          intro entry member
          rcases List.mem_cons.mp member with rfl | inside
          · exact less
          · exact Std.TransCmp.lt_trans less (below entry inside)
      · next same =>
          have keyEq : key = first := Std.LawfulEqOrd.eq_of_compare same
          refine List.pairwise_cons.mpr ⟨?_, restSorted⟩
          intro entry member
          simpa [keyEq] using below entry member
      · next greater =>
          refine List.pairwise_cons.mpr ⟨?_, ih restSorted⟩
          intro entry member
          rcases mem_insertEntry member with rfl | inside
          · exact Std.OrientedCmp.gt_iff_lt.mp greater
          · exact below entry inside

/-- The map with the value of a key set. -/
def insert [Std.TransOrd κ] [Std.LawfulEqOrd κ] (map : SortedMap κ α) (key : κ) (value : α) :
    SortedMap κ α :=
  ⟨insertEntry key value map.entries, pairwise_insertEntry key value map.sorted⟩

def erase (map : SortedMap κ α) (key : κ) : SortedMap κ α :=
  ⟨map.entries.filter fun entry => compare entry.1 key != .eq, map.sorted.filter _⟩

/-- The map with the given entries; of equal keys the last one counts. -/
def ofList [Std.TransOrd κ] [Std.LawfulEqOrd κ] (entries : List (κ × α)) : SortedMap κ α :=
  entries.foldl (fun map (key, value) => map.insert key value) empty

end SortedMap

end CatalogServer.Text
