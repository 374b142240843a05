import CatalogServer.Json.Decode
import CatalogServer.Proofs.Outcome
import CatalogServer.Proofs.Text.SortedMap
import Mathlib.Data.List.Nodup

/-!
# Decoding undoes encoding

A decoder undoes an encoder if it gives back every value that was encoded.
What holds of values holds of lists and options of them.  The members of an
object stand in the order of their keys, and a map is decoded from them in that
order; it is the same map all the same.
-/

namespace CatalogServer.Json

open Text

variable {α κ : Type} {decode : Decoder α} {encode : α → Json}

/-- A decoder gives back what was encoded. -/
def Undoes (decode : Decoder α) (encode : α → Json) : Prop :=
  ∀ value, decode (encode value) = .ok value

theorem undoes_text : Undoes asText .string :=
  fun _ => rfl

theorem undoes_truth : Undoes asTruth .bool :=
  fun _ => rfl

theorem undoes_size : Undoes asSize ofNat := by
  intro value
  simp [ofNat, ofInt, asSize]

theorem Undoes.list (undoes : Undoes decode encode) : Undoes (asList decode) (ofList encode) := by
  intro values
  have back : decode ∘ encode = pure := funext undoes
  rw [ofList, asList, List.mapM_map, back, List.mapM_pure, List.map_id']
  rfl

/-- An absent value is written as null, which must not stand for anything
else. -/
theorem Undoes.option (undoes : Undoes decode encode) (present : ∀ value, encode value ≠ .null) :
    Undoes (asOptional decode) (ofOption encode) := by
  intro value
  cases value with
  | none => rfl
  | some value =>
      have decoded : asOptional decode (encode value) = (decode (encode value)).map some := by
        cases encoded : encode value with
        | null => exact absurd encoded (present value)
        | bool | number | string | array | object => rfl
      rw [ofOption, decoded, undoes value]
      rfl

section Objects

theorem exists_mapM_of_perm {ε β γ : Type} {read : γ → Except ε β} {write : β → γ}
    (back : ∀ item, read (write item) = .ok item) {written : List γ} {items : List β}
    (same : written.Perm (items.map write)) :
    ∃ found, written.mapM read = .ok found ∧ found.Perm items := by
  refine ⟨_, Except.mapM_eq_ok ?_, ?_⟩
  · intro entry member
    obtain ⟨item, -, rfl⟩ := List.mem_map.mp (same.mem_iff.mp member)
    exact ⟨item, back item⟩
  · have found := same.filterMap fun entry => (read entry).toOption
    simpa [List.filterMap_map, Function.comp_def, back] using found

theorem insertMember_eq_insertEntry (key : String) (value : Json)
    (members : List (String × Json)) :
    insertMember key value members = SortedMap.insertEntry key value members := by
  induction members with
  | nil => rfl
  | cons head rest ih =>
      obtain ⟨first, held⟩ := head
      simp only [insertMember, SortedMap.insertEntry, ih, beq_iff_eq]
      by_cases less : key < first
      · have compared : compare key first = .lt := if_pos less
        rw [if_pos less, compared]
      · by_cases same : key = first
        · have compared : compare key first = .eq := (if_neg less).trans (if_pos same)
          rw [if_neg less, if_pos same, compared]
        · have compared : compare key first = .gt := (if_neg less).trans (if_neg same)
          rw [if_neg less, if_neg same, compared]

theorem ofMembers_eq (members : List (String × Json)) :
    ofMembers members = .object (SortedMap.ofList members).entries := by
  refine congrArg Json.object ?_
  exact @List.foldl_hom _ _ _ SortedMap.entries _ _ members .empty fun map entry =>
    insertMember_eq_insertEntry entry.1 entry.2 map.entries

/-- The entries of an object that was written for a map are decoded to those of
the map, in the order of the keys of the object. -/
theorem exists_asEntries {key : String → Except DecodeError κ} {name : κ → String}
    (named : ∀ held, key (name held) = .ok held) (undoes : Undoes decode encode)
    {entries : List (κ × α)} (distinct : (entries.map Prod.fst).Nodup) :
    ∃ found, asEntries key decode
        (ofMembers (entries.map fun (held, value) => (name held, encode value))) = .ok found ∧
      found.Perm entries := by
  have injective : Function.Injective name := by
    intro one other same
    have keyEq := named one
    rw [same, named other] at keyEq
    exact (Except.ok.inj keyEq).symm
  have stillDistinct : ((entries.map fun (held, value) => (name held, encode value)).map
      Prod.fst).Nodup := by
    have names := distinct.map injective
    rwa [List.map_map] at names ⊢
  rw [ofMembers_eq, asEntries]
  refine exists_mapM_of_perm ?_ (SortedMap.perm_ofList stillDistinct)
  rintro ⟨held, value⟩
  simp only [named, undoes value]
  rfl

end Objects

end CatalogServer.Json
