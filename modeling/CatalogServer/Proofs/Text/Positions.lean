import CatalogServer.Proofs.Text.LineIndex
import Mathlib.Data.List.TakeWhile

/-!
# Round trips through positions

Editors keep lines and columns in fields of 32 bits, which hold every position
of a text below 2^32 bytes.  The position of a place leads back to it, but for
one place: behind a carriage return at the very end of a text, which is taken
for the terminator of the last line although no line feed follows it.
-/

namespace CatalogServer.Text

/-- The line and the column are numbers of 32 bits. -/
def Position.Fits (position : Position) : Prop :=
  position.line < UInt32.size ∧ position.character < UInt32.size

/-- The ends of a range are positions of 32 bits. -/
def Range.Fits (range : Range) : Prop :=
  range.start.Fits ∧ range.stop.Fits

/-- A text is cut between a carriage return and the line feed right behind
it. -/
def CutsTerminator (before after : List Char) : Prop :=
  before.getLast? = some '\r' ∧ after.head? = some '\n'

instance (before after : List Char) : Decidable (CutsTerminator before after) :=
  inferInstanceAs (Decidable (_ ∧ _))

theorem utf16Units_le_utf8Size (c : Char) : utf16Units c ≤ c.utf8Size := by
  have positive := c.utf8Size_pos
  unfold utf16Units
  split
  · exact positive
  · next astral =>
      have several : c.utf8Size ≠ 1 := by
        rw [ne_eq, Char.utf8Size_eq_one_iff]
        intro ascii
        have bound : c.toNat ≤ 127 := UInt32.le_iff_toNat_le.mp ascii
        omega
      omega

theorem utf16Size_le_byteSize (text : List Char) : utf16Size text ≤ byteSize text := by
  induction text with
  | nil => exact Nat.le_refl _
  | cons c rest ih => exact Nat.add_le_add (utf16Units_le_utf8Size c) ih

theorem length_le_byteSize (text : List Char) : text.length ≤ byteSize text := by
  induction text with
  | nil => exact Nat.le_refl _
  | cons c rest ih =>
      have positive := c.utf8Size_pos
      simp only [List.length_cons, byteSize]
      omega

namespace LineIndex

/-- In a text below 2^32 bytes no position is cut off. -/
theorem fits_position {before after : List Char} (small : byteSize (before ++ after) < UInt32.size) :
    (position (before ++ after) (byteSize before)).Fits := by
  obtain ⟨lines, column, rfl, ends, single⟩ := exists_lines before
  have feeds : lines.count '\n' ≤ byteSize lines :=
    List.count_le_length.trans (length_le_byteSize lines)
  have units := utf16Size_le_byteSize column
  rw [position_append ends single]
  simp only [byteSize_append] at small
  constructor
  · show lines.count '\n' < UInt32.size
    omega
  · show utf16Size column < UInt32.size
    omega

theorem takeUnits_of_utf16Size_le {text : List Char} {units : Nat}
    (enough : utf16Size text ≤ units) : takeUnits units text = text := by
  induction text generalizing units with
  | nil => cases units <;> rfl
  | cons c rest ih =>
      have positive := utf16Units_pos c
      rw [utf16Size] at enough
      obtain ⟨more, rfl⟩ : ∃ more, units = more + 1 := ⟨units - 1, by omega⟩
      rw [takeUnits, ih (by omega)]
      simp

/-- The end of a text that ends with a carriage return leads back to the place
in front of it. -/
theorem offset_position_trailingReturn (before : List Char) :
    offset (before ++ ['\r']) (position (before ++ ['\r']) (byteSize (before ++ ['\r']))) =
      some (byteSize before) := by
  obtain ⟨lines, column, rfl, ends, single⟩ := exists_lines before
  have unbroken : '\n' ∉ column ++ ['\r'] := by simp [single]
  have atEnd : position (lines ++ (column ++ ['\r']) ++ []) (byteSize (lines ++ (column ++ ['\r']))) =
      ⟨lines.count '\n', utf16Size (column ++ ['\r'])⟩ := position_append ends unbroken
  rw [List.append_nil, ← List.append_assoc] at atEnd
  have line : firstLine (column ++ ['\r']) = column := by
    have whole : (column ++ ['\r']).takeWhile (· != '\n') = column ++ ['\r'] := by
      rw [List.takeWhile_eq_self_iff]
      intro c member
      rw [bne_iff_ne]
      rintro rfl
      exact unbroken member
    rw [firstLine, whole, dropCarriageReturn_append (by simp)]
    simp [dropCarriageReturn]
  have taken : takeUnits (utf16Size (column ++ ['\r'])) column = column := by
    refine takeUnits_of_utf16Size_le ?_
    rw [utf16Size_append]
    exact Nat.le_add_right _ _
  rw [atEnd, List.append_assoc, offset_lines ends, line, taken, byteSize_append]

/-- In a text below 2^32 bytes, the position of every place outside a line
terminator is one that editors can hold, and it leads back to the place unless
this is the end of a text that ends with a carriage return. -/
theorem offset_position_iff {before after : List Char}
    (small : byteSize (before ++ after) < UInt32.size) (outside : ¬ CutsTerminator before after) :
    (position (before ++ after) (byteSize before)).Fits ∧
      (offset (before ++ after) (position (before ++ after) (byteSize before)) =
          some (byteSize before) ↔
        ¬ (before.getLast? = some '\r' ∧ after = [])) := by
  refine ⟨fits_position small, ?_, ?_⟩
  · rintro returns ⟨last, rfl⟩
    obtain ⟨front, rfl⟩ := List.getLast?_eq_some_iff.mp last
    have earlier := offset_position_trailingReturn front
    rw [List.append_nil, earlier, Option.some.injEq, byteSize_append] at returns
    have size : byteSize ['\r'] = 1 := by decide
    omega
  · intro inner
    refine offset_position fun last => ?_
    cases after with
    | nil => exact absurd ⟨last, rfl⟩ inner
    | cons c rest =>
        refine ⟨c, rest, rfl, ?_⟩
        rintro rfl
        exact outside ⟨last, rfl⟩

/-- A carriage return inside a line is a character like others. -/
theorem offset_position_innerReturn :
    byteSize ("é\r\n😀\r".toList ++ "b".toList) < UInt32.size ∧
      ¬ CutsTerminator "é\r\n😀\r".toList "b".toList ∧
      offset ("é\r\n😀\r".toList ++ "b".toList)
        (position ("é\r\n😀\r".toList ++ "b".toList) (byteSize "é\r\n😀\r".toList)) =
          some (byteSize "é\r\n😀\r".toList) := by
  have small : byteSize ("é\r\n😀\r".toList ++ "b".toList) < UInt32.size := by decide +kernel
  have outside : ¬ CutsTerminator "é\r\n😀\r".toList "b".toList := by decide +kernel
  exact ⟨small, outside, (offset_position_iff small outside).2.mpr (by decide +kernel)⟩

/-- Not every place outside a line terminator is found again. -/
theorem not_offset_position_trailingReturn :
    ¬ ∀ before after : List Char, byteSize (before ++ after) < UInt32.size →
      ¬ CutsTerminator before after →
        offset (before ++ after) (position (before ++ after) (byteSize before)) =
          some (byteSize before) := by
  intro returns
  have found := returns ['a', '\r'] [] (by decide) (by decide)
  exact absurd found (by decide)

end LineIndex

end CatalogServer.Text
