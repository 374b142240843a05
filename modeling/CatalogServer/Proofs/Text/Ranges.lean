import CatalogServer.Proofs.Text.Positions
import CatalogServer.Proofs.Text.Slices

/-!
# Spans and their ranges

The same stretch of a text is given by byte offsets, as a span, and by lines and
columns, as a range.  Every character of a text brings its position forward, so
positions stand in the order of their offsets.  Hence a range holds the position
of a place exactly if the span holds its offset, and it does not matter in which
of the two ways a place is looked for.
-/

namespace CatalogServer.Text

/-- A byte offset at which a text can be cut into characters. -/
def IsBoundary (text : List Char) (offset : Nat) : Prop :=
  ∃ before after, text = before ++ after ∧ byteSize before = offset

theorem isBoundary_iff {text : List Char} {offset : Nat} :
    IsBoundary text offset ↔ (splitAtByte offset text).isSome = true := by
  rw [Option.isSome_iff_exists]
  constructor
  · rintro ⟨before, after, rfl, rfl⟩
    exact ⟨_, splitAtByte_append before after⟩
  · rintro ⟨⟨before, after⟩, split⟩
    exact ⟨before, after, eq_of_splitAtByte split⟩

theorem IsBoundary.le_byteSize {text : List Char} {offset : Nat} (place : IsBoundary text offset) :
    offset ≤ byteSize text := by
  obtain ⟨before, after, rfl, rfl⟩ := place
  rw [byteSize_append]
  exact Nat.le_add_right _ _

instance (text : List Char) (offset : Nat) : Decidable (IsBoundary text offset) :=
  decidable_of_iff _ isBoundary_iff.symm

theorem isBoundary_of_shows {text : List Char} {span : ByteSpan} {name : String}
    (shows : span.Shows text name) : IsBoundary text span.start ∧ IsBoundary text span.stop := by
  obtain ⟨before, part, after, whole, start, stop, -⟩ := exists_stretch_of_shows shows
  exact ⟨⟨before, part ++ after, by rw [whole, List.append_assoc], start⟩,
    ⟨before ++ part, after, whole, stop⟩⟩

theorem exists_between {text : List Char} {first second : Nat} (firstAt : IsBoundary text first)
    (secondAt : IsBoundary text second) (ordered : first < second) :
    ∃ before middle after, text = before ++ middle ++ after ∧ middle ≠ [] ∧
      byteSize before = first ∧ byteSize (before ++ middle) = second := by
  obtain ⟨before, rest, whole, rfl⟩ := firstAt
  obtain ⟨longer, after, sameWhole, rfl⟩ := secondAt
  rw [whole] at sameWhole
  rcases List.append_eq_append_iff.mp sameWhole with ⟨middle, rfl, rfl⟩ | ⟨middle, rfl, -⟩
  · refine ⟨before, middle, after, by rw [whole, List.append_assoc], ?_, rfl, rfl⟩
    rintro rfl
    rw [List.append_nil] at ordered
    exact ordered.false
  · rw [byteSize_append] at ordered
    omega

namespace Position

/-- A position comes before another one: in an earlier line, or in an earlier
column of the same line. -/
def Before (first second : Position) : Prop :=
  first.line < second.line ∨ first.line = second.line ∧ first.character < second.character

theorem Before.irrefl {position : Position} : ¬ position.Before position := by
  rintro (earlier | ⟨-, earlier⟩)
  · exact earlier.false
  · exact earlier.false

theorem Before.trans {first second third : Position} (before : first.Before second)
    (later : second.Before third) : first.Before third := by
  unfold Before at *
  omega

theorem isAtMost_iff {first second : Position} :
    first.isAtMost second = true ↔ ¬ second.Before first := by
  simp only [isAtMost, Before, Bool.or_eq_true, Bool.and_eq_true, decide_eq_true_eq, beq_iff_eq]
  omega

theorem before_after (position : Position) (c : Char) : position.Before (position.after c) := by
  unfold after
  split
  · exact .inl (Nat.lt_succ_self _)
  · exact .inr ⟨rfl, Nat.lt_add_of_pos_right (utf16Units_pos c)⟩

theorem before_foldl_after (position : Position) {text : List Char} (nonempty : text ≠ []) :
    position.Before (text.foldl after position) := by
  induction text generalizing position with
  | nil => exact absurd rfl nonempty
  | cons c rest ih =>
      cases rest with
      | nil => exact position.before_after c
      | cons d rest => exact (position.before_after c).trans (ih _ (List.cons_ne_nil d rest))

end Position

namespace Range

theorem contains_iff {range : Range} {position : Position} :
    range.contains position = true ↔
      ¬ position.Before range.start ∧ ¬ range.stop.Before position := by
  rw [contains, Bool.and_eq_true, Position.isAtMost_iff, Position.isAtMost_iff]

end Range

namespace LineIndex

variable {text : List Char} {first second : Nat}

theorem before_of_lt (firstAt : IsBoundary text first) (secondAt : IsBoundary text second)
    (ordered : first < second) : (position text first).Before (position text second) := by
  obtain ⟨before, middle, after, rfl, nonempty, rfl, rfl⟩ :=
    exists_between firstAt secondAt ordered
  rw [position, position, positionFrom_append, List.append_assoc, positionFrom_append,
    List.foldl_append]
  exact Position.before_foldl_after _ nonempty

theorem before_position_iff (firstAt : IsBoundary text first) (secondAt : IsBoundary text second) :
    (position text first).Before (position text second) ↔ first < second := by
  refine ⟨fun before => ?_, before_of_lt firstAt secondAt⟩
  by_contra late
  rcases Nat.eq_or_lt_of_not_lt late with rfl | later
  · exact before.irrefl
  · exact (before.trans (before_of_lt secondAt firstAt later)).irrefl

theorem contains_range {span : ByteSpan} {offset : Nat} (start : IsBoundary text span.start)
    (stop : IsBoundary text span.stop) (place : IsBoundary text offset) :
    (range text span).contains (position text offset) = span.contains offset := by
  rw [Bool.eq_iff_iff, Range.contains_iff, ByteSpan.contains_iff, range,
    before_position_iff place start, before_position_iff stop place, Nat.not_lt, Nat.not_lt]

/-- The position of any offset is that of a place which is not behind it: inside a
character it is the start of the line. -/
theorem exists_isBoundary_position (text : List Char) (offset : Nat) :
    ∃ place, IsBoundary text place ∧ place ≤ offset ∧
      position text offset = position text place := by
  obtain ⟨before, after, rfl, short, units, positionEq, atColumn⟩ :=
    exists_positionFrom ⟨0, 0⟩ offset text
  obtain ⟨lines, column, rfl, ends, single⟩ := exists_lines before
  rw [foldl_after_append ends single] at positionEq atColumn
  rcases atColumn with rfl | rfl
  · rw [byteSize_append] at short
    refine ⟨byteSize lines, ⟨lines, column ++ after, List.append_assoc .., rfl⟩, by omega, ?_⟩
    have start := @position_append lines [] (column ++ after) ends List.not_mem_nil
    rw [List.append_nil, ← List.append_assoc] at start
    exact positionEq.trans start.symm
  · exact ⟨byteSize (lines ++ column), ⟨lines ++ column, after, rfl, rfl⟩, short,
      positionEq.trans (position_append ends single).symm⟩

theorem line_position_le {offset : Nat} (place : IsBoundary text offset) :
    (position text offset).line ≤ text.count '\n' := by
  obtain ⟨before, after, rfl, rfl⟩ := place
  obtain ⟨lines, column, rfl, ends, single⟩ := exists_lines before
  rw [position_append ends single, List.append_assoc, List.count_append]
  exact Nat.le_add_right _ _

theorem fits_of_isBoundary (small : byteSize text < UInt32.size) {offset : Nat}
    (place : IsBoundary text offset) : (position text offset).Fits := by
  obtain ⟨before, after, rfl, rfl⟩ := place
  exact fits_position small

theorem fits_of_small (small : byteSize text < UInt32.size) (offset : Nat) :
    (position text offset).Fits := by
  obtain ⟨place, boundary, -, same⟩ := exists_isBoundary_position text offset
  rw [same]
  exact fits_of_isBoundary small boundary

theorem fits_range (small : byteSize text < UInt32.size) (span : ByteSpan) :
    (range text span).Fits :=
  ⟨fits_of_small small span.start, fits_of_small small span.stop⟩

/-- In a text below 2^32 bytes, the positions of places are positions that
editors can hold, and increase strictly with the places.  So the range of a span
holds the position of a place exactly if the span holds the place. -/
theorem ordered_alike (small : byteSize text < UInt32.size) :
    (∀ offset, IsBoundary text offset → (position text offset).Fits) ∧
      (∀ first second, IsBoundary text first → IsBoundary text second → first < second →
        (position text first).Before (position text second)) ∧
      ∀ span offset, IsBoundary text span.start → IsBoundary text span.stop →
        IsBoundary text offset →
          (range text span).contains (position text offset) = span.contains offset := by
  exact ⟨fun _ => fits_of_isBoundary small, fun _ _ => before_of_lt, fun _ _ => contains_range⟩

/-- The range of a surrogate pair and of a line end behind it holds the place
between them and not the start of the next line but one. -/
theorem ordered_alike_acrossLines :
    byteSize "é😀\r\n\nb".toList < UInt32.size ∧
      (range "é😀\r\n\nb".toList ⟨2, 8⟩).contains (position "é😀\r\n\nb".toList 6) = true ∧
      (range "é😀\r\n\nb".toList ⟨2, 8⟩).contains (position "é😀\r\n\nb".toList 9) = false := by
  have small : byteSize "é😀\r\n\nb".toList < UInt32.size := by decide +kernel
  obtain ⟨-, -, holds⟩ := ordered_alike small
  refine ⟨small, ?_, ?_⟩
  · rw [holds _ _ (by decide +kernel) (by decide +kernel) (by decide +kernel)]
    decide
  · rw [holds _ _ (by decide +kernel) (by decide +kernel) (by decide +kernel)]
    decide

end LineIndex

end CatalogServer.Text
