import CatalogServer.Text.LineIndex
import Mathlib.Data.List.Infix

/-!
# From offsets to positions and back

A text up to some place is made of complete lines and the start of another
line.  The position of the place is the number of these lines and the number
of units in the start of the other one.  The way back leads to the same place,
unless the place stands behind the carriage return of a line that ends there,
which belongs to the terminator.  From any other offset the way back leads to
a place that is not behind it.
-/

namespace CatalogServer.Text.LineIndex

/-- A text is empty or ends with a line feed. -/
def EndsLine (text : List Char) : Prop :=
  text = [] ∨ text.getLast? = some '\n'

/-- A text is made of complete lines and the start of another line. -/
theorem exists_lines (text : List Char) :
    ∃ lines column, text = lines ++ column ∧ EndsLine lines ∧ '\n' ∉ column := by
  induction text using List.reverseRecOn with
  | nil => exact ⟨[], [], rfl, .inl rfl, by simp⟩
  | append_singleton text c ih =>
      obtain ⟨lines, column, rfl, ends, single⟩ := ih
      by_cases feed : c = '\n'
      · subst feed
        exact ⟨lines ++ column ++ ['\n'], [], by simp, .inr (by simp), by simp⟩
      · refine ⟨lines, column ++ [c], by simp, ends, ?_⟩
        intro member
        rcases List.mem_append.mp member with member | member
        · exact single member
        · exact feed (List.mem_singleton.mp member).symm

theorem positionFrom_append (current : Position) (before after : List Char) :
    positionFrom current (byteSize before) (before ++ after) =
      before.foldl Position.after current := by
  induction before generalizing current with
  | nil => cases after <;> rfl
  | cons c before ih =>
      have positive := c.utf8Size_pos
      obtain ⟨size, sizeEq⟩ : ∃ size, byteSize (c :: before) = size + 1 :=
        ⟨byteSize (c :: before) - 1, by simp only [byteSize]; omega⟩
      have fits : c.utf8Size ≤ byteSize (c :: before) := by
        simp only [byteSize]
        omega
      have remains : byteSize (c :: before) - c.utf8Size = byteSize before := by
        simp only [byteSize]
        omega
      rw [sizeEq] at fits remains ⊢
      rw [List.cons_append, positionFrom, if_pos fits, remains, ih, List.foldl_cons]
      exact Nat.succ_ne_zero size

theorem foldl_after_column (current : Position) {column : List Char} (single : '\n' ∉ column) :
    column.foldl Position.after current =
      ⟨current.line, current.character + utf16Size column⟩ := by
  induction column generalizing current with
  | nil => rfl
  | cons c column ih =>
      rw [List.mem_cons, not_or] at single
      obtain ⟨differs, single⟩ := single
      have stays : current.after c = ⟨current.line, current.character + utf16Units c⟩ := by
        have noFeed : ¬ (c == '\n') = true := by
          rw [beq_iff_eq]
          exact Ne.symm differs
        rw [Position.after, if_neg noFeed]
      rw [List.foldl_cons, stays, ih _ single, utf16Size, Nat.add_assoc]

theorem foldl_after_lines {lines : List Char} (ends : EndsLine lines) :
    lines.foldl Position.after ⟨0, 0⟩ = ⟨lines.count '\n', 0⟩ := by
  have counts (current : Position) :
      (lines.foldl Position.after current).line = current.line + lines.count '\n' := by
    clear ends
    induction lines generalizing current with
    | nil => rfl
    | cons c lines ih =>
        have step : (current.after c).line = current.line + if c == '\n' then 1 else 0 := by
          unfold Position.after
          split <;> rfl
        rw [List.foldl_cons, ih, List.count_cons, step]
        omega
  have starts : (lines.foldl Position.after ⟨0, 0⟩).character = 0 := by
    rcases ends with rfl | ends
    · rfl
    · obtain ⟨inner, rfl⟩ := List.getLast?_eq_some_iff.mp ends
      rw [List.foldl_append]
      rfl
  have line := counts ⟨0, 0⟩
  rw [Nat.zero_add] at line
  exact Position.mk.injEq .. ▸ ⟨line, starts⟩

theorem foldl_after_append {lines column : List Char} (ends : EndsLine lines)
    (single : '\n' ∉ column) :
    (lines ++ column).foldl Position.after ⟨0, 0⟩ = ⟨lines.count '\n', utf16Size column⟩ := by
  rw [List.foldl_append, foldl_after_lines ends, foldl_after_column _ single, Nat.zero_add]

theorem position_append {lines column after : List Char} (ends : EndsLine lines)
    (single : '\n' ∉ column) :
    position (lines ++ column ++ after) (byteSize (lines ++ column)) =
      ⟨lines.count '\n', utf16Size column⟩ := by
  rw [position, positionFrom_append, foldl_after_append ends single]

theorem lineStart_append {lines : List Char} (ends : EndsLine lines) (rest : List Char) :
    lineStart (lines.count '\n') (lines ++ rest) = some (byteSize lines, rest) := by
  induction lines with
  | nil => simp [lineStart, byteSize]
  | cons c lines ih =>
      have later : EndsLine lines := by
        rcases ends with nothing | ends
        · cases nothing
        · cases lines with
          | nil => exact .inl rfl
          | cons d lines => exact .inr (by simpa using ends)
      have counted : ∃ line, (c :: lines).count '\n' = line + 1 ∧
          (if c == '\n' then line else line + 1) = lines.count '\n' := by
        by_cases feed : c = '\n'
        · subst feed
          exact ⟨lines.count '\n', List.count_cons_self, rfl⟩
        · have several : 0 < lines.count '\n' := by
            rcases later with rfl | last
            · rcases ends with nothing | ends
              · cases nothing
              · exact absurd (Option.some.inj ends) feed
            · exact List.count_pos_iff.mpr (List.mem_of_getLast? last)
          refine ⟨lines.count '\n' - 1, ?_, ?_⟩
          · rw [List.count_cons_of_ne feed]
            omega
          · rw [if_neg (by simpa using feed)]
            omega
      obtain ⟨line, lineEq, step⟩ := counted
      rw [lineEq, List.cons_append, lineStart, step, ih later]
      rfl

theorem offset_lines {lines : List Char} (ends : EndsLine lines) (rest : List Char)
    (units : Nat) :
    offset (lines ++ rest) ⟨lines.count '\n', units⟩ =
      some (byteSize lines + byteSize (takeUnits units (firstLine rest))) := by
  rw [offset, lineStart_append ends]
  rfl

theorem takeUnits_append (column rest : List Char) :
    takeUnits (utf16Size column) (column ++ rest) = column := by
  induction column with
  | nil => cases rest <;> rfl
  | cons c column ih =>
      have positive := utf16Units_pos c
      obtain ⟨size, sizeEq⟩ : ∃ size, utf16Size (c :: column) = size + 1 :=
        ⟨utf16Size (c :: column) - 1, by simp only [utf16Size]; omega⟩
      have remains : size + 1 - utf16Units c = utf16Size column := by
        rw [← sizeEq, utf16Size]
        omega
      rw [sizeEq, List.cons_append, takeUnits, remains, ih]
      simp

theorem dropCarriageReturn_append {column rest : List Char}
    (inside : column.getLast? = some '\r' → rest ≠ []) :
    dropCarriageReturn (column ++ rest) = column ++ dropCarriageReturn rest := by
  induction column with
  | nil => rfl
  | cons c column ih =>
      cases column with
      | nil =>
          cases rest with
          | nil =>
              have differs : c ≠ '\r' := by
                rintro rfl
                exact inside rfl rfl
              simp [dropCarriageReturn, differs]
          | cons d rest => simp [dropCarriageReturn]
      | cons d column =>
          have later : dropCarriageReturn (d :: column ++ rest) =
              d :: column ++ dropCarriageReturn rest := ih (by simpa using inside)
          have step : dropCarriageReturn (c :: d :: (column ++ rest)) =
              c :: dropCarriageReturn (d :: (column ++ rest)) := by
            simp [dropCarriageReturn]
          exact step.trans (congrArg (c :: ·) later)

/-- A place does not stand between a carriage return and the end of its
line. -/
def InLine (before after : List Char) : Prop :=
  before.getLast? = some '\r' → ∃ c rest, after = c :: rest ∧ c ≠ '\n'

/-- The position of an offset leads back to the offset. -/
theorem offset_position {before after : List Char} (inLine : InLine before after) :
    offset (before ++ after) (position (before ++ after) (byteSize before)) =
      some (byteSize before) := by
  obtain ⟨lines, column, rfl, ends, single⟩ := exists_lines before
  have inside : column.getLast? = some '\r' → after.takeWhile (· != '\n') ≠ [] := by
    intro last
    have whole : (lines ++ column).getLast? = some '\r' := by
      rw [List.getLast?_append, last]
      rfl
    obtain ⟨c, rest, rfl, differs⟩ := inLine whole
    simp [differs]
  have line : firstLine (column ++ after) =
      column ++ dropCarriageReturn (after.takeWhile (· != '\n')) := by
    have keeps : ∀ c ∈ column, (c != '\n') = true := by
      intro c member
      rw [bne_iff_ne]
      rintro rfl
      exact single member
    rw [firstLine, List.takeWhile_append_of_pos keeps, dropCarriageReturn_append inside]
  rw [position_append ends single, List.append_assoc, offset_lines ends, line, takeUnits_append,
    byteSize_append]

/-- The range of a stretch between angle brackets leads back to its ends. -/
theorem offset_range {before part after : List Char} {span : ByteSpan}
    (start : byteSize before = span.start) (stop : byteSize (before ++ part) = span.stop)
    (opens : ∃ rest, part ++ after = '<' :: rest)
    (closes : (before ++ part).getLast? = some '>') :
    offset (before ++ part ++ after) (range (before ++ part ++ after) span).start =
        some span.start ∧
      offset (before ++ part ++ after) (range (before ++ part ++ after) span).stop =
        some span.stop := by
  constructor
  · obtain ⟨rest, bracket⟩ := opens
    rw [range, ← start, List.append_assoc]
    exact offset_position fun _ => ⟨'<', rest, bracket, by decide⟩
  · rw [range, ← stop]
    apply offset_position
    intro isReturn
    rw [closes] at isReturn
    exact absurd (Option.some.inj isReturn) (by decide)

theorem prefix_takeUnits {first text : List Char} (begins : first <+: text) (units : Nat) :
    takeUnits units first <+: takeUnits units text := by
  induction first generalizing text units with
  | nil => cases units <;> exact List.nil_prefix
  | cons c first ih =>
      cases text with
      | nil => cases List.prefix_nil.mp begins
      | cons d text =>
          obtain ⟨rfl, later⟩ := List.cons_prefix_cons.mp begins
          cases units with
          | zero => exact List.nil_prefix
          | succ units =>
              simp only [takeUnits]
              exact List.cons_prefix_cons.mpr ⟨rfl, ih later _⟩

theorem prefix_dropCarriageReturn (line : List Char) : dropCarriageReturn line <+: line := by
  induction line with
  | nil => exact List.nil_prefix
  | cons c line ih =>
      unfold dropCarriageReturn
      split
      · exact List.nil_prefix
      · exact List.nil_prefix
      · next same =>
          cases same
          exact List.cons_prefix_cons.mpr ⟨rfl, ih⟩

theorem exists_positionFrom (current : Position) (offset : Nat) (text : List Char) :
    ∃ before after, text = before ++ after ∧ byteSize before ≤ offset ∧
      ∃ units, positionFrom current offset text =
          ⟨(before.foldl Position.after current).line, units⟩ ∧
        (units = 0 ∨ units = (before.foldl Position.after current).character) := by
  induction text generalizing current offset with
  | nil =>
      refine ⟨[], [], rfl, Nat.zero_le _, current.character, ?_, .inr rfl⟩
      cases offset <;> rfl
  | cons c text ih =>
      cases offset with
      | zero => exact ⟨[], c :: text, rfl, Nat.zero_le _, current.character, rfl, .inr rfl⟩
      | succ offset =>
          by_cases fits : c.utf8Size ≤ offset + 1
          · obtain ⟨before, after, rfl, short, units, positionEq, column⟩ :=
              ih (current.after c) (offset + 1 - c.utf8Size)
            refine ⟨c :: before, after, rfl, ?_, units, ?_, column⟩
            · simp only [byteSize]
              omega
            · simp only [positionFrom]
              rw [if_pos fits, positionEq, List.foldl_cons]
          · refine ⟨[], c :: text, rfl, Nat.zero_le _, 0, ?_, .inl rfl⟩
            simp only [positionFrom]
            rw [if_neg fits]
            rfl

/-- The position of any offset leads back to a place that is not behind it. -/
theorem exists_offset_position (text : List Char) (place : Nat) :
    ∃ found, offset text (position text place) = some found ∧ found ≤ place := by
  obtain ⟨before, after, rfl, short, units, positionEq, atColumn⟩ :=
    exists_positionFrom ⟨0, 0⟩ place text
  obtain ⟨lines, column, rfl, ends, single⟩ := exists_lines before
  have behind := foldl_after_append ends single
  have line : firstLine (column ++ after) <+: column ++ after :=
    (prefix_dropCarriageReturn _).trans (List.takeWhile_prefix _)
  have taken : takeUnits units (firstLine (column ++ after)) <+: column := by
    rw [behind] at atColumn
    rcases atColumn with rfl | rfl
    · cases firstLine (column ++ after) <;> exact List.nil_prefix
    · have within := prefix_takeUnits line (utf16Size column)
      rw [takeUnits_append] at within
      exact within
  obtain ⟨others, whole⟩ := taken
  have sizes := congrArg byteSize whole
  rw [byteSize_append] at sizes short
  refine ⟨byteSize lines + byteSize (takeUnits units (firstLine (column ++ after))), ?_, ?_⟩
  · rw [position, positionEq, behind, List.append_assoc, offset_lines ends]
  · omega

end CatalogServer.Text.LineIndex
