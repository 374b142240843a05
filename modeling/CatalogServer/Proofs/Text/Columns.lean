import CatalogServer.Proofs.Text.Positions
import Mathlib.Order.Bounds.Basic

/-!
# Where a position leads

An editor may ask for any line and any column.  A line that the text does not
have leads nowhere.  In a line of the text a column leads to the first character
that starts at it or behind it, and a column behind all of them to the end of
the line, in front of its terminator.  So a column in the middle of a surrogate
pair leads to the character behind the pair.
-/

namespace CatalogServer.Text.LineIndex

/-- A character of a line starts at a column. -/
def StartsAt (line : List Char) (column : Nat) : Prop :=
  ∃ front c back, line = front ++ c :: back ∧ utf16Size front = column

/-- A column of a line that is asked for leads to another one: the least at or
behind it where a character starts, or the end of the line. -/
def LeadsTo (line : List Char) (asked column : Nat) : Prop :=
  IsLeast {start | StartsAt line start ∧ asked ≤ start} column ∨
    (∀ start, StartsAt line start → start < asked) ∧ column = utf16Size line

/-- What stands behind a line begins with its terminator: a line feed, unless the
text ends, together with the carriage return in front of it, if there is one. -/
def Terminated (line behind : List Char) : Prop :=
  ∃ rest, (rest = [] ∨ rest.head? = some '\n') ∧
    (behind = '\r' :: rest ∨ behind = rest ∧ line.getLast? ≠ some '\r')

/-- The line of a text with a number, between the lines in front of it and what
stands behind it, which begins with its terminator. -/
structure IsLine (text : List Char) (number : Nat) (lines line behind : List Char) : Prop where
  whole : text = lines ++ line ++ behind
  ends : EndsLine lines
  count : lines.count '\n' = number
  single : '\n' ∉ line
  terminated : Terminated line behind

section Lines

theorem EndsLine.cons {lines : List Char} {c : Char} (ends : EndsLine lines)
    (alone : lines = [] → c = '\n') : EndsLine (c :: lines) := by
  refine .inr ?_
  rcases ends with rfl | ends
  · rw [alone rfl]
    rfl
  · rw [List.getLast?_cons, ends]
    rfl

theorem exists_lines_of_le {number : Nat} {text : List Char} (within : number ≤ text.count '\n') :
    ∃ lines rest, text = lines ++ rest ∧ EndsLine lines ∧ lines.count '\n' = number := by
  induction text generalizing number with
  | nil =>
      obtain rfl := Nat.le_zero.mp within
      exact ⟨[], [], rfl, .inl rfl, rfl⟩
  | cons c text ih =>
      cases number with
      | zero => exact ⟨[], c :: text, rfl, .inl rfl, rfl⟩
      | succ number =>
          by_cases feed : c = '\n'
          · subst feed
            rw [List.count_cons_self, Nat.succ_le_succ_iff] at within
            obtain ⟨lines, rest, rfl, ends, count⟩ := ih within
            exact ⟨'\n' :: lines, rest, rfl, ends.cons fun _ => rfl,
              by rw [List.count_cons_self, count]⟩
          · rw [List.count_cons_of_ne feed] at within
            obtain ⟨lines, rest, rfl, ends, count⟩ := ih within
            refine ⟨c :: lines, rest, rfl, ends.cons ?_, by rw [List.count_cons_of_ne feed, count]⟩
            rintro rfl
            cases count

theorem lineStart_eq_none {number : Nat} {text : List Char} (behind : text.count '\n' < number) :
    lineStart number text = none := by
  induction text generalizing number with
  | nil =>
      obtain ⟨line, rfl⟩ := Nat.exists_eq_succ_of_ne_zero (Nat.ne_of_gt behind)
      rfl
  | cons c text ih =>
      obtain ⟨line, rfl⟩ := Nat.exists_eq_succ_of_ne_zero (Nat.ne_zero_of_lt behind)
      have later : text.count '\n' < if c == '\n' then line else line + 1 := by
        rw [List.count_cons] at behind
        split
        · next feed =>
            rw [if_pos feed] at behind
            omega
        · next other =>
            rw [if_neg other] at behind
            omega
      rw [lineStart, ih later]
      rfl

theorem lineStart_eq_none_iff {number : Nat} {text : List Char} :
    lineStart number text = none ↔ text.count '\n' < number := by
  refine ⟨fun missing => ?_, lineStart_eq_none⟩
  by_contra within
  obtain ⟨lines, rest, rfl, ends, rfl⟩ := exists_lines_of_le (Nat.le_of_not_lt within)
  rw [lineStart_append ends] at missing
  cases missing

theorem dropCarriageReturn_cases (line : List Char) :
    line = dropCarriageReturn line ++ ['\r'] ∨
      dropCarriageReturn line = line ∧ line.getLast? ≠ some '\r' := by
  rcases List.eq_nil_or_concat' line with rfl | ⟨front, c, rfl⟩
  · exact .inr ⟨rfl, by simp⟩
  · rw [dropCarriageReturn_append (by simp)]
    by_cases isReturn : c = '\r'
    · subst isReturn
      exact .inl (by simp [dropCarriageReturn])
    · exact .inr ⟨by simp [dropCarriageReturn, isReturn], by simp [isReturn]⟩

theorem exists_firstLine (text : List Char) :
    ∃ behind, text = firstLine text ++ behind ∧ '\n' ∉ firstLine text ∧
      Terminated (firstLine text) behind := by
  obtain ⟨rest, restEq⟩ : ∃ rest, rest = text.dropWhile (· != '\n') := ⟨_, rfl⟩
  have whole : text.takeWhile (· != '\n') ++ rest = text := by
    rw [restEq, List.takeWhile_append_dropWhile]
  have ends : rest = [] ∨ rest.head? = some '\n' := by
    have stops := List.head?_dropWhile_not (· != '\n') text
    rw [← restEq] at stops
    cases rest with
    | nil => exact .inl rfl
    | cons c rest => exact .inr (congrArg some (by simpa using stops))
  have single : '\n' ∉ text.takeWhile (· != '\n') := by
    intro member
    exact absurd (List.mem_takeWhile_imp member) (by decide)
  have inner : firstLine text <+: text.takeWhile (· != '\n') := prefix_dropCarriageReturn _
  rcases dropCarriageReturn_cases (text.takeWhile (· != '\n')) with returned | ⟨same, bare⟩
  · refine ⟨'\r' :: rest, ?_, fun member => single (inner.subset member), rest, ends, .inl rfl⟩
    rw [firstLine, ← List.singleton_append, ← List.append_assoc, ← returned, whole]
  · refine ⟨rest, ?_, fun member => single (inner.subset member), rest, ends, .inr ⟨rfl, ?_⟩⟩
    · rw [firstLine, same, whole]
    · rw [firstLine, same]
      exact bare

/-- A position in a line of a text is looked up in that line. -/
theorem exists_isLine {text : List Char} {asked : Position}
    (within : asked.line ≤ text.count '\n') :
    ∃ lines line behind, IsLine text asked.line lines line behind ∧
      offset text asked = some (byteSize (lines ++ takeUnits asked.character line)) := by
  obtain ⟨lines, rest, rfl, ends, count⟩ := exists_lines_of_le within
  obtain ⟨behind, restEq, single, terminated⟩ := exists_firstLine rest
  refine ⟨lines, firstLine rest, behind, ⟨?_, ends, count, single, terminated⟩, ?_⟩
  · rw [List.append_assoc, ← restEq]
  · have start := lineStart_append ends rest
    rw [count] at start
    rw [offset, start, byteSize_append]
    rfl

theorem IsLine.position_eq {text lines front back behind : List Char} {number : Nat}
    (isLine : IsLine text number lines (front ++ back) behind) :
    position text (byteSize (lines ++ front)) = ⟨number, utf16Size front⟩ := by
  have unbroken : '\n' ∉ front := fun member => isLine.single (List.mem_append_left _ member)
  rw [isLine.whole, ← isLine.count, ← List.append_assoc lines, List.append_assoc (lines ++ front)]
  exact position_append isLine.ends unbroken

end Lines

section Columns

variable {line : List Char}

theorem startsAt_nil {column : Nat} : ¬ StartsAt [] column := by
  rintro ⟨front, c, back, whole, -⟩
  simp at whole

theorem startsAt_cons_iff {c : Char} {column : Nat} :
    StartsAt (c :: line) column ↔
      column = 0 ∨ ∃ later, StartsAt line later ∧ column = utf16Units c + later := by
  constructor
  · rintro ⟨front, d, back, whole, rfl⟩
    cases front with
    | nil => exact .inl rfl
    | cons e front =>
        obtain ⟨rfl, rfl⟩ := List.cons.inj whole
        exact .inr ⟨utf16Size front, ⟨front, d, back, rfl, rfl⟩, rfl⟩
  · rintro (rfl | ⟨later, ⟨front, d, back, rfl, rfl⟩, rfl⟩)
    · exact ⟨[], c, line, rfl, rfl⟩
    · exact ⟨c :: front, d, back, rfl, rfl⟩

/-- Behind its first character, a line leads on as the rest of it does. -/
theorem LeadsTo.cons {asked column : Nat} {c : Char}
    (leads : LeadsTo line (asked - utf16Units c) column) (positive : 0 < asked) :
    LeadsTo (c :: line) asked (utf16Units c + column) := by
  rcases leads with ⟨⟨starts, reached⟩, least⟩ | ⟨passed, rfl⟩
  · refine .inl ⟨⟨startsAt_cons_iff.mpr (.inr ⟨column, starts, rfl⟩), by omega⟩, ?_⟩
    rintro start ⟨startsHere, enough⟩
    rcases startsAt_cons_iff.mp startsHere with rfl | ⟨later, startsLater, rfl⟩
    · omega
    · have bound := least ⟨startsLater, by omega⟩
      omega
  · refine .inr ⟨fun start startsHere => ?_, rfl⟩
    rcases startsAt_cons_iff.mp startsHere with rfl | ⟨later, startsLater, rfl⟩
    · exact positive
    · have bound := passed later startsLater
      omega

/-- The characters in front of a column are those up to where it leads. -/
theorem leadsTo_takeUnits (units : Nat) (line : List Char) :
    takeUnits units line <+: line ∧ LeadsTo line units (utf16Size (takeUnits units line)) := by
  induction line generalizing units with
  | nil =>
      have nothing : takeUnits units [] = [] := by cases units <;> rfl
      rw [nothing]
      exact ⟨List.nil_prefix, .inr ⟨fun start starts => absurd starts startsAt_nil, rfl⟩⟩
  | cons c line ih =>
      cases units with
      | zero =>
          refine ⟨List.nil_prefix, .inl ⟨⟨startsAt_cons_iff.mpr (.inl rfl), Nat.le_refl 0⟩, ?_⟩⟩
          exact fun start _ => Nat.zero_le start
      | succ units =>
          obtain ⟨taken, leads⟩ := ih (units + 1 - utf16Units c)
          have step : takeUnits (units + 1) (c :: line) =
              c :: takeUnits (units + 1 - utf16Units c) line := by simp [takeUnits]
          rw [step]
          exact ⟨List.cons_prefix_cons.mpr ⟨rfl, taken⟩, leads.cons (Nat.succ_pos units)⟩

end Columns

/-- In a text below 2^32 bytes, a position leads nowhere exactly if its line is
behind the last one.  Otherwise it leads to a place in its line, in front of the
terminator, whose own position is one that editors can hold: it has the same
line, and its column is the one that the column leads to. -/
theorem offset_leadsTo {text : List Char} (small : byteSize text < UInt32.size)
    (asked : Position) :
    (offset text asked = none ↔ 1 + text.count '\n' ≤ asked.line) ∧
      ∀ found, offset text asked = some found →
        ∃ lines front back behind, IsLine text asked.line lines (front ++ back) behind ∧
          found = byteSize (lines ++ front) ∧ (position text found).Fits ∧
          (position text found).line = asked.line ∧
          (position text found).character = utf16Size front ∧
          LeadsTo (front ++ back) asked.character (position text found).character := by
  constructor
  · rw [offset, Option.map_eq_none_iff, lineStart_eq_none_iff, Nat.add_comm]
    rfl
  · intro found foundAt
    have within : asked.line ≤ text.count '\n' := by
      by_contra beyond
      rw [offset, lineStart_eq_none (Nat.lt_of_not_le beyond)] at foundAt
      cases foundAt
    obtain ⟨lines, line, behind, isLine, offsetEq⟩ := exists_isLine within
    cases foundAt.symm.trans offsetEq
    -- the place is the end of what the column takes from the line
    have taken := leadsTo_takeUnits asked.character line
    generalize takeUnits asked.character line = front at taken ⊢
    obtain ⟨⟨back, rfl⟩, leads⟩ := taken
    have positionEq := isLine.position_eq
    have fits := @fits_position (lines ++ front) (back ++ behind)
    rw [← List.append_assoc, List.append_assoc lines, ← isLine.whole] at fits
    refine ⟨lines, front, back, behind, isLine, rfl, fits small, ?_⟩
    rw [positionEq]
    exact ⟨rfl, rfl, leads⟩

/-- A column inside a surrogate pair leads to the character behind the pair. -/
theorem offset_leadsTo_insidePair :
    byteSize "\na😀b\r\nc".toList < UInt32.size ∧
      offset "\na😀b\r\nc".toList ⟨1, 2⟩ = some 6 ∧
      ∃ lines front back behind, IsLine "\na😀b\r\nc".toList 1 lines (front ++ back) behind ∧
        6 = byteSize (lines ++ front) ∧
        LeadsTo (front ++ back) 2 (position "\na😀b\r\nc".toList 6).character := by
  have small : byteSize "\na😀b\r\nc".toList < UInt32.size := by decide +kernel
  have found : offset "\na😀b\r\nc".toList ⟨1, 2⟩ = some 6 := by decide +kernel
  obtain ⟨lines, front, back, behind, isLine, place, -, -, -, leads⟩ :=
    (offset_leadsTo small ⟨1, 2⟩).2 6 found
  exact ⟨small, found, lines, front, back, behind, isLine, place, leads⟩

end CatalogServer.Text.LineIndex
