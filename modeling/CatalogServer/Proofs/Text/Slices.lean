import CatalogServer.Text.Span
import CatalogServer.Text.Utf8

/-!
# Parts of a text between byte offsets

Two byte offsets cut a text into three parts, whose sizes they give.  So a
span tells what it covers by the text in front of it and the text it shows.
-/

namespace CatalogServer.Text

theorem byteSize_pos {text : List Char} (nonempty : text ≠ []) : 0 < byteSize text := by
  cases text with
  | nil => exact absurd rfl nonempty
  | cons c rest =>
      have positive := Char.utf8Size_pos c
      simp only [byteSize]
      omega

theorem eq_of_splitAtByte {offset : Nat} {text before after : List Char}
    (split : splitAtByte offset text = some (before, after)) :
    text = before ++ after ∧ byteSize before = offset := by
  induction text generalizing offset before with
  | nil =>
      cases offset with
      | zero =>
          cases split
          exact ⟨rfl, rfl⟩
      | succ => cases split
  | cons c rest ih =>
      cases offset with
      | zero =>
          cases split
          exact ⟨rfl, rfl⟩
      | succ offset =>
          simp only [splitAtByte] at split
          split at split
          · next fits =>
              obtain ⟨⟨front, back⟩, found, parts⟩ := Option.map_eq_some_iff.mp split
              cases parts
              obtain ⟨restEq, size⟩ := ih found
              refine ⟨by rw [restEq, List.cons_append], ?_⟩
              rw [byteSize, size]
              omega
          · cases split

theorem append_inj_of_byteSize {before after front back : List Char}
    (same : before ++ after = front ++ back) (size : byteSize before = byteSize front) :
    before = front ∧ after = back := by
  have split := splitAtByte_append before after
  rw [same, size, splitAtByte_append, Option.some.injEq, Prod.mk.injEq] at split
  exact ⟨split.1.symm, split.2.symm⟩

theorem slice_append (before part after : List Char) :
    slice (byteSize before) (byteSize (before ++ part)) (before ++ part ++ after) = some part := by
  have length : byteSize (before ++ part) - byteSize before = byteSize part := by
    rw [byteSize_append, Nat.add_sub_cancel_left]
  have ordered : byteSize before ≤ byteSize (before ++ part) := by
    rw [byteSize_append]
    exact Nat.le_add_right _ _
  rw [List.append_assoc, slice, splitAtByte_append]
  simp only [Option.bind_eq_bind, Option.bind_some, ordered, if_true, length,
    splitAtByte_append, Option.map_some]

theorem exists_of_slice {start stop : Nat} {text part : List Char}
    (sliced : slice start stop text = some part) :
    ∃ before after, text = before ++ part ++ after ∧ byteSize before = start ∧
      byteSize (before ++ part) = stop := by
  simp only [slice, Option.bind_eq_bind, Option.bind_eq_some_iff, Prod.exists] at sliced
  obtain ⟨before, fromStart, front, sliced⟩ := sliced
  split at sliced
  · next ordered =>
      obtain ⟨⟨first, after⟩, back, partEq⟩ := Option.map_eq_some_iff.mp sliced
      cases partEq
      obtain ⟨rfl, size⟩ := eq_of_splitAtByte front
      obtain ⟨rfl, length⟩ := eq_of_splitAtByte back
      refine ⟨before, after, (List.append_assoc _ _ _).symm, size, ?_⟩
      rw [byteSize_append, size, length, Nat.add_sub_cancel' ordered]
  · cases sliced

theorem ByteSpan.contains_iff {span : ByteSpan} {offset : Nat} :
    span.contains offset = true ↔ span.start ≤ offset ∧ offset ≤ span.stop := by
  rw [contains, Bool.and_eq_true, decide_eq_true_eq, decide_eq_true_eq]

theorem ByteSpan.contains_eq_false_iff {span : ByteSpan} {offset : Nat} :
    span.contains offset = false ↔ offset < span.start ∨ span.stop < offset := by
  rw [← Bool.not_eq_true, contains_iff]
  omega

/-- A span covers a part of a text that begins with an angle bracket and a
name, and ends with an angle bracket. -/
def ByteSpan.Shows (text : List Char) (span : ByteSpan) (name : String) : Prop :=
  ∃ part, slice span.start span.stop text = some part ∧ '<' :: name.toList <+: part ∧
    part.getLast? = some '>'

theorem shows_of_append {text before part after : List Char} {name : String}
    (whole : text = before ++ part ++ after) (spelled : '<' :: name.toList <+: part)
    (closed : part.getLast? = some '>') :
    ByteSpan.Shows text ⟨byteSize before, byteSize (before ++ part)⟩ name :=
  ⟨part, by rw [whole]; exact slice_append before part after, spelled, closed⟩

/-- A span that shows an element stands around it. -/
theorem exists_stretch_of_shows {text : List Char} {span : ByteSpan} {name : String}
    (shows : span.Shows text name) :
    ∃ before part after, text = before ++ part ++ after ∧ byteSize before = span.start ∧
      byteSize (before ++ part) = span.stop ∧ '<' :: name.toList <+: part ∧
      part.getLast? = some '>' := by
  obtain ⟨part, sliced, spelled, closed⟩ := shows
  obtain ⟨before, after, whole, start, stop⟩ := exists_of_slice sliced
  exact ⟨before, part, after, whole, start, stop, spelled, closed⟩

/-- In front of what a span shows stands the text up to its start. -/
theorem exists_of_shows {text : List Char} {span : ByteSpan} {name : String}
    (shows : span.Shows text name) :
    ∃ before behind, text = before ++ '<' :: name.toList ++ behind ∧
      byteSize before = span.start := by
  obtain ⟨before, part, after, whole, size, -, ⟨rest, spelled⟩, -⟩ := exists_stretch_of_shows shows
  refine ⟨before, rest ++ after, ?_, size⟩
  rw [whole, ← spelled]
  simp

end CatalogServer.Text
