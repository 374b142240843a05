import CatalogServer.Proofs.Text.Slices
import CatalogServer.Proofs.Xml.Tags

/-!
# The pieces of a document

The scan of a document takes one piece after the other: markup from an
opening angle bracket on, or character data up to the next one.  `Takes` says
what the first piece of a text is; `scan_of_takes` and `scan_induction` say
that the scan is nothing but the repetition of such steps.  Everything that
is proved about scans below is proved for one step.

The offset at which a scan starts only moves the places of the events:
without their places, the events of a text are the same wherever it stands.
-/

namespace CatalogServer.Xml

open Text

/-- A text is empty or starts with markup. -/
def Boundary (text : List Char) : Prop :=
  text = [] ∨ ∃ rest, text = '<' :: rest

/-- The elements that are open behind an event that is no end tag. -/
def openedBehind (opened : List (List Char)) : Event → List (List Char)
  | .opening tag => tag.nameChars :: opened
  | _ => opened

/-- The next piece of a text, inside the given open elements: its characters
and its event, the elements open behind it, and the text behind it. -/
inductive Takes : (opened : List (List Char)) → (piece : List Char) → Event →
    (behind : List (List Char)) → (after : List Char) → Prop where
  | markup {opened : List (List Char)} {taken after : List Char} {event : Event}
      (recognised : scanMarkup (taken ++ after) = .event event taken after) :
      Takes opened ('<' :: taken) event (openedBehind opened event) after
  /-- The end tag of the innermost open element. -/
  | endTag {name taken after : List Char} {outer : List (List Char)}
      (recognised : scanMarkup (taken ++ after) = .endTag name taken after) :
      Takes (name :: outer) ('<' :: taken) .closing outer after
  | text {opened : List (List Char)} {raw after : List Char} (nonempty : raw ≠ [])
      (data : '<' ∉ raw) (boundary : Boundary after) :
      Takes opened raw (.text raw) opened after

theorem scan_nil (offset : Nat) (opened : List (List Char)) :
    scan offset opened [] = ⟨[], .complete offset⟩ := by
  rw [scan]

theorem takeWhile_data {raw after : List Char} (data : '<' ∉ raw)
    (boundary : Boundary after) :
    (raw ++ after).takeWhile (· != '<') = raw ∧ (raw ++ after).dropWhile (· != '<') = after := by
  have keeps : ∀ c ∈ raw, (c != '<') = true := by
    intro c member
    rw [bne_iff_ne]
    rintro rfl
    exact data member
  have stops : after.takeWhile (· != '<') = [] ∧ after.dropWhile (· != '<') = after := by
    rcases boundary with rfl | ⟨rest, rfl⟩ <;> simp
  constructor
  · rw [List.takeWhile_append_of_pos keeps, stops.1, List.append_nil]
  · rw [List.dropWhile_append_of_pos keeps, stops.2]

theorem scan_of_takes {opened behind : List (List Char)} {piece after : List Char}
    {event : Event} (takes : Takes opened piece event behind after) (offset : Nat) :
    scan offset opened (piece ++ after) =
      (scan (offset + byteSize piece) behind after).cons
        ⟨⟨offset, offset + byteSize piece⟩, event⟩ := by
  have bracket (taken : List Char) :
      offset + 1 + byteSize taken = offset + byteSize ('<' :: taken) := by
    simp only [byteSize, show '<'.utf8Size = 1 by decide]
    omega
  cases takes with
  | markup recognised =>
      rw [List.cons_append, scan, ← bracket]
      split
      case h_3 event' taken' after' markup =>
        rw [recognised] at markup
        cases markup
        cases event <;> rfl
      all_goals simp_all
  | @endTag name taken after outer recognised =>
      rw [List.cons_append, scan, ← bracket]
      split
      case h_4 name' taken' after' markup =>
        rw [recognised] at markup
        cases markup
        simp
      all_goals simp_all
  | text nonempty data boundary =>
      obtain ⟨takeEq, dropEq⟩ := takeWhile_data data boundary
      cases piece with
      | nil => exact absurd rfl nonempty
      | cons c rest =>
          have ordinary : c ≠ '<' := by
            rintro rfl
            exact data List.mem_cons_self
          simp only [List.cons_append, List.takeWhile_cons, List.dropWhile_cons,
            bne_iff_ne, ne_eq, ordinary, not_false_eq_true, if_true, List.cons.injEq,
            true_and] at takeEq dropEq
          rw [List.cons_append, scan, takeEq, dropEq]
          exact fun equal => ordinary equal

theorem scan_of_fault {text : List Char} {error : MarkupError}
    (fault : scanMarkup text = .fault error) (offset : Nat) (opened : List (List Char)) :
    scan offset opened ('<' :: text) = ⟨[], .failed offset error⟩ := by
  rw [scan]
  split <;> simp_all

theorem fault_or_takes_of_bracket (opened : List (List Char)) (text : List Char) :
    (∃ error distance, ∀ offset,
        scan offset opened ('<' :: text) = ⟨[], .failed (offset + distance) error⟩) ∨
      ∃ piece event behind after,
        '<' :: text = piece ++ after ∧ Takes opened piece event behind after := by
  cases markup : scanMarkup text with
  | fault error =>
      left
      exact ⟨error, 0, fun offset => scan_of_fault markup offset opened⟩
  | faultBehind error distance =>
      left
      refine ⟨error, distance, fun offset => ?_⟩
      rw [scan]
      split <;> simp_all
  | event event taken after =>
      right
      have parts : text = taken ++ after := parts_scanMarkup (by rw [markup]; rfl)
      refine ⟨'<' :: taken, event, openedBehind opened event, after, by rw [parts]; rfl, ?_⟩
      exact .markup (by rw [← parts]; exact markup)
  | endTag name taken after =>
      cases opened with
      | nil =>
          left
          refine ⟨.unmatchedEnd (String.ofList name), 0, fun offset => ?_⟩
          rw [scan]
          split <;> simp_all
      | cons innermost outer =>
          by_cases matching : innermost = name
          · right
            subst matching
            have parts : text = taken ++ after := parts_scanMarkup (by rw [markup]; rfl)
            refine ⟨'<' :: taken, .closing, outer, after, by rw [parts]; rfl, ?_⟩
            exact .endTag (by rw [← parts]; exact markup)
          · left
            refine ⟨.mismatchedEnd (String.ofList innermost) (String.ofList name), 0,
              fun offset => ?_⟩
            rw [scan]
            split <;> simp_all

theorem takes_of_ordinary {c : Char} (ordinary : c ≠ '<') (opened : List (List Char))
    (rest : List Char) :
    Takes opened (c :: rest.takeWhile (· != '<')) (.text (c :: rest.takeWhile (· != '<'))) opened
      (rest.dropWhile (· != '<')) := by
  apply Takes.text
  · exact List.cons_ne_nil _ _
  · intro member
    rcases List.mem_cons.mp member with equal | inside
    · exact ordinary equal.symm
    · have test := List.mem_takeWhile_imp inside
      simp at test
  · cases dropped : rest.dropWhile (· != '<') with
    | nil => exact .inl rfl
    | cons d others =>
        right
        have stops := List.head_dropWhile_not (l := rest) (· != '<') (by simp [dropped])
        simp only [dropped, List.head_cons, bne_eq_false_iff_eq] at stops
        exact ⟨others, by rw [stops]⟩

/-- A text is empty, has a fault at its very start, or has a first piece. -/
theorem takes_or_fault (opened : List (List Char)) (text : List Char) :
    text = [] ∨
      (∃ error distance, ∀ offset,
        scan offset opened text = ⟨[], .failed (offset + distance) error⟩) ∨
      ∃ piece event behind after,
        text = piece ++ after ∧ Takes opened piece event behind after := by
  cases text with
  | nil => exact .inl rfl
  | cons c rest =>
      right
      by_cases bracket : c = '<'
      · subst bracket
        exact fault_or_takes_of_bracket opened rest
      · right
        refine ⟨_, _, _, _, ?_, takes_of_ordinary bracket opened rest⟩
        rw [List.cons_append, List.takeWhile_append_dropWhile]

theorem length_of_takes {opened behind : List (List Char)} {piece after : List Char}
    {event : Event} (takes : Takes opened piece event behind after) :
    0 < piece.length := by
  cases takes with
  | markup => simp
  | endTag => simp
  | text nonempty => exact List.length_pos_iff.mpr nonempty

/-- Induction along the pieces of a text. -/
theorem scan_induction {motive : List (List Char) → List Char → Prop}
    (done : ∀ opened, motive opened [])
    (fault : ∀ opened text error distance,
      (∀ offset, scan offset opened text = ⟨[], .failed (offset + distance) error⟩) →
        motive opened text)
    (takes : ∀ opened piece event behind after, Takes opened piece event behind after →
      motive behind after → motive opened (piece ++ after))
    (opened : List (List Char)) (text : List Char) : motive opened text := by
  induction length : text.length using Nat.strong_induction_on generalizing opened text with
  | _ size ih =>
      rcases takes_or_fault opened text with
        rfl | ⟨error, distance, failed⟩ | ⟨piece, event, behind, after, rfl, first⟩
      · exact done opened
      · exact fault opened text error distance failed
      · refine takes opened piece event behind after first (ih after.length ?_ behind after rfl)
        have positive := length_of_takes first
        rw [List.length_append] at length
        omega

def Located.unplaced (located : Located) : Located :=
  ⟨default, located.event⟩

def Ending.unplaced : Ending → Ending
  | .complete _ => .complete 0
  | .failed _ error => .failed 0 error

/-- A stream without the places of its events and its end. -/
def EventStream.unplaced (stream : EventStream) : EventStream :=
  ⟨stream.events.map Located.unplaced, stream.ending.unplaced⟩

/-- Where a text stands makes no difference to what its events are. -/
theorem unplaced_scan (opened : List (List Char)) (text : List Char) :
    ∀ offset other, (scan offset opened text).unplaced = (scan other opened text).unplaced := by
  induction opened, text using scan_induction with
  | done opened =>
      intro offset other
      rw [scan_nil, scan_nil]
      rfl
  | fault opened text error distance failed =>
      intro offset other
      rw [failed, failed]
      rfl
  | takes opened piece event behind after first ih =>
      intro offset other
      rw [scan_of_takes first, scan_of_takes first]
      have rest := ih (offset + byteSize piece) (other + byteSize piece)
      simp only [EventStream.unplaced, EventStream.cons, List.map_cons,
        EventStream.mk.injEq] at rest ⊢
      exact ⟨by rw [rest.1]; rfl, rest.2⟩

theorem dropByteOrderMark_of_head {text : List Char} (plain : text.head? ≠ some '\uFEFF') :
    dropByteOrderMark text = text := by
  unfold dropByteOrderMark
  split
  · exact absurd rfl plain
  · rfl

theorem dropByteOrderMark_append {front back : List Char}
    (plain : front = [] → back.head? ≠ some '\uFEFF') :
    dropByteOrderMark (front ++ back) = dropByteOrderMark front ++ back := by
  cases front with
  | nil => exact dropByteOrderMark_of_head (plain rfl)
  | cons c rest =>
      by_cases mark : c = '\uFEFF'
      · rw [mark]
        rfl
      · have unmarked (behind : List Char) : (c :: behind).head? ≠ some '\uFEFF' := by
          simpa using mark
        rw [dropByteOrderMark_of_head (unmarked rest), List.cons_append,
          dropByteOrderMark_of_head (unmarked _)]

theorem byteSize_dropByteOrderMark_le (text : List Char) :
    byteSize (dropByteOrderMark text) ≤ byteSize text := by
  unfold dropByteOrderMark
  split
  · exact Nat.le_add_left _ _
  · exact Nat.le_refl _

end CatalogServer.Xml
