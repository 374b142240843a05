import CatalogServer.Proofs.Catalog.Depth
import CatalogServer.Proofs.Catalog.Stages

/-!
# What may follow a document

Reading a text does not depend on what follows its last markup.  So when more
stands behind a document, the reader comes to the end of the document as
before, and then to the rest: blanks, comments and processing instructions
leave the document as it was, and everything else is refused.  There is no
partial reading, neither of a document without its end nor of the first of two
documents.

The only piece that the rest can change is character data at the very end of
the document, which goes on in it.
-/

namespace CatalogServer

open Text Xml

namespace Xml

def Ending.isComplete : Ending → Bool
  | .complete _ => true
  | .failed _ _ => false

/-- All events are blanks, comments and processing instructions, and nothing is
left unread. -/
def EventStream.isTrailing (stream : EventStream) : Bool :=
  stream.events.all (fun located => Reader.isInsignificant located.event) &&
    stream.ending.isComplete

/-- A text holds nothing but blanks, comments and processing instructions. -/
def isTrailing (text : String) : Bool :=
  (scan 0 [] text.toList).isTrailing

@[simp]
theorem EventStream.isTrailing_cons (first : Located) (rest : EventStream) :
    (rest.cons first).isTrailing = (Reader.isInsignificant first.event && rest.isTrailing) := by
  simp [isTrailing, EventStream.cons, Bool.and_assoc]

theorem EventStream.isTrailing_unplaced (stream : EventStream) :
    stream.unplaced.isTrailing = stream.isTrailing := by
  have events : stream.unplaced.events.all (fun located => Reader.isInsignificant located.event) =
      stream.events.all fun located => Reader.isInsignificant located.event := by
    simp [EventStream.unplaced, List.all_map, Function.comp_def, Located.unplaced]
  have ending : stream.unplaced.ending.isComplete = stream.ending.isComplete := by
    rw [EventStream.unplaced]
    cases stream.ending <;> rfl
  rw [isTrailing, isTrailing, events, ending]

/-- Where a text stands makes no difference to whether it may follow a
document. -/
theorem isTrailing_scan (offset other : Nat) (opened : List (List Char)) (text : List Char) :
    (scan offset opened text).isTrailing = (scan other opened text).isTrailing := by
  rw [← EventStream.isTrailing_unplaced, unplaced_scan opened text offset other,
    EventStream.isTrailing_unplaced]

theorem Takes.inFront {opened behind : List (List Char)} {piece after : List Char}
    {event : Event} (takes : Takes opened piece event behind after)
    (markup : ∀ raw, event ≠ .text raw) (other : List Char) :
    Takes opened piece event behind other := by
  cases takes with
  | markup recognised =>
      have parts := congrArg Markup.parts? recognised
      refine .markup ?_
      rw [scanMarkup_withRest parts, recognised]
      rfl
  | endTag recognised =>
      have parts := congrArg Markup.parts? recognised
      refine .endTag ?_
      rw [scanMarkup_withRest parts, recognised]
      rfl
  | text => exact absurd rfl (markup _)

theorem ne_of_isAsciiBlank {c : Char} (blank : isAsciiBlank c = true) : c ≠ '<' := by
  rintro rfl
  exact absurd blank (by decide)

theorem isTrailing_blank_append {raw : List Char} (nonempty : raw ≠ [])
    (blank : raw.all isAsciiBlank = true) (offset : Nat) (rest : List Char) :
    (scan offset [] (raw ++ rest)).isTrailing = (scan offset [] rest).isTrailing := by
  have data : '<' ∉ raw := fun member => ne_of_isAsciiBlank (List.all_eq_true.mp blank _ member) rfl
  have inFront (boundary : Boundary rest) :
      (scan offset [] (raw ++ rest)).isTrailing = (scan offset [] rest).isTrailing := by
    rw [scan_of_takes (Takes.text nonempty data boundary), EventStream.isTrailing_cons]
    simp only [Reader.isInsignificant, blank, Bool.true_and]
    exact isTrailing_scan _ _ _ _
  cases rest with
  | nil => exact inFront (.inl rfl)
  | cons c others =>
      by_cases bracket : c = '<'
      · exact inFront (.inr ⟨others, by rw [bracket]⟩)
      · -- the blanks and the character data at the front of the rest are one piece
        obtain ⟨dataFirst, boundary⟩ := (takes_of_ordinary bracket [] others).ends_of_text
        have together : '<' ∉ raw ++ c :: others.takeWhile (· != '<') := by
          rw [List.mem_append]
          exact fun member => member.elim data dataFirst
        have split : c :: others =
            c :: others.takeWhile (· != '<') ++ others.dropWhile (· != '<') := by
          rw [List.cons_append, List.takeWhile_append_dropWhile]
        rw [split, ← List.append_assoc,
          scan_of_takes (Takes.text (by simp) together boundary),
          scan_of_takes (Takes.text (by simp) dataFirst boundary),
          EventStream.isTrailing_cons, EventStream.isTrailing_cons]
        simp only [Reader.isInsignificant, List.all_append, blank, Bool.true_and]
        rw [isTrailing_scan]

end Xml

namespace Reader

theorem epilogStep_eq (document : Document) (span : ByteSpan) (event : Event) :
    epilogStep document ⟨span, event⟩ =
      if isInsignificant event then .ok (.epilog document)
      else .error (.trailingContent span.start) := by
  cases event with
  | text raw => rfl
  | _ => rfl

/-- Behind the root element a text is accepted exactly if it may stand there,
and it changes nothing. -/
theorem resume_epilog_iff {opened : List (List Char)} {text : List Char} :
    opened = [] → ∀ {offset : Nat} {document other : Document},
      resume (.epilog document) (scan offset [] text) = .ok other ↔
        other = document ∧ (scan offset [] text).isTrailing = true := by
  induction opened, text using scan_induction with
  | done opened =>
      rintro - offset document other
      rw [scan_nil]
      change Except.ok document = .ok other ↔ _
      rw [Except.ok.injEq]
      exact ⟨fun same => ⟨same.symm, rfl⟩, fun both => both.1.symm⟩
  | fault opened text error distance failed =>
      rintro rfl offset document other
      rw [failed]
      refine ⟨fun same => ?_, fun both => ?_⟩
      · cases same
      · cases both.2
  | takes opened piece event behind after first ih =>
      rintro rfl offset document other
      rw [scan_of_takes first, resume_cons, EventStream.isTrailing_cons]
      simp only [State.step, epilogStep_eq]
      cases insignificant : isInsignificant event with
      | false =>
          refine ⟨fun same => ?_, fun both => ?_⟩
          · cases same
          · cases both.2
      | true =>
          have outside : behind = [] := by
            cases first with
            | markup => cases event <;> first | rfl | cases insignificant
            | text => rfl
          subst outside
          rw [Bool.true_and]
          exact ih rfl

theorem eq_epilog_of_text {state : State} {span : ByteSpan} {raw : List Char}
    {document : Document} (step : state.step ⟨span, .text raw⟩ = .ok (.epilog document)) :
    state = .epilog document ∧ raw.all isAsciiBlank = true := by
  have depth := depth_of_step step
  cases state with
  | prolog =>
      simp only [State.step, prologStep] at step
      split at step <;> cases step
  | epilog other =>
      simp only [State.step, epilogStep_eq, isInsignificant] at step
      cases blank : raw.all isAsciiBlank with
      | false => simp [blank] at step
      | true =>
          simp only [blank, if_true, Except.ok.injEq] at step
          exact ⟨step, rfl⟩
  | _ => simp [State.depth, depthBehind] at depth

/-- A text that leads to a document leads to it with more behind it, if that may
follow a document, and to nothing otherwise. -/
theorem resume_append_iff (rest : List Char) {opened : List (List Char)} {text : List Char} :
    ∀ {offset : Nat} {state : State} {document other : Document},
      opened.length = state.depth → resume state (scan offset opened text) = .ok document →
        (resume state (scan offset opened (text ++ rest)) = .ok other ↔
          other = document ∧ (scan 0 [] rest).isTrailing = true) := by
  induction opened, text using scan_induction with
  | done opened =>
      intro offset state document other depth read
      rw [scan_nil] at read
      change state.complete _ = .ok document at read
      cases state with
      | epilog _ =>
          cases read
          obtain rfl := List.length_eq_zero_iff.mp depth
          rw [List.nil_append, resume_epilog_iff rfl, isTrailing_scan offset 0]
      | _ => cases read
  | fault opened text error distance failed =>
      intro offset state document other depth read
      rw [failed] at read
      cases read
  | takes opened piece event behind after first ih =>
      intro offset state document other depth read
      rw [scan_of_takes first, resume_cons] at read
      obtain ⟨next, step, later⟩ := Except.bind_eq_ok read
      change resume next _ = .ok document at later
      have further (same : Takes opened piece event behind (after ++ rest)) :
          resume state (scan offset opened (piece ++ after ++ rest)) = .ok other ↔
            other = document ∧ (scan 0 [] rest).isTrailing = true := by
        have depthBehind : behind.length = next.depth := by
          rw [length_behind first, depth, depth_of_step step]
        rw [List.append_assoc, scan_of_takes same, resume_cons, step]
        exact ih depthBehind later
      cases event with
      | text raw =>
          cases after with
          | cons c others =>
              refine further (first.behind ?_)
              rintro (empty | ⟨_, bracket⟩)
              · cases empty
              · exact .inr ⟨_, congrArg (· ++ rest) bracket⟩
          | nil =>
              -- the character data ends the document, and goes on in the rest
              rw [scan_nil] at later
              change next.complete _ = .ok document at later
              cases next with
              | epilog _ =>
                  cases later
                  obtain ⟨rfl, blank⟩ := eq_epilog_of_text step
                  obtain rfl := List.length_eq_zero_iff.mp depth
                  obtain ⟨rfl, nonempty⟩ := first.writtenAs
                  rw [List.append_nil, resume_epilog_iff rfl,
                    isTrailing_blank_append nonempty blank, isTrailing_scan offset 0]
              | _ => cases later
      | _ => exact further (first.inFront (by simp) _)

theorem resume_prolog_of_isTrailing {opened : List (List Char)} {text : List Char} :
    ∀ {offset : Nat}, (scan offset opened text).isTrailing = true →
      ∀ document, resume .prolog (scan offset opened text) ≠ .ok document := by
  induction opened, text using scan_induction with
  | done opened =>
      intro offset trailing document read
      rw [scan_nil] at read
      cases read
  | fault opened text error distance failed =>
      intro offset trailing document read
      rw [failed] at read
      cases read
  | takes opened piece event behind after first ih =>
      intro offset trailing document
      rw [scan_of_takes first, EventStream.isTrailing_cons, Bool.and_eq_true] at trailing
      have stays : prologStep ⟨⟨offset, offset + byteSize piece⟩, event⟩ = .ok .prolog := by
        cases event with
        | text raw => exact if_pos trailing.1
        | comment | instruction => rfl
        | _ => cases trailing.1
      rw [scan_of_takes first, resume_cons]
      simp only [State.step, stays]
      exact ih trailing.2 document

theorem not_isTrailing_of_read {text : String} {document : Document}
    (read : Document.read text = .ok document) : isTrailing text = false := by
  rw [← Bool.not_eq_true]
  intro trailing
  unfold isTrailing at trailing
  by_cases marked : text.toList.head? = some '\uFEFF'
  · obtain ⟨rest, starts⟩ := List.head?_eq_some_iff.mp marked
    have first := takes_of_ordinary (show '\uFEFF' ≠ '<' by decide) [] rest
    rw [starts, ← List.takeWhile_append_dropWhile (p := (· != '<')) (l := rest),
      ← List.cons_append, scan_of_takes first, EventStream.isTrailing_cons] at trailing
    simp [isInsignificant, show isAsciiBlank '\uFEFF' = false by decide] at trailing
  · rw [← dropByteOrderMark_of_head marked] at trailing
    exact resume_prolog_of_isTrailing trailing document read

end Reader

open Reader

theorem ne_empty_of_read {text : String} {document : Document}
    (read : Document.read text = .ok document) : text.toList ≠ [] := by
  intro empty
  have nothing : scan 0 [] (dropByteOrderMark []) = ⟨[], .complete 0⟩ := scan_nil 0 []
  rw [Document.read, events, empty, nothing] at read
  cases read

/-- With more behind it, a document is read as the same document, at the same
places, if blanks, comments and processing instructions are all there is; the
two together are refused otherwise, and so are two documents in a row. -/
theorem Document.read_append_iff {text : String} {document : Document}
    (read : Document.read text = .ok document) (rest : String) :
    (∀ other, Document.read (text ++ rest) = .ok other ↔
        other = document ∧ isTrailing rest = true) ∧
      ∀ more, Document.read rest = .ok more →
        ∃ error, Document.read (text ++ rest) = .error error := by
  have together (other : Document) : Document.read (text ++ rest) = .ok other ↔
      other = document ∧ isTrailing rest = true := by
    have whole : dropByteOrderMark (text ++ rest).toList =
        dropByteOrderMark text.toList ++ rest.toList := by
      rw [String.toList_append,
        dropByteOrderMark_append fun empty => absurd empty (ne_empty_of_read read)]
    rw [Document.read, events, whole]
    exact resume_append_iff rest.toList rfl read
  refine ⟨together, fun more readMore => ?_⟩
  have noDocument := not_isTrailing_of_read readMore
  cases outcome : Document.read (text ++ rest) with
  | error error => exact ⟨error, rfl⟩
  | ok other =>
      have trailing := ((together other).mp outcome).2
      rw [noDocument] at trailing
      cases trailing

/-- A document whose last piece is an end of line, which more blanks go on. -/
def closedText : String :=
  "<TS version=\"2.1\"><context><name>n</name></context></TS>\n"

theorem read_append_closedText :
    ∃ document, Document.read closedText = .ok document ∧
      Document.read (closedText ++ " <!-- end --><?more?>\n") = .ok document ∧
      ∃ error, Document.read (closedText ++ closedText) = .error error := by
  have accepted : (Document.read closedText).toOption.isSome = true := by decide +kernel
  obtain ⟨document, read⟩ := Except.isSome_toOption_iff.mp accepted
  have trailing : isTrailing " <!-- end --><?more?>\n" = true := by decide +kernel
  exact ⟨document, read, ((Document.read_append_iff read _).1 document).mpr ⟨rfl, trailing⟩,
    (Document.read_append_iff read _).2 document read⟩

end CatalogServer
