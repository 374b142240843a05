import CatalogServer.Proofs.Catalog.Spans

/-!
# The tags that places show

Every span of a document that is read covers a part of its text that begins
with the tag of an element and ends with an angle bracket.  The spans are
counted in the text without its byte order mark, so in a text with one they
show something else.
-/

namespace CatalogServer

open Text Xml Reader

/-- The places of a document show the tags of its elements in a text. -/
structure Document.PointsInto (document : Document) (text : List Char) : Prop where
  root : document.spans.root.Shows text "TS"
  contexts : ∀ context ∈ document.spans.contexts,
    context.element.Shows text "context" ∧ context.name.Shows text "name"
  messages : ∀ context ∈ document.spans.contexts, ∀ message ∈ context.messages,
    message.element.Shows text "message" ∧ message.source.Shows text "source"
  targets : ∀ context ∈ document.spans.contexts, ∀ message ∈ context.messages,
    ∀ target, message.target = some target →
      target.element.Shows text "translation" ∧ target.startTag.Shows text "translation"

namespace Reader

variable {text : List Char} {element : Element}

theorem shows_of_last? {child : Element} {name : String} (stands : element.Stands text)
    (last : element.last? name = some child) :
    child.span.Shows text name ∧ child.startTag.Shows text name := by
  obtain ⟨member, named⟩ := Element.mem_of_last? last
  rw [← named]
  exact (within_of_mem stands member).1.shows

theorem shows_of_named {child : Element} {name : String} (stands : element.Stands text)
    (member : child ∈ element.named name) : child.Stands text ∧ child.span.Shows text name := by
  obtain ⟨inside, named⟩ := Element.mem_of_named member
  have childStands := (within_of_mem stands inside).1
  rw [← named]
  exact ⟨childStands, childStands.shows.1⟩

theorem pointsInto_of_outlines {document : Document} (outlines : Outlines element document)
    (stands : element.Stands text) : document.PointsInto text := by
  have readContext {context : ContextSpans} (member : context ∈ document.spans.contexts) :
      ∃ child item, child.Stands text ∧ child.span.Shows text "context" ∧
        ReadsContext child item context := by
    obtain ⟨child, childMem, item, -, reads⟩ := outlines.contexts.exists_of_mem member
    obtain ⟨childStands, shown⟩ := shows_of_named stands childMem
    exact ⟨child, item, childStands, shown, reads⟩
  have readMessage {context : ContextSpans} (member : context ∈ document.spans.contexts)
      {message : MessageSpans} (messageMem : message ∈ context.messages) :
      ∃ child item, child.Stands text ∧ child.span.Shows text "message" ∧
        ReadsMessage child item message := by
    obtain ⟨parent, _, parentStands, -, reads⟩ := readContext member
    obtain ⟨child, childMem, item, -, childReads⟩ := reads.messages.exists_of_mem messageMem
    obtain ⟨childStands, shown⟩ := shows_of_named parentStands childMem
    exact ⟨child, item, childStands, shown, childReads⟩
  refine ⟨?_, ?_, ?_, ?_⟩
  · rw [outlines.startTag, ← outlines.named]
    exact stands.shows.2
  · intro context member
    obtain ⟨child, _, childStands, shown, reads⟩ := readContext member
    obtain ⟨name, last, nameEq⟩ := Option.map_eq_some_iff.mp reads.name
    rw [reads.extent, ← nameEq]
    exact ⟨shown, (shows_of_last? childStands last).1⟩
  · intro context member message messageMem
    obtain ⟨child, _, childStands, shown, reads⟩ := readMessage member messageMem
    obtain ⟨source, last, sourceEq⟩ := Option.map_eq_some_iff.mp reads.source
    rw [reads.extent, ← sourceEq]
    exact ⟨shown, (shows_of_last? childStands last).1⟩
  · intro context member message messageMem target given
    obtain ⟨child, _, childStands, -, reads⟩ := readMessage member messageMem
    rw [reads.targetSpans] at given
    obtain ⟨found, last, rfl⟩ := Option.map_eq_some_iff.mp given
    exact shows_of_last? childStands last

/-- What stands in front of the root element ends with markup or a blank, and
so not with the last letter of its name. -/
theorem exists_lead_of_reads {content : Content} {last : State}
    (run : State.prolog.reads content = .ok last) {root : Element} {others : List Element}
    (elements : content.elements = root :: others) :
    ∀ {before covered : List Char}, Covers (byteSize before) content.events covered →
      before.getLast? ≠ some 'S' →
        ∃ lead behind, before ++ covered = lead ++ behind ∧
          byteSize lead = root.startTag.start ∧ lead.getLast? ≠ some 'S' := by
  induction content with
  | nothing => cases elements
  | piece located flat rest ih =>
      intro before covered covers front
      obtain ⟨span, event⟩ := located
      obtain ⟨next, step, run⟩ := reads_piece run
      obtain ⟨piece, behind, rfl, rfl, written, covers⟩ := covers.cons_inv
      rw [← byteSize_append] at covers
      have onward (state : next = .prolog) (same : rest.elements = root :: others)
          (ends : piece.getLast? ≠ some 'S') (nonempty : piece ≠ []) :
          ∃ lead behind', before ++ (piece ++ behind) = lead ++ behind' ∧
            byteSize lead = root.startTag.start ∧ lead.getLast? ≠ some 'S' := by
        subst state
        rw [← List.append_assoc]
        refine ih run same covers ?_
        rw [List.getLast?_append_of_ne_nil before nonempty]
        exact ends
      have closes (markup : ∀ raw, event ≠ .text raw) : piece.getLast? ≠ some 'S' := by
        rw [written.getLast markup]
        decide
      have nonempty : piece ≠ [] := by
        rintro rfl
        exact absurd written.nonempty (by simp [byteSize])
      cases event with
      | opening | closing => cases flat
      | selfClosing tag =>
          cases elements
          exact ⟨before, piece ++ behind, rfl, rfl, front⟩
      | text raw =>
          simp only [State.step, prologStep] at step
          split at step
          · next blank =>
              cases step
              refine onward rfl elements ?_ nonempty
              obtain ⟨rfl, -⟩ := written
              intro last
              have blankLast := List.all_eq_true.mp blank 'S' (List.mem_of_getLast? last)
              exact absurd blankLast (by decide)
          · cases step
      | cdata => cases step
      | _ =>
          cases step
          exact onward rfl elements (closes (by simp)) nonempty
  | element startTag tag inner endTag rest =>
      intro before covered covers front
      obtain ⟨piece, behind, rfl, rfl, -, -⟩ := covers.cons_inv
      cases elements
      exact ⟨before, piece ++ behind, rfl, rfl, front⟩

/-- Behind a byte order mark the place of the root element, which is counted
without the mark, does not show its tag. -/
theorem not_shows_of_byteOrderMark {text : String} {document : Document}
    (read : Document.read text = .ok document) {rest : List Char}
    (marked : text.toList = '\uFEFF' :: rest) :
    ¬ document.spans.root.Shows text.toList "TS" := by
  intro shows
  obtain ⟨run, stop, complete⟩ := run_of_read read
  obtain ⟨content, nested⟩ := nested_of_run run
  have covered : Covers (byteSize []) content.events (dropByteOrderMark text.toList) := by
    rw [Content.events_of_nested nested]
    exact covers_scan complete
  rw [← Content.events_of_nested nested] at run
  obtain ⟨root, single, outlines⟩ := outlines_of_reads run
  obtain ⟨lead, behind, whole, size, ends⟩ := exists_lead_of_reads run single covered (by simp)
  obtain ⟨before, after, shown, start⟩ := exists_of_shows shows
  rw [marked, dropByteOrderMark, List.nil_append] at whole
  rw [marked] at shown
  rw [outlines.startTag, ← size] at start
  cases before with
  | nil => cases shown
  | cons mark before =>
      rw [List.append_assoc, List.cons_append, List.cons.injEq] at shown
      obtain ⟨rfl, shown⟩ := shown
      -- the mark takes as many bytes as the start of the tag
      have sizes : byteSize (before ++ ['<', 'T', 'S']) = byteSize lead := by
        rw [← start, byteSize_append, byteSize, Nat.add_comm]
        rfl
      have parted : before ++ ['<', 'T', 'S'] ++ after = lead ++ behind := by
        rw [← whole, shown, List.append_assoc]
        rfl
      obtain ⟨rfl, -⟩ := append_inj_of_byteSize parted sizes
      exact ends (by simp)

end Reader

theorem Document.pointsInto_of_read {text : String} {document : Document}
    (read : Document.read text = .ok document) (plain : text.toList.head? ≠ some '\uFEFF') :
    document.PointsInto text.toList := by
  obtain ⟨root, -, outlines, stands⟩ := stands_of_read read
  rw [dropByteOrderMark_of_head plain] at stands
  exact pointsInto_of_outlines outlines stands

/-- The places of a document that is read show the tags of its elements in the
text without its byte order mark, and in the text itself exactly if it has
none. -/
theorem Document.pointsInto_iff {text : String} {document : Document}
    (read : Document.read text = .ok document) :
    document.PointsInto (dropByteOrderMark text.toList) ∧
      (document.PointsInto text.toList ↔ text.toList.head? ≠ some '\uFEFF') := by
  obtain ⟨root, -, outlines, stands⟩ := stands_of_read read
  have points := pointsInto_of_outlines outlines stands
  refine ⟨points, ?_, ?_⟩
  · rintro pointsToo marked
    obtain ⟨rest, textEq⟩ := List.head?_eq_some_iff.mp marked
    exact not_shows_of_byteOrderMark read textEq pointsToo.root
  · intro plain
    rw [dropByteOrderMark_of_head plain] at points
    exact points

theorem pointsInto_repeatedText :
    Document.read repeatedText = .ok repeatedDocument ∧
      repeatedDocument.PointsInto repeatedText.toList := by
  refine ⟨read_repeatedText, (Document.pointsInto_iff read_repeatedText).2.mpr ?_⟩
  decide +kernel

/-- A finished document with a byte order mark. -/
def finishedBehindMark : String :=
  "\uFEFF<TS><context><name/><message><source/><translation/></message></context></TS>"

/-- Not every place shows its tag: behind a byte order mark the root element
is placed at the mark. -/
theorem not_pointsInto_finishedBehindMark :
    ¬ ∀ text document, Document.read text = .ok document → document.PointsInto text.toList := by
  intro points
  have found : (Document.read finishedBehindMark).toOption.map (·.spans.root) = some ⟨0, 4⟩ := by
    decide +kernel
  obtain ⟨document, read, place⟩ := Option.map_eq_some_iff.mp found
  obtain ⟨part, sliced, spelled, -⟩ := (points _ _ (Except.toOption_eq_some_iff.mp read)).root
  have front : slice 0 4 finishedBehindMark.toList = some ['\uFEFF', '<'] := by decide +kernel
  rw [place, front] at sliced
  cases sliced
  exact absurd spelled (by decide)

end CatalogServer
