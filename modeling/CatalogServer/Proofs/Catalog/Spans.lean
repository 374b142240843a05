import CatalogServer.Proofs.Catalog.Outline

/-!
# The places of a document

The spans of a document that is read are those of elements that stand in its
text.  So they are parallel to the catalog, nested as the elements are, and in
the order of the text.
-/

namespace CatalogServer

open Text Xml Reader

/-- A span covers some bytes of a text of the given size. -/
def Text.ByteSpan.Fits (span : ByteSpan) (size : Nat) : Prop :=
  span.start < span.stop ∧ span.stop ≤ size

/-- A span lies inside another one. -/
def Text.ByteSpan.Within (inner outer : ByteSpan) : Prop :=
  outer.start ≤ inner.start ∧ inner.stop ≤ outer.stop

/-- A span ends where another one starts, or in front of it. -/
def Text.ByteSpan.Precedes (first second : ByteSpan) : Prop :=
  first.stop ≤ second.start

/-- The places of a target in a message that covers a span. -/
structure TargetSpans.Arranged (spans : TargetSpans) (message : ByteSpan) (size : Nat) : Prop where
  element : spans.element.Fits size
  inside : spans.element.Within message
  startTag : spans.startTag.Fits size
  starts : spans.startTag.start = spans.element.start
  ends : spans.startTag.stop ≤ spans.element.stop

/-- The places of a message in a context that covers a span. -/
structure MessageSpans.Arranged (spans : MessageSpans) (context : ByteSpan) (size : Nat) :
    Prop where
  element : spans.element.Fits size
  inside : spans.element.Within context
  source : spans.source.Fits size
  sourceInside : spans.source.Within spans.element
  target {target : TargetSpans} : spans.target = some target →
    target.Arranged spans.element size
  apart {target : TargetSpans} : spans.target = some target →
    spans.source.Precedes target.element ∨ target.element.Precedes spans.source

/-- The places of a context. -/
structure ContextSpans.Arranged (spans : ContextSpans) (size : Nat) : Prop where
  element : spans.element.Fits size
  name : spans.name.Fits size
  nameInside : spans.name.Within spans.element
  messages : ∀ message ∈ spans.messages, message.Arranged spans.element size
  increasing : spans.messages.Pairwise fun first second => first.element.Precedes second.element

/-- The places of a document are parallel to its catalog, cover bytes of a
text of the given size, and stand in its order. -/
structure Document.Arranged (document : Document) (size : Nat) : Prop where
  parallel : List.Forall₂
    (fun context spans => context.messages.length = spans.messages.length)
    document.catalog.contexts document.spans.contexts
  root : document.spans.root.Fits size
  behindRoot : ∀ context ∈ document.spans.contexts, document.spans.root.Precedes context.element
  contexts : ∀ context ∈ document.spans.contexts, context.Arranged size
  increasing : document.spans.contexts.Pairwise fun first second =>
    first.element.Precedes second.element

namespace Reader

section Elements

variable {text : List Char} {element child : Element} {name : String}

theorem fits_of_stands (stands : element.Stands text) {size : Nat}
    (bound : byteSize text ≤ size) :
    element.span.Fits size ∧ element.startTag.Fits size := by
  obtain ⟨positive, ordered, inText⟩ := stands.ordered
  simp only [ByteSpan.Fits, Element.span]
  omega

theorem within_of_mem (stands : element.Stands text) (member : child ∈ element.inner.elements) :
    child.Stands text ∧ child.span.Within element.span ∧ element.startTag.Precedes child.span := by
  obtain ⟨childStands, start, stop⟩ := stands.inner.1 child member
  obtain ⟨positive, -, -⟩ := stands.ordered
  refine ⟨childStands, ⟨?_, stop⟩, start⟩
  simp only [Element.span]
  omega

/-- Elements with different names do not overlap. -/
def Apart (first second : Element) : Prop :=
  first.tag.name ≠ second.tag.name →
    first.span.Precedes second.span ∨ second.span.Precedes first.span

theorem apart_of_mem (stands : element.Stands text) {other : Element}
    (member : child ∈ element.inner.elements) (otherMember : other ∈ element.inner.elements) :
    Apart child other := by
  have itself : ∀ found ∈ element.inner.elements, Apart found found :=
    fun found _ different => absurd rfl different
  have ordered : element.inner.elements.Pairwise Apart :=
    stands.inner.2.imp fun precedes _ => .inl precedes
  have reversed : element.inner.elements.Pairwise (flip Apart) :=
    stands.inner.2.imp fun precedes _ => .inr precedes
  exact List.Pairwise.forall_of_forall_of_flip itself ordered reversed member otherMember

theorem pairwise_named (stands : element.Stands text) (name : String) :
    (element.named name).Pairwise fun first second => first.span.Precedes second.span :=
  stands.inner.2.sublist List.filter_sublist

end Elements

variable {text : List Char} {element : Element} {size : Nat}

theorem arranged_of_readsMessage {message : Message} {spans : MessageSpans} {context : ByteSpan}
    (reads : ReadsMessage element message spans) (stands : element.Stands text)
    (inside : element.span.Within context) (bound : byteSize text ≤ size) :
    spans.Arranged context size := by
  obtain ⟨source, lastSource, sourceEq⟩ := Option.map_eq_some_iff.mp reads.source
  obtain ⟨sourceMem, sourceNamed⟩ := Element.mem_of_last? lastSource
  obtain ⟨sourceStands, sourceInside, -⟩ := within_of_mem stands sourceMem
  have targetOf {target : TargetSpans} (given : spans.target = some target) :
      ∃ found ∈ element.inner.elements, found.tag.name = "translation" ∧
        target = ⟨found.span, found.startTag⟩ := by
    rw [reads.targetSpans] at given
    obtain ⟨found, last, rfl⟩ := Option.map_eq_some_iff.mp given
    obtain ⟨member, named⟩ := Element.mem_of_last? last
    exact ⟨found, member, named, rfl⟩
  rw [← reads.extent] at inside
  refine ⟨?_, inside, ?_, ?_, ?_, ?_⟩
  · rw [reads.extent]
    exact (fits_of_stands stands bound).1
  · rw [← sourceEq]
    exact (fits_of_stands sourceStands bound).1
  · rw [← sourceEq, reads.extent]
    exact sourceInside
  · intro target given
    obtain ⟨found, member, -, rfl⟩ := targetOf given
    obtain ⟨foundStands, foundInside, -⟩ := within_of_mem stands member
    obtain ⟨elementFits, tagFits⟩ := fits_of_stands foundStands bound
    rw [← reads.extent] at foundInside
    exact ⟨elementFits, foundInside, tagFits, rfl, foundStands.ordered.2.1⟩
  · intro target given
    obtain ⟨found, member, named, rfl⟩ := targetOf given
    rw [← sourceEq]
    refine apart_of_mem stands sourceMem member ?_
    rw [sourceNamed, named]
    decide

theorem arranged_of_readsContext {context : Context} {spans : ContextSpans}
    (reads : ReadsContext element context spans) (stands : element.Stands text)
    (bound : byteSize text ≤ size) : spans.Arranged size := by
  obtain ⟨name, lastName, nameEq⟩ := Option.map_eq_some_iff.mp reads.name
  obtain ⟨nameStands, nameInside, -⟩ := within_of_mem stands (Element.mem_of_last? lastName).1
  refine ⟨?_, ?_, ?_, ?_, ?_⟩
  · rw [reads.extent]
    exact (fits_of_stands stands bound).1
  · rw [← nameEq]
    exact (fits_of_stands nameStands bound).1
  · rw [← nameEq, reads.extent]
    exact nameInside
  · intro message messageMem
    obtain ⟨child, childMem, _, -, childReads⟩ := reads.messages.exists_of_mem messageMem
    obtain ⟨childStands, childInside, -⟩ := within_of_mem stands (Element.mem_of_named childMem).1
    rw [← reads.extent] at childInside
    exact arranged_of_readsMessage childReads childStands childInside bound
  · have ordered := List.pairwise_map.mpr (pairwise_named stands "message")
    rw [← reads.messages.map_eq ReadsMessage.extent] at ordered
    exact List.pairwise_map.mp ordered

theorem parallel_of_outlines {document : Document} (outlines : Outlines element document) :
    List.Forall₂ (fun context spans => context.messages.length = spans.messages.length)
      document.catalog.contexts document.spans.contexts := by
  refine outlines.contexts.forall₂ fun reads => ?_
  exact (reads.messages.forall₂ fun _ => trivial).length_eq

theorem arranged_of_outlines {document : Document} (outlines : Outlines element document)
    (stands : element.Stands text) (bound : byteSize text ≤ size) : document.Arranged size := by
  refine ⟨parallel_of_outlines outlines, ?_, ?_, ?_, ?_⟩
  · rw [outlines.startTag]
    exact (fits_of_stands stands bound).2
  · intro context contextMem
    obtain ⟨child, childMem, _, -, childReads⟩ := outlines.contexts.exists_of_mem contextMem
    rw [outlines.startTag, childReads.extent]
    exact (within_of_mem stands (Element.mem_of_named childMem).1).2.2
  · intro context contextMem
    obtain ⟨child, childMem, _, -, childReads⟩ := outlines.contexts.exists_of_mem contextMem
    obtain ⟨childStands, -, -⟩ := within_of_mem stands (Element.mem_of_named childMem).1
    exact arranged_of_readsContext childReads childStands bound
  · have ordered := List.pairwise_map.mpr (pairwise_named stands "context")
    rw [← outlines.contexts.map_eq ReadsContext.extent] at ordered
    exact List.pairwise_map.mp ordered

theorem stands_of_read {text : String} {document : Document}
    (read : Document.read text = .ok document) :
    ∃ root, root? text = some root ∧ Outlines root document ∧
      root.Stands (dropByteOrderMark text.toList) := by
  obtain ⟨root, found, outlines⟩ := outlines_of_read read
  obtain ⟨-, stop, complete⟩ := run_of_read read
  exact ⟨root, found, outlines, stands_of_root found complete⟩

/-- The places of a document that is read fit in its text without the byte order
mark. -/
theorem arranged_unmarked {text : String} {document : Document}
    (read : Document.read text = .ok document) :
    document.Arranged (byteSize (dropByteOrderMark text.toList)) := by
  obtain ⟨root, -, outlines, stands⟩ := stands_of_read read
  exact arranged_of_outlines outlines stands (Nat.le_refl _)

end Reader

/-- The places of every document that is read are arranged in its text. -/
theorem Document.arranged_of_read {text : String} {document : Document}
    (read : Document.read text = .ok document) : document.Arranged (byteSize text.toList) := by
  obtain ⟨root, -, outlines, stands⟩ := stands_of_read read
  exact arranged_of_outlines outlines stands (byteSize_dropByteOrderMark_le _)

/-- A document in which source and target are given twice, behind characters of
several bytes. -/
def repeatedText : String :=
  "<TS><dependencies/><context><comment/><name>é</name><message><translation/>" ++
    "<source>s</source><translation>t</translation><source/></message></context></TS>"

def repeatedDocument : Document :=
  { catalog :=
      { contexts := [
          { name := "é"
            comment := some ""
            messages := [{ target := ⟨.finished, .single (.plain "t")⟩ }] }] }
    spans :=
      { root := ⟨0, 4⟩
        contexts := [
          { element := ⟨19, 151⟩
            name := ⟨38, 53⟩
            messages := [⟨⟨53, 141⟩, ⟨122, 131⟩, some ⟨⟨94, 122⟩, ⟨94, 107⟩⟩⟩] }] } }

theorem read_repeatedText : Document.read repeatedText = .ok repeatedDocument := by
  refine Reader.read_of_toList (by
    unfold repeatedText
    rw [String.toList_append, String.toList_ofList, String.toList_ofList]) ?_
  decide +kernel

theorem arranged_repeatedText :
    Document.read repeatedText = .ok repeatedDocument ∧
      repeatedDocument.Arranged (byteSize repeatedText.toList) :=
  ⟨read_repeatedText, Document.arranged_of_read read_repeatedText⟩

end CatalogServer
