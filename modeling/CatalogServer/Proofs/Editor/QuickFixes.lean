import CatalogServer.Editor.QuickFix
import CatalogServer.Proofs.Catalog.Rereading
import CatalogServer.Proofs.Catalog.Retargeting
import CatalogServer.Proofs.Editor.FormChanges
import CatalogServer.Proofs.Text.Ranges

/-!
# Quick fixes do what they say

A fix replaces a target element in the text of a document.  In a text without
a byte order mark its range covers the element and nothing else, and the text
with the replacement is read as the same catalog with the intended target,
unless the message has numerus and its target is a plain text that does not
show.  In a text with a byte order mark the range is misplaced.  Either way the
range is one that editors can hold, if the text is below 2^32 bytes.
-/

namespace CatalogServer

open Text Xml Reader

/-- The text with the replacement of an edit in it; none if the range does not
lie in the text. -/
def TextEdit.edited? (edit : TextEdit) (text : List Char) : Option (List Char) := do
  let start ← LineIndex.offset text edit.range.start
  let stop ← LineIndex.offset text edit.range.stop
  let (before, _) ← splitAtByte start text
  let (_, after) ← splitAtByte stop text
  if start ≤ stop then some (before ++ edit.newText.toList ++ after) else none

/-- The text with the replacement of an edit in it is read as a catalog. -/
def TextEdit.Yields (edit : TextEdit) (text : String) (catalog : Catalog) : Prop :=
  ∃ edited document, edit.edited? text.toList = some edited ∧
    Document.read (String.ofList edited) = .ok document ∧ document.catalog = catalog

/-- The target that a fix is meant to give a message, by its title: the same
text as finished, or the text with the number of forms of its language. -/
def QuickFix.Intends (fix : QuickFix) (message : Message) (language : String)
    (options : CheckOptions) (target : Target) : Prop :=
  fix.title = "Mark translation as finished" ∧
      target = { message.target with status := .finished } ∨
    ∃ expected, options.expectedFormCount? language = some expected ∧
      fix.title = "Use " ++ toString expected ++ " plural form" ++
        (if expected == 1 then "" else "s") ++ " for '" ++ language ++ "'" ∧
      QuickFix.withFormCount? message expected = some target

/-- A message with numerus shows a plain text. -/
def Target.Shows (target : Target) (numerus : Bool) : Prop :=
  numerus = true → ∀ text, target.text = .single (.plain text) → text.toList.any isVisible = true

namespace Catalog

variable {catalog : Catalog} {index : MessageIndex} {message : Message}

theorem mem_messages (found : catalog.message? index = some message) :
    message ∈ catalog.messages := by
  simp only [message?, Option.bind_eq_bind, Option.bind_eq_some_iff] at found
  obtain ⟨context, contextAt, messageAt⟩ := found
  exact List.mem_flatMap.mpr
    ⟨context, List.mem_of_getElem? contextAt, List.mem_of_getElem? messageAt⟩

theorem message?_withTarget (found : catalog.message? index = some message) (target : Target) :
    (catalog.withTarget index target).message? index = some { message with target := target } := by
  simp only [message?, Option.bind_eq_bind, Option.bind_eq_some_iff] at found
  obtain ⟨context, contextAt, messageAt⟩ := found
  simp [message?, withTarget, contextAt, messageAt]

theorem withTarget_eq_iff (found : catalog.message? index = some message) (target other : Target) :
    catalog.withTarget index target = catalog.withTarget index other ↔ target = other := by
  constructor
  · intro same
    have messages := congrArg (·.message? index) same
    simp only [message?_withTarget found, Option.some.injEq] at messages
    exact congrArg Message.target messages
  · rintro rfl
    rfl

end Catalog

namespace QuickFix

/-- A fix replaces the target of the message at its offset by the one it is
meant to give. -/
theorem exists_intended {document : Document} {text : List Char} {offset : Nat}
    {options : CheckOptions} {diagnostics : List Diagnostic} {fix : QuickFix}
    (offered : fix ∈ atOffset document text offset options diagnostics) :
    ∃ index message spans target, document.spans.messageAt? offset = some index ∧
      document.catalog.message? index = some message ∧ document.Records index spans ∧
      fix.Intends message (document.catalog.language.getD "") options target ∧
      fix.edit = replaceTarget text spans.element target := by
  unfold atOffset at offered
  split at offered
  · cases offered
  · next fixable found =>
      obtain ⟨index, here, fixable?⟩ := Option.bind_eq_some_iff.mp found
      simp only [QuickFix.fixable?, Option.bind_eq_bind, Option.bind_eq_some_iff,
        Option.some.injEq] at fixable?
      obtain ⟨message, messageAt, spans, spansAt, target, targetAt, rfl⟩ := fixable?
      have recorded : document.Records index target := ⟨spans, spansAt, targetAt⟩
      rcases List.mem_append.mp offered with offered | offered
      · simp only [markFinished?, Option.mem_toList] at offered
        split at offered
        · cases offered
          exact ⟨index, message, target, _, here, messageAt, recorded, .inl ⟨rfl, rfl⟩, rfl⟩
        · cases offered
      · simp only [useForms?, Option.mem_toList, Option.bind_eq_bind, Option.bind_eq_some_iff,
          Option.some.injEq] at offered
        obtain ⟨expected, counted, forms, fixed, rfl⟩ := offered
        exact ⟨index, message, target, forms, here, messageAt, recorded,
          .inr ⟨expected, counted, rfl, fixed⟩, rfl⟩

theorem markFinished_mem_atOffset {document : Document} {offset : Nat} {fixable : Fixable}
    (found : (document.spans.messageAt? offset).bind (fixable? document) = some fixable)
    (unfinished : fixable.message.canBeFinished = true) (text : List Char)
    (options : CheckOptions) (diagnostics : List Diagnostic) :
    markFinished text fixable diagnostics ∈ atOffset document text offset options diagnostics := by
  rw [atOffset, found]
  refine List.mem_append_left _ ?_
  rw [markFinished?, if_pos unfinished]
  exact List.mem_singleton.mpr rfl

theorem admits_of_intends {fix : QuickFix} {message : Message} {language : String}
    {options : CheckOptions} {target : Target} (asRead : message.AsRead)
    (intends : fix.Intends message language options target) :
    Likeness.Admits message.numerus target.text := by
  rcases intends with ⟨-, rfl⟩ | ⟨expected, -, -, fixed⟩
  · exact asRead.formed
  · intro single
    rw [(withFormCount?_eq_some_iff.mp fixed).1] at single
    cases single

end QuickFix

theorem rereadTarget_eq_iff_shows {message : Message} {target : Target}
    (admits : Likeness.Admits message.numerus target.text) :
    rereadTarget message.numerus target = target ↔ target.Shows message.numerus := by
  have shape := rereadTarget_eq_iff { message with target := target }
  exact shape.trans ⟨fun recognisable => recognisable.visible, fun shows => ⟨shows, admits⟩⟩

/-- An edit of a stretch that stands on its own line ends replaces it. -/
theorem edited_replaceTarget {before element after : List Char} {span : ByteSpan}
    (start : byteSize before = span.start) (stop : byteSize (before ++ element) = span.stop)
    (bracket : ∃ rest, element ++ after = '<' :: rest)
    (closes : (before ++ element).getLast? = some '>') (target : Target) :
    (QuickFix.replaceTarget (before ++ element ++ after) span target).edited?
        (before ++ element ++ after) =
      some (before ++ (Writer.bareTargetElement target).toList ++ after) := by
  obtain ⟨startAt, stopAt⟩ := LineIndex.offset_range start stop bracket closes
  have front : splitAtByte span.start (before ++ element ++ after) =
      some (before, element ++ after) := by
    rw [← start, List.append_assoc]
    exact splitAtByte_append before (element ++ after)
  have back : splitAtByte span.stop (before ++ element ++ after) = some (before ++ element, after) := by
    rw [← stop]
    exact splitAtByte_append (before ++ element) after
  have ordered : span.start ≤ span.stop := by
    rw [← start, ← stop, byteSize_append]
    omega
  simp only [TextEdit.edited?, QuickFix.replaceTarget, startAt, stopAt, front, back,
    Option.bind_eq_bind, Option.bind_some, if_pos ordered]

section ByteOrderMark

variable {text before after : List Char}

theorem head_ne_byteOrderMark {rest : List Char}
    (plain : (before ++ rest).head? ≠ some '\uFEFF') (target : Target) (after : List Char) :
    (before ++ (Writer.bareTargetElement target).toList ++ after).head? ≠ some '\uFEFF' := by
  cases before with
  | nil =>
      rw [toList_bareTargetElement]
      exact fun same => absurd (Option.some.inj same) (by decide)
  | cons c before => exact plain

end ByteOrderMark

/-- Without a byte order mark, replacing a target that a document records
leads to a text that is read with the new target, as far as it is read back
as it is written. -/
theorem yields_replaceTarget_iff {text : String} {document : Document}
    (read : Document.read text = .ok document) (plain : text.toList.head? ≠ some '\uFEFF')
    {index : MessageIndex} {spans : TargetSpans} (recorded : document.Records index spans)
    {message : Message} (found : document.catalog.message? index = some message)
    (target : Target) :
    (QuickFix.replaceTarget text.toList spans.element target).Yields text
        (document.catalog.withTarget index target) ↔
      rereadTarget message.numerus target = target := by
  obtain ⟨before, element, after, other, whole, start, stop, bracket, closes, otherFound, reads⟩ :=
    exists_element_of_records read recorded
  cases found.symm.trans otherFound
  rw [dropByteOrderMark_of_head plain] at whole
  have applied := edited_replaceTarget start stop bracket closes target
  rw [← whole] at applied
  have edited := catalog_read
    (String.ofList (before ++ (Writer.bareTargetElement target).toList ++ after))
  have stillPlain : (before ++ (Writer.bareTargetElement target).toList ++ after).head? ≠
      some '\uFEFF' := by
    rw [whole, List.append_assoc] at plain
    exact head_ne_byteOrderMark plain target after
  rw [String.toList_ofList, dropByteOrderMark_of_head stillPlain, List.append_assoc, reads target,
    Option.map_eq_some_iff] at edited
  obtain ⟨again, readAgain, catalogEq⟩ := edited
  rw [Except.toOption_eq_some_iff, ← List.append_assoc] at readAgain
  rw [← Catalog.withTarget_eq_iff found]
  constructor
  · rintro ⟨edited, document, sameEdit, sameRead, sameCatalog⟩
    cases applied.symm.trans sameEdit
    cases readAgain.symm.trans sameRead
    exact catalogEq.symm.trans sameCatalog
  · intro same
    exact ⟨_, again, applied, readAgain, catalogEq.trans same⟩

/-- Behind a byte order mark, a fix is misplaced: the places of a document are
counted from behind the mark, and the replacement starts in front of the
element. -/
theorem misplaced_of_byteOrderMark {text : String} {document : Document}
    (read : Document.read text = .ok document) (marked : text.toList.head? = some '\uFEFF')
    {index : MessageIndex} {spans : TargetSpans} (recorded : document.Records index spans)
    (target : Target) :
    ∃ before rest start, text.toList = '\uFEFF' :: (before ++ '<' :: rest) ∧
      byteSize before = spans.element.start ∧
      LineIndex.offset text.toList
        (QuickFix.replaceTarget text.toList spans.element target).range.start = some start ∧
      start < byteSize ('\uFEFF' :: before) := by
  obtain ⟨before, element, after, -, whole, place, -, ⟨rest, bracket⟩, -⟩ :=
    exists_element_of_records read recorded
  obtain ⟨tail, textEq⟩ := List.head?_eq_some_iff.mp marked
  obtain ⟨start, startAt, early⟩ :=
    LineIndex.exists_offset_position text.toList spans.element.start
  refine ⟨before, rest, start, ?_, place, startAt, ?_⟩
  · rw [textEq, dropByteOrderMark, List.append_assoc, bracket] at whole
    rw [textEq, whole]
  · have positive := Char.utf8Size_pos '\uFEFF'
    rw [byteSize, place]
    omega

/-- A fix that is offered at an offset of a document replaces the target of
the message there by the one it is meant to give.  Without a byte order mark
the text it leads to is read as the same catalog with this target exactly if
the target is no plain text of a message with numerus that does not show.
With a byte order mark the replacement starts in front of the element.  In a
text below 2^32 bytes the positions of the edit are ones that editors can
hold. -/
theorem quickFix_yields_iff {text : String} {document : Document}
    (read : Document.read text = .ok document) {offset : Nat} {options : CheckOptions}
    {diagnostics : List Diagnostic} {fix : QuickFix}
    (offered : fix ∈ QuickFix.atOffset document text.toList offset options diagnostics) :
    ∃ index message spans target, document.spans.messageAt? offset = some index ∧
      document.catalog.message? index = some message ∧ document.Records index spans ∧
      fix.Intends message (document.catalog.language.getD "") options target ∧
      (text.toList.head? ≠ some '\uFEFF' →
        (fix.edit.Yields text (document.catalog.withTarget index target) ↔
          target.Shows message.numerus)) ∧
      (text.toList.head? = some '\uFEFF' →
        ∃ before rest start, text.toList = '\uFEFF' :: (before ++ '<' :: rest) ∧
          byteSize before = spans.element.start ∧
          LineIndex.offset text.toList fix.edit.range.start = some start ∧
          start < byteSize ('\uFEFF' :: before)) ∧
      (byteSize text.toList < UInt32.size → fix.edit.range.Fits) := by
  obtain ⟨index, message, spans, target, here, found, recorded, intends, edit⟩ :=
    QuickFix.exists_intended offered
  have asRead : message.AsRead := asRead_of_read read message (Catalog.mem_messages found)
  refine ⟨index, message, spans, target, here, found, recorded, intends, ?_, ?_, ?_⟩
  · intro plain
    rw [edit, yields_replaceTarget_iff read plain recorded found,
      rereadTarget_eq_iff_shows (QuickFix.admits_of_intends asRead intends)]
  · intro marked
    rw [edit]
    exact misplaced_of_byteOrderMark read marked recorded target
  · intro small
    rw [edit]
    exact LineIndex.fits_range small spans.element

/-- A document with an unfinished target, behind characters of several bytes
and on a second line. -/
def unfinishedText : String :=
  "<TS language=\"de\"><context><name>é</name>\r\n<message><source>s</source>" ++
    "<translation type=\"unfinished\">ä</translation></message></context></TS>"

def unfinishedDocument : Document :=
  { catalog :=
      { language := some "de"
        contexts := [
          { name := "é"
            messages := [{ source := "s", target := ⟨.unfinished, .single (.plain "ä")⟩ }] }] }
    spans :=
      { root := ⟨0, 18⟩
        contexts := [
          { element := ⟨18, 138⟩
            name := ⟨27, 42⟩
            messages := [⟨⟨44, 128⟩, ⟨53, 71⟩, some ⟨⟨71, 118⟩, ⟨71, 102⟩⟩⟩] }] } }

theorem read_unfinishedText : Document.read unfinishedText = .ok unfinishedDocument := by
  refine Reader.read_of_toList (by
    unfold unfinishedText
    rw [String.toList_append, String.toList_ofList, String.toList_ofList]) ?_
  decide +kernel

theorem yields_unfinishedText :
    ∃ fix ∈ QuickFix.atOffset unfinishedDocument unfinishedText.toList 80 {} [],
      fix.edit.Yields unfinishedText
        (unfinishedDocument.catalog.withTarget ⟨0, 0⟩ ⟨.finished, .single (.plain "ä")⟩) := by
  have read := read_unfinishedText
  have fixable : (unfinishedDocument.spans.messageAt? 80).bind
      (QuickFix.fixable? unfinishedDocument) =
        some ⟨{ source := "s", target := ⟨.unfinished, .single (.plain "ä")⟩ }, ⟨44, 128⟩,
          ⟨71, 118⟩⟩ := rfl
  have offered :=
    QuickFix.markFinished_mem_atOffset fixable (by decide) unfinishedText.toList {} []
  obtain ⟨index, message, spans, target, here, found, -, intends, yields, -⟩ :=
    quickFix_yields_iff read offered
  cases here
  cases found
  rcases intends with ⟨-, rfl⟩ | ⟨expected, -, -, fixed⟩
  · refine ⟨_, offered, (yields (by decide +kernel)).mpr ?_⟩
    intro numerus
    cases numerus
  · cases fixed

/-- A document with a byte order mark and an unfinished target. -/
def markedText : String :=
  "\uFEFF<TS><context><name>n</name><message><source>s</source>" ++
    "<translation type=\"unfinished\">a</translation></message></context></TS>"

def markedDocument : Document :=
  { catalog :=
      { contexts := [
          { name := "n"
            messages := [{ source := "s", target := ⟨.unfinished, .single (.plain "a")⟩ }] }] }
    spans :=
      { root := ⟨0, 4⟩
        contexts := [
          { element := ⟨4, 120⟩
            name := ⟨13, 27⟩
            messages := [⟨⟨27, 110⟩, ⟨36, 54⟩, some ⟨⟨54, 100⟩, ⟨54, 85⟩⟩⟩] }] } }

theorem read_markedText : Document.read markedText = .ok markedDocument := by
  refine Reader.read_of_toList (by
    unfold markedText
    rw [String.toList_append, String.toList_ofList, String.toList_ofList]) ?_
  decide +kernel

/-- Not every fix does what it says: behind a byte order mark the start of
the old element stays, and the end of the one in front of it is gone. -/
theorem not_yields_markedText :
    ¬ ∀ text document offset options diagnostics fix, Document.read text = .ok document →
      fix ∈ QuickFix.atOffset document text.toList offset options diagnostics →
        ∃ index message target, document.spans.messageAt? offset = some index ∧
          document.catalog.message? index = some message ∧
          fix.Intends message (document.catalog.language.getD "") options target ∧
          fix.edit.Yields text (document.catalog.withTarget index target) := by
  intro does
  have read := read_markedText
  have fixable : (markedDocument.spans.messageAt? 50).bind (QuickFix.fixable? markedDocument) =
      some ⟨{ source := "s", target := ⟨.unfinished, .single (.plain "a")⟩ }, ⟨27, 110⟩,
        ⟨54, 100⟩⟩ := rfl
  have offered := QuickFix.markFinished_mem_atOffset fixable (by decide) markedText.toList {} []
  obtain ⟨index, message, target, -, -, -, edited, again, applied, readAgain, -⟩ :=
    does _ _ _ _ _ _ read offered
  have refused : ((QuickFix.replaceTarget markedText.toList ⟨54, 100⟩
      ⟨.finished, .single (.plain "a")⟩).edited? markedText.toList).bind
        (fun edited => (Document.read (String.ofList edited)).toOption) = none := by
    decide +kernel
  have edit : (QuickFix.replaceTarget markedText.toList ⟨54, 100⟩
      ⟨.finished, .single (.plain "a")⟩).edited? markedText.toList = some edited := applied
  rw [edit, Option.bind_some, readAgain] at refused
  cases refused

end CatalogServer
