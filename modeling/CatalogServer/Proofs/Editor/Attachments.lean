import CatalogServer.Proofs.Catalog.ShownTags
import CatalogServer.Proofs.Check.DocumentOrder
import CatalogServer.Proofs.Check.Siblings
import CatalogServer.Proofs.Editor.FormCounts
import CatalogServer.Proofs.Text.Ranges

/-!
# The diagnostics that a fix answers

An editor sends the diagnostics that it shows with its request for fixes, and a
fix takes those of its kind that lie in the range of its message.  They are
known by their ranges only.  Still these are the ones that were reported for the
message: a diagnostic stands at a place in the element of its own message, and
no such place lies in the element of another one, even where the two touch.
-/

namespace CatalogServer

open Check Text

/-- The kinds of issues that fixes answer. -/
def QuickFix.answeredKinds : List IssueKind :=
  [.unfinished, .pluralForms]

/-- A fix answers the issues of a kind, by its title. -/
def QuickFix.Answers (fix : QuickFix) (language : String) (kind : IssueKind) : Prop :=
  fix.title = "Mark translation as finished" ∧ kind = .unfinished ∨
    (∃ count, fix.title = formsTitle count language) ∧ kind = .pluralForms

namespace Document

variable {text : String} {document : Document} {index other : MessageIndex}
  {spans otherSpans : MessageSpans} {place : ByteSpan}

theorem isBoundary_of_reported {content : List Char} (points : document.PointsInto content)
    (spansAt : document.spans.message? index = some spans) :
    ∀ place ∈ spans.reported,
      IsBoundary content place.start ∧ IsBoundary content place.stop := by
  obtain ⟨context, contextAt, messageAt⟩ := CatalogSpans.message?_eq_some_iff.mp spansAt
  have contextMem := List.mem_of_getElem? contextAt
  have messageMem := List.mem_of_getElem? messageAt
  obtain ⟨element, source⟩ := points.messages context contextMem spans messageMem
  refine MessageSpans.forall_mem_reported (isBoundary_of_shows element)
    (isBoundary_of_shows source) fun target given => ?_
  obtain ⟨targetElement, startTag⟩ :=
    points.targets context contextMem spans messageMem target given
  exact ⟨isBoundary_of_shows targetElement, isBoundary_of_shows startTag⟩

/-- A place of a message lies in the element of the same message and of no
other. -/
theorem contains_reported_iff (read : Document.read text = .ok document)
    (spansAt : document.spans.message? index = some spans)
    (otherAt : document.spans.message? other = some otherSpans)
    (reported : place ∈ otherSpans.reported) :
    spans.element.contains place.start = true ∧ spans.element.contains place.stop = true ↔
      other = index := by
  obtain ⟨context, size, arranged⟩ := exists_arranged_message read otherAt
  obtain ⟨inside, filled, -⟩ := arranged.within_of_mem_reported place reported
  simp only [ByteSpan.contains_iff]
  simp only [ByteSpan.Within] at inside
  constructor
  · rintro ⟨⟨start, -⟩, -, stop⟩
    rcases other.before_trichotomy index with before | same | before
    · have apart := (precedes_of_before read otherAt spansAt before).1
      simp only [ByteSpan.Precedes] at apart
      omega
    · exact same
    · have apart := (precedes_of_before read spansAt otherAt before).1
      simp only [ByteSpan.Precedes] at apart
      omega
  · rintro rfl
    cases spansAt.symm.trans otherAt
    omega

theorem messageAt?_of_interior (read : Document.read text = .ok document)
    (spansAt : document.spans.message? index = some spans) {offset : Nat}
    (behind : spans.element.start < offset) (front : offset < spans.element.stop) :
    document.spans.messageAt? offset = some index := by
  have touched := ByteSpan.contains_iff.mpr ⟨Nat.le_of_lt behind, Nat.le_of_lt front⟩
  refine messageAt?_eq_some read spansAt touched fun earlier other before otherAt => ?_
  have apart := (precedes_of_before read otherAt spansAt before).1
  exact ByteSpan.contains_eq_false_iff.mpr (.inr (Nat.lt_of_le_of_lt apart behind))

end Document

section Reported

variable {file : CatalogFile} {document : Document} {others : List CatalogFile}
  {settings : Settings} {kind : IssueKind} {issue : Issue} {index : MessageIndex}
  {spans : MessageSpans}

theorem exists_spans_of_answered (read : file.read = .ok document) {options : CheckOptions}
    (reported : issue ∈ fileIssues file others options)
    (answered : issue.kind ∈ QuickFix.answeredKinds) :
    ∃ index spans, issue.index = some index ∧ document.spans.message? index = some spans ∧
      issue.span ∈ spans.reported := by
  have other (kind : IssueKind) (unanswered : kind ∉ QuickFix.answeredKinds) :
      issue.kind ≠ kind := by
    rintro rfl
    exact unanswered answered
  have own : issue ∈ documentIssues document options := by
    rcases List.mem_append.mp reported with own | missing
    · rwa [ownIssues, read] at own
    · exact absurd (kind_of_mem_missingInLocale missing) (other _ (by decide))
  have located := index_isSome_of_mem_documentIssues own (other _ (by decide)) (other _ (by decide))
  obtain ⟨index, about⟩ := Option.isSome_iff_exists.mp located
  obtain ⟨spans, spansAt, place⟩ := exists_spans_of_index read own about
  exact ⟨index, spans, about, spansAt, place⟩

theorem code_ofIssue_iff {text : List Char} :
    (Diagnostic.ofIssue text settings issue).code = some (.name kind.code) ↔ issue.kind = kind := by
  simp only [Diagnostic.ofIssue, Option.some.injEq, DiagnosticCode.name.injEq]
  exact IssueKind.code_injective.eq_iff

/-- The range of a message holds a diagnostic that a fix may answer just if it is
about the message. -/
theorem contains_diagnostic_iff (read : file.read = .ok document)
    (plain : file.text.toList.head? ≠ some '\uFEFF')
    (reported : issue ∈ fileIssues file others settings.checkOptions)
    (answered : issue.kind ∈ QuickFix.answeredKinds)
    (spansAt : document.spans.message? index = some spans) {diagnostic : Diagnostic}
    (shown : diagnostic = Diagnostic.ofIssue file.text.toList settings issue) :
    (LineIndex.range file.text.toList spans.element).contains diagnostic.range.start = true ∧
        (LineIndex.range file.text.toList spans.element).contains diagnostic.range.stop = true ↔
      issue.index = some index := by
  have points := Document.pointsInto_of_read read plain
  obtain ⟨other, otherSpans, about, otherAt, place⟩ :=
    exists_spans_of_answered read reported answered
  obtain ⟨start, stop⟩ := document.isBoundary_of_reported points spansAt _ List.mem_cons_self
  obtain ⟨placeStart, placeStop⟩ := document.isBoundary_of_reported points otherAt _ place
  have ranges : diagnostic.range = LineIndex.range file.text.toList issue.span := by rw [shown]; rfl
  rw [ranges, LineIndex.range.eq_1 _ issue.span, LineIndex.contains_range start stop placeStart,
    LineIndex.contains_range start stop placeStop,
    document.contains_reported_iff read spansAt otherAt place, about, Option.some.injEq]

/-- Of the diagnostics of a file, those of a kind in the range of a message are
those that were reported for it. -/
theorem settledBy_ofFile (others : List CatalogFile) (read : file.read = .ok document)
    (plain : file.text.toList.head? ≠ some '\uFEFF') (enabled : settings.isEnabled kind = true)
    (answered : kind ∈ QuickFix.answeredKinds)
    (spansAt : document.spans.message? index = some spans) :
    QuickFix.settledBy kind (LineIndex.range file.text.toList spans.element)
        (Diagnostic.ofFile file others settings) =
      ((fileIssues file others settings.checkOptions).filter fun issue =>
        issue.kind == kind && issue.index == some index).map
          (Diagnostic.ofIssue file.text.toList settings) := by
  rw [QuickFix.settledBy, Diagnostic.ofFile, List.filter_map, List.filter_filter]
  refine congrArg _ (List.filter_congr fun issue reported => ?_)
  rw [Bool.eq_iff_iff]
  simp only [Function.comp_apply, Bool.and_eq_true, beq_iff_eq, code_ofIssue_iff, and_assoc]
  constructor
  · rintro ⟨rfl, start, stop, -⟩
    exact ⟨rfl, (contains_diagnostic_iff read plain reported answered spansAt rfl).mp ⟨start, stop⟩⟩
  · rintro ⟨rfl, about⟩
    obtain ⟨start, stop⟩ :=
      (contains_diagnostic_iff read plain reported answered spansAt rfl).mpr about
    exact ⟨rfl, start, stop, enabled⟩

end Reported

theorem QuickFix.exists_settledBy {document : Document} {text : List Char} {offset : Nat}
    {options : CheckOptions} {diagnostics : List Diagnostic} {fix : QuickFix}
    (offered : fix ∈ atOffset document text offset options diagnostics) :
    ∃ index spans kind, document.spans.messageAt? offset = some index ∧
      document.spans.message? index = some spans ∧
      fix.Answers (document.catalog.language.getD "") kind ∧
      fix.diagnostics = settledBy kind (LineIndex.range text spans.element) diagnostics := by
  unfold atOffset at offered
  split at offered
  · cases offered
  · next fixable found =>
      obtain ⟨index, here, fixable?⟩ := Option.bind_eq_some_iff.mp found
      simp only [QuickFix.fixable?, Option.bind_eq_bind, Option.bind_eq_some_iff,
        Option.some.injEq] at fixable?
      obtain ⟨message, -, spans, spansAt, target, -, rfl⟩ := fixable?
      rcases List.mem_append.mp offered with offered | offered
      · simp only [markFinished?, Option.mem_toList] at offered
        split at offered
        · cases offered
          exact ⟨index, spans, .unfinished, here, spansAt, .inl ⟨rfl, rfl⟩, rfl⟩
        · cases offered
      · simp only [useForms?, Option.mem_toList, Option.bind_eq_bind, Option.bind_eq_some_iff,
          Option.some.injEq] at offered
        obtain ⟨expected, -, forms, -, rfl⟩ := offered
        exact ⟨index, spans, .pluralForms, here, spansAt, .inr ⟨⟨expected, rfl⟩, rfl⟩, rfl⟩

/-- A fix brings the diagnostics of a kind that were made of the issues about a
message, and none that was made of another issue. -/
structure QuickFix.AttachesOwn (fix : QuickFix) (kind : IssueKind) (index : MessageIndex)
    (issues : List Issue) (diagnose : Issue → Diagnostic) : Prop where
  own : fix.diagnostics =
    (issues.filter fun issue => issue.kind == kind && issue.index == some index).map diagnose
  noOther : ∀ issue ∈ issues, issue.index ≠ some index → diagnose issue ∉ fix.diagnostics
  fits : ∀ diagnostic ∈ fix.diagnostics,
    diagnostic.range.start.Fits ∧ diagnostic.range.stop.Fits

/-- In a file without a byte order mark and below 2^32 bytes, a fix that is
offered in the interior of a message brings exactly the diagnostics of the file
that are of its kind and about the message. -/
theorem QuickFix.attachesOwn_of_offered {file : CatalogFile} {document : Document}
    (read : file.read = .ok document) (plain : file.text.toList.head? ≠ some '\uFEFF')
    (small : byteSize file.text.toList < UInt32.size) {settings : Settings}
    (unfinished : settings.isEnabled .unfinished = true)
    (pluralForms : settings.isEnabled .pluralForms = true) (others : List CatalogFile)
    {index : MessageIndex} {spans : MessageSpans}
    (spansAt : document.spans.message? index = some spans) {offset : Nat}
    (behind : spans.element.start < offset) (front : offset < spans.element.stop) {fix : QuickFix}
    (offered : fix ∈ atOffset document file.text.toList offset settings.checkOptions
      (Diagnostic.ofFile file others settings)) :
    ∃ kind, fix.Answers (document.catalog.language.getD "") kind ∧
      fix.AttachesOwn kind index (fileIssues file others settings.checkOptions)
        (Diagnostic.ofIssue file.text.toList settings) := by
  obtain ⟨here, places, kind, hereAt, placesAt, answers, diagnostics⟩ := exists_settledBy offered
  cases hereAt.symm.trans (document.messageAt?_of_interior read spansAt behind front)
  cases placesAt.symm.trans spansAt
  obtain ⟨enabled, answered⟩ :
      settings.isEnabled kind = true ∧ kind ∈ QuickFix.answeredKinds := by
    rcases answers with ⟨-, rfl⟩ | ⟨-, rfl⟩
    · exact ⟨unfinished, by decide⟩
    · exact ⟨pluralForms, by decide⟩
  have own := diagnostics.trans (settledBy_ofFile others read plain enabled answered spansAt)
  refine ⟨kind, answers, own, ?_, ?_⟩
  · intro issue reported elsewhere attached
    rw [diagnostics] at attached
    obtain ⟨-, matched⟩ := List.mem_filter.mp attached
    simp only [Bool.and_eq_true, beq_iff_eq, code_ofIssue_iff] at matched
    obtain ⟨⟨rfl, start⟩, stop⟩ := matched
    exact elsewhere
      ((contains_diagnostic_iff read plain reported answered spansAt rfl).mp ⟨start, stop⟩)
  · intro diagnostic attached
    rw [own] at attached
    obtain ⟨issue, filtered, rfl⟩ := List.mem_map.mp attached
    obtain ⟨reported, matched⟩ := List.mem_filter.mp filtered
    obtain ⟨rfl, -⟩ := by simpa only [Bool.and_eq_true, beq_iff_eq] using matched
    obtain ⟨_, _, -, placesAt, place⟩ := exists_spans_of_answered read reported answered
    obtain ⟨start, stop⟩ :=
      document.isBoundary_of_reported (Document.pointsInto_of_read read plain) placesAt _ place
    exact ⟨LineIndex.fits_of_isBoundary small start, LineIndex.fits_of_isBoundary small stop⟩

/-- A file with two unfinished messages right behind each other, in one line and
both with one form of two. -/
def pairFile : CatalogFile :=
  ⟨"/ws/a_da.ts", "da", "a", "<TS language=\"da\"><context><name>é</name>" ++
    "<message numerus=\"yes\"><source>s</source>" ++
    "<translation type=\"unfinished\"><numerusform>a</numerusform></translation></message>" ++
    "<message numerus=\"yes\"><source>t</source>" ++
    "<translation type=\"unfinished\"><numerusform>b</numerusform></translation></message>" ++
    "</context></TS>"⟩

def pairDocument : Document :=
  { catalog :=
      { language := some "da"
        contexts := [
          { name := "é"
            messages := [
              { source := "s", numerus := true
                target := ⟨.unfinished, .plural [.plain "a"]⟩ },
              { source := "t", numerus := true
                target := ⟨.unfinished, .plural [.plain "b"]⟩ }] }] }
    spans :=
      { root := ⟨0, 18⟩
        contexts := [
          { element := ⟨18, 300⟩
            name := ⟨27, 42⟩
            messages := [⟨⟨42, 166⟩, ⟨65, 83⟩, some ⟨⟨83, 156⟩, ⟨83, 114⟩⟩⟩,
              ⟨⟨166, 290⟩, ⟨189, 207⟩, some ⟨⟨207, 280⟩, ⟨207, 238⟩⟩⟩] }] } }

theorem text_pairFile :
    pairFile.text.toList.head? ≠ some '\uFEFF' ∧ byteSize pairFile.text.toList < UInt32.size ∧
      pairFile.read = .ok pairDocument := by
  rw [← Except.toOption_eq_some_iff]
  simp only [CatalogFile.read, Document.read, Xml.events, pairFile, String.toList_append]
  -- evaluation takes long to get the characters out of a text
  repeat rw [String.toList_ofList]
  decide +kernel

theorem attachesOwn_pairFile :
    ∃ fix ∈ QuickFix.atOffset pairDocument pairFile.text.toList 167 (Settings.checkOptions {})
        (Diagnostic.ofFile pairFile [] {}),
      fix.AttachesOwn .unfinished ⟨0, 1⟩ (fileIssues pairFile [] (Settings.checkOptions {}))
        (Diagnostic.ofIssue pairFile.text.toList {}) ∧
      fix.diagnostics.map (·.message) = ["Translation of 't' is unfinished"] := by
  obtain ⟨plain, small, read⟩ := text_pairFile
  have unfinished : Settings.isEnabled {} .unfinished = true := rfl
  have pluralForms : Settings.isEnabled {} .pluralForms = true := rfl
  have spansAt : pairDocument.spans.message? ⟨0, 1⟩ =
      some ⟨⟨166, 290⟩, ⟨189, 207⟩, some ⟨⟨207, 280⟩, ⟨207, 238⟩⟩⟩ := rfl
  have fixable : (pairDocument.spans.messageAt? 167).bind (QuickFix.fixable? pairDocument) =
      some ⟨{ source := "t", numerus := true, target := ⟨.unfinished, .plural [.plain "b"]⟩ },
        ⟨166, 290⟩, ⟨207, 280⟩⟩ := rfl
  have offered := QuickFix.markFinished_mem_atOffset fixable (by decide) pairFile.text.toList
    (Settings.checkOptions {}) (Diagnostic.ofFile pairFile [] {})
  obtain ⟨kind, answers, attaches⟩ :=
    QuickFix.attachesOwn_of_offered read plain small unfinished pluralForms []
      spansAt (by decide) (by decide) offered
  rcases answers with ⟨-, rfl⟩ | ⟨⟨count, titled⟩, -⟩
  · refine ⟨_, offered, attaches, ?_⟩
    rw [attaches.own, List.map_map, fileIssues, ownIssues, missingInLocale, CatalogFile.document?,
      read]
    decide +kernel
  · exact absurd titled (finishing_ne_formsTitle count _)

end CatalogServer
