import CatalogServer.Check.Project
import CatalogServer.Proofs.Catalog.Entries
import CatalogServer.Proofs.Text.Ascending

/-!
# What the other catalogs of a project lack

A message in use is reported if another catalog of its project lacks it, once
and with the languages of the catalogs that do.  Which other files there are
decides the report; their order, how often one of them is listed and whether the
file itself is among them do not.
-/

namespace CatalogServer.Check

open Text

/-- Another catalog of the project of a file lacks a message, and must have
it. -/
structure Lacks (options : CheckOptions) (file : CatalogFile) (key : MessageKey)
    (other : CatalogFile) : Prop where
  different : other ≠ file
  project : other.project = file.project
  required : options.requires other.language = true
  absent : ∃ document, other.read = .ok document ∧
    ∀ entry ∈ document.catalog.entries, entry.key ≠ key

/-- An issue reports a message of a file with the languages of the catalogs
among some files that lack it. -/
structure Reports (options : CheckOptions) (file : CatalogFile) (files : List CatalogFile)
    (document : Document) (issue : Issue) (entry : MessageEntry) : Prop where
  kind : issue.kind = .missingInLocale
  index : issue.index = some entry.index
  span : (document.spans.message? entry.index).map (·.source) = some issue.span
  message : issue.message = "'" ++ entry.message.source ++ "' is missing in: " ++
    ", ".intercalate issue.languages
  increasing : issue.languages.Pairwise fun first second => first < second
  languages {language : String} : language ∈ issue.languages ↔
    ∃ other ∈ files, Lacks options file entry.key other ∧ other.language = language

variable {options : CheckOptions} {file : CatalogFile} {files : List CatalogFile}

theorem mem_siblings_iff {project : String} {sibling : Sibling} :
    sibling ∈ siblings project options files ↔
      ∃ other ∈ files, other.project = project ∧ options.requires other.language = true ∧
        ∃ document, other.read = .ok document ∧
          sibling = ⟨other.language, document.catalog.entries.map (·.key)⟩ := by
  simp only [siblings, List.mem_filterMap]
  refine exists_congr fun other => and_congr_right fun _ => ?_
  rw [Option.ite_none_right_eq_some, Bool.and_eq_true, beq_iff_eq, and_assoc]
  refine and_congr_right fun _ => and_congr_right fun _ => ?_
  rw [CatalogFile.document?, Option.map_eq_some_iff]
  refine exists_congr fun document => and_congr Except.toOption_eq_some_iff ?_
  exact eq_comm

/-- A file does not lack its own messages, so the languages are those of other
files. -/
theorem mem_lackingLanguages_iff {document : Document} (read : file.read = .ok document)
    {entry : MessageEntry} (member : entry ∈ document.catalog.entries) {language : String} :
    language ∈ lackingLanguages (siblings file.project options files) entry.key ↔
      ∃ other ∈ files, Lacks options file entry.key other ∧ other.language = language := by
  simp only [lackingLanguages, mem_ascending, List.mem_map, List.mem_filter, mem_siblings_iff,
    Bool.not_eq_true', List.contains_eq_mem, decide_eq_false_iff_not]
  constructor
  · rintro ⟨sibling, ⟨⟨other, listed, project, required, otherDocument, otherRead, rfl⟩, lacks⟩, rfl⟩
    have absent : ∀ held ∈ otherDocument.catalog.entries, held.key ≠ entry.key :=
      fun held heldMem same => lacks (List.mem_map.mpr ⟨held, heldMem, same⟩)
    refine ⟨other, listed, ⟨?_, project, required, otherDocument, otherRead, absent⟩, rfl⟩
    rintro rfl
    cases read.symm.trans otherRead
    exact absent entry member rfl
  · rintro ⟨other, listed, lacks, rfl⟩
    obtain ⟨otherDocument, otherRead, absent⟩ := lacks.absent
    refine ⟨_, ⟨⟨other, listed, lacks.project, lacks.required, otherDocument, otherRead, rfl⟩, ?_⟩,
      rfl⟩
    rw [List.mem_map]
    rintro ⟨held, heldMem, same⟩
    exact absent held heldMem same

theorem pairwise_lackingLanguages (siblings : List Sibling) (key : MessageKey) :
    (lackingLanguages siblings key).Pairwise fun first second => first < second :=
  pairwise_ascending _

/-- Only the other files of a project decide what is lacking. -/
theorem lackingLanguages_congr {document : Document} (read : file.read = .ok document)
    {entry : MessageEntry} (member : entry ∈ document.catalog.entries)
    {others : List CatalogFile}
    (same : ∀ other, other ≠ file → (other ∈ others ↔ other ∈ files)) :
    lackingLanguages (siblings file.project options others) entry.key =
      lackingLanguages (siblings file.project options files) entry.key := by
  refine (pairwise_lackingLanguages _ _).eq_of_mem_iff (pairwise_lackingLanguages _ _)
    fun language => ?_
  rw [mem_lackingLanguages_iff read member, mem_lackingLanguages_iff read member]
  refine exists_congr fun other => ?_
  by_cases lacks : Lacks options file entry.key other
  · rw [same other lacks.different]
  · simp only [lacks, false_and, and_false]

theorem missingInLocale_eq {document : Document} (read : file.read = .ok document) :
    missingInLocale file files options =
      document.catalog.entries.filterMap
        (missingIssue? document.spans (siblings file.project options files)) := by
  rw [missingInLocale, CatalogFile.document?, read]
  rfl

theorem kind_of_mem_missingInLocale {issue : Issue}
    (member : issue ∈ missingInLocale file files options) : issue.kind = .missingInLocale := by
  unfold missingInLocale at member
  split at member
  · cases member
  · obtain ⟨entry, -, given⟩ := List.mem_filterMap.mp member
    unfold missingIssue? at given
    split at given
    · split at given <;> cases given
      rfl
    · cases given

/-- A message is in use and some catalog lacks it. -/
def isLacked (options : CheckOptions) (file : CatalogFile) (files : List CatalogFile)
    (entry : MessageEntry) : Bool :=
  entry.message.target.status.isActive &&
    !(lackingLanguages (siblings file.project options files) entry.key).isEmpty

theorem isLacked_iff {document : Document} (read : file.read = .ok document)
    {entry : MessageEntry} (member : entry ∈ document.catalog.entries) :
    isLacked options file files entry = true ↔
      entry.message.target.status.isActive = true ∧
        ∃ other ∈ files, Lacks options file entry.key other := by
  rw [isLacked, Bool.and_eq_true_iff, Bool.not_eq_true', List.isEmpty_eq_false_iff_exists_mem]
  refine and_congr_right fun _ => ?_
  simp only [mem_lackingLanguages_iff read member]
  constructor
  · rintro ⟨-, other, listed, lacks, -⟩
    exact ⟨other, listed, lacks⟩
  · rintro ⟨other, listed, lacks⟩
    exact ⟨other.language, other, listed, lacks, rfl⟩

theorem exists_missingIssue? {document : Document} (read : file.read = .ok document)
    {entry : MessageEntry} (member : entry ∈ document.catalog.entries)
    (lacked : isLacked options file files entry = true) :
    ∃ issue, missingIssue? document.spans (siblings file.project options files) entry =
        some issue ∧ Reports options file files document issue entry := by
  obtain ⟨-, spans, spansAt, -⟩ :=
    Document.exists_readsMessage read (Catalog.message?_of_mem_entries member)
  obtain ⟨active, lacking⟩ := Bool.and_eq_true_iff.mp lacked
  have increasing := pairwise_lackingLanguages (siblings file.project options files) entry.key
  have languages (language : String) :
      language ∈ lackingLanguages (siblings file.project options files) entry.key ↔
        ∃ other ∈ files, Lacks options file entry.key other ∧ other.language = language :=
    mem_lackingLanguages_iff read member
  rw [missingIssue?, if_pos active]
  generalize lackingLanguages (siblings file.project options files) entry.key = lackedBy at *
  obtain ⟨first, rest, rfl⟩ := List.exists_cons_of_ne_nil (by simpa using lacking)
  rw [spansAt]
  refine ⟨_, rfl, rfl, rfl, ?_, rfl, increasing, languages _⟩
  rw [spansAt]
  rfl

theorem missingIssue?_eq_none {spans : CatalogSpans} {entry : MessageEntry}
    (passed : isLacked options file files entry = false) :
    missingIssue? spans (siblings file.project options files) entry = none := by
  rw [missingIssue?]
  split
  · next active =>
      have complete : lackingLanguages (siblings file.project options files) entry.key = [] := by
        simpa [isLacked, active] using passed
      rw [complete]
  · rfl

theorem missingInLocale_congr {document : Document} (read : file.read = .ok document)
    {others : List CatalogFile}
    (same : ∀ other, other ≠ file → (other ∈ others ↔ other ∈ files)) :
    missingInLocale file others options = missingInLocale file files options := by
  rw [missingInLocale_eq read, missingInLocale_eq read]
  refine List.filterMap_congr fun entry member => ?_
  simp only [missingIssue?, lackingLanguages_congr read member same]

/-- Exactly the messages in use that another catalog of the project lacks are
reported, each once and in document order, with the languages of the catalogs
that lack it.  The report depends on which other files there are, but not on
their order, nor on how often one is listed or whether the file itself is. -/
theorem missingInLocale_exact {document : Document} (read : file.read = .ok document)
    (files : List CatalogFile) (options : CheckOptions) :
    (∃ reported : List MessageEntry,
      List.Forall₂ (Reports options file files document) (missingInLocale file files options)
        reported ∧
      (reported.Pairwise fun first second => first.index.Before second.index) ∧
      ∀ entry, entry ∈ reported ↔ entry ∈ document.catalog.entries ∧
        entry.message.target.status.isActive = true ∧
          ∃ other ∈ files, Lacks options file entry.key other) ∧
      ∀ others : List CatalogFile,
        (∀ other, other ≠ file → (other ∈ others ↔ other ∈ files)) →
          missingInLocale file others options = missingInLocale file files options := by
  constructor
  · refine ⟨document.catalog.entries.filter (isLacked options file files), ?_, ?_, fun entry => ?_⟩
    · rw [missingInLocale_eq read]
      exact forall₂_filterMap_filter (fun _ => exists_missingIssue? read)
        fun _ _ => missingIssue?_eq_none
    · exact (Catalog.pairwise_entries document.catalog).filter _
    · rw [List.mem_filter]
      exact and_congr_right fun member => isLacked_iff read member
  · exact fun _ => missingInLocale_congr read

/-- A file with a message that another catalog has, one that it lacks and one
that is no longer in use. -/
def danishFile : CatalogFile :=
  ⟨"/ws/a_da.ts", "da", "a", "<TS><context><name>n</name><message><source>s</source></message>" ++
    "<message><source>t</source></message><message><source>u</source>" ++
    "<translation type=\"obsolete\"/></message></context></TS>"⟩

def swedishFile : CatalogFile :=
  ⟨"/ws/a_sv.ts", "sv", "a", "<TS><context><name>n</name><message><source>s</source></message>" ++
    "</context></TS>"⟩

/-- A file whose text is no catalog. -/
def brokenFile : CatalogFile :=
  ⟨"/ws/a_nl.ts", "nl", "a", "<TS><context><name>n</name>"⟩

def danishDocument : Document :=
  { catalog :=
      { contexts := [
          { name := "n"
            messages := [{ source := "s" }, { source := "t" },
              { source := "u", target := ⟨.obsolete, .single (.plain "")⟩ }] }] }
    spans :=
      { root := ⟨0, 4⟩
        contexts := [
          { element := ⟨4, 178⟩
            name := ⟨13, 27⟩
            messages := [⟨⟨27, 64⟩, ⟨36, 54⟩, none⟩, ⟨⟨64, 101⟩, ⟨73, 91⟩, none⟩,
              ⟨⟨101, 168⟩, ⟨110, 128⟩, some ⟨⟨128, 158⟩, ⟨128, 158⟩⟩⟩] }] } }

theorem missingInLocale_danishFile :
    (missingInLocale danishFile [swedishFile, brokenFile, swedishFile] {}).map
        (fun issue => (issue.index, issue.languages)) = [(some ⟨0, 1⟩, ["sv"])] ∧
      missingInLocale danishFile [danishFile, brokenFile, swedishFile] {} =
        missingInLocale danishFile [swedishFile, brokenFile, swedishFile] {} := by
  have read : danishFile.read = .ok danishDocument :=
    Except.toOption_eq_some_iff.mp (by decide +kernel)
  obtain ⟨-, independent⟩ := missingInLocale_exact read [swedishFile, brokenFile, swedishFile] {}
  refine ⟨by decide +kernel, independent _ fun other different => ?_⟩
  simp only [List.mem_cons, different, List.not_mem_nil, or_false, false_or]
  tauto

end CatalogServer.Check
