import CatalogServer.Editor.Navigation
import CatalogServer.Proofs.Catalog.ShownTags
import CatalogServer.Proofs.Catalog.Touched
import CatalogServer.Proofs.Editor.QuickFixes
import Mathlib.Data.String.Basic

/-!
# Following a key from file to file

The files that hold a key are listed in the order of their paths, each with the
place of its first message with the key, and this does not depend on the order
in which the files are given.  Of these places, the definitions are those in the
other files of a project.

In the file that a key was taken from, and where it occurs once, its place is
that of the message under the cursor.  It is given as a range of the text of the
file, and this range bounds the source element exactly if the text has no byte
order mark, which the places of a document do not count.  In a file below 2^32
bytes the range is one that editors can hold.
-/

namespace CatalogServer

open Text Xml

section Places

variable {text : List Char} {span : ByteSpan} {name : String}

/-- Where a span that is counted from behind the byte order mark of a text
stands in the text itself. -/
def Text.ByteSpan.inText (span : ByteSpan) (text : List Char) : ByteSpan :=
  let mark := byteSize text - byteSize (dropByteOrderMark text)
  ⟨mark + span.start, mark + span.stop⟩

/-- The ends of a range are those of a span of a text. -/
def Text.Range.Bounds (range : Range) (text : List Char) (span : ByteSpan) : Prop :=
  LineIndex.offset text range.start = some span.start ∧
    LineIndex.offset text range.stop = some span.stop

theorem inText_of_head (plain : text.head? ≠ some '\uFEFF') : span.inText text = span := by
  simp [ByteSpan.inText, dropByteOrderMark_of_head plain]

theorem shows_inText (shows : span.Shows (dropByteOrderMark text) name) :
    (span.inText text).Shows text name := by
  obtain ⟨mark, whole⟩ : ∃ mark, text = mark ++ dropByteOrderMark text := by
    unfold dropByteOrderMark
    split
    · next rest => exact ⟨['\uFEFF'], rfl⟩
    · exact ⟨[], rfl⟩
  obtain ⟨before, part, after, parted, start, stop, spelled, closed⟩ := exists_stretch_of_shows shows
  have markSize : byteSize text - byteSize (dropByteOrderMark text) = byteSize mark := by
    have sizes := congrArg byteSize whole
    rw [byteSize_append] at sizes
    omega
  have grouped : text = (mark ++ before) ++ part ++ after := by
    rw [whole, parted]
    simp
  have shown := shows_of_append grouped spelled closed
  rw [List.append_assoc, byteSize_append, byteSize_append, start, stop] at shown
  rw [ByteSpan.inText, markSize]
  exact shown

/-- The range of an element bounds it exactly if the text has no byte order
mark. -/
theorem bounds_range_iff (shows : span.Shows (dropByteOrderMark text) name) :
    (LineIndex.range text span).Bounds text (span.inText text) ↔
      text.head? ≠ some '\uFEFF' := by
  constructor
  · rintro ⟨startAt, -⟩ marked
    obtain ⟨rest, rfl⟩ := List.head?_eq_some_iff.mp marked
    obtain ⟨found, foundAt, early⟩ :=
      LineIndex.exists_offset_position ('\uFEFF' :: rest) span.start
    have late : found = ('\uFEFF').utf8Size + span.start := by
      have same := foundAt.symm.trans startAt
      simp only [ByteSpan.inText, dropByteOrderMark, byteSize, Option.some.injEq] at same
      omega
    have positive := Char.utf8Size_pos '\uFEFF'
    omega
  · intro plain
    rw [dropByteOrderMark_of_head plain] at shows
    rw [inText_of_head plain]
    obtain ⟨before, part, after, rfl, start, stop, ⟨rest, rfl⟩, closed⟩ :=
      exists_stretch_of_shows shows
    refine LineIndex.offset_range start stop ⟨_, rfl⟩ ?_
    rw [List.getLast?_append, closed]
    rfl

end Places

theorem Catalog.find?_eq_of_countP {catalog : Catalog} {entry : MessageEntry}
    (member : entry ∈ catalog.entries)
    (once : catalog.entries.countP (·.key == entry.key) = 1) :
    catalog.find? entry.key = some entry := by
  rw [List.countP_eq_length_filter, List.length_eq_one_iff] at once
  obtain ⟨only, single⟩ := once
  have entryMem : entry ∈ catalog.entries.filter (·.key == entry.key) :=
    List.mem_filter.mpr ⟨member, beq_self_eq_true _⟩
  rw [single, List.mem_singleton] at entryMem
  rw [Catalog.find?, ← List.head?_filter, single, entryMem]
  rfl

theorem Document.shows_source {text : String} {document : Document} {index : MessageIndex}
    {spans : MessageSpans} (read : Document.read text = .ok document)
    (spansAt : document.spans.message? index = some spans) :
    spans.source.Shows (dropByteOrderMark text.toList) "source" := by
  obtain ⟨root, -, outlines, stands⟩ := Reader.stands_of_read read
  simp only [CatalogSpans.message?, Option.bind_eq_bind, Option.bind_eq_some_iff] at spansAt
  obtain ⟨context, contextAt, messageAt⟩ := spansAt
  have points := Reader.pointsInto_of_outlines outlines stands
  exact (points.messages context (List.mem_of_getElem? contextAt) spans
    (List.mem_of_getElem? messageAt)).2

namespace CatalogFile

variable {file : CatalogFile} {position : Position} {key : MessageKey} {location : Location}

/-- A position of a file touches a message first. -/
structure Touches (file : CatalogFile) (position : Position) (document : Document)
    (entry : MessageEntry) : Prop where
  read : Document.read file.text = .ok document
  touched : ∃ offset, LineIndex.offset file.text.toList position = some offset ∧
    document.entryAt? offset = some entry

/-- A file is a catalog with a message that has the key. -/
def Holds (file : CatalogFile) (key : MessageKey) : Prop :=
  ∃ document, Document.read file.text = .ok document ∧
    ∃ entry ∈ document.catalog.entries, entry.key = key

/-- A location is the place of the first message of a file with the key. -/
def Locates (file : CatalogFile) (key : MessageKey) (location : Location) : Prop :=
  Uri.ofFilePath? file.path = some location.uri ∧
    ∃ document entry spans, Document.read file.text = .ok document ∧
      document.catalog.find? key = some entry ∧
      document.spans.message? entry.index = some spans ∧
      location.range = LineIndex.range file.text.toList spans.source

theorem document?_eq_some_iff {document : Document} :
    file.document? = some document ↔ Document.read file.text = .ok document :=
  Except.toOption_eq_some_iff

theorem Touches.mem {document : Document} {entry : MessageEntry}
    (touches : file.Touches position document entry) : entry ∈ document.catalog.entries := by
  obtain ⟨offset, -, found⟩ := touches.touched
  exact List.mem_of_find?_eq_some found

theorem keyAt?_eq_some_iff :
    file.keyAt? position = some key ↔
      ∃ document entry, file.Touches position document entry ∧ entry.key = key := by
  simp only [keyAt?, Option.bind_eq_bind, Option.bind_eq_some_iff, document?_eq_some_iff,
    Option.some.injEq]
  constructor
  · rintro ⟨document, read, offset, offsetAt, index, indexAt, context, contextAt, message, messageAt,
      keyEq⟩
    rw [Document.messageAt?_eq read, Option.map_eq_some_iff] at indexAt
    obtain ⟨entry, found, rfl⟩ := indexAt
    obtain ⟨ownContext, ownMessage⟩ := Catalog.mem_entries_iff.mp (List.mem_of_find?_eq_some found)
    cases contextAt.symm.trans ownContext
    cases messageAt.symm.trans ownMessage
    exact ⟨document, entry, ⟨read, offset, offsetAt, found⟩, keyEq⟩
  · rintro ⟨document, entry, touches, keyEq⟩
    obtain ⟨contextAt, messageAt⟩ := Catalog.mem_entries_iff.mp touches.mem
    obtain ⟨read, offset, offsetAt, found⟩ := touches
    refine ⟨document, read, offset, offsetAt, entry.index, ?_, entry.context, contextAt,
      entry.message, messageAt, keyEq⟩
    rw [Document.messageAt?_eq read, found, Option.map_some]

theorem Touches.holds {document : Document} {entry : MessageEntry}
    (touches : file.Touches position document entry) : file.Holds entry.key :=
  ⟨document, touches.read, entry, touches.mem, rfl⟩

theorem Locates.holds (locates : file.Locates key location) : file.Holds key := by
  obtain ⟨-, document, entry, spans, read, found, -⟩ := locates
  have keyEq : entry.key = key := by simpa using List.find?_some found
  exact ⟨document, read, entry, List.mem_of_find?_eq_some found, keyEq⟩

theorem location?_eq_some_iff : file.location? key = some location ↔ file.Locates key location := by
  simp only [location?, sourceRange?, Document.locate?, Option.bind_eq_bind,
    Option.bind_eq_some_iff, document?_eq_some_iff, Option.some.injEq]
  constructor
  · rintro ⟨range, ⟨document, read, located, ⟨entry, found, spans, spansAt, rfl⟩, rfl⟩, uri, uriEq,
      rfl⟩
    exact ⟨uriEq, document, entry, spans, read, found, spansAt, rfl⟩
  · rintro ⟨uriEq, document, entry, spans, read, found, spansAt, rangeEq⟩
    refine ⟨_, ⟨document, read, _, ⟨entry, found, spans, spansAt, rfl⟩, rfl⟩, location.uri, uriEq, ?_⟩
    rw [← rangeEq]

/-- A file with an absolute path has a location for the keys that it holds. -/
theorem isSome_location?_iff (absolute : Path.isAbsolute file.path = true) :
    (file.location? key).isSome = true ↔ file.Holds key := by
  simp only [Option.isSome_iff_exists, location?_eq_some_iff]
  constructor
  · rintro ⟨location, locates⟩
    exact locates.holds
  · rintro ⟨document, read, entry, member, keyEq⟩
    obtain ⟨first, found⟩ : ∃ first, document.catalog.find? key = some first := by
      apply Option.isSome_iff_exists.mp
      rw [Catalog.find?, List.find?_isSome]
      exact ⟨entry, member, beq_iff_eq.mpr keyEq⟩
    have firstMem := List.mem_of_find?_eq_some found
    obtain ⟨-, spans, spansAt, -⟩ :=
      Document.exists_readsMessage read (Catalog.message?_of_mem_entries firstMem)
    obtain ⟨uri, uriEq⟩ : ∃ uri, Uri.ofFilePath? file.path = some uri := by
      rw [Uri.ofFilePath?, if_pos absolute]
      exact ⟨_, rfl⟩
    exact ⟨⟨uri, LineIndex.range file.text.toList spans.source⟩, uriEq, document, first, spans, read,
      found, spansAt, rfl⟩

end CatalogFile

namespace Navigation

variable {files : List CatalogFile} {key : MessageKey}

/-- Files stand in the order of their paths. -/
def Increasing (files : List CatalogFile) : Prop :=
  files.Pairwise fun first second => first.path < second.path

theorem increasing_mergeSort (distinct : (files.map (·.path)).Nodup) :
    Increasing (files.mergeSort CatalogFile.isAtMost) := by
  have ordered : (files.mergeSort CatalogFile.isAtMost).Pairwise
      fun first second => first.isAtMost second = true := by
    apply List.pairwise_mergeSort
    · intro first second third firstSecond secondThird
      simp only [CatalogFile.isAtMost, decide_eq_true_eq] at firstSecond secondThird ⊢
      exact firstSecond.trans secondThird
    · intro first second
      simp only [CatalogFile.isAtMost, Bool.or_eq_true, decide_eq_true_eq]
      exact le_total first.path second.path
  have sorted : ((files.mergeSort CatalogFile.isAtMost).map (·.path)).Nodup :=
    ((files.mergeSort_perm CatalogFile.isAtMost).map _).nodup_iff.mpr distinct
  refine ((List.pairwise_map.mp sorted).and ordered).imp ?_
  rintro first second ⟨differs, atMost⟩
  exact lt_of_le_of_ne (of_decide_eq_true atMost) differs

/-- The order of the paths leaves one way to list some files. -/
theorem Increasing.eq_of_perm {first second : List CatalogFile} (increasing : Increasing first)
    (others : Increasing second) (same : first.Perm second) : first = second := by
  refine List.Perm.eq_of_pairwise ?_ increasing others same
  intro one other _ _ before behind
  exact absurd behind before.asymm

theorem mergeSort_eq_of_perm {order : List CatalogFile} (same : order.Perm files)
    (distinct : (files.map (·.path)).Nodup) :
    order.mergeSort CatalogFile.isAtMost = files.mergeSort CatalogFile.isAtMost := by
  have distinctToo : (order.map (·.path)).Nodup := (same.map _).nodup_iff.mpr distinct
  refine (increasing_mergeSort distinctToo).eq_of_perm (increasing_mergeSort distinct) ?_
  exact (order.mergeSort_perm _).trans (same.trans (files.mergeSort_perm _).symm)

theorem mergeSort_filter (distinct : (files.map (·.path)).Nodup) (picks : CatalogFile → Bool) :
    (files.filter picks).mergeSort CatalogFile.isAtMost =
      (files.mergeSort CatalogFile.isAtMost).filter picks := by
  have distinctToo : ((files.filter picks).map (·.path)).Nodup :=
    distinct.sublist (List.filter_sublist.map _)
  refine (increasing_mergeSort distinctToo).eq_of_perm
    (List.Pairwise.filter picks (increasing_mergeSort distinct)) ?_
  exact ((files.filter picks).mergeSort_perm _).trans ((files.mergeSort_perm _).filter picks).symm

/-- The files that hold a key, in the order of their paths, with the location of
the key in each of them. -/
structure Lists (key : MessageKey) (files holders : List CatalogFile)
    (locations : List Location) : Prop where
  holds {file : CatalogFile} : file ∈ holders ↔ file ∈ files ∧ file.Holds key
  increasing : Increasing holders
  located : List.Forall₂ (fun location file => file.Locates key location) locations holders

theorem Lists.exists_location {holders : List CatalogFile} {locations : List Location}
    {file : CatalogFile} (listed : Lists key files holders locations) (member : file ∈ holders) :
    ∃ location, (file, location) ∈ holders.zip locations ∧ file.Locates key location := by
  obtain ⟨-, -, located⟩ := listed
  induction located with
  | nil => cases member
  | @cons location other locations others locates _ ih =>
      rcases List.mem_cons.mp member with rfl | member
      · exact ⟨location, List.mem_cons_self, locates⟩
      · obtain ⟨found, foundMem, foundAt⟩ := ih member
        exact ⟨found, List.mem_cons_of_mem _ foundMem, foundAt⟩

theorem Lists.fits {holders : List CatalogFile} {locations : List Location} {file : CatalogFile}
    {location : Location} (listed : Lists key files holders locations)
    (member : (file, location) ∈ holders.zip locations)
    (small : byteSize file.text.toList < UInt32.size) : location.range.Fits := by
  obtain ⟨-, -, -, spans, -, -, -, range⟩ := List.forall₂_zip listed.located.flip member
  rw [range]
  exact LineIndex.fits_range small spans.source

/-- The files in which a key has a location, in the order of their paths. -/
def holders (key : MessageKey) (files : List CatalogFile) : List CatalogFile :=
  (files.mergeSort CatalogFile.isAtMost).filter fun file => (file.location? key).isSome

theorem lists_references (absolute : ∀ file ∈ files, Path.isAbsolute file.path = true)
    (distinct : (files.map (·.path)).Nodup) :
    Lists key files (holders key files) (references key files) := by
  refine ⟨?_, List.Pairwise.filter _ (increasing_mergeSort distinct), ?_⟩
  · intro file
    rw [holders, List.mem_filter, List.mem_mergeSort]
    exact and_congr_right fun member => CatalogFile.isSome_location?_iff (absolute file member)
  · refine forall₂_filterMap_filter ?_ ?_
    · intro file _ picked
      obtain ⟨location, locationAt⟩ := Option.isSome_iff_exists.mp picked
      exact ⟨location, locationAt, CatalogFile.location?_eq_some_iff.mp locationAt⟩
    · intro file _ passed
      simpa using passed

/-- Of the locations of a key, those in some of the files. -/
def locationsIn (picks : CatalogFile → Bool) (holders : List CatalogFile)
    (locations : List Location) : List Location :=
  ((holders.zip locations).filter fun pair => picks pair.1).map Prod.snd

theorem locationsIn_filterMap (picks : CatalogFile → Bool)
    (locate : CatalogFile → Option Location) (files : List CatalogFile) :
    locationsIn picks (files.filter fun file => (locate file).isSome) (files.filterMap locate) =
      (files.filter picks).filterMap locate := by
  induction files with
  | nil => rfl
  | cons file rest ih =>
      cases locationAt : locate file with
      | none =>
          rw [List.filter_cons_of_neg (by simp [locationAt]), List.filterMap_cons_none locationAt, ih]
          cases picked : picks file with
          | true => rw [List.filter_cons_of_pos picked, List.filterMap_cons_none locationAt]
          | false => rw [List.filter_cons_of_neg (by simp [picked])]
      | some location =>
          rw [List.filter_cons_of_pos (by simp [locationAt]), List.filterMap_cons_some locationAt]
          cases picked : picks file with
          | true =>
              rw [List.filter_cons_of_pos picked, List.filterMap_cons_some locationAt, ← ih]
              simp [locationsIn, picked]
          | false =>
              rw [List.filter_cons_of_neg (by simp [picked]), ← ih]
              simp [locationsIn, picked]

/-- The definitions are the references in the other files of the project. -/
theorem definitions_eq (distinct : (files.map (·.path)).Nodup) (project path : String) :
    definitions key project (files.filter (·.path != path)) =
      locationsIn (fun file => file.project == project && file.path != path) (holders key files)
        (references key files) := by
  rw [definitions, List.filter_filter, references, mergeSort_filter distinct, holders, references,
    locationsIn_filterMap]

/-- What is found for the key at a position of a file. -/
structure Consistent (files : List CatalogFile) (file : CatalogFile) (position : Position)
    (key : MessageKey) (holders : List CatalogFile) : Prop where
  listed : Lists key files holders (references key files)
  itself : file ∈ holders
  anyOrder {order : List CatalogFile} : order.Perm files →
    references key order = references key files
  defined : definitions key file.project (files.filter (·.path != file.path)) =
    locationsIn (fun other => other.project == file.project && other.path != file.path) holders
      (references key files)
  leads : ∃ document entry spans location, file.Touches position document entry ∧
    entry.key = key ∧ document.spans.message? entry.index = some spans ∧
    (spans.source.inText file.text.toList).Shows file.text.toList "source" ∧
    (file, location) ∈ holders.zip (references key files) ∧
    (document.catalog.entries.countP (·.key == key) = 1 →
      (location.range.Bounds file.text.toList (spans.source.inText file.text.toList) ↔
        file.text.toList.head? ≠ some '\uFEFF'))
  fits {holder : CatalogFile} {location : Location} :
    (holder, location) ∈ holders.zip (references key files) →
      byteSize holder.text.toList < UInt32.size → location.range.Fits

variable {file : CatalogFile} {position : Position}

/-- In the file it was taken from, a key that occurs once leads back to the
message under the cursor. -/
theorem leads_of_touches {holders : List CatalogFile} {locations : List Location}
    {document : Document} {entry : MessageEntry} (touches : file.Touches position document entry)
    (listed : Lists entry.key files holders locations) (member : file ∈ holders) :
    ∃ spans location, document.spans.message? entry.index = some spans ∧
      (spans.source.inText file.text.toList).Shows file.text.toList "source" ∧
      (file, location) ∈ holders.zip locations ∧
      (document.catalog.entries.countP (·.key == entry.key) = 1 →
        (location.range.Bounds file.text.toList (spans.source.inText file.text.toList) ↔
          file.text.toList.head? ≠ some '\uFEFF')) := by
  obtain ⟨-, spans, spansAt, -⟩ :=
    Document.exists_readsMessage touches.read (Catalog.message?_of_mem_entries touches.mem)
  obtain ⟨location, locationMem, -, again, first, firstSpans, readAgain, found, firstSpansAt,
    rangeEq⟩ := listed.exists_location member
  have shows := Document.shows_source touches.read spansAt
  refine ⟨spans, location, spansAt, shows_inText shows, locationMem, ?_⟩
  intro once
  cases touches.read.symm.trans readAgain
  cases (Catalog.find?_eq_of_countP touches.mem once).symm.trans found
  cases spansAt.symm.trans firstSpansAt
  rw [rangeEq]
  exact bounds_range_iff shows

end Navigation

/-- The key at a position of a file is followed through the files of a
workspace. -/
theorem Navigation.consistent_holders {files : List CatalogFile} {file : CatalogFile}
    {position : Position} {key : MessageKey}
    (absolute : ∀ file ∈ files, Path.isAbsolute file.path = true)
    (distinct : (files.map (·.path)).Nodup) (listed : file ∈ files)
    (under : file.keyAt? position = some key) :
    Consistent files file position key (holders key files) := by
  obtain ⟨document, entry, touches, rfl⟩ := CatalogFile.keyAt?_eq_some_iff.mp under
  have lists : Lists entry.key files (holders entry.key files) (references entry.key files) :=
    lists_references absolute distinct
  have itself : file ∈ holders entry.key files :=
    lists.holds.mpr ⟨listed, document, touches.read, entry, touches.mem, rfl⟩
  refine ⟨lists, itself, ?_, definitions_eq distinct file.project file.path, ?_, lists.fits⟩
  · intro order same
    rw [references, mergeSort_eq_of_perm same distinct, references]
  · obtain ⟨spans, location, leads⟩ := leads_of_touches touches lists itself
    exact ⟨document, entry, spans, location, touches, rfl, leads⟩

/-- Two locales of a project, given in reverse order, and a catalog of another
project that is not finished yet. -/
def localeFiles : List CatalogFile :=
  [⟨"/ws/a_de.ts", "de", "a", unfinishedText⟩, ⟨"/ws/a_da.ts", "de", "a", unfinishedText⟩,
    ⟨"/ws/b.ts", "unknown", "b", "<TS>"⟩]

theorem consistent_localeFiles :
    (∀ file ∈ localeFiles, Path.isAbsolute file.path = true) ∧
      (localeFiles.map (·.path)).Nodup ∧
      ∀ file ∈ localeFiles, file.text = unfinishedText →
        file.keyAt? ⟨1, 5⟩ = some ⟨"é", "s", none⟩ ∧
          Navigation.Consistent localeFiles file ⟨1, 5⟩ ⟨"é", "s", none⟩
            (Navigation.holders ⟨"é", "s", none⟩ localeFiles) := by
  have absolute : ∀ file ∈ localeFiles, Path.isAbsolute file.path = true := by decide +kernel
  have distinct : (localeFiles.map (·.path)).Nodup := by decide +kernel
  refine ⟨absolute, distinct, ?_⟩
  intro file listed textEq
  have read : Document.read file.text = .ok unfinishedDocument := textEq ▸ read_unfinishedText
  have offsetAt : LineIndex.offset file.text.toList ⟨1, 5⟩ = some 49 := by
    rw [textEq]
    decide +kernel
  have under : file.keyAt? ⟨1, 5⟩ = some ⟨"é", "s", none⟩ :=
    CatalogFile.keyAt?_eq_some_iff.mpr
      ⟨unfinishedDocument, _, ⟨read, 49, offsetAt, rfl⟩, rfl⟩
  exact ⟨under, Navigation.consistent_holders absolute distinct listed under⟩

/-- A file behind a byte order mark. -/
def markedFile : CatalogFile :=
  ⟨"/ws/a.ts", "unknown", "a", markedText⟩

/-- Not every key leads back to the message it was taken from: behind a byte
order mark its range begins and ends in front of those of the source element. -/
theorem not_bounds_markedFile :
    ¬ ∀ (file : CatalogFile) (position : Position) (document : Document) (entry : MessageEntry)
        (spans : MessageSpans), Path.isAbsolute file.path = true →
      file.keyAt? position = some entry.key → file.Touches position document entry →
      document.catalog.entries.countP (·.key == entry.key) = 1 →
      document.spans.message? entry.index = some spans →
      ∀ location ∈ Navigation.references entry.key [file],
        location.range.Bounds file.text.toList (spans.source.inText file.text.toList) := by
  intro leads
  obtain ⟨entry, entryAt⟩ : ∃ entry, markedDocument.entryAt? 45 = some entry :=
    Option.isSome_iff_exists.mp (by decide +kernel)
  have touches : markedFile.Touches ⟨0, 43⟩ markedDocument entry :=
    ⟨read_markedText, 45, by decide +kernel, entryAt⟩
  have absolute : ∀ file ∈ [markedFile], Path.isAbsolute file.path = true := by decide +kernel
  have once : markedDocument.catalog.entries.countP (·.key == entry.key) = 1 := by
    cases entryAt
    decide +kernel
  have lists : Navigation.Lists entry.key [markedFile] (Navigation.holders entry.key [markedFile])
      (Navigation.references entry.key [markedFile]) :=
    Navigation.lists_references absolute (List.pairwise_singleton _ _)
  have itself : markedFile ∈ Navigation.holders entry.key [markedFile] :=
    lists.holds.mpr
      ⟨List.mem_singleton_self _, markedDocument, touches.read, entry, touches.mem, rfl⟩
  obtain ⟨spans, location, spansAt, -, locationMem, bounds⟩ :=
    Navigation.leads_of_touches touches lists itself
  refine (bounds once).mp ?_ (by decide +kernel)
  refine leads markedFile ⟨0, 43⟩ markedDocument entry spans (absolute _ List.mem_cons_self) ?_
    touches once spansAt location (List.of_mem_zip locationMem).2
  exact CatalogFile.keyAt?_eq_some_iff.mpr ⟨markedDocument, entry, touches, rfl⟩

end CatalogServer
