import CatalogServer.Proofs.Session.Following
import CatalogServer.Session.Server
import Mathlib.Tactic.ByContra

/-!
# Documents that count

While a document is open its text counts: a file tracked at its path has
this text, and a text that is that of a catalog file is tracked.  What a
session follows can break this, and every way in which it does is named
here.
-/

namespace CatalogServer

namespace Session

variable {session : Session} {around : Surroundings} {document : OpenDocument} {path : String}

/-- At its path a document is tracked with its text, if anything is; and
something is, when the text is that of a catalog file. -/
def Shows (session : Session) (document : OpenDocument) (path : String) : Prop :=
  (∀ file ∈ session.tracked, file.path = path → file.text = document.text) ∧
    (session.isCatalog path document.text = true → ∃ file ∈ session.tracked, file.path = path)

/-- Every open document whose address has a path is shown there. -/
def Authoritative (session : Session) : Prop :=
  ∀ document ∈ session.opened, ∀ path,
    document.uri.filePath? = some path → session.Shows document path

theorem shows_iff_hasText :
    session.Shows document path ↔
      (∀ text, HasText session.tracked path text → text = document.text) ∧
        (session.isCatalog path document.text = true →
          ∃ text, HasText session.tracked path text) := by
  rw [exists_hasText]
  refine and_congr_left fun _ => ?_
  constructor
  · rintro same text ⟨file, fileMem, filePath, rfl⟩
    exact same file fileMem filePath
  · intro same file fileMem filePath
    exact same file.text ⟨file, fileMem, filePath, rfl⟩

/-- A replacement at the path of a document contradicts it. -/
def Contradicts (session : Session) (document : OpenDocument) (path : String) :
    Replacement → Prop
  | .removed => session.isCatalog path document.text = true
  | .text text => text ≠ document.text

/-- The last replacement at the path of an open document contradicts it. -/
def ContradictedBy (session : Session) (replacements : List (String × Replacement)) : Prop :=
  ∃ document ∈ session.opened, ∃ path replacement,
    document.uri.filePath? = some path ∧
      lastAt? replacements path = some replacement ∧
        session.Contradicts document path replacement

theorem shows_replaceAll_of_lastAt? {replacements : List (String × Replacement)}
    {replacement : Replacement} (last : lastAt? replacements path = some replacement) :
    (session.replaceAll replacements).Shows document path ↔
      ¬session.Contradicts document path replacement := by
  have sameCatalog := isCatalog_congr (session.replaceAll_store replacements) path document.text
  rw [shows_iff_hasText, sameCatalog]
  simp only [hasText_replaceAll, last]
  cases replacement with
  | removed => simp [Contradicts]
  | text text => simp [Contradicts]

theorem shows_replaceAll_of_untouched {replacements : List (String × Replacement)}
    (untouched : lastAt? replacements path = none) :
    (session.replaceAll replacements).Shows document path ↔ session.Shows document path := by
  have sameCatalog := isCatalog_congr (session.replaceAll_store replacements) path document.text
  rw [shows_iff_hasText, shows_iff_hasText, sameCatalog]
  simp only [hasText_replaceAll, untouched]

theorem authoritative_replaceAll_iff {replacements : List (String × Replacement)} :
    (session.replaceAll replacements).Authoritative ↔
      ¬session.ContradictedBy replacements ∧
        ∀ document ∈ session.opened, ∀ path, document.uri.filePath? = some path →
          lastAt? replacements path = none → session.Shows document path := by
  unfold Authoritative
  rw [replaceAll_opened]
  constructor
  · intro authoritative
    constructor
    · rintro ⟨document, documentMem, path, replacement, place, last, contradicts⟩
      exact (shows_replaceAll_of_lastAt? last).mp (authoritative document documentMem path place)
        contradicts
    · intro document documentMem path place untouched
      exact (shows_replaceAll_of_untouched untouched).mp
        (authoritative document documentMem path place)
  · rintro ⟨uncontradicted, shown⟩ document documentMem path place
    cases last : lastAt? replacements path with
    | none =>
        exact (shows_replaceAll_of_untouched last).mpr (shown document documentMem path place last)
    | some replacement =>
        rw [shows_replaceAll_of_lastAt? last]
        intro contradicts
        exact uncontradicted ⟨document, documentMem, path, replacement, place, last, contradicts⟩

theorem Authoritative.replaceAll_iff (authoritative : session.Authoritative)
    (replacements : List (String × Replacement)) :
    (session.replaceAll replacements).Authoritative ↔ ¬session.ContradictedBy replacements := by
  rw [authoritative_replaceAll_iff]
  constructor
  · exact And.left
  · intro uncontradicted
    exact ⟨uncontradicted, fun document documentMem path place _ =>
      authoritative document documentMem path place⟩

theorem authoritative_congr {first second : Session} (sameStore : first.store = second.store)
    (sameTracked : first.tracked = second.tracked) (sameOpened : first.opened = second.opened) :
    first.Authoritative ↔ second.Authoritative := by
  simp only [Authoritative, Shows, isCatalog_congr sameStore, sameTracked, sameOpened]

/-- The first indexing overlooks an open document: the disk holds another
text at its path. -/
def FirstIndexingOverlooks (around : Surroundings) (session : Session) : Prop :=
  ∃ document ∈ session.opened, ∃ path text, document.uri.filePath? = some path ∧
    HasText (around.catalogFiles session.settings) path text ∧ text ≠ document.text

theorem authoritative_ready_iff (authoritative : session.Authoritative) :
    (session.ready around).session.Authoritative ↔
      ¬session.FirstIndexingOverlooks around := by
  rw [ready_session]
  constructor
  · rintro after ⟨document, documentMem, path, text, place, found, different⟩
    have shown := shows_iff_hasText.mp (after document documentMem path place)
    exact different (shown.1 text (hasText_merge.mpr (.inl found)))
  · intro respected document documentMem path place
    have shown := shows_iff_hasText.mp (authoritative document documentMem path place)
    refine shows_iff_hasText.mpr ⟨?_, ?_⟩
    · intro text tracked
      rcases hasText_merge.mp tracked with found | ⟨_, held⟩
      · by_contra different
        exact respected ⟨document, documentMem, path, text, place, found, different⟩
      · exact shown.1 text held
    · intro catalog
      exact exists_hasText_merge.mpr (.inr (shown.2 catalog))

/-- The ways in which indexing again overlooks an open document. -/
inductive ReindexingOverlooks (around : Surroundings) (session : Session) : Prop
  /-- Its text is not that of a catalog file, and the disk holds one at its
  path. -/
  | disk (document : OpenDocument) (path text : String)
      (isOpen : document ∈ session.opened) (place : document.uri.filePath? = some path)
      (unrestored : ∀ other ∈ session.opened, other.uri.filePath? = some path →
        session.isCatalog path other.text = false)
      (found : HasText (around.catalogFiles session.settings) path text)
      (different : text ≠ document.text)
  /-- Another document with the same path is restored with another text. -/
  | rival (document other : OpenDocument) (path : String)
      (isOpen : document ∈ session.opened) (place : document.uri.filePath? = some path)
      (otherOpen : other ∈ session.opened) (otherPlace : other.uri.filePath? = some path)
      (restored : session.isCatalog path other.text = true)
      (different : other.text ≠ document.text)

theorem lastAt?_restorations_eq_none :
    lastAt? (session.opened.filterMap session.restoration?) path = none ↔
      ∀ other ∈ session.opened, other.uri.filePath? = some path →
        session.isCatalog path other.text = false := by
  rw [lastAt?_eq_none]
  constructor
  · intro untouched other otherMem otherPlace
    rw [Bool.eq_false_iff]
    intro catalog
    exact untouched (path, .text other.text)
      (mem_restorations.mpr ⟨other, otherMem, otherPlace, catalog, rfl⟩) rfl
  · rintro unrestored ⟨_, replacement⟩ replaced rfl
    obtain ⟨other, otherMem, otherPlace, catalog, _⟩ := mem_restorations.mp replaced
    rw [unrestored other otherMem otherPlace] at catalog
    cases catalog

/-- Where no restoration contradicts an open document, all documents that are
restored at a path have the text of any open document there. -/
theorem text_eq_of_not_contradictedBy
    (uncontradicted : ¬session.ContradictedBy (session.opened.filterMap session.restoration?))
    {other : OpenDocument} (otherOpen : other ∈ session.opened)
    (otherPlace : other.uri.filePath? = some path)
    (catalog : session.isCatalog path other.text = true) (isOpen : document ∈ session.opened)
    (place : document.uri.filePath? = some path) : other.text = document.text := by
  cases last : lastAt? (session.opened.filterMap session.restoration?) path with
  | none =>
      rw [lastAt?_restorations_eq_none.mp last other otherOpen otherPlace] at catalog
      cases catalog
  | some replacement =>
      -- The text restored last is that of every open document at the path.
      have agrees : ∀ held ∈ session.opened, held.uri.filePath? = some path →
          ¬session.Contradicts held path replacement := by
        intro held heldMem heldPlace contradicts
        exact uncontradicted ⟨held, heldMem, path, replacement, heldPlace, last, contradicts⟩
      obtain ⟨latest, _, _, _, rfl⟩ := mem_restorations.mp (mem_of_lastAt? last)
      have first := not_not.mp (agrees other otherOpen otherPlace)
      have second := not_not.mp (agrees document isOpen place)
      exact first.symm.trans second

/-- Indexing again keeps the documents authoritative unless it overlooks one,
however they were before. -/
theorem authoritative_reindex_iff :
    (session.reindex around).session.Authoritative ↔ ¬session.ReindexingOverlooks around := by
  let emptied : Session :=
    { session with indexed := false, tracked := around.catalogFiles session.settings }
  have sameCatalog := isCatalog_congr (show emptied.store = session.store from rfl)
  have restored : (session.reindex around).session.Authoritative ↔
      (emptied.replaceAll
        (emptied.opened.filterMap emptied.restoration?)).Authoritative := by
    rw [reindex_session, ← restoreDocuments_eq_replaceAll]
    exact authoritative_congr rfl rfl rfl
  rw [restored, authoritative_replaceAll_iff]
  constructor
  · rintro ⟨uncontradicted, shown⟩ overlooks
    cases overlooks with
    | disk document path text isOpen place unrestored found different =>
        have untouched := lastAt?_restorations_eq_none.mpr unrestored
        have held := shows_iff_hasText.mp (shown document isOpen path place untouched)
        exact different (held.1 text found)
    | rival document other path isOpen place otherOpen otherPlace catalog different =>
        exact different (text_eq_of_not_contradictedBy uncontradicted otherOpen otherPlace catalog
          isOpen place)
  · intro respected
    constructor
    · rintro ⟨document, documentMem, path, replacement, place, last, contradicts⟩
      obtain ⟨other, otherMem, otherPlace, catalog, rfl⟩ :=
        mem_restorations.mp (mem_of_lastAt? last)
      rw [sameCatalog] at catalog
      exact respected
        (.rival document other path documentMem place otherMem otherPlace catalog contradicts)
    · intro document documentMem path place untouched
      have unrestored := lastAt?_restorations_eq_none.mp untouched
      refine shows_iff_hasText.mpr ⟨?_, ?_⟩
      · intro text found
        by_contra different
        exact respected (.disk document path text documentMem place unrestored found different)
      · intro catalog
        rw [unrestored document documentMem place] at catalog
        cases catalog

/-- Setting the text of a document overlooks an open document. -/
inductive EditingOverlooks (session : Session) (uri : Uri) (text : String) : Prop
  /-- Another document with the same path has another text. -/
  | rival (document : OpenDocument) (path : String)
      (isOpen : document ∈ session.opened) (place : document.uri.filePath? = some path)
      (samePlace : uri.filePath? = some path) (catalog : session.isCatalog path text = true)
      (different : text ≠ document.text)
  /-- The text is not that of a catalog file, and the file at the path of the
  document stays tracked with another one. -/
  | stale (path held : String)
      (isOpen : session.isOpen uri = true) (place : uri.filePath? = some path)
      (catalog : session.isCatalog path text = false)
      (tracked : HasText session.tracked path held) (different : held ≠ text)

theorem updateDocument_session (uri : Uri) (text : String) :
    (session.updateDocument uri text).session =
      session.replaceAll (session.restoration? ⟨uri, text⟩).toList := by
  unfold updateDocument restoration?
  cases place : uri.filePath? with
  | none => rfl
  | some path =>
      simp only [Option.bind_some]
      rw [← isCatalog]
      by_cases catalog : session.isCatalog path text = true
      · rw [if_pos catalog, if_pos catalog]
        rfl
      · rw [if_neg catalog, if_neg catalog]
        rfl

theorem lastAt?_restoration {uri : Uri} {text : String} (place : uri.filePath? = some path) :
    lastAt? (session.restoration? ⟨uri, text⟩).toList path =
      if session.isCatalog path text = true then some (.text text) else none := by
  unfold restoration?
  rw [place, Option.bind_some]
  by_cases catalog : session.isCatalog path text = true
  · rw [if_pos catalog, if_pos catalog]
    simp [lastAt?]
  · rw [if_neg catalog, if_neg catalog]
    rfl

theorem lastAt?_restoration_elsewhere {uri : Uri} {text : String}
    (elsewhere : uri.filePath? ≠ some path) :
    lastAt? (session.restoration? ⟨uri, text⟩).toList path = none := by
  rw [lastAt?_eq_none]
  intro replaced replacedMem
  obtain ⟨place, _⟩ := restoration?_eq_some.mp (Option.mem_toList.mp replacedMem)
  rintro rfl
  exact elsewhere place

/-- Setting the text of a document keeps the documents authoritative unless
it overlooks one, when the others were authoritative before. -/
theorem authoritative_updateDocument_iff {uri : Uri} {text : String}
    (edited : ∀ document ∈ session.opened, document.uri = uri → document.text = text)
    (others : ∀ document ∈ session.opened, document.uri ≠ uri →
      ∀ path, document.uri.filePath? = some path → session.Shows document path) :
    (session.updateDocument uri text).session.Authoritative ↔
      ¬session.EditingOverlooks uri text := by
  rw [updateDocument_session, authoritative_replaceAll_iff]
  constructor
  · rintro ⟨uncontradicted, shown⟩ overlooks
    cases overlooks with
    | rival document path isOpen place samePlace catalog different =>
        have last := (lastAt?_restoration samePlace).trans (if_pos catalog)
        exact uncontradicted ⟨document, isOpen, path, .text text, place, last, different⟩
    | stale path held isOpen place catalog tracked different =>
        obtain ⟨document, documentMem, same⟩ := List.any_eq_true.mp isOpen
        have sameUri : document.uri = uri := beq_iff_eq.mp same
        have untouched := (lastAt?_restoration place).trans
          (if_neg (Bool.eq_false_iff.mp catalog))
        have shows' := shown document documentMem path (sameUri ▸ place) untouched
        have heldText := (shows_iff_hasText.mp shows').1 held tracked
        exact different (heldText.trans (edited document documentMem sameUri))
  · intro respected
    constructor
    · rintro ⟨document, documentMem, path, replacement, place, last, contradicts⟩
      by_cases samePlace : uri.filePath? = some path
      · rw [lastAt?_restoration samePlace, Option.ite_none_right_eq_some] at last
        obtain ⟨catalog, textEq⟩ := last
        cases textEq
        exact respected (.rival document path documentMem place samePlace catalog contradicts)
      · rw [lastAt?_restoration_elsewhere samePlace] at last
        cases last
    · intro document documentMem path place untouched
      by_cases sameUri : document.uri = uri
      · have textEq := edited document documentMem sameUri
        have samePlace : uri.filePath? = some path := sameUri ▸ place
        have catalog : session.isCatalog path text = false := by
          rw [lastAt?_restoration samePlace] at untouched
          simpa using untouched
        rw [shows_iff_hasText, textEq]
        constructor
        · intro held tracked
          by_contra different
          have isOpen : session.isOpen uri = true :=
            List.any_eq_true.mpr ⟨document, documentMem, beq_iff_eq.mpr sameUri⟩
          exact respected (.stale path held isOpen samePlace catalog tracked different)
        · intro isCatalog
          rw [catalog] at isCatalog
          cases isCatalog
      · exact others document documentMem sameUri path place

/-- So it does in a session whose documents are those of an authoritative one,
with the document at hand in place of the one with its address. -/
theorem Authoritative.updateDocument_iff {held : Session} (authoritative : held.Authoritative)
    {uri : Uri} {text : String}
    (replaced : ∀ document ∈ session.opened,
      (document ∈ held.opened ∧ document.uri ≠ uri) ∨ document = ⟨uri, text⟩)
    (sameShown : ∀ document path, held.Shows document path → session.Shows document path) :
    (session.updateDocument uri text).session.Authoritative ↔
      ¬session.EditingOverlooks uri text := by
  apply authoritative_updateDocument_iff
  · intro document documentMem sameUri
    rcases replaced document documentMem with ⟨_, different⟩ | rfl
    · exact absurd sameUri different
    · rfl
  · intro document documentMem different path place
    rcases replaced document documentMem with ⟨heldMem, _⟩ | rfl
    · exact sameShown document path (authoritative document heldMem path place)
    · exact absurd rfl different

theorem authoritative_documentOpened_iff (authoritative : session.Authoritative) (uri : Uri)
    (text : String) :
    (session.documentOpened uri text).session.Authoritative ↔
      ¬(session.openDocument ⟨uri, text⟩).EditingOverlooks uri text := by
  have replaced : ∀ document ∈ (session.openDocument ⟨uri, text⟩).opened,
      (document ∈ session.opened ∧ document.uri ≠ uri) ∨ document = ⟨uri, text⟩ := by
    intro document documentMem
    simpa [openDocument] using documentMem
  exact authoritative.updateDocument_iff replaced fun _ _ => id

theorem authoritative_documentChanged_iff (authoritative : session.Authoritative) {uri : Uri}
    {texts : List String} {text : String} (last : texts.getLast? = some text) :
    (session.documentChanged uri texts).session.Authoritative ↔
      ¬(session.editDocument uri text).EditingOverlooks uri text := by
  have replaced : ∀ document ∈ (session.editDocument uri text).opened,
      (document ∈ session.opened ∧ document.uri ≠ uri) ∨ document = ⟨uri, text⟩ := by
    intro document documentMem
    obtain ⟨held, heldMem, rfl⟩ := List.mem_map.mp documentMem
    by_cases sameUri : held.uri = uri
    · exact .inr (if_pos (beq_iff_eq.mpr sameUri))
    · rw [if_neg (by simpa using sameUri)]
      exact .inl ⟨heldMem, sameUri⟩
  unfold documentChanged
  rw [last]
  exact authoritative.updateDocument_iff replaced fun _ _ => id

/-- Closing a document as a replacement: its file is read again. -/
def closing (session : Session) (disk : Disk) (uri : Uri) : List (String × Replacement) :=
  uri.filePath?.toList.flatMap fun path =>
    ((session.closeDocument uri).rereading? disk path).toList.map (path, ·)

theorem documentClosed_session (uri : Uri) :
    (session.documentClosed around uri).session =
      (session.closeDocument uri).replaceAll (session.closing around.disk uri) := by
  unfold documentClosed closing
  rw [Turn.andThen_session, publish_session]
  cases uri.filePath? with
  | none => rfl
  | some path =>
      simp only [Option.toList_some, List.flatMap_singleton]
      exact reload_eq_replaceAll _ around.disk path

theorem lastAt?_closing (session : Session) (disk : Disk) (uri : Uri) (path : String) :
    lastAt? (session.closing disk uri) path =
      if uri.filePath? = some path then (session.closeDocument uri).rereading? disk path
      else none := by
  unfold closing
  cases place : uri.filePath? with
  | none => rfl
  | some other =>
      simp only [Option.toList_some, List.flatMap_singleton, Option.some.injEq]
      by_cases here : other = path
      · subst here
        cases reread : (session.closeDocument uri).rereading? disk other <;> simp [lastAt?]
      · rw [if_neg here, lastAt?_eq_none]
        intro replaced replacedMem
        obtain ⟨_, -, rfl⟩ := List.mem_map.mp replacedMem
        exact here

theorem hasText_documentClosed {uri : Uri} {text : String} :
    HasText (session.documentClosed around uri).session.tracked path text ↔
      match if uri.filePath? = some path then
          (session.closeDocument uri).rereading? around.disk path else none with
      | none => HasText session.tracked path text
      | some .removed => False
      | some (.text replaced) => text = replaced := by
  rw [documentClosed_session, ← lastAt?_closing]
  exact hasText_replaceAll

theorem Authoritative.closeDocument (authoritative : session.Authoritative) (uri : Uri) :
    (session.closeDocument uri).Authoritative := by
  intro document documentMem path place
  exact authoritative document (List.mem_filter.mp documentMem).1 path place

end Session

end CatalogServer
