import CatalogServer.Proofs.Session.Tracking
import CatalogServer.Proofs.Workspace.Indexing

/-!
# Following as merging and replacing

Every way in which a session follows the editor and the disk is a merge of
the files found in folders, a sequence of replacements, or both.
-/

namespace CatalogServer

/-- The catalog files found in a folder. -/
def Surroundings.filesIn (around : Surroundings) (settings : Settings) (folder : String) :
    List CatalogFile :=
  match Indexing.indexFolder around.disk settings folder with
  | .ok found => found.files
  | .error _ => []

/-- The folders on this machine that the editor names. -/
def Surroundings.folderPaths (around : Surroundings) : List String :=
  (around.folders.getD []).filterMap Uri.filePath?

/-- The catalog files found in all folders that the editor names. -/
def Surroundings.catalogFiles (around : Surroundings) (settings : Settings) :
    List CatalogFile :=
  ((around.folders.getD []).filterMap Uri.filePath?).foldl
    (fun held folder => Indexing.merge held (around.filesIn settings folder)) []

theorem Surroundings.hasText_filesIn {around : Surroundings} {settings : Settings}
    {folder path text : String} :
    HasText (around.filesIn settings folder) path text ↔
      around.disk.Reaches settings folder path ∧ around.disk.HoldsCatalog path text := by
  unfold filesIn
  constructor
  · rintro ⟨file, fileMem, rfl, rfl⟩
    cases indexed : Indexing.indexFolder around.disk settings folder with
    | error error =>
        rw [indexed] at fileMem
        cases fileMem
    | ok found =>
        obtain ⟨place, matcher, indexable, rfl⟩ := Indexing.indexFolder_eq_ok.mp indexed
        rw [indexed] at fileMem
        obtain ⟨path, candidate, loaded⟩ := List.mem_filterMap.mp fileMem
        obtain ⟨text, holds, rfl⟩ := Indexing.loadCandidate?_eq_some.mp loaded
        exact ⟨Indexing.reaches_iff.mpr ⟨place, matcher, indexable, candidate⟩, holds⟩
  · rintro ⟨reaches, holds⟩
    obtain ⟨place, matcher, indexable, candidate⟩ := Indexing.reaches_iff.mp reaches
    have indexed := Indexing.indexFolder_eq_ok.mpr ⟨place, matcher, indexable, rfl⟩
    rw [indexed]
    have loaded := Indexing.loadCandidate?_eq_some.mpr ⟨text, holds, rfl⟩
    exact ⟨.ofText path text, List.mem_filterMap.mpr ⟨path, candidate, loaded⟩, rfl, rfl⟩

/-- A file is found just if one of the folders reaches it. -/
theorem Surroundings.hasText_catalogFiles {around : Surroundings} {settings : Settings}
    {path text : String} :
    HasText (around.catalogFiles settings) path text ↔
      (∃ folder ∈ around.folderPaths, around.disk.Reaches settings folder path) ∧
        around.disk.HoldsCatalog path text := by
  -- Whatever is found at the path has the text on the disk, so no folder
  -- takes back what another one found.
  have folded : ∀ (folders : List String) (held : List CatalogFile),
      (∀ text, HasText held path text → around.disk.HoldsCatalog path text) →
        (HasText (folders.foldl
            (fun held folder => Indexing.merge held (around.filesIn settings folder)) held)
            path text ↔
          HasText held path text ∨
            (∃ folder ∈ folders, around.disk.Reaches settings folder path) ∧
              around.disk.HoldsCatalog path text) := by
    intro folders
    induction folders with
    | nil => simp
    | cons folder rest ih =>
        intro held onDisk
        have merged (text : String) :
            HasText (Indexing.merge held (around.filesIn settings folder)) path text ↔
              HasText held path text ∨ HasText (around.filesIn settings folder) path text := by
          refine hasText_merge_of_agree ?_
          intro heldText other heldThere found
          have first := (onDisk heldText heldThere).1
          have second := (hasText_filesIn.mp found).2.1
          exact Except.ok.inj (first.symm.trans second)
        rw [List.foldl_cons, ih, merged, hasText_filesIn]
        · simp only [List.mem_cons, exists_eq_or_imp]
          tauto
        · intro text there
          rcases (merged text).mp there with heldThere | found
          · exact onDisk text heldThere
          · exact (hasText_filesIn.mp found).2
  have unheld : ¬HasText [] path text := by
    rintro ⟨file, ⟨⟩, -⟩
  refine (folded around.folderPaths [] ?_).trans (or_iff_right unheld)
  rintro text ⟨file, ⟨⟩, -⟩

theorem Indexing.foldl_merge (folders : List String) (filesIn : String → List CatalogFile)
    (tracked : List CatalogFile) :
    folders.foldl (fun held folder => Indexing.merge held (filesIn folder)) tracked =
      Indexing.merge tracked
        (folders.foldl (fun held folder => Indexing.merge held (filesIn folder)) []) := by
  induction folders generalizing tracked with
  | nil => simp
  | cons folder rest ih =>
      rw [List.foldl_cons, List.foldl_cons, ih, ih (Indexing.merge [] _),
        ← Indexing.merge_merge, ← Indexing.merge_merge, Indexing.merge_nil]

namespace Session

variable (session : Session) (around : Surroundings)

@[simp]
theorem Turn.andThen_session (turn : Turn) (step : Session → Turn) :
    (turn.andThen step).session = (step turn.session).session :=
  rfl

@[simp]
theorem publish_session : session.publish.session = session :=
  rfl

theorem indexFolder_session (folder : String) :
    (session.indexFolder around folder).session =
      { session with
        tracked := Indexing.merge session.tracked (around.filesIn session.settings folder) } := by
  unfold indexFolder Surroundings.filesIn
  cases Indexing.indexFolder around.disk session.settings folder with
  | ok found => rfl
  | error error => simp

theorem indexFolders_session :
    (session.indexFolders around).session =
      { session with
        tracked := Indexing.merge session.tracked (around.catalogFiles session.settings) } := by
  have folded : ∀ (folders : List String) (turn : Turn),
      (folders.foldl (fun turn folder => turn.andThen (indexFolder around folder)) turn).session =
        { turn.session with
          tracked := folders.foldl (fun held folder =>
            Indexing.merge held (around.filesIn turn.session.settings folder))
              turn.session.tracked } := by
    intro folders
    induction folders with
    | nil => exact fun _ => rfl
    | cons folder rest ih =>
        intro turn
        rw [List.foldl_cons, ih, Turn.andThen_session, indexFolder_session]
        rfl
  unfold indexFolders Surroundings.catalogFiles
  rw [folded, Indexing.foldl_merge]

/-- A text is that of a catalog file at a path. -/
def isCatalog (path text : String) : Bool :=
  Detection.looksLikeCatalog text && session.acceptsPath path

theorem acceptsPath_congr {first second : Session} (sameStore : first.store = second.store) :
    first.acceptsPath = second.acceptsPath := by
  funext path
  simp only [acceptsPath, settings, sameStore]

theorem isCatalog_congr {first second : Session} (sameStore : first.store = second.store)
    (path text : String) : first.isCatalog path text = second.isCatalog path text := by
  rw [isCatalog, isCatalog, acceptsPath_congr sameStore]

/-- Restoring a document as a replacement. -/
def restoration? (document : OpenDocument) : Option (String × Replacement) :=
  document.uri.filePath?.bind fun path =>
    if session.isCatalog path document.text then some (path, .text document.text) else none

theorem restoreDocument_eq_replaceAll (document : OpenDocument) :
    session.restoreDocument document =
      session.replaceAll (session.restoration? document).toList := by
  unfold restoreDocument restoration?
  cases place : document.uri.filePath? with
  | none => rfl
  | some path =>
      simp only [trackIfCatalog, Option.bind_some]
      rw [← isCatalog]
      by_cases catalog : session.isCatalog path document.text = true
      · rw [if_pos catalog, if_pos catalog]
        rfl
      · rw [if_neg catalog, if_neg catalog]
        rfl

theorem restoration?_congr {first second : Session} (sameStore : first.store = second.store) :
    first.restoration? = second.restoration? := by
  funext document
  simp only [restoration?, isCatalog_congr sameStore]

theorem restoration?_eq_some {session : Session} {document : OpenDocument}
    {replaced : String × Replacement} :
    session.restoration? document = some replaced ↔
      document.uri.filePath? = some replaced.1 ∧
        session.isCatalog replaced.1 document.text = true ∧
          replaced.2 = .text document.text := by
  obtain ⟨place, replacement⟩ := replaced
  simp only [restoration?, Option.bind_eq_some_iff, Option.ite_none_right_eq_some,
    Option.some.injEq, Prod.mk.injEq]
  constructor
  · rintro ⟨_, placed, catalog, rfl, rfl⟩
    exact ⟨placed, catalog, rfl⟩
  · rintro ⟨placed, catalog, rfl⟩
    exact ⟨place, placed, catalog, rfl, rfl⟩

theorem restoreDocuments_eq_replaceAll :
    session.restoreDocuments =
      session.replaceAll (session.opened.filterMap session.restoration?) := by
  have folded : ∀ (documents : List OpenDocument) (held : Session),
      held.store = session.store →
        documents.foldl restoreDocument held =
          held.replaceAll (documents.filterMap session.restoration?) := by
    intro documents
    induction documents with
    | nil => exact fun _ _ => rfl
    | cons document rest ih =>
        intro held sameStore
        rw [List.foldl_cons, restoreDocument_eq_replaceAll, restoration?_congr sameStore,
          ih _ (by simpa using sameStore)]
        cases heading : session.restoration? document <;> simp [heading]
  exact folded session.opened session rfl

theorem mem_restorations {session : Session} {path : String} {replacement : Replacement} :
    (path, replacement) ∈ session.opened.filterMap session.restoration? ↔
      ∃ document ∈ session.opened, document.uri.filePath? = some path ∧
        session.isCatalog path document.text = true ∧ replacement = .text document.text := by
  simp only [List.mem_filterMap, restoration?_eq_some]

/-- Indexing again starts from the files found and restores the documents. -/
theorem reindex_session :
    (session.reindex around).session =
      { ({ session with
            indexed := false
            tracked := around.catalogFiles session.settings } : Session).restoreDocuments with
        indexed := true } := by
  unfold reindex finishIndexing
  rw [Turn.andThen_session, Turn.andThen_session, publish_session, indexFolders_session]
  simp [Indexing.merge, settings]

@[simp]
theorem reindex_store {session : Session} {around : Surroundings} :
    (session.reindex around).session.store = session.store := by
  rw [reindex_session, restoreDocuments_eq_replaceAll]
  exact replaceAll_store _ _

@[simp]
theorem reindex_opened {session : Session} {around : Surroundings} :
    (session.reindex around).session.opened = session.opened := by
  rw [reindex_session, restoreDocuments_eq_replaceAll]
  exact replaceAll_opened _ _

/-- Indexing again puts the restored documents in place of what is found. -/
theorem reindex_tracked {session : Session} {around : Surroundings} :
    (session.reindex around).session.tracked =
      ({ session with tracked := around.catalogFiles session.settings, indexed := false }.replaceAll
        (session.opened.filterMap session.restoration?)).tracked := by
  rw [reindex_session, restoreDocuments_eq_replaceAll]
  rfl

/-- Indexing again tells on a path by the document restored last there, or
else by what is found. -/
theorem hasText_reindex {session : Session} {around : Surroundings} {path text : String} :
    HasText (session.reindex around).session.tracked path text ↔
      match lastAt? (session.opened.filterMap session.restoration?) path with
      | none => HasText (around.catalogFiles session.settings) path text
      | some .removed => False
      | some (.text restored) => text = restored := by
  rw [reindex_tracked]
  exact hasText_replaceAll

theorem ready_session :
    (session.ready around).session =
      { session with
        tracked := Indexing.merge session.tracked (around.catalogFiles session.settings)
        indexed := true } := by
  unfold ready finishIndexing
  rw [Turn.andThen_session, Turn.andThen_session, Turn.andThen_session]
  dsimp only [send]
  rw [publish_session, indexFolders_session]

/-- Reading a file again as a replacement; none when it is open or cannot be
read. -/
def rereading? (disk : Disk) (path : String) : Option Replacement :=
  if session.isOpenAt path then none
  else
    (disk.readText path).toOption.map fun text =>
      if Detection.looksLikeCatalog text then .text text else .removed

theorem rereading?_eq_text {session : Session} {disk : Disk} {path text : String} :
    session.rereading? disk path = some (.text text) ↔
      session.isOpenAt path = false ∧ disk.HoldsCatalog path text := by
  unfold rereading? Disk.HoldsCatalog
  cases session.isOpenAt path with
  | true => simp
  | false =>
      cases disk.readText path with
      | error error => simp
      | ok found =>
          by_cases catalog : Detection.looksLikeCatalog found = true
          · simp only [Bool.false_eq_true, if_false, Except.toOption_ok, Option.map_some, catalog,
              if_true, Option.some.injEq, Replacement.text.injEq, true_and, Except.ok.injEq]
            constructor
            · rintro rfl
              exact ⟨rfl, catalog⟩
            · exact And.left
          · simp only [Bool.false_eq_true, if_false, Except.toOption_ok, Option.map_some, catalog,
              Option.some.injEq, reduceCtorEq, true_and, Except.ok.injEq, false_iff, not_and]
            rintro rfl
            exact catalog

theorem rereading?_eq_removed {session : Session} {disk : Disk} {path : String} :
    session.rereading? disk path = some .removed ↔
      session.isOpenAt path = false ∧
        ∃ text, disk.readText path = .ok text ∧ Detection.looksLikeCatalog text = false := by
  unfold rereading?
  cases session.isOpenAt path with
  | true => simp
  | false =>
      cases disk.readText path with
      | error error => simp
      | ok found =>
          by_cases catalog : Detection.looksLikeCatalog found = true <;> simp [catalog]

theorem reload_eq_replaceAll (disk : Disk) (path : String) :
    session.reload disk path =
      session.replaceAll ((session.rereading? disk path).toList.map (path, ·)) := by
  unfold reload rereading?
  by_cases isOpen : session.isOpenAt path = true
  · simp [isOpen]
  · rw [if_neg isOpen, if_neg isOpen]
    cases disk.readText path with
    | error error => rfl
    | ok text =>
        by_cases catalog : Detection.looksLikeCatalog text = true
        · simp [Except.toOption, catalog, replaceAt]
        · simp [Except.toOption, catalog, replaceAt]

/-- Following the change of a file as a replacement. -/
def followed? (disk : Disk) (change : String × FileEvent) : Option (String × Replacement) :=
  if session.acceptsPath change.1 then
    match change.2 with
    | .created | .changed => (session.rereading? disk change.1).map (change.1, ·)
    | .deleted => some (change.1, .removed)
    | .unknown => none
  else
    none

theorem followed?_congr {first second : Session} (sameStore : first.store = second.store)
    (sameOpened : first.opened = second.opened) (disk : Disk) :
    first.followed? disk = second.followed? disk := by
  have sameOpen : first.isOpen = second.isOpen := by
    funext uri
    rw [isOpen, isOpen, sameOpened]
  have sameRereading : first.rereading? disk = second.rereading? disk := by
    funext path
    rw [rereading?, rereading?, isOpenAt, isOpenAt, sameOpen]
  funext change
  rw [followed?, followed?, acceptsPath_congr sameStore, sameRereading]

theorem followChange?_eq (disk : Disk) (path : String) (event : FileEvent) :
    ((session.followChange? disk path event).getD session) =
      session.replaceAll (session.followed? disk (path, event)).toList := by
  unfold followChange? followed?
  by_cases accepted : session.acceptsPath path = true
  · rw [if_pos accepted, if_pos accepted]
    cases event with
    | created | changed =>
        simp only [Option.getD_some, reload_eq_replaceAll]
        cases session.rereading? disk path <;> rfl
    | deleted => rfl
    | unknown => rfl
  · simp [accepted]

/-- Following changes replaces the changed files one after the other. -/
theorem followChanges_eq_replaceAll (disk : Disk) (changes : List (String × FileEvent)) :
    (session.followChanges disk changes).1 =
      session.replaceAll (changes.filterMap (session.followed? disk)) := by
  have folded : ∀ (changes : List (String × FileEvent)) (held : Session),
      held.store = session.store → held.opened = session.opened →
        (held.followChanges disk changes).1 =
          held.replaceAll (changes.filterMap (session.followed? disk)) := by
    intro changes
    induction changes with
    | nil => exact fun _ _ _ => rfl
    | cons change rest ih =>
        obtain ⟨path, event⟩ := change
        intro held sameStore sameOpened
        have step := held.followChange?_eq disk path event
        rw [followed?_congr sameStore sameOpened] at step
        have onward : (held.followChanges disk ((path, event) :: rest)).1 =
            (((held.followChange? disk path event).getD held).followChanges disk rest).1 := by
          rw [followChanges]
          cases held.followChange? disk path event <;> rfl
        rw [onward, step, ih _ (by simpa using sameStore) (by simpa using sameOpened)]
        cases heading : session.followed? disk (path, event) <;> simp [heading]
  exact folded changes session rfl rfl

end Session

end CatalogServer
