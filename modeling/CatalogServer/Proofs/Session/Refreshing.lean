import CatalogServer.Proofs.Session.Publishing

/-!
# Notifications that refresh what is shown

Following a notification refreshes the diagnostics that the editor shows,
except in the ways listed here.  In all of them but the first, a file whose
diagnostics are shown is dropped without a word: for a document without a file
nothing is published, not even that it has no diagnostics.
-/

namespace CatalogServer

namespace Session

variable {session before : Session} {around : Surroundings} {uri : Uri} {path : String}

theorem exists_hasText_replaceAll {replacements : List (String × Replacement)}
    (held : ∃ text, HasText session.tracked path text) :
    (∃ text, HasText (session.replaceAll replacements).tracked path text) ↔
      lastAt? replacements path ≠ some .removed := by
  simp only [hasText_replaceAll]
  cases last : lastAt? replacements path with
  | none => simpa using held
  | some replacement => cases replacement <;> simp

/-- Indexing again forgets a path: no open document there is a catalog, and
nothing is found there. -/
structure Forgets (around : Surroundings) (session : Session) (path : String) : Prop where
  unrestored : ∀ other ∈ session.opened, other.uri.filePath? = some path →
    session.isCatalog path other.text = false
  unfound : ∀ text, ¬HasText (around.catalogFiles session.settings) path text

theorem exists_hasText_reindex :
    (∃ text, HasText (session.reindex around).session.tracked path text) ↔
      ¬session.Forgets around path := by
  simp only [hasText_reindex]
  cases last : lastAt? (session.opened.filterMap session.restoration?) path with
  | none =>
      have unrestored := lastAt?_restorations_eq_none.mp last
      constructor
      · rintro ⟨text, found⟩ forgets
        exact forgets.unfound text found
      · intro remembered
        by_contra unfound
        exact remembered ⟨unrestored, fun text found => unfound ⟨text, found⟩⟩
  | some replacement =>
      obtain ⟨other, otherMem, place, catalog, rfl⟩ := mem_restorations.mp (mem_of_lastAt? last)
      refine iff_of_true ⟨other.text, rfl⟩ fun forgets => ?_
      rw [forgets.unrestored other otherMem place] at catalog
      cases catalog

theorem updateDocument_eq (uri : Uri) (text : String) :
    session.updateDocument uri text =
      match session.restoration? ⟨uri, text⟩ with
      | some replaced => (session.replaceAll [replaced]).publish
      | none => ⟨session, []⟩ := by
  unfold updateDocument restoration?
  cases uri.filePath? with
  | none => rfl
  | some path =>
      dsimp only [Option.bind_some]
      rw [← isCatalog]
      by_cases catalog : session.isCatalog path text = true
      · rw [if_pos catalog, if_pos catalog]
        rfl
      · rw [if_neg catalog, if_neg catalog]

/-- Setting the text of a document refreshes what is shown unless it is that
of no catalog and other diagnostics became due. -/
theorem refreshes_updateDocument_iff {text : String}
    (sameTracked : before.tracked = session.tracked)
    (kept : ∀ other, before.isOpen other = true → session.isOpen other = true) :
    (session.updateDocument uri text).Refreshes before ↔
      (session.restoration? ⟨uri, text⟩ = none →
        ∀ other, before.due other = session.due other) := by
  rw [updateDocument_eq]
  cases restored : session.restoration? ⟨uri, text⟩ with
  | none => simpa using Turn.refreshes_iff_of_silent silent_nil
  | some replaced =>
      refine iff_of_true ?_ (by rintro ⟨⟩)
      -- Putting in a text drops no file.
      refine ((Turn.publishes_publish _).refreshes_iff ?_).mpr ?_
      · intro other due
        rw [publish_session, isOpen, replaceAll_opened]
        exact kept other (isOpen_of_due due)
      · intro other path due place
        have tracked := tracked_of_due due place
        rw [sameTracked] at tracked
        rw [publish_session, exists_hasText_replaceAll tracked]
        intro removed
        obtain ⟨-, -, restoredText⟩ := restoration?_eq_some.mp restored
        have same := List.mem_singleton.mp (mem_of_lastAt? removed)
        rw [← same] at restoredText
        cases restoredText

theorem refreshes_documentOpened_iff {text : String} :
    (session.documentOpened uri text).Refreshes session ↔
      ¬(session.isOpen uri = false ∧ session.restoration? ⟨uri, text⟩ = none ∧
        (session.openDocument ⟨uri, text⟩).due uri ≠ []) := by
  have elsewhere : ∀ other, other ≠ uri →
      session.due other = (session.openDocument ⟨uri, text⟩).due other := by
    intro other different
    refine due_congr rfl rfl ?_
    rw [isOpen_openDocument, beq_false_of_ne different, Bool.or_false]
  have kept : ∀ other, session.isOpen other = true →
      (session.openDocument ⟨uri, text⟩).isOpen other = true := by
    intro other isOpen
    rw [isOpen_openDocument, isOpen, Bool.true_or]
  have sameTracked : session.tracked = (session.openDocument ⟨uri, text⟩).tracked := rfl
  refine (refreshes_updateDocument_iff sameTracked kept).trans ?_
  rw [restoration?_congr (show (session.openDocument ⟨uri, text⟩).store = session.store from rfl)]
  constructor
  · rintro refreshes ⟨unopened, unrestored, due⟩
    rw [← refreshes unrestored uri, due_of_not_isOpen unopened] at due
    exact due rfl
  · intro respected unrestored other
    by_cases same : other = uri
    · subst same
      cases isOpen : session.isOpen other with
      | true =>
          refine due_congr rfl rfl ?_
          rw [isOpen, kept other isOpen]
      | false =>
          rw [due_of_not_isOpen isOpen]
          by_contra due
          exact respected ⟨isOpen, unrestored, Ne.symm due⟩
    · exact elsewhere other same

theorem refreshes_documentChanged (uri : Uri) (texts : List String) :
    (session.documentChanged uri texts).Refreshes session := by
  unfold documentChanged
  split
  · exact Turn.refreshes_of_silent silent_nil
  · next text _ =>
      have sameTracked : session.tracked = (session.editDocument uri text).tracked := rfl
      refine (refreshes_updateDocument_iff sameTracked ?_).mpr ?_
      · intro other isOpen
        rwa [isOpen_editDocument]
      · intro _ other
        exact due_congr rfl rfl (isOpen_editDocument uri text).symm

/-- Closing a document refreshes what is shown unless another one at its path
loses its file. -/
theorem refreshes_documentClosed_iff :
    (session.documentClosed around uri).Refreshes session ↔
      ∀ other path, other ≠ uri → session.due other ≠ [] → uri.filePath? = some path →
        other.filePath? = some path →
          (session.closeDocument uri).rereading? around.disk path ≠ some .removed := by
  let closing := Turn.mk (session.closeDocument uri) [.diagnostics uri []]
  have dueClosed : (session.closeDocument uri).due uri = [] := by
    refine due_of_not_isOpen ?_
    rw [isOpen_closeDocument, bne_self_eq_false, Bool.and_false]
  have dueElsewhere : ∀ other, other ≠ uri →
      (session.closeDocument uri).due other = session.due other := by
    intro other different
    refine due_congr rfl rfl ?_
    rw [isOpen_closeDocument, bne_iff_ne.mpr different, Bool.and_true]
  have refreshes : closing.Refreshes session := by
    intro other
    dsimp only [closing]
    rw [lastShown?_singleton, ServerMessage.shown?]
    split
    · next same => rw [← same, dueClosed, Option.getD_some]
    · next different => rw [dueElsewhere other (Ne.symm different), Option.getD_none]
  -- The empty list is sent first, so the turn falls into one that refreshes
  -- what is shown and one that publishes.
  have split : session.documentClosed around uri = closing.andThen fun _ =>
      ((session.closeDocument uri).replaceAll (session.closing around.disk uri)).publish := by
    rw [← documentClosed_session]
    rfl
  rw [split, refreshes.andThen_iff]
  refine ((Turn.publishes_publish _).refreshes_iff ?_).trans ?_
  · intro other due
    rw [publish_session, isOpen, replaceAll_opened]
    exact isOpen_of_due due
  · have dropped : ∀ other path, session.due other ≠ [] → other.filePath? = some path →
        ((∃ text, HasText ((session.closeDocument uri).replaceAll
            (session.closing around.disk uri)).tracked path text) ↔
          (uri.filePath? = some path →
            (session.closeDocument uri).rereading? around.disk path ≠ some .removed)) := by
      intro other path due place
      have tracked := tracked_of_due due place
      have heldClosed : ∃ text, HasText (session.closeDocument uri).tracked path text := tracked
      rw [exists_hasText_replaceAll heldClosed, lastAt?_closing]
      split
      · next here => simp [here]
      · next apart => simp [apart]
    constructor
    · intro tracked other path different due place otherPlace
      have dueAfter : closing.session.due other ≠ [] := by rwa [dueElsewhere other different]
      exact (dropped other path due otherPlace).mp (tracked other path dueAfter otherPlace) place
    · intro respected other path due otherPlace
      have different : other ≠ uri := by
        rintro rfl
        exact due dueClosed
      have dueBefore : session.due other ≠ [] := dueElsewhere other different ▸ due
      exact (dropped other path dueBefore otherPlace).mpr fun place =>
        respected other path different dueBefore place otherPlace

theorem silent_indexFolder (folder : String) : Silent (session.indexFolder around folder).sent := by
  intro message messageMem uri
  unfold indexFolder at messageMem
  split at messageMem
  · simp only [candidateReports, List.cons_append, List.mem_cons, List.mem_append, List.mem_map,
      List.not_mem_nil, or_false] at messageMem
    rcases messageMem with rfl | ⟨number, -, rfl⟩ | rfl <;> rfl
  · simp only [List.mem_cons, List.not_mem_nil, or_false] at messageMem
    rcases messageMem with rfl | rfl | rfl <;> rfl

theorem silent_indexFolders : Silent (session.indexFolders around).sent := by
  have folded : ∀ (folders : List String) (turn : Turn), Silent turn.sent →
      Silent (folders.foldl
        (fun turn folder => turn.andThen (indexFolder around folder)) turn).sent := by
    intro folders
    induction folders with
    | nil => exact fun _ silent => silent
    | cons folder rest ih =>
        intro turn silent
        exact ih _ (silent.append (silent_indexFolder folder))
  exact folded _ _ (silent_singleton fun _ => rfl)

theorem publishes_reindex : (session.reindex around).Publishes := by
  intro uri
  let emptied : Session := { session with indexed := false, tracked := [] }
  let indexed := (emptied.indexFolders around).session.restoreDocuments
  have sent : (session.reindex around).sent =
      ([.log .information "Reindexing workspace..."] ++ (emptied.indexFolders around).sent) ++
        indexed.finishIndexing.sent :=
    rfl
  have quiet : Silent (.log .information "Reindexing workspace..." ::
      (emptied.indexFolders around).sent) :=
    Silent.append (silent_singleton fun _ => rfl) silent_indexFolders
  rw [sent, lastShown?_append, List.singleton_append, lastShown?_of_silent quiet, Option.or_none]
  rfl

theorem publishes_ready : (session.ready around).Publishes := by
  intro uri
  let indexed := (session.indexFolders around).session
  have sent : (session.ready around).sent =
      (([.log .information "initialized!"] ++ (session.indexFolders around).sent) ++
        indexed.finishIndexing.sent) ++
          [.watchFiles indexed.finishIndexing.session.watchedPatterns] :=
    rfl
  have quiet : Silent (.log .information "initialized!" ::
      (session.indexFolders around).sent) :=
    Silent.append (silent_singleton fun _ => rfl) silent_indexFolders
  rw [sent, lastShown?_append, lastShown?_append, List.singleton_append,
    lastShown?_of_silent quiet, Option.or_none, lastShown?_singleton]
  rfl

/-- Indexing again refreshes what is shown unless it forgets a file whose
diagnostics are shown. -/
theorem refreshes_reindex_iff (sameOpened : before.opened = session.opened) :
    (session.reindex around).Refreshes before ↔
      ∀ uri path, before.due uri ≠ [] → uri.filePath? = some path →
        ¬session.Forgets around path := by
  refine (publishes_reindex.refreshes_iff ?_).trans ?_
  · intro uri due
    rw [isOpen, reindex_opened, ← sameOpened]
    exact isOpen_of_due due
  · simp only [exists_hasText_reindex]

theorem refreshes_ready : (session.ready around).Refreshes session := by
  refine (publishes_ready.refreshes_iff ?_).mpr ?_
  · intro uri due
    have isOpen := isOpen_of_due due
    rw [ready_session]
    exact isOpen
  · intro uri path due place
    have tracked := tracked_of_due due place
    rw [ready_session, exists_hasText_merge]
    exact .inr tracked

theorem followChanges_of_unfollowed {disk : Disk} {changes : List (String × FileEvent)}
    (unfollowed : (session.followChanges disk changes).2 = false) :
    (session.followChanges disk changes).1 = session := by
  induction changes with
  | nil => rfl
  | cons change rest ih =>
      obtain ⟨path, event⟩ := change
      rw [followChanges] at unfollowed ⊢
      cases followed : session.followChange? disk path event with
      | some next =>
          rw [followed] at unfollowed
          cases unfollowed
      | none =>
          rw [followed] at unfollowed
          exact ih unfollowed

/-- Following changes of files refreshes what is shown unless the last of them
at a path removes a file whose diagnostics are shown. -/
theorem refreshes_filesChanged_iff {changes : List FileChange}
    (plain : settingsChange? changes = none) :
    (session.filesChanged around changes).Refreshes session ↔
      ∀ uri path, session.due uri ≠ [] → uri.filePath? = some path →
        lastAt? ((changedPaths changes).filterMap (session.followed? around.disk)) path ≠
          some .removed := by
  let followed := session.followChanges around.disk (changedPaths changes)
  have turn : session.filesChanged around changes =
      if followed.2 then followed.1.publish else ⟨followed.1, []⟩ := by
    unfold filesChanged
    dsimp only
    rw [← changedPaths, ← settingsChange?, plain]
  have replaced : followed.1 = session.replaceAll
      ((changedPaths changes).filterMap (session.followed? around.disk)) :=
    session.followChanges_eq_replaceAll around.disk (changedPaths changes)
  have kept : ∀ uri path, session.due uri ≠ [] → uri.filePath? = some path →
      ((∃ text, HasText followed.1.tracked path text) ↔
        lastAt? ((changedPaths changes).filterMap (session.followed? around.disk)) path ≠
          some .removed) := by
    intro uri path due place
    have tracked := tracked_of_due due place
    rw [replaced]
    exact exists_hasText_replaceAll tracked
  rw [turn]
  cases any : followed.2 with
  | true =>
      refine ((Turn.publishes_publish followed.1).refreshes_iff ?_).trans ?_
      · intro uri due
        rw [publish_session, isOpen, replaced, replaceAll_opened]
        exact isOpen_of_due due
      · exact forall₄_congr kept
  | false =>
      -- Nothing was followed, so no file was removed either.
      have unchanged : followed.1 = session := followChanges_of_unfollowed any
      refine iff_of_true ?_ ?_
      · rw [unchanged]
        exact Turn.refreshes_of_silent silent_nil
      · intro uri path due place
        have tracked := tracked_of_due due place
        refine (kept uri path due place).mp ?_
        rwa [unchanged]

/-- The ways in which following a notification neglects what the editor
shows. -/
inductive Neglects (around : Surroundings) (session : Session) : Notification → Prop
  /-- The text of a document that is opened is that of no catalog, and the
  problems of the file that is tracked at its path are not shown. -/
  | opened (uri : Uri) (text : String) (unopened : session.isOpen uri = false)
      (unrestored : session.restoration? ⟨uri, text⟩ = none)
      (due : (session.openDocument ⟨uri, text⟩).due uri ≠ []) :
      Neglects around session (.opened uri text)
  /-- A document is closed whose file is no catalog any more, and the problems
  of this file stay with another document at its path. -/
  | closed (uri other : Uri) (path text : String) (different : other ≠ uri)
      (due : session.due other ≠ []) (place : uri.filePath? = some path)
      (samePlace : other.filePath? = some path)
      (unopened : (session.closeDocument uri).isOpenAt path = false)
      (readable : around.disk.readText path = .ok text)
      (uncataloged : Detection.looksLikeCatalog text = false) :
      Neglects around session (.closed uri)
  /-- Under the settings that are given a file is forgotten. -/
  | settings (value : Json) (store : SettingsStore) (uri : Uri) (path : String)
      (given : session.store.apply (.update value) = (.ok (), store))
      (due : session.due uri ≠ [])
      (place : uri.filePath? = some path)
      (forgets : ({ session with store := store } : Session).Forgets around path) :
      Neglects around session (.settings value)
  /-- Under the settings of a file that changed a file is forgotten. -/
  | settingsFile (changes : List FileChange) (change : String × FileEvent) (loaded : Session)
      (uri : Uri) (path : String) (last : settingsChange? changes = some change)
      (given : session.loadSettings around
        (session.store.root.or (Path.parent? change.1)) = (.ok (), loaded))
      (due : session.due uri ≠ []) (place : uri.filePath? = some path)
      (forgets : loaded.Forgets around path) :
      Neglects around session (.files changes)
  /-- The file of an open document is deleted on the disk, or is no catalog
  any more. -/
  | files (changes : List FileChange) (uri : Uri) (path : String)
      (plain : settingsChange? changes = none) (due : session.due uri ≠ [])
      (place : uri.filePath? = some path)
      (removed : lastAt? ((changedPaths changes).filterMap
        (session.followed? around.disk)) path = some .removed) :
      Neglects around session (.files changes)

theorem refreshes_settingsChanged_iff (value : Json) :
    (session.settingsChanged around value).Refreshes session ↔
      ¬session.Neglects around (.settings value) := by
  rcases session.settingsChanged_cases around value with
    ⟨error, refused, followed⟩ | ⟨store, given, followed⟩
  · rw [followed]
    refine iff_of_true ?_ ?_
    · exact Turn.refreshes_of_silent (silent_singleton fun _ => rfl)
    · intro neglects
      cases neglects with
      | settings _ store uri path given due place forgets => cases refused.symm.trans given
  · rw [followed]
    have sameOpened : session.opened = ({ session with store := store } : Session).opened := rfl
    refine (refreshes_reindex_iff sameOpened).trans ?_
    constructor
    · intro respected neglects
      cases neglects with
      | settings _ store' uri path given' due place forgets =>
          cases given.symm.trans given'
          exact respected uri path due place forgets
    · intro respected uri path due place forgets
      exact respected (.settings value store uri path given due place forgets)

theorem refreshes_settingsFileChanged_iff {changes : List FileChange}
    {change : String × FileEvent} (last : settingsChange? changes = some change) :
    (session.settingsFileChanged around change.1).Refreshes session ↔
      ¬session.Neglects around (.files changes) := by
  dsimp only [settingsFileChanged]
  rcases session.loadSettings_cases around (session.store.root.or (Path.parent? change.1)) with
    ⟨error, -, loads⟩ | ⟨store, -, loads⟩
  · rw [loads]
    refine iff_of_true ?_ ?_
    · exact Turn.refreshes_of_silent (silent_singleton fun _ => rfl)
    · intro neglects
      cases neglects with
      | settingsFile _ change' loaded uri path last' given due place forgets =>
          cases last.symm.trans last'
          cases loads.symm.trans given
      | files _ uri path plain due place removed => cases last.symm.trans plain
  · rw [loads]
    have sameOpened : session.opened = ({ session with store := store } : Session).opened := rfl
    refine (refreshes_reindex_iff sameOpened).trans ?_
    constructor
    · intro respected neglects
      cases neglects with
      | settingsFile _ change' loaded uri path last' given due place forgets =>
          cases last.symm.trans last'
          cases loads.symm.trans given
          exact respected uri path due place forgets
      | files _ uri path plain due place removed => cases last.symm.trans plain
    · intro respected uri path due place forgets
      exact respected (.settingsFile changes change _ uri path last loads due place forgets)

/-- Following a notification refreshes what is shown just if it does not
neglect it. -/
theorem refreshes_follow_iff (notification : Notification) :
    (session.follow around notification).Refreshes session ↔
      ¬session.Neglects around notification := by
  cases notification with
  | ready => exact iff_of_true refreshes_ready (by rintro ⟨⟩)
  | opened uri text =>
      refine refreshes_documentOpened_iff.trans (not_congr ?_)
      constructor
      · rintro ⟨unopened, unrestored, due⟩
        exact .opened uri text unopened unrestored due
      · intro neglects
        cases neglects with
        | opened _ _ unopened unrestored due => exact ⟨unopened, unrestored, due⟩
  | changed uri texts =>
      exact iff_of_true (refreshes_documentChanged uri texts) (by rintro ⟨⟩)
  | closed uri =>
      refine refreshes_documentClosed_iff.trans ?_
      constructor
      · intro respected neglects
        cases neglects with
        | closed _ other path text different due place samePlace unopened readable uncataloged =>
            exact respected other path different due place samePlace
              (rereading?_eq_removed.mpr ⟨unopened, text, readable, uncataloged⟩)
      · intro respected other path different due place samePlace removed
        obtain ⟨unopened, text, readable, uncataloged⟩ := rereading?_eq_removed.mp removed
        exact respected (.closed uri other path text different due place samePlace unopened
          readable uncataloged)
  | settings value => exact refreshes_settingsChanged_iff value
  | files changes =>
      cases last : settingsChange? changes with
      | some change =>
          rw [follow, filesChanged_of_settingsChange last]
          exact refreshes_settingsFileChanged_iff last
      | none =>
          refine (refreshes_filesChanged_iff last).trans ?_
          constructor
          · intro respected neglects
            cases neglects with
            | settingsFile _ change loaded uri path last' given due place forgets =>
                cases last.symm.trans last'
            | files _ uri path plain due place removed => exact respected uri path due place removed
          · intro respected uri path due place removed
            exact respected (.files changes uri path last due place removed)
  | ignored =>
      refine iff_of_true ?_ (by rintro ⟨⟩)
      exact Turn.refreshes_of_silent silent_nil

end Session

end CatalogServer
