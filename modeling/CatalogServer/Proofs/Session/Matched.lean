import CatalogServer.Proofs.Session.Settings
import Mathlib.Tactic.ByContra

/-!
# Tracked files match the patterns

In a session of one folder every way into the tracked files asks whether the
path is that of a catalog file, except one: the file of a document that is
closed is read again whatever its path.  So tracked files match the patterns
in effect along a whole run just if no document is closed whose path does not
match and whose file is a catalog.
-/

namespace CatalogServer

namespace Session

variable {session : Session} {around : Surroundings} {root path : String}

/-- The paths of all tracked files are accepted by the matcher of a root
folder under the settings in effect. -/
def Matching (session : Session) (root : String) : Prop :=
  ∀ file ∈ session.tracked, ∃ matcher,
    FileMatcher.ofSettings root session.settings = .ok matcher ∧
      matcher.accepts file.path = true

/-- The document that is closed is that of a catalog on the disk, which is
tracked then although its path is not that of a catalog file. -/
def TracksUnmatched (around : Surroundings) (session : Session) (uri : Uri) : Prop :=
  ∃ path text, uri.filePath? = some path ∧ session.acceptsPath path = false ∧
    (session.closeDocument uri).isOpenAt path = false ∧ around.disk.HoldsCatalog path text

theorem acceptsPath_eq_true_iff (known : session.store.root = some root) :
    session.acceptsPath path = true ↔ ∃ matcher,
      FileMatcher.ofSettings root session.settings = .ok matcher ∧
        matcher.accepts path = true := by
  unfold acceptsPath
  rw [known]
  dsimp only
  cases FileMatcher.ofSettings root session.settings with
  | error error => simp
  | ok matcher => simp

theorem matching_iff (known : session.store.root = some root) :
    session.Matching root ↔
      ∀ path text, HasText session.tracked path text → session.acceptsPath path = true := by
  constructor
  · rintro matching path text ⟨file, fileMem, rfl, rfl⟩
    exact (acceptsPath_eq_true_iff known).mpr (matching file fileMem)
  · intro accepted file fileMem
    exact (acceptsPath_eq_true_iff known).mp
      (accepted file.path file.text ⟨file, fileMem, rfl, rfl⟩)

theorem Matching.replaceAll (matching : session.Matching root)
    (known : session.store.root = some root) {replacements : List (String × Replacement)}
    (accepted : ∀ path text, (path, .text text) ∈ replacements →
      session.acceptsPath path = true) :
    (session.replaceAll replacements).Matching root := by
  have sameStore := session.replaceAll_store replacements
  rw [matching_iff (sameStore ▸ known), acceptsPath_congr sameStore]
  intro path text tracked
  rw [hasText_replaceAll] at tracked
  split at tracked
  · exact (matching_iff known).mp matching path text tracked
  · exact tracked.elim
  · next last => exact accepted path _ (mem_of_lastAt? last)

theorem acceptsPath_of_restoration {document : OpenDocument} {text : String}
    (restored : session.restoration? document = some (path, .text text)) :
    session.acceptsPath path = true := by
  obtain ⟨-, catalog, -⟩ := restoration?_eq_some.mp restored
  exact (Bool.and_eq_true_iff.mp catalog).2

theorem acceptsPath_of_followed {disk : Disk} {change : String × FileEvent}
    {replacement : Replacement}
    (followed : session.followed? disk change = some (path, replacement)) :
    session.acceptsPath path = true := by
  unfold followed? at followed
  split at followed
  · next accepted =>
      have samePath : change.1 = path := by
        split at followed
        · obtain ⟨_, -, same⟩ := Option.map_eq_some_iff.mp followed
          exact congrArg Prod.fst same
        · obtain ⟨_, -, same⟩ := Option.map_eq_some_iff.mp followed
          exact congrArg Prod.fst same
        · exact congrArg Prod.fst (Option.some.inj followed)
        · cases followed
      rw [← samePath]
      exact accepted
  · cases followed

theorem acceptsPath_of_reaches {disk : Disk} (known : session.store.root = some root)
    (reaches : disk.Reaches session.settings root path) : session.acceptsPath path = true := by
  obtain ⟨place, matcher, indexable, accepted, -⟩ := reaches
  exact (acceptsPath_eq_true_iff known).mpr ⟨matcher, indexable.given, accepted⟩

theorem acceptsPath_of_found (known : session.store.root = some root)
    (reported : around.folderPaths = [root]) {text : String}
    (found : HasText (around.catalogFiles session.settings) path text) :
    session.acceptsPath path = true := by
  obtain ⟨⟨folder, folderMem, reaches⟩, -⟩ := Surroundings.hasText_catalogFiles.mp found
  rw [reported, List.mem_singleton] at folderMem
  subst folderMem
  exact acceptsPath_of_reaches known reaches

theorem Matching.updateDocument (matching : session.Matching root)
    (known : session.store.root = some root) (uri : Uri) (text : String) :
    (session.updateDocument uri text).session.Matching root := by
  rw [updateDocument_session]
  refine matching.replaceAll known ?_
  intro path text restored
  exact acceptsPath_of_restoration (Option.mem_toList.mp restored)

/-- Indexing again leaves only files that match. -/
theorem matching_reindex (known : session.store.root = some root)
    (reported : around.folderPaths = [root]) : (session.reindex around).session.Matching root := by
  rw [matching_iff (reindex_store.symm ▸ known), acceptsPath_congr reindex_store]
  intro path text tracked
  rw [hasText_reindex] at tracked
  split at tracked
  · exact acceptsPath_of_found known reported tracked
  · exact tracked.elim
  · next last =>
      obtain ⟨document, -, restored⟩ := List.mem_filterMap.mp (mem_of_lastAt? last)
      exact acceptsPath_of_restoration restored

theorem matching_closed_iff (matching : session.Matching root)
    (known : session.store.root = some root) (uri : Uri) :
    (session.documentClosed around uri).session.Matching root ↔
      ¬session.TracksUnmatched around uri := by
  have sameStore : (session.documentClosed around uri).session.store = session.store := by
    rw [documentClosed_session, replaceAll_store]
    rfl
  rw [matching_iff (sameStore.symm ▸ known), acceptsPath_congr sameStore]
  constructor
  · rintro accepted ⟨path, text, place, refused, unopened, holds⟩
    have reread := rereading?_eq_text.mpr ⟨unopened, holds⟩
    have tracked : HasText (session.documentClosed around uri).session.tracked path text := by
      rw [hasText_documentClosed, if_pos place, reread]
    rw [accepted path text tracked] at refused
    cases refused
  · intro respected path text tracked
    rw [hasText_documentClosed] at tracked
    split at tracked
    · exact (matching_iff known).mp matching path text tracked
    · exact tracked.elim
    · next replaced last =>
        obtain ⟨place, reread⟩ := Option.ite_none_right_eq_some.mp last
        obtain ⟨unopened, holds⟩ := rereading?_eq_text.mp reread
        by_contra unaccepted
        exact respected
          ⟨path, replaced, place, Bool.eq_false_iff.mpr unaccepted, unopened, holds⟩

/-- Following a notification keeps the match unless it closes a document whose
file is tracked then although it does not match. -/
theorem matching_follow_iff (matching : session.Matching root)
    (known : session.store.root = some root) (reported : around.folderPaths = [root])
    (notification : Notification) :
    (session.follow around notification).session.Matching root ↔
      ∀ uri, notification = .closed uri → ¬session.TracksUnmatched around uri := by
  cases notification with
  | closed uri =>
      refine (matching_closed_iff matching known uri).trans ?_
      constructor
      · rintro respected _ ⟨⟩
        exact respected
      · exact fun respected => respected uri rfl
  | ready =>
      refine iff_of_true ?_ (by rintro uri ⟨⟩)
      rw [follow, ready_session]
      refine (matching_iff ?_).mpr ?_
      · exact known
      intro path text tracked
      rcases hasText_merge.mp tracked with found | ⟨-, held⟩
      · exact acceptsPath_of_found known reported found
      · exact (matching_iff known).mp matching path text held
  | opened uri text =>
      refine iff_of_true ?_ (by rintro uri ⟨⟩)
      have opened : (session.openDocument ⟨uri, text⟩).Matching root := matching
      exact opened.updateDocument known uri text
  | changed uri texts =>
      refine iff_of_true ?_ (by rintro uri ⟨⟩)
      dsimp only [follow, documentChanged]
      split
      · exact matching
      · next text _ =>
          have edited : (session.editDocument uri text).Matching root := matching
          exact edited.updateDocument known uri text
  | settings value =>
      refine iff_of_true ?_ (by rintro uri ⟨⟩)
      rw [follow]
      rcases session.settingsChanged_cases around value with
        ⟨error, -, followed⟩ | ⟨store, given, followed⟩
      · rw [followed]
        exact matching
      · rw [followed]
        have sameRoot := (SettingsStore.update_eq_ok given).2
        exact matching_reindex (sameRoot.trans known) reported
  | files changes =>
      refine iff_of_true ?_ (by rintro uri ⟨⟩)
      rw [follow, filesChanged_session]
      cases settingsChange? changes with
      | some change =>
          dsimp only [settingsFileChanged]
          rw [known, Option.some_or]
          rcases session.loadSettings_cases around (some root) with
            ⟨error, -, loads⟩ | ⟨store, stored, loads⟩
          · rw [loads]
            exact matching
          · rw [loads]
            exact matching_reindex (SettingsStore.load_eq_ok stored).2 reported
      | none =>
          refine matching.replaceAll known ?_
          intro path text followed
          obtain ⟨change, -, followed⟩ := List.mem_filterMap.mp followed
          exact acceptsPath_of_followed followed
  | ignored => exact iff_of_true matching (by rintro uri ⟨⟩)

end Session

namespace Server

variable {server : Server} {root : String}

/-- While a session runs its root folder is known; before it is started
nothing is tracked. -/
structure Rooted (server : Server) (root : String) : Prop where
  known : server.phase = .running → server.session.store.root = some root
  untracked : server.phase = .fresh → server.session.tracked = []

/-- A message closes a document whose file is tracked then although it does
not match. -/
def TracksUnmatched (server : Server) (arrival : Arrival) : Prop :=
  ∃ uri, server.notified? arrival.incoming = some (.closed uri) ∧
    server.session.TracksUnmatched arrival.around uri

theorem not_tracksUnmatched {arrival : Arrival}
    (unfollowed : server.notified? arrival.incoming = none) : ¬server.TracksUnmatched arrival := by
  rintro ⟨uri, notified, -⟩
  cases unfollowed.symm.trans notified

theorem Rooted.next (rooted : server.Rooted root) {arrival : Arrival} {rest : List Arrival}
    (starts : server.StartsIn root (arrival :: rest)) : (server.next arrival).Rooted root := by
  cases server.step_cases arrival with
  | starts start started next sent =>
      obtain ⟨rfl, valid⟩ := starts.head started
      refine ⟨fun _ => root_of_started started valid, ?_⟩
      rw [next]
      rintro ⟨⟩
  | follows notification notified next sent =>
      have running := running_of_notified notified
      constructor
      · intro _
        have fresh : server.phase ≠ .fresh := by simp [running]
        exact root_next (rooted.known running) fresh arrival
      · rw [next]
        intro fresh
        cases running.symm.trans fresh
  | rests handled unfollowed next sent rests =>
      rw [next]
      constructor
      · intro running
        rw [rests.store]
        exact rooted.known (rests.running running)
      · intro fresh
        rw [rests.tracked]
        exact rooted.untracked (rests.fresh fresh)

theorem matching_next_iff (rooted : server.Rooted root)
    (matching : server.session.Matching root) {arrival : Arrival}
    (reported : arrival.around.folderPaths = [root]) :
    (server.next arrival).session.Matching root ↔ ¬server.TracksUnmatched arrival := by
  cases server.step_cases arrival with
  | starts start started next sent =>
      refine iff_of_true ?_ (not_tracksUnmatched (notified?_of_started started))
      have untracked := rooted.untracked (fresh_of_started started)
      rw [next, Session.Matching]
      dsimp only
      rw [Session.start_tracked, untracked]
      simp
  | follows notification notified next sent =>
      have known := rooted.known (running_of_notified notified)
      rw [next]
      refine (Session.matching_follow_iff matching known reported notification).trans ?_
      constructor
      · rintro respected ⟨uri, closed, unmatched⟩
        exact respected uri (Option.some.inj (notified.symm.trans closed)) unmatched
      · rintro respected uri rfl unmatched
        exact respected ⟨uri, notified, unmatched⟩
  | rests handled unfollowed next sent rests =>
      refine iff_of_true ?_ (not_tracksUnmatched unfollowed)
      rw [next, Session.Matching, rests.tracked, Session.settings, rests.store]
      exact matching

/-- In a session of one folder, which is started with valid settings or none
and is the only folder that is ever named, the tracked files match in every
state just if no document is closed whose file is tracked then although it
does not match. -/
theorem matching_throughout_iff {folder : Uri} (place : folder.filePath? = some root)
    (arrivals : List Arrival) (starts : StartsIn {} root arrivals)
    (reported : ∀ arrival ∈ arrivals, arrival.around.folders = some [folder]) :
    (∀ count, (run {} (arrivals.take count)).session.Matching root) ↔
      ∀ count arrival, arrivals[count]? = some arrival →
        ¬(run {} (arrivals.take count)).TracksUnmatched arrival := by
  refine foldl_throughout_iff
    (fun server rest => server.Rooted root ∧ server.StartsIn root rest ∧
      ∀ arrival ∈ rest, arrival.around.folders = some [folder])
    (fun server => server.session.Matching root) TracksUnmatched ?_ ?_ arrivals ?_ ?_
  · rintro server arrival rest ⟨rooted, starts, reported⟩
    exact ⟨rooted.next starts, starts.tail, (List.forall_mem_cons.mp reported).2⟩
  · rintro server arrival rest ⟨rooted, starts, reported⟩ matching
    refine matching_next_iff rooted matching ?_
    simp [Surroundings.folderPaths, (List.forall_mem_cons.mp reported).1, place]
  · exact ⟨⟨by rintro ⟨⟩, fun _ => rfl⟩, starts, reported⟩
  · simp [Session.Matching]

/-- The only folder holds a catalog, and another one that is excluded. -/
def excludingFolder : Surroundings :=
  let text := Text.encode "<TS></TS>".toList
  { emptyFolder with
    disk := (emptyFolder.disk.write ["ws", "a.ts"] text).write ["ws", "target", "b.ts"] text }

/-- A session of this folder in which a document is opened and closed. -/
def openedAndClosed (address : String) : List Arrival :=
  let document := Json.ofMembers [("uri", .string address), ("languageId", .string "xml"),
    ("version", Json.ofInt 1), ("text", .string "<TS></TS>")]
  let identifier := Json.ofMembers [("uri", .string address)]
  starting excludingFolder ["file:///ws"] ++
    [⟨excludingFolder, .notification "textDocument/didOpen"
      (some (Json.ofMembers [("textDocument", document)]))⟩,
    ⟨excludingFolder, .notification "textDocument/didClose"
      (some (Json.ofMembers [("textDocument", identifier)]))⟩]

theorem startsIn_openedAndClosed (address : String) :
    StartsIn {} "/ws" (openedAndClosed address) :=
  startsIn_of_started (by decide +kernel) (Disk.hasValidSettings_of_absent (by decide)) _

theorem folders_openedAndClosed (address : String) :
    ∀ arrival ∈ openedAndClosed address,
      arrival.around.folders = some [⟨"file", some "", "/ws", none, none⟩] := by
  simp [openedAndClosed, starting, excludingFolder, emptyFolder]

/-- Closing the document of the catalog that matches leaves only files that
match. -/
theorem matching_closedIncluded :
    (run {} (openedAndClosed "file:///ws/a.ts")).session.Matching "/ws" := by
  refine (matching_throughout_iff (by decide +kernel) _ (startsIn_openedAndClosed _)
    (folders_openedAndClosed _)).mpr ?_ 4
  rintro count arrival arrives ⟨uri, notified, path, text, place, refused, -⟩
  match count with
  | 0 =>
      cases arrives
      cases notified
  | 1 =>
      cases arrives
      cases notified
  | 2 =>
      cases arrives
      cases notified
  | 3 =>
      cases arrives
      cases notified
      cases place
      revert refused
      decide +kernel
  | count + 4 => cases arrives

/-- Closing the document of the one that is excluded tracks it. -/
theorem not_matching_closedExcluded :
    StartsIn {} "/ws" (openedAndClosed "file:///ws/target/b.ts") ∧
      (∀ arrival ∈ openedAndClosed "file:///ws/target/b.ts",
        arrival.around.folders = some [⟨"file", some "", "/ws", none, none⟩]) ∧
        ¬∀ count, (run {} ((openedAndClosed "file:///ws/target/b.ts").take
          count)).session.Matching "/ws" := by
  refine ⟨startsIn_openedAndClosed _, folders_openedAndClosed _, ?_⟩
  intro throughout
  have unmatched : ∃ file ∈ (run {} (openedAndClosed "file:///ws/target/b.ts")).session.tracked,
      (run {} (openedAndClosed "file:///ws/target/b.ts")).session.acceptsPath file.path =
        false := by
    decide +kernel
  obtain ⟨file, fileMem, refused⟩ := unmatched
  have known : (run {} (openedAndClosed "file:///ws/target/b.ts")).session.store.root =
      some "/ws" := by
    decide +kernel
  have accepted := (Session.acceptsPath_eq_true_iff known).mpr (throughout 4 file fileMem)
  cases refused.symm.trans accepted

end Server

end CatalogServer
