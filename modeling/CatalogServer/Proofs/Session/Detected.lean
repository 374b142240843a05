import CatalogServer.Proofs.Session.Runs
import CatalogServer.Proofs.Workspace.Indexing

/-!
# Tracked files are distinct and detected

The list of tracked files is written by indexing, which merges the files of
a folder into it, and by replacing the file at one path.  Both look at the
text and detect language and project anew, and both put a file in the place
of the one at its path.  So in every state of a server no two tracked files
lie at one path, and each of them is what detection makes of its path and
text.

Indexing relies on the disk for this: the files below a folder have to have
different paths, as they do when no name on the disk is empty or holds a
slash.
-/

namespace CatalogServer

open Text

/-- A file looks like a catalog, and its language and project are those that
are detected from its path and text. -/
structure CatalogFile.Detected (file : CatalogFile) : Prop where
  catalog : Detection.looksLikeCatalog file.text = true
  language : file.language = Detection.language file.path file.text
  project : file.project = Detection.project file.path

/-- Files lie at different paths, and each of them is detected. -/
structure WellTracked (files : List CatalogFile) : Prop where
  distinct : files.Pairwise fun first second => first.path ≠ second.path
  detected : ∀ file ∈ files, file.Detected

theorem CatalogFile.detected_ofText {text : String}
    (catalog : Detection.looksLikeCatalog text = true) (path : String) :
    (CatalogFile.ofText path text).Detected :=
  ⟨catalog, rfl, rfl⟩

theorem Indexing.pairwise_merge {tracked found : List CatalogFile}
    (held : tracked.Pairwise fun first second => first.path ≠ second.path)
    (files : found.Pairwise fun first second => first.path ≠ second.path) :
    (merge tracked found).Pairwise fun first second => first.path ≠ second.path := by
  refine List.pairwise_append.mpr ⟨held.filter _, files, ?_⟩
  intro file kept other otherMem samePath
  have absent := (List.mem_filter.mp kept).2
  simp only [Bool.not_eq_true', List.any_eq_false, beq_iff_eq] at absent
  exact absent other otherMem samePath.symm

namespace WellTracked

variable {tracked found : List CatalogFile}

theorem nil : WellTracked [] :=
  ⟨.nil, by simp⟩

theorem filter (wellTracked : WellTracked tracked) (keeps : CatalogFile → Bool) :
    WellTracked (tracked.filter keeps) where
  distinct := wellTracked.distinct.filter keeps
  detected file fileMem := wellTracked.detected file (List.mem_filter.mp fileMem).1

theorem merge (held : WellTracked tracked) (files : WellTracked found) :
    WellTracked (Indexing.merge tracked found) where
  distinct := Indexing.pairwise_merge held.distinct files.distinct
  detected file fileMem := by
    rcases List.mem_append.mp fileMem with kept | added
    · exact held.detected file (List.mem_filter.mp kept).1
    · exact files.detected file added

theorem track {session : Session} (wellTracked : WellTracked session.tracked) {text : String}
    (catalog : Detection.looksLikeCatalog text = true) (path : String) :
    WellTracked (session.track path text).tracked where
  distinct := by
    unfold Session.track
    by_cases held : session.tracked.any (·.path == path) = true
    · rw [if_pos held]
      have samePath (file : CatalogFile) :
          (if file.path == path then CatalogFile.ofText path text else file).path = file.path := by
        split
        case isTrue here => exact (beq_iff_eq.mp here).symm
        case isFalse => rfl
      rw [List.pairwise_map]
      simpa only [samePath] using wellTracked.distinct
    · rw [if_neg held]
      refine List.pairwise_append.mpr
        ⟨wellTracked.distinct, List.pairwise_singleton _ _, ?_⟩
      intro file fileMem other otherMem samePath
      rw [List.mem_singleton] at otherMem
      subst otherMem
      exact held (List.any_eq_true.mpr ⟨file, fileMem, beq_iff_eq.mpr samePath⟩)
  detected file fileMem := by
    rw [Session.mem_track] at fileMem
    split at fileMem
    · exact fileMem ▸ CatalogFile.detected_ofText catalog path
    · exact wellTracked.detected file fileMem

/-- Replacements keep tracked files in order when every text that is put in
looks like a catalog. -/
theorem replaceAll {session : Session} (wellTracked : WellTracked session.tracked)
    {replacements : List (String × Replacement)}
    (catalogs : ∀ path text, (path, .text text) ∈ replacements →
      Detection.looksLikeCatalog text = true) :
    WellTracked (session.replaceAll replacements).tracked := by
  induction replacements generalizing session with
  | nil => exact wellTracked
  | cons replaced rest ih =>
      obtain ⟨path, replacement⟩ := replaced
      have later : ∀ path text, (path, .text text) ∈ rest →
          Detection.looksLikeCatalog text = true :=
        fun path text inRest => catalogs path text (List.mem_cons_of_mem _ inRest)
      rw [Session.replaceAll_cons]
      cases replacement with
      | removed => exact ih (wellTracked.filter _) later
      | text text =>
          exact ih (wellTracked.track (catalogs path text List.mem_cons_self) path) later

end WellTracked

section Indexing

/-- Different files that are searched below a folder have different paths
there. -/
def Disk.DistinctPaths (disk : Disk) : Prop :=
  ∀ folder, ∀ first ∈ disk.search folder, ∀ second ∈ disk.search folder,
    Disk.relativePath folder first = Disk.relativePath folder second → first = second

/-- The names of files and folders are not empty and hold no slash. -/
def Disk.PlainNames (disk : Disk) : Prop :=
  ∀ entry ∈ disk.files.entries, ∀ name ∈ entry.1, name ≠ "" ∧ '/' ∉ name.toList

instance (disk : Disk) : Decidable disk.PlainNames :=
  inferInstanceAs (Decidable (∀ entry ∈ disk.files.entries, ∀ name ∈ entry.1, _ ∧ _))

/-- Names without slashes can be told apart when they are joined by slashes. -/
theorem names_eq_of_intercalate {first second : List String}
    (plainFirst : ∀ name ∈ first, name ≠ "" ∧ '/' ∉ name.toList)
    (plainSecond : ∀ name ∈ second, name ≠ "" ∧ '/' ∉ name.toList)
    (same : "/".intercalate first = "/".intercalate second) : first = second := by
  have split {names : List String} (plain : ∀ name ∈ names, name ≠ "" ∧ '/' ∉ name.toList)
      (some : names ≠ []) :
      ("/".intercalate names).toList.splitOn '/' = names.map String.toList := by
    rw [String.toList_intercalate]
    refine List.splitOn_intercalate '/' ?_ (by simpa using some)
    simp only [List.mem_map, forall_exists_index, and_imp, forall_apply_eq_imp_iff₂]
    exact fun name nameMem => (plain name nameMem).2
  have nonempty {names : List String} (plain : ∀ name ∈ names, name ≠ "" ∧ '/' ∉ name.toList)
      (none : "/".intercalate names = "") : names = [] := by
    by_contra some
    have parts := split plain some
    rw [none] at parts
    have single : names.map String.toList = [[]] := parts.symm
    obtain ⟨name, rfl, empty⟩ := List.map_eq_singleton_iff.mp single
    exact (plain name List.mem_cons_self).1 (String.toList_inj.mp empty)
  by_cases firstEmpty : first = []
  · subst firstEmpty
    exact (nonempty plainSecond same.symm).symm
  by_cases secondEmpty : second = []
  · subst secondEmpty
    exact nonempty plainFirst same
  have sameParts := split plainFirst firstEmpty
  rw [same, split plainSecond secondEmpty] at sameParts
  exact List.map_inj_right (fun _ _ => String.toList_inj.mp) |>.mp sameParts.symm

theorem Disk.distinctPaths_of_plainNames {disk : Disk} (plain : disk.PlainNames) :
    disk.DistinctPaths := by
  intro folder first firstFound second secondFound samePath
  have below {place : Place} (found : place ∈ disk.search folder) :
      place = folder ++ place.drop folder.length ∧
        ∀ name ∈ place.drop folder.length, name ≠ "" ∧ '/' ∉ name.toList := by
    obtain ⟨placeMem, searched⟩ := List.mem_filter.mp found
    obtain ⟨entry, entryMem, rfl⟩ := List.mem_map.mp placeMem
    obtain ⟨inside, -⟩ := Bool.and_eq_true_iff.mp searched
    obtain ⟨names, whole⟩ := List.isPrefixOf_iff_prefix.mp inside
    refine ⟨?_, fun name nameMem => plain entry entryMem name (List.mem_of_mem_drop nameMem)⟩
    rw [← whole, List.drop_left]
  obtain ⟨firstWhole, firstPlain⟩ := below firstFound
  obtain ⟨secondWhole, secondPlain⟩ := below secondFound
  rw [firstWhole, secondWhole, names_eq_of_intercalate firstPlain secondPlain samePath]

theorem Path.join_right_inj {folder first second : String}
    (same : Path.join folder first = Path.join folder second) : first = second := by
  unfold Path.join at same
  split at same
  · exact (String.append_right_inj _).mp same
  · exact (String.append_right_inj _).mp same

theorem Indexing.detected_of_loadCandidate {disk : Disk} {path : String} {file : CatalogFile}
    (loaded : Indexing.loadCandidate? disk path = some file) :
    file.Detected ∧ file.path = path := by
  obtain ⟨text, ⟨-, catalog⟩, rfl⟩ := Indexing.loadCandidate?_eq_some.mp loaded
  exact ⟨CatalogFile.detected_ofText catalog path, rfl⟩

theorem Indexing.pairwise_loaded {disk : Disk} {paths : List String}
    (distinct : paths.Pairwise fun first second => first ≠ second) :
    (paths.filterMap (loadCandidate? disk)).Pairwise
      fun first second => first.path ≠ second.path := by
  refine distinct.filterMap _ ?_
  intro first second different file firstLoaded other secondLoaded
  rw [(detected_of_loadCandidate firstLoaded).2, (detected_of_loadCandidate secondLoaded).2]
  exact different

theorem Disk.pairwise_search (disk : Disk) (folder : Place) :
    (disk.search folder).Pairwise fun first second => first ≠ second := by
  refine List.Pairwise.filter _ (List.pairwise_map.mpr ?_)
  refine disk.files.sorted.imp ?_
  intro first second increasing same
  simp [same] at increasing

theorem Indexing.pairwise_candidatePaths {disk : Disk} (distinct : disk.DistinctPaths)
    (matcher : FileMatcher) (folder : Place) :
    (candidatePaths disk matcher folder).Pairwise fun first second => first ≠ second := by
  refine List.Pairwise.filter _ (List.pairwise_map.mpr ?_)
  refine (disk.pairwise_search folder).imp_of_mem ?_
  intro first second firstFound secondFound different same
  exact different (distinct folder first firstFound second secondFound (Path.join_right_inj same))

theorem Surroundings.wellTracked_filesIn {around : Surroundings}
    (distinct : around.disk.DistinctPaths) (settings : Settings) (folder : String) :
    WellTracked (around.filesIn settings folder) := by
  unfold Surroundings.filesIn
  cases indexed : Indexing.indexFolder around.disk settings folder with
  | error error => exact .nil
  | ok found =>
      obtain ⟨place, matcher, -, rfl⟩ := Indexing.indexFolder_eq_ok.mp indexed
      dsimp only
      constructor
      · exact Indexing.pairwise_loaded (Indexing.pairwise_candidatePaths distinct matcher place)
      · intro file fileMem
        obtain ⟨path, -, loaded⟩ := List.mem_filterMap.mp fileMem
        exact (Indexing.detected_of_loadCandidate loaded).1

theorem Surroundings.wellTracked_catalogFiles {around : Surroundings}
    (distinct : around.disk.DistinctPaths) (settings : Settings) :
    WellTracked (around.catalogFiles settings) := by
  have folded : ∀ (folders : List String) (held : List CatalogFile), WellTracked held →
      WellTracked (folders.foldl
        (fun held folder => Indexing.merge held (around.filesIn settings folder)) held) := by
    intro folders
    induction folders with
    | nil => exact fun _ => id
    | cons folder rest ih =>
        exact fun held wellTracked =>
          ih _ (wellTracked.merge (around.wellTracked_filesIn distinct settings folder))
  exact folded _ [] .nil

end Indexing

namespace Session

variable {session : Session} {around : Surroundings}

theorem looksLikeCatalog_of_isCatalog {path text : String}
    (catalog : session.isCatalog path text = true) :
    Detection.looksLikeCatalog text = true :=
  (Bool.and_eq_true_iff.mp catalog).1

theorem looksLikeCatalog_of_restoration {document : OpenDocument} {path text : String}
    (restored : session.restoration? document = some (path, .text text)) :
    Detection.looksLikeCatalog text = true := by
  obtain ⟨-, catalog, same⟩ := restoration?_eq_some.mp restored
  cases same
  exact looksLikeCatalog_of_isCatalog catalog

theorem looksLikeCatalog_of_rereading {disk : Disk} {path text : String}
    (reread : session.rereading? disk path = some (.text text)) :
    Detection.looksLikeCatalog text = true := by
  unfold rereading? at reread
  split at reread
  · cases reread
  · obtain ⟨read, -, replacement⟩ := Option.map_eq_some_iff.mp reread
    split at replacement
    · next catalog =>
        cases replacement
        exact catalog
    · cases replacement

theorem looksLikeCatalog_of_followed {disk : Disk} {change : String × FileEvent}
    {path text : String} (followed : session.followed? disk change = some (path, .text text)) :
    Detection.looksLikeCatalog text = true := by
  unfold followed? at followed
  split at followed
  · split at followed
    · obtain ⟨replacement, reread, same⟩ := Option.map_eq_some_iff.mp followed
      cases same
      exact looksLikeCatalog_of_rereading reread
    · obtain ⟨replacement, reread, same⟩ := Option.map_eq_some_iff.mp followed
      cases same
      exact looksLikeCatalog_of_rereading reread
    · cases followed
    · cases followed
  · cases followed

theorem wellTracked_updateDocument (wellTracked : WellTracked session.tracked) (uri : Uri)
    (text : String) : WellTracked (session.updateDocument uri text).session.tracked := by
  rw [updateDocument_session]
  refine wellTracked.replaceAll ?_
  intro path restored restoredMem
  exact looksLikeCatalog_of_restoration (Option.mem_toList.mp restoredMem)

/-- Indexing again leaves nothing of the files tracked before. -/
theorem wellTracked_reindex (distinct : around.disk.DistinctPaths) :
    WellTracked (session.reindex around).session.tracked := by
  rw [reindex_tracked]
  refine WellTracked.replaceAll (around.wellTracked_catalogFiles distinct _) ?_
  intro path text restored
  obtain ⟨document, -, restored⟩ := List.mem_filterMap.mp restored
  exact looksLikeCatalog_of_restoration restored

theorem wellTracked_filesChanged (distinct : around.disk.DistinctPaths)
    (wellTracked : WellTracked session.tracked) (changes : List FileChange) :
    WellTracked (session.filesChanged around changes).session.tracked := by
  rw [filesChanged_session]
  cases settingsChange? changes with
  | some change =>
      dsimp only [settingsFileChanged]
      rcases session.loadSettings_cases around
          (session.store.root.or (Path.parent? change.1)) with
        ⟨error, -, loads⟩ | ⟨store, -, loads⟩
      · rw [loads]
        exact wellTracked
      · rw [loads]
        exact wellTracked_reindex distinct
  | none =>
      refine wellTracked.replaceAll ?_
      intro path text followed
      obtain ⟨change, -, followed⟩ := List.mem_filterMap.mp followed
      exact looksLikeCatalog_of_followed followed

theorem wellTracked_follow (distinct : around.disk.DistinctPaths)
    (wellTracked : WellTracked session.tracked) (notification : Notification) :
    WellTracked (session.follow around notification).session.tracked := by
  cases notification with
  | ready =>
      rw [follow, ready_session]
      exact wellTracked.merge (around.wellTracked_catalogFiles distinct _)
  | opened uri text =>
      have opened : WellTracked (session.openDocument ⟨uri, text⟩).tracked := wellTracked
      exact wellTracked_updateDocument opened uri text
  | changed uri texts =>
      dsimp only [follow, documentChanged]
      split
      · exact wellTracked
      · next text _ =>
          have edited : WellTracked (session.editDocument uri text).tracked := wellTracked
          exact wellTracked_updateDocument edited uri text
  | closed uri =>
      have closed : WellTracked (session.closeDocument uri).tracked := wellTracked
      rw [follow, documentClosed_session]
      refine closed.replaceAll ?_
      intro path text replaced
      obtain ⟨place, -, reread⟩ := List.mem_flatMap.mp replaced
      obtain ⟨replacement, reread, same⟩ := List.mem_map.mp reread
      cases same
      exact looksLikeCatalog_of_rereading (Option.mem_toList.mp reread)
  | settings value =>
      rw [follow]
      rcases session.settingsChanged_cases around value with
        ⟨error, -, followed⟩ | ⟨store, -, followed⟩
      · rw [followed]
        exact wellTracked
      · rw [followed]
        exact wellTracked_reindex distinct
  | files changes => exact wellTracked_filesChanged distinct wellTracked changes
  | ignored => exact wellTracked

end Session

namespace Server

variable {server : Server}

theorem wellTracked_next {arrival : Arrival} (distinct : arrival.around.disk.DistinctPaths)
    (wellTracked : WellTracked server.session.tracked) :
    WellTracked (server.next arrival).session.tracked := by
  cases server.step_cases arrival with
  | starts root started next sent =>
      rw [next]
      exact (Session.start_tracked arrival.around root).symm ▸ wellTracked
  | follows notification notified next sent =>
      rw [next]
      exact Session.wellTracked_follow distinct wellTracked notification
  | rests handled unfollowed next sent rests =>
      rw [next, rests.tracked]
      exact wellTracked

theorem wellTracked_run_of_wellTracked {arrivals : List Arrival}
    (distinct : ∀ arrival ∈ arrivals, arrival.around.disk.DistinctPaths)
    (wellTracked : WellTracked server.session.tracked) :
    WellTracked (server.run arrivals).session.tracked := by
  induction arrivals generalizing server with
  | nil => exact wellTracked
  | cons arrival rest ih =>
      obtain ⟨first, later⟩ := List.forall_mem_cons.mp distinct
      exact ih later (wellTracked_next first wellTracked)

/-- In every state of a run no two tracked files lie at one path, and each
tracked file is what detection makes of its path and text. -/
theorem wellTracked_run (arrivals : List Arrival)
    (distinct : ∀ arrival ∈ arrivals, arrival.around.disk.DistinctPaths) :
    WellTracked (run {} arrivals).session.tracked :=
  wellTracked_run_of_wellTracked distinct .nil

/-- Two catalogs on a disk, one of them in a folder that is named along with
the folder around it. -/
def nestedFolders : Surroundings where
  disk :=
    let folder : Disk := { folders := [["ws"]] }
    let text := encode "<TS></TS>".toList
    (folder.write ["ws", "a.ts"] text).write ["ws", "b", "c_da.ts"] text
  folders := some [⟨"file", none, "/ws", none, none⟩, ⟨"file", none, "/ws/b", none, none⟩]

def indexedTwice : List Arrival :=
  [⟨nestedFolders, .request "initialize"
      (some (Json.ofMembers [("capabilities", Json.ofMembers [])]))⟩,
    ⟨nestedFolders, .notification "initialized" (some (Json.ofMembers []))⟩]

theorem wellTracked_indexedTwice :
    (run {} indexedTwice).session.tracked.map (·.path) = ["/ws/a.ts", "/ws/b/c_da.ts"] ∧
      WellTracked (run {} indexedTwice).session.tracked := by
  refine ⟨by decide +kernel, wellTracked_run indexedTwice ?_⟩
  have plain : nestedFolders.disk.PlainNames := by decide
  intro arrival arrivalMem
  have around : arrival.around = nestedFolders := by
    revert arrival
    simp [indexedTwice]
  rw [around]
  exact Disk.distinctPaths_of_plainNames plain

end Server

end CatalogServer
