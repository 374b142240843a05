import CatalogServer.Proofs.Session.Settings

/-!
# Changes of files along with settings

A change of a settings file covers all other changes of its batch, since the
workspace is indexed again.  But it is so only when the settings can be
loaded: settings that are refused leave the files as they were, and what the
batch tells about catalogs is lost.
-/

namespace CatalogServer

namespace Session

variable {session : Session} {around : Surroundings} {path text : String}

/-- A batch of changes reports a catalog, which is to be tracked after it: it
was written in a folder that the editor names, its path is that of a catalog
file, and it is not open. -/
structure Reports (around : Surroundings) (changes : List FileChange) (after : Session)
    (path text : String) : Prop where
  written : (path, .created) ∈ changedPaths changes ∨ (path, .changed) ∈ changedPaths changes
  reached : ∃ folder ∈ around.folderPaths, around.disk.Reaches after.settings folder path
  accepted : after.acceptsPath path = true
  unopened : ∀ document ∈ after.opened, document.uri.filePath? ≠ some path
  holds : around.disk.HoldsCatalog path text

/-- Indexing again finds what no document takes the place of. -/
theorem hasText_reindex_of_unopened
    (unopened : ∀ document ∈ session.opened, document.uri.filePath? ≠ some path) {held : String} :
    HasText (session.reindex around).session.tracked path held ↔
      HasText (around.catalogFiles session.settings) path held := by
  have untouched : lastAt? (session.opened.filterMap session.restoration?) path = none := by
    refine lastAt?_restorations_eq_none.mpr ?_
    intro other otherMem place
    exact absurd place (unopened other otherMem)
  rw [hasText_reindex, untouched]

theorem Reports.hasText_reindex {changes : List FileChange}
    (reports : Reports around changes (session.reindex around).session path text)
    {held : String} :
    HasText (session.reindex around).session.tracked path held ↔ held = text := by
  have unopened := reports.unopened
  rw [reindex_opened] at unopened
  have reached := reports.reached
  rw [settings, reindex_store] at reached
  rw [hasText_reindex_of_unopened unopened, Surroundings.hasText_catalogFiles]
  constructor
  · rintro ⟨-, holds⟩
    exact Except.ok.inj (holds.1.symm.trans reports.holds.1)
  · rintro rfl
    exact ⟨reached, reports.holds⟩

end Session

namespace Server

variable {server : Server} {arrival : Arrival}

/-- After a batch of changes with one of a settings file, a catalog that it
reports is tracked with its text on the disk just if the settings could be
loaded, or it was tracked so before. -/
theorem tracked_of_batch_iff {changes : List Session.FileChange}
    {change : String × Session.FileEvent}
    (notified : server.notified? arrival.incoming = some (.files changes))
    (last : Session.settingsChange? changes = some change) {path text : String}
    (reports : Session.Reports arrival.around changes (server.next arrival).session path text) :
    (∀ held, HasText (server.next arrival).session.tracked path held ↔ held = text) ↔
      (server.session.loadSettings arrival.around
          (server.session.store.root.or (Path.parent? change.1))).1 = .ok () ∨
        ∀ held, HasText server.session.tracked path held ↔ held = text := by
  rw [next_of_notified notified, Session.follow,
    Session.filesChanged_of_settingsChange last, Session.settingsFileChanged] at reports ⊢
  rcases server.session.loadSettings_cases arrival.around
      (server.session.store.root.or (Path.parent? change.1)) with
    ⟨error, -, loads⟩ | ⟨store, -, loads⟩
  · rw [loads]
    refine (or_iff_right ?_).symm
    rintro ⟨⟩
  · rw [loads] at reports ⊢
    exact iff_of_true (fun held => reports.hasText_reindex) (.inl rfl)

/-- The folder with a catalog and a settings file in it. -/
def writtenFolder (settings : List UInt8) : Surroundings :=
  { emptyFolder with
    disk := (emptyFolder.disk.write ["ws", settingsFileName] settings).write ["ws", "a.ts"]
      (Text.encode "<TS></TS>".toList) }

def writtenFiles : List Session.FileChange :=
  [⟨⟨"file", some "", "/ws/.linguist-ls.json", none, none⟩, .created⟩,
    ⟨⟨"file", some "", "/ws/a.ts", none, none⟩, .created⟩]

/-- Both files are created, and told in one batch. -/
def writtenTogether (settings : List UInt8) : Arrival :=
  let creation := fun (address : String) =>
    Json.ofMembers [("uri", .string address), ("type", Json.ofInt 1)]
  ⟨writtenFolder settings, .notification "workspace/didChangeWatchedFiles"
    (some (Json.ofMembers [("changes", .array [creation "file:///ws/.linguist-ls.json",
      creation "file:///ws/a.ts"])]))⟩

theorem notified_writtenTogether (settings : List UInt8) :
    (run {} (starting emptyFolder ["file:///ws"])).notified? (writtenTogether settings).incoming =
      some (.files writtenFiles) := by
  rfl

/-- The session after the batch. -/
def afterWriting (settings : List UInt8) : Session :=
  ((run {} (starting emptyFolder ["file:///ws"])).next (writtenTogether settings)).session

theorem reports_writtenTogether {settings : List UInt8}
    (counts : (∃ file ∈ (writtenFolder settings).filesIn (afterWriting settings).settings "/ws",
        file.path = "/ws/a.ts" ∧ file.text = "<TS></TS>") ∧
      (afterWriting settings).acceptsPath "/ws/a.ts" = true ∧
        (afterWriting settings).opened = []) :
    Session.Reports (writtenFolder settings) writtenFiles (afterWriting settings) "/ws/a.ts"
      "<TS></TS>" := by
  obtain ⟨found, accepted, unopened⟩ := counts
  obtain ⟨reached, holds⟩ := Surroundings.hasText_filesIn.mp found
  refine ⟨.inl (by decide +kernel), ⟨"/ws", ?_, reached⟩, accepted, ?_, holds⟩
  · have paths : emptyFolder.folderPaths = ["/ws"] := by decide +kernel
    exact paths ▸ List.mem_singleton_self "/ws"
  · rw [unopened]
    rintro document ⟨⟩

/-- A catalog is tracked that was told of along with settings that can be
loaded. -/
theorem tracked_writtenTogether :
    HasText (afterWriting (Text.encode "\x7b\x7d".toList)).tracked "/ws/a.ts" "<TS></TS>" := by
  have last : Session.settingsChange? writtenFiles = some ("/ws/.linguist-ls.json", .created) := by
    decide +kernel
  have reports : Session.Reports (writtenFolder (Text.encode "\x7b\x7d".toList)) writtenFiles
      (afterWriting (Text.encode "\x7b\x7d".toList)) "/ws/a.ts" "<TS></TS>" :=
    reports_writtenTogether (by decide +kernel)
  refine ((tracked_of_batch_iff (notified_writtenTogether _) last reports).mpr (.inl ?_) _).mpr rfl
  have loads : ((run {} (starting emptyFolder ["file:///ws"])).session.loadSettings
      (writtenFolder (Text.encode "\x7b\x7d".toList))
      ((run {} (starting emptyFolder ["file:///ws"])).session.store.root.or
        (Path.parent? "/ws/.linguist-ls.json"))).1.toOption = some () := by
    decide +kernel
  exact Except.toOption_eq_some_iff.mp loads

/-- A catalog is not tracked that was told of along with settings that are
refused. -/
theorem not_tracked_refusedSettings :
    (run {} (starting emptyFolder ["file:///ws"])).notified?
        (writtenTogether refusedSettings).incoming = some (.files writtenFiles) ∧
      (Session.settingsChange? writtenFiles).isSome = true ∧
    ¬∀ path text, Session.Reports (writtenFolder refusedSettings) writtenFiles
        (afterWriting refusedSettings) path text →
      ∀ held, HasText (afterWriting refusedSettings).tracked path held ↔ held = text := by
  refine ⟨notified_writtenTogether _, by decide +kernel, ?_⟩
  intro tracked
  have reports : Session.Reports (writtenFolder refusedSettings) writtenFiles
      (afterWriting refusedSettings) "/ws/a.ts" "<TS></TS>" :=
    reports_writtenTogether (by decide +kernel)
  obtain ⟨file, fileMem, -⟩ := (tracked "/ws/a.ts" "<TS></TS>" reports _).mpr rfl
  have none : (afterWriting refusedSettings).tracked.isEmpty = true := by decide +kernel
  rw [List.isEmpty_iff.mp none] at fileMem
  cases fileMem

end Server

end CatalogServer
