import CatalogServer.Proofs.Session.Authority
import CatalogServer.Proofs.Session.Steps

/-!
# What a session overlooks

What a session follows keeps the open documents authoritative, except in
the ways listed here; each of them does overlook a document.
-/

namespace CatalogServer

namespace Session

variable {session : Session} {around : Surroundings}

/-- The changes of files whose addresses have paths. -/
def changedPaths (changes : List FileChange) : List (String × FileEvent) :=
  changes.filterMap fun change => change.uri.filePath?.map fun path => (path, change.event)

/-- The last change of a settings file. -/
def settingsChange? (changes : List FileChange) : Option (String × FileEvent) :=
  ((changedPaths changes).filter fun change => isSettingsPath change.1).getLast?

/-- The ways in which what a session follows overlooks an open document. -/
inductive Overlooks (around : Surroundings) (session : Session) : Notification → Prop
  /-- The workspace is indexed for the first time. -/
  | ready (overlooks : session.FirstIndexingOverlooks around) : Overlooks around session .ready
  | opened (uri : Uri) (text : String)
      (overlooks : (session.openDocument ⟨uri, text⟩).EditingOverlooks uri text) :
      Overlooks around session (.opened uri text)
  | changed (uri : Uri) (texts : List String) (text : String)
      (last : texts.getLast? = some text)
      (overlooks : (session.editDocument uri text).EditingOverlooks uri text) :
      Overlooks around session (.changed uri texts)
  /-- A document is closed while another one with its path is open. -/
  | closed (uri : Uri)
      (overlooks : (session.closeDocument uri).ContradictedBy
        (session.closing around.disk uri)) :
      Overlooks around session (.closed uri)
  /-- Other settings are given, and the workspace is indexed again. -/
  | settings (value : Json) (store : SettingsStore)
      (given : session.store.apply (.update value) = (.ok (), store))
      (overlooks : ({ session with store := store } : Session).ReindexingOverlooks around) :
      Overlooks around session (.settings value)
  /-- A settings file changed, and the workspace is indexed again. -/
  | settingsFile (changes : List FileChange) (change : String × FileEvent) (loaded : Session)
      (last : settingsChange? changes = some change)
      (given : session.loadSettings around
        (session.store.root.or (Path.parent? change.1)) = (.ok (), loaded))
      (overlooks : loaded.ReindexingOverlooks around) :
      Overlooks around session (.files changes)
  | files (changes : List FileChange) (noSettings : settingsChange? changes = none)
      (overlooks : session.ContradictedBy
        ((changedPaths changes).filterMap (session.followed? around.disk))) :
      Overlooks around session (.files changes)

theorem authoritative_settingsChanged_iff (authoritative : session.Authoritative)
    (value : Json) :
    (session.settingsChanged around value).session.Authoritative ↔
      ¬session.Overlooks around (.settings value) := by
  rcases session.settingsChanged_cases around value with
    ⟨error, refused, followed⟩ | ⟨store, given, followed⟩
  · rw [followed]
    refine iff_of_true authoritative ?_
    intro overlooks
    cases overlooks with
    | settings _ store given _ => cases refused.symm.trans given
  · rw [followed, authoritative_reindex_iff]
    refine not_congr ⟨.settings value store given, ?_⟩
    intro overlooks
    cases overlooks with
    | settings _ store' given' reindexing =>
        cases given.symm.trans given'
        exact reindexing

/-- A change of a settings file covers all other changes. -/
theorem filesChanged_of_settingsChange {changes : List FileChange}
    {change : String × FileEvent} (last : settingsChange? changes = some change) :
    session.filesChanged around changes = session.settingsFileChanged around change.1 := by
  unfold filesChanged
  dsimp only
  rw [← changedPaths, ← settingsChange?, last]

theorem filesChanged_session (changes : List FileChange) :
    (session.filesChanged around changes).session =
      match settingsChange? changes with
      | some change => (session.settingsFileChanged around change.1).session
      | none => session.replaceAll
          ((changedPaths changes).filterMap (session.followed? around.disk)) := by
  cases last : settingsChange? changes with
  | some change => rw [filesChanged_of_settingsChange last]
  | none =>
      unfold filesChanged
      dsimp only
      rw [← changedPaths, ← settingsChange?, last]
      dsimp only
      rw [← followChanges_eq_replaceAll]
      split <;> rfl

theorem authoritative_filesChanged_iff (authoritative : session.Authoritative)
    (changes : List FileChange) :
    (session.filesChanged around changes).session.Authoritative ↔
      ¬session.Overlooks around (.files changes) := by
  rw [filesChanged_session]
  cases last : settingsChange? changes with
  | none =>
      dsimp only
      rw [authoritative.replaceAll_iff]
      refine not_congr ⟨.files changes last, ?_⟩
      intro overlooks
      cases overlooks with
      | settingsFile _ change _ last' _ _ =>
          rw [last] at last'
          cases last'
      | files _ _ contradicted => exact contradicted
  | some change =>
      dsimp only [settingsFileChanged]
      rcases session.loadSettings_cases around
          (session.store.root.or (Path.parent? change.1)) with
        ⟨error, -, loads⟩ | ⟨store, -, loads⟩
      · rw [loads]
        refine iff_of_true authoritative ?_
        intro overlooks
        cases overlooks with
        | settingsFile _ change' loaded last' given _ =>
            cases last.symm.trans last'
            cases loads.symm.trans given
        | files _ noSettings _ => cases last.symm.trans noSettings
      · rw [loads]
        dsimp only
        rw [authoritative_reindex_iff]
        refine not_congr ⟨.settingsFile changes change _ last loads, ?_⟩
        intro overlooks
        cases overlooks with
        | settingsFile _ change' loaded last' given reindexing =>
            cases last.symm.trans last'
            cases loads.symm.trans given
            exact reindexing
        | files _ noSettings _ => cases last.symm.trans noSettings

/-- Following a notification keeps the documents authoritative unless it
overlooks one. -/
theorem authoritative_follow_iff (authoritative : session.Authoritative)
    (notification : Notification) :
    (session.follow around notification).session.Authoritative ↔
      ¬session.Overlooks around notification := by
  cases notification with
  | ready =>
      refine (authoritative_ready_iff authoritative).trans (not_congr ⟨.ready, ?_⟩)
      intro overlooks
      cases overlooks with
      | ready indexing => exact indexing
  | opened uri text =>
      refine (authoritative_documentOpened_iff authoritative uri text).trans
        (not_congr ⟨.opened uri text, ?_⟩)
      intro overlooks
      cases overlooks with
      | opened _ _ editing => exact editing
  | changed uri texts =>
      cases last : texts.getLast? with
      | none =>
          have unchanged : session.documentChanged uri texts = ⟨session, []⟩ := by
            unfold documentChanged
            rw [last]
          rw [follow, unchanged]
          refine iff_of_true authoritative ?_
          intro overlooks
          cases overlooks with
          | changed _ _ text last' _ =>
              rw [last] at last'
              cases last'
      | some text =>
          refine (authoritative_documentChanged_iff authoritative last).trans
            (not_congr ⟨.changed uri texts text last, ?_⟩)
          intro overlooks
          cases overlooks with
          | changed _ _ text' last' editing =>
              rw [last] at last'
              cases last'
              exact editing
  | closed uri =>
      rw [follow, documentClosed_session, (authoritative.closeDocument uri).replaceAll_iff]
      refine not_congr ⟨.closed uri, ?_⟩
      intro overlooks
      cases overlooks with
      | closed _ contradicted => exact contradicted
  | settings value => exact authoritative_settingsChanged_iff authoritative value
  | files changes => exact authoritative_filesChanged_iff authoritative changes
  | ignored =>
      refine iff_of_true authoritative ?_
      rintro ⟨⟩

end Session

end CatalogServer
