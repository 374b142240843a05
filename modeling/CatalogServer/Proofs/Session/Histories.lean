import CatalogServer.Proofs.Session.Settings
import Mathlib.Data.List.Nodup

/-!
# Indexing again does not depend on the past

When settings are given the workspace is indexed again.  What is tracked then
is found on the disk or restored from the open documents, and nothing of what
was tracked before is left.  The documents are restored in no particular
order, which makes no difference while they lie at different paths.  So two
sessions that agree on the root folder and the open documents, whatever their
histories are, track the same files after the same settings were given to
both.
-/

namespace CatalogServer

namespace Session

variable {session first second : Session} {around : Surroundings} {path : String}

/-- Two sessions have the same root folder and the same open documents, in
whatever order.  Their settings, and what they track, may differ. -/
structure Alike (first second : Session) : Prop where
  root : first.store.root = second.store.root
  opened : ∀ document, document ∈ first.opened ↔ document ∈ second.opened

/-- The open documents lie at different paths. -/
def Apart (session : Session) : Prop :=
  ∀ first ∈ session.opened, ∀ second ∈ session.opened, ∀ path,
    first.uri.filePath? = some path → second.uri.filePath? = some path → first = second

theorem apart_of_nodup (distinct : (session.opened.map (·.uri.filePath?)).Nodup) :
    session.Apart := by
  intro document isOpen other otherOpen path place otherPlace
  exact List.inj_on_of_nodup_map distinct isOpen otherOpen (place.trans otherPlace.symm)

/-- An open document is that of a catalog file at a path. -/
structure Restores (session : Session) (document : OpenDocument) (path : String) : Prop where
  isOpen : document ∈ session.opened
  place : document.uri.filePath? = some path
  catalog : session.isCatalog path document.text = true

theorem restores_congr (sameStore : first.store = second.store)
    (sameOpened : ∀ document, document ∈ first.opened ↔ document ∈ second.opened)
    {document : OpenDocument} : first.Restores document path ↔ second.Restores document path := by
  constructor
  · rintro ⟨isOpen, place, catalog⟩
    exact ⟨(sameOpened document).mp isOpen, place, isCatalog_congr sameStore path _ ▸ catalog⟩
  · rintro ⟨isOpen, place, catalog⟩
    exact ⟨(sameOpened document).mpr isOpen, place, isCatalog_congr sameStore path _ ▸ catalog⟩

/-- Indexing again tracks the documents that are restored, and whatever else is
found. -/
theorem mem_reindex (apart : session.Apart) {file : CatalogFile} :
    file ∈ (session.reindex around).session.tracked ↔
      (∃ document, session.Restores document file.path ∧
          file = .ofText file.path document.text) ∨
        (∀ document, ¬session.Restores document file.path) ∧
          file ∈ around.catalogFiles session.settings := by
  rw [reindex_tracked, mem_replaceAll]
  cases last : lastAt? (session.opened.filterMap session.restoration?) file.path with
  | none =>
      have unrestored : ∀ document, ¬session.Restores document file.path := by
        rintro document ⟨isOpen, place, catalog⟩
        rw [lastAt?_restorations_eq_none.mp last document isOpen place] at catalog
        cases catalog
      constructor
      · exact fun found => .inr ⟨unrestored, found⟩
      · rintro (⟨document, restores, -⟩ | ⟨-, found⟩)
        · exact absurd restores (unrestored document)
        · exact found
  | some replacement =>
      -- The document restored last is the only one at its path, so that the
      -- order in which they are restored does not show.
      obtain ⟨document, isOpen, place, catalog, rfl⟩ := mem_restorations.mp (mem_of_lastAt? last)
      have restores : session.Restores document file.path := ⟨isOpen, place, catalog⟩
      constructor
      · exact fun same => .inl ⟨document, restores, same⟩
      · rintro (⟨other, otherRestores, same⟩ | ⟨unrestored, -⟩)
        · cases apart other otherRestores.isOpen document isOpen file.path otherRestores.place place
          exact same
        · exact absurd restores (unrestored document)

/-- The session with other settings in effect. -/
def withSettings (session : Session) (settings : Settings) : Session :=
  { session with store := ⟨settings, session.store.root⟩ }

theorem mem_reindex_withSettings_iff (alike : first.Alike second) (apart : first.Apart)
    (settings : Settings) {file : CatalogFile} :
    file ∈ ((first.withSettings settings).reindex around).session.tracked ↔
      file ∈ ((second.withSettings settings).reindex around).session.tracked := by
  have sameStore : (first.withSettings settings).store = (second.withSettings settings).store := by
    rw [withSettings, withSettings, alike.root]
  have firstApart : (first.withSettings settings).Apart := apart
  have secondApart : (second.withSettings settings).Apart := by
    intro document isOpen other otherOpen
    exact apart document ((alike.opened document).mpr isOpen) other
      ((alike.opened other).mpr otherOpen)
  rw [mem_reindex firstApart, mem_reindex secondApart]
  simp only [restores_congr sameStore alike.opened, Session.settings, sameStore]

theorem reindex_indexed : (session.reindex around).session.indexed = true := by
  rw [reindex_session]

theorem alike_reindex (settings : Settings) :
    session.Alike ((session.withSettings settings).reindex around).session where
  root := by rw [reindex_store, withSettings]
  opened document := by rw [reindex_opened, withSettings]

end Session

namespace Server

variable {first second server : Server} {around : Surroundings} {message other : Incoming}
  {settings : Settings}

/-- A message gives a running session settings, which are put into effect. -/
def Accepts (server : Server) (message : Incoming) (settings : Settings) : Prop :=
  ∃ value store, server.notified? message = some (.settings value) ∧
    server.session.store.apply (.update value) = (.ok (), store) ∧ store.settings = settings

theorem session_of_accepts (accepts : server.Accepts message settings) (around : Surroundings) :
    (server.next ⟨around, message⟩).session =
      ((server.session.withSettings settings).reindex around).session := by
  obtain ⟨value, store, notified, given, rfl⟩ := accepts
  have sameStore : store = ⟨store.settings, server.session.store.root⟩ := by
    rw [← (SettingsStore.update_eq_ok given).2]
  rw [next_of_notified notified, Session.follow, Session.settingsChanged, given,
    Session.withSettings, ← sameStore]

theorem Accepts.next (accepts : server.Accepts message settings) (around : Surroundings) :
    (server.next ⟨around, message⟩).Accepts message settings := by
  obtain ⟨value, store, notified, given, same⟩ := accepts
  refine ⟨value, _, ?_, SettingsStore.update_congr given, same⟩
  rw [next_of_notified notified]
  cases message with
  | request method params => cases notified
  | notification method params => exact notified

/-- Two sessions with the same root folder and the same open documents, which
lie at different paths, track the same files after they accepted the same
settings; they are indexed then, and accepting the settings once more changes
nothing. -/
theorem mem_accepted_iff (accepts : first.Accepts message settings)
    (otherAccepts : second.Accepts other settings) (alike : first.session.Alike second.session)
    (apart : first.session.Apart) :
    (∀ file, file ∈ (first.next ⟨around, message⟩).session.tracked ↔
        file ∈ (second.next ⟨around, other⟩).session.tracked) ∧
      (first.next ⟨around, message⟩).session.indexed = true ∧
      (second.next ⟨around, other⟩).session.indexed = true ∧
      ∀ file, file ∈ ((first.next ⟨around, message⟩).next ⟨around, message⟩).session.tracked ↔
        file ∈ (first.next ⟨around, message⟩).session.tracked := by
  have again := session_of_accepts (accepts.next around) around
  rw [again, session_of_accepts accepts, session_of_accepts otherAccepts]
  refine ⟨?_, Session.reindex_indexed, Session.reindex_indexed, ?_⟩
  · exact fun file => Session.mem_reindex_withSettings_iff alike apart settings
  · intro file
    exact (Session.mem_reindex_withSettings_iff (Session.alike_reindex settings) apart settings).symm

/-- Two sessions have seen different disks, and opened the same documents in
different orders. -/
theorem mem_accepted_otherHistory :
    let folder := catalogFolder "<TS language=\"da\"></TS>"
    let first := openedIn folder
      [("file:///ws/b.ts", "<TS></TS>"), ("file:///ws/c.ts", "<TS></TS>")]
    let second := openedIn emptyFolder
      [("file:///ws/c.ts", "<TS></TS>"), ("file:///ws/b.ts", "<TS></TS>")]
    let given := givenSettings (Json.ofMembers [])
    let wrapped := givenSettings (Json.ofMembers [("linguist", Json.ofMembers [])])
    first.session.tracked.map (·.path) = ["/ws/a.ts", "/ws/b.ts", "/ws/c.ts"] ∧
      second.session.tracked.map (·.path) = ["/ws/c.ts", "/ws/b.ts"] ∧
      ∀ file, file ∈ (first.next ⟨folder, given⟩).session.tracked ↔
        file ∈ (second.next ⟨folder, wrapped⟩).session.tracked := by
  intro folder first second given wrapped
  let document (path : String) : OpenDocument := ⟨⟨"file", some "", path, none, none⟩, "<TS></TS>"⟩
  have opened : first.session.opened = [document "/ws/b.ts", document "/ws/c.ts"] ∧
      second.session.opened = [document "/ws/c.ts", document "/ws/b.ts"] := by
    decide +kernel
  have accepted (server : Server) (message : Incoming) (value : Json)
      (notified : server.notified? message = some (.settings value))
      (put : (server.session.store.update value).toOption.map (·.settings) = some {}) :
      server.Accepts message {} := by
    obtain ⟨store, updated, same⟩ := Option.map_eq_some_iff.mp put
    have given := SettingsStore.changed_eq_ok.mp (Except.toOption_eq_some_iff.mp updated)
    exact ⟨value, store, notified, given, same⟩
  refine ⟨by decide +kernel, by decide +kernel, ?_⟩
  refine (mem_accepted_iff (accepted first given _ rfl (by decide +kernel))
    (accepted second wrapped _ rfl (by decide +kernel)) ⟨by decide +kernel, ?_⟩ ?_).1
  · intro held
    simp [opened, or_comm]
  · exact Session.apart_of_nodup (by decide +kernel)

end Server

end CatalogServer
