import CatalogServer.Proofs.Session.Overlooking

/-!
# Settings in effect

Settings that are loaded or given are put into effect only when they are
valid.  The root folder that they belong to is the one that the session was
started with, when its settings could be loaded; it is never given up.
-/

namespace CatalogServer

/-- A settings file that is refused, since indexing needs a thread. -/
def refusedSettings : List UInt8 :=
  Text.encode "\x7b\"indexing\": \x7b\"numThreads\": 0\x7d\x7d".toList

namespace Session

variable {session : Session} {around : Surroundings}

/-- The settings and the root folder after a notification is followed. -/
def storeAfter (around : Surroundings) (session : Session) : Notification → SettingsStore
  | .settings value => (session.store.apply (.update value)).2
  | .files changes =>
      match settingsChange? changes with
      | some change =>
          (session.store.apply
            (.load around.disk (session.store.root.or (Path.parent? change.1)))).2
      | none => session.store
  | _ => session.store

theorem updateDocument_store (uri : Uri) (text : String) :
    (session.updateDocument uri text).session.store = session.store := by
  rw [updateDocument_session, replaceAll_store]

theorem settingsFileChanged_store (path : String) :
    (session.settingsFileChanged around path).session.store =
      (session.store.apply
        (.load around.disk (session.store.root.or (Path.parent? path)))).2 := by
  rcases session.loadSettings_cases around (session.store.root.or (Path.parent? path)) with
    ⟨error, refused, loads⟩ | ⟨store, made, loads⟩
  · rw [settingsFileChanged, loads, refused]
  · rw [settingsFileChanged, loads, made]
    exact reindex_store

theorem follow_store (notification : Notification) :
    (session.follow around notification).session.store =
      session.storeAfter around notification := by
  cases notification with
  | ready =>
      rw [follow, ready_session]
      rfl
  | opened uri text => exact updateDocument_store uri text
  | changed uri texts =>
      dsimp only [follow, documentChanged]
      split
      · rfl
      · exact updateDocument_store uri _
  | closed uri =>
      rw [follow, documentClosed_session, replaceAll_store]
      rfl
  | settings value =>
      rw [follow, storeAfter]
      rcases session.settingsChanged_cases around value with
        ⟨error, refused, followed⟩ | ⟨store, made, followed⟩
      · rw [followed, refused]
      · rw [followed, made]
        exact reindex_store
  | files changes =>
      dsimp only [follow, storeAfter]
      rw [filesChanged_session]
      cases settingsChange? changes with
      | none => exact replaceAll_store _ _
      | some change => exact settingsFileChanged_store change.1
  | ignored => rfl

theorem storeAfter_root {root : String} (known : session.store.root = some root)
    (notification : Notification) :
    (session.storeAfter around notification).root = some root := by
  unfold storeAfter
  split
  · next value =>
      rcases SettingsStore.apply_cases (SettingsChange.guarded_update value) session.store with
        ⟨error, refused⟩ | ⟨store, made⟩
      · rwa [refused]
      · rw [made]
        exact (SettingsStore.update_eq_ok made).2.trans known
  · split
    · next change _ =>
        rw [known, Option.some_or]
        rcases SettingsStore.apply_cases (SettingsChange.guarded_load around.disk (some root))
          session.store with ⟨error, refused⟩ | ⟨store, made⟩
        · rwa [refused]
        · rw [made]
          exact (SettingsStore.load_eq_ok made).2
    · exact known
  · exact known

end Session

namespace Server

variable {server : Server}

/-- A message that starts the session names a root folder whose settings file
is valid or absent. -/
def StartsIn (server : Server) (root : String) (arrivals : List Arrival) : Prop :=
  ∀ count arrival start, arrivals[count]? = some arrival →
    (server.run (arrivals.take count)).started? arrival.incoming = some start →
      start = some root ∧ arrival.around.disk.HasValidSettings root

theorem StartsIn.head {root : String} {arrival : Arrival} {rest : List Arrival}
    (starts : server.StartsIn root (arrival :: rest)) {start : Option String}
    (started : server.started? arrival.incoming = some start) :
    start = some root ∧ arrival.around.disk.HasValidSettings root :=
  starts 0 arrival start rfl started

theorem StartsIn.tail {root : String} {arrival : Arrival} {rest : List Arrival}
    (starts : server.StartsIn root (arrival :: rest)) :
    (server.next arrival).StartsIn root rest :=
  fun count => starts (count + 1)

theorem root_of_started {arrival : Arrival} {root : String}
    (started : server.started? arrival.incoming = some (some root))
    (valid : arrival.around.disk.HasValidSettings root) :
    (server.next arrival).session.store.root = some root := by
  rw [next, handle_of_started arrival.around started]
  change (server.session.start arrival.around (some root)).session.store.root = some root
  obtain ⟨store, loaded⟩ :=
    server.session.store.exists_load_of_hasValidSettings valid
  rw [Session.start_store, loaded]
  exact (SettingsStore.load_eq_ok loaded).2

/-- A session is started once only. -/
theorem not_fresh_next (started : server.phase ≠ .fresh) (arrival : Arrival) :
    (server.next arrival).phase ≠ .fresh := by
  cases server.step_cases arrival with
  | starts start starting next sent => exact absurd (fresh_of_started starting) started
  | follows notification notified next sent =>
      rw [next]
      exact started
  | rests handled unfollowed next sent rests =>
      rw [next]
      exact fun fresh => started (rests.fresh fresh)

theorem not_fresh_of_started {arrival : Arrival} {start : Option String}
    (started : server.started? arrival.incoming = some start) :
    (server.next arrival).phase ≠ .fresh := by
  rw [next, handle_of_started arrival.around started]
  rintro ⟨⟩

theorem not_fresh_run (started : server.phase ≠ .fresh) (arrivals : List Arrival) :
    (server.run arrivals).phase ≠ .fresh := by
  induction arrivals generalizing server with
  | nil => exact started
  | cons arrival rest ih => exact ih (not_fresh_next started arrival)

/-- The message that starts the session is the only one to name its root folder,
since no other message starts it again. -/
theorem startsIn_of_started {arrival : Arrival} {root : String}
    (started : server.started? arrival.incoming = some (some root))
    (valid : arrival.around.disk.HasValidSettings root) (rest : List Arrival) :
    server.StartsIn root (arrival :: rest) := by
  intro count later start arrives restarted
  cases count with
  | zero =>
      cases arrives
      exact ⟨Option.some.inj (restarted.symm.trans started), valid⟩
  | succ count =>
      have past := not_fresh_run (not_fresh_of_started started) (rest.take count)
      exact absurd (fresh_of_started restarted) past

/-- Once the session was started its root folder stays. -/
theorem root_next {root : String} (known : server.session.store.root = some root)
    (started : server.phase ≠ .fresh) (arrival : Arrival) :
    (server.next arrival).session.store.root = some root := by
  cases server.step_cases arrival with
  | starts start starting next sent => exact absurd (fresh_of_started starting) started
  | follows notification notified next sent =>
      rw [next]
      dsimp only
      rw [Session.follow_store]
      exact Session.storeAfter_root known notification
  | rests handled unfollowed next sent rests =>
      rw [next, rests.store]
      exact known

theorem root_run {root : String} (known : server.session.store.root = some root)
    (started : server.phase ≠ .fresh) (arrivals : List Arrival) :
    (server.run arrivals).session.store.root = some root := by
  induction arrivals generalizing server with
  | nil => exact known
  | cons arrival rest ih =>
      exact ih (root_next known started arrival) (not_fresh_next started arrival)

end Server

end CatalogServer
