import CatalogServer.Proofs.Session.Settings

/-!
# Settings that are refused

Settings reach a store in three ways: they are loaded for a root folder, they
are put in as they are, or they are given as a value.  Each of them checks the
settings before it touches the store.  So in every store that can come about
the settings are valid and have a matcher for every folder, and a call whose
settings are refused leaves the store that it found.  A session holds only such
stores, and a message whose settings are refused changes nothing in it.
-/

namespace CatalogServer

/-- Settings that are valid and say for every folder which files are
catalogs. -/
structure Settings.Usable (settings : Settings) : Prop where
  valid : settings.isValid = true
  matched : ∀ root, ∃ matcher, FileMatcher.ofSettings root settings = .ok matcher

theorem Settings.usable_of_isValid {settings : Settings} (valid : settings.isValid = true) :
    settings.Usable :=
  ⟨valid, FileMatcher.exists_ofSettings valid⟩

/-- A way to put settings into effect. -/
inductive SettingsCall where
  | load (disk : Disk) (root : Option String)
  | replace (settings : Settings)
  | update (value : Json)

namespace SettingsCall

def change : SettingsCall → SettingsChange
  | .load disk root => .load disk root
  | .replace settings => .replace settings
  | .update value => .update value

theorem guarded_change (call : SettingsCall) : call.change.Guarded := by
  cases call with
  | load disk root => exact SettingsChange.guarded_load disk root
  | replace settings => exact SettingsChange.guarded_replace settings
  | update value => exact SettingsChange.guarded_update value

end SettingsCall

namespace SettingsStore

variable {store : SettingsStore} {call : SettingsCall}

/-- How a call ends. -/
def outcome (store : SettingsStore) (call : SettingsCall) : Except SettingsError Unit :=
  (store.apply call.change).1

/-- The store that a call leaves, however it ends. -/
def after (store : SettingsStore) (call : SettingsCall) : SettingsStore :=
  (store.apply call.change).2

/-- The store after calls one after the other. -/
def afterAll (store : SettingsStore) (calls : List SettingsCall) : SettingsStore :=
  calls.foldl after store

theorem isValid_of_made {after : SettingsStore}
    (made : store.apply call.change = (.ok (), after)) : after.settings.isValid = true := by
  cases call with
  | load disk root => exact (load_eq_ok made).1
  | replace settings => exact (replace_eq_ok made).1
  | update value => exact (update_eq_ok made).1

theorem after_of_refused {error : SettingsError} (refused : store.outcome call = .error error) :
    store.after call = store :=
  call.guarded_change store error refused

theorem isValid_after (valid : store.settings.isValid = true) (call : SettingsCall) :
    (store.after call).settings.isValid = true := by
  rcases apply_cases call.guarded_change store with ⟨error, refused⟩ | ⟨taken, made⟩
  · rwa [after, refused]
  · rw [after, made]
    exact isValid_of_made made

theorem isValid_afterAll (valid : store.settings.isValid = true) (calls : List SettingsCall) :
    (store.afterAll calls).settings.isValid = true := by
  induction calls generalizing store with
  | nil => exact valid
  | cons call rest ih => exact ih (isValid_after valid call)

theorem afterAll_append (first second : List SettingsCall) :
    store.afterAll (first ++ second) = (store.afterAll first).afterAll second :=
  List.foldl_append

end SettingsStore

namespace Session

/-- A notification brings settings that are refused: the ones that are given,
or those of the settings file that the last change is about. -/
inductive Refuses (around : Surroundings) (session : Session) : Notification → Prop
  | settings (value : Json) (error : SettingsError)
      (refused : session.store.update value = .error error) :
      Refuses around session (.settings value)
  | settingsFile (changes : List FileChange) (change : String × FileEvent)
      (error : SettingsError) (last : settingsChange? changes = some change)
      (refused : session.store.load around.disk
        (session.store.root.or (Path.parent? change.1)) = .error error) :
      Refuses around session (.files changes)

theorem follow_of_refuses {session : Session} {around : Surroundings}
    {notification : Notification} (refuses : session.Refuses around notification) :
    (session.follow around notification).session = session := by
  cases refuses with
  | settings value error refused =>
      have kept := (SettingsStore.changed_eq_error (SettingsChange.guarded_update value)).mp refused
      rw [follow, settingsChanged, kept]
  | settingsFile changes change error last refused =>
      have kept := (SettingsStore.changed_eq_error (SettingsChange.guarded_load _ _)).mp refused
      rw [follow, filesChanged_of_settingsChange last, settingsFileChanged, loadSettings, kept]

/-- The calls on the store that following a notification comes to. -/
def calls (around : Surroundings) (session : Session) : Notification → List SettingsCall
  | .settings value => [.update value]
  | .files changes =>
      (settingsChange? changes).toList.map fun change =>
        .load around.disk (session.store.root.or (Path.parent? change.1))
  | _ => []

theorem storeAfter_eq_afterAll (around : Surroundings) (session : Session)
    (notification : Notification) :
    session.storeAfter around notification =
      session.store.afterAll (session.calls around notification) := by
  cases notification with
  | files changes =>
      unfold storeAfter calls
      dsimp only
      cases settingsChange? changes <;> rfl
  | ready | opened | changed | closed | settings | ignored => rfl

end Session

namespace Server

variable {server : Server}

/-- A message brings settings that are refused. -/
def Refuses (server : Server) (arrival : Arrival) : Prop :=
  ∃ notification, server.notified? arrival.incoming = some notification ∧
    server.session.Refuses arrival.around notification

theorem next_of_refuses {arrival : Arrival} (refuses : server.Refuses arrival) :
    server.next arrival = server := by
  obtain ⟨notification, notified, refused⟩ := refuses
  rw [next_of_notified notified, Session.follow_of_refuses refused]

/-- A message changes the settings in effect only by calls on the store. -/
theorem exists_afterAll_next (server : Server) (arrival : Arrival) :
    ∃ calls, (server.next arrival).session.store = server.session.store.afterAll calls := by
  cases server.step_cases arrival with
  | starts root started next sent =>
      refine ⟨[.load arrival.around.disk root], ?_⟩
      rw [next]
      exact Session.start_store arrival.around root
  | follows notification notified next sent =>
      refine ⟨server.session.calls arrival.around notification, ?_⟩
      rw [next, ← Session.storeAfter_eq_afterAll]
      exact Session.follow_store notification
  | rests handled unfollowed next sent rests =>
      refine ⟨[], ?_⟩
      rw [next]
      exact rests.store

theorem exists_afterAll_run (server : Server) (arrivals : List Arrival) :
    ∃ calls, (server.run arrivals).session.store = server.session.store.afterAll calls := by
  induction arrivals generalizing server with
  | nil => exact ⟨[], rfl⟩
  | cons arrival rest ih =>
      obtain ⟨first, one⟩ := server.exists_afterAll_next arrival
      obtain ⟨later, others⟩ := ih (server.next arrival)
      refine ⟨first ++ later, ?_⟩
      rw [SettingsStore.afterAll_append, ← one]
      exact others

theorem isValid_run (arrivals : List Arrival) (valid : server.session.settings.isValid = true) :
    (server.run arrivals).session.settings.isValid = true := by
  obtain ⟨calls, same⟩ := server.exists_afterAll_run arrivals
  rw [Session.settings, same]
  exact SettingsStore.isValid_afterAll valid calls

/-- Whatever calls a store has seen, its settings are usable, and a call whose
settings are refused leaves it as it is.  Every session holds such a store, and
a message whose settings are refused leaves the whole server as it is. -/
theorem usable_and_kept :
    (∀ calls, (SettingsStore.afterAll {} calls).settings.Usable ∧
        ∀ call error, (SettingsStore.afterAll {} calls).outcome call = .error error →
          (SettingsStore.afterAll {} calls).after call = SettingsStore.afterAll {} calls) ∧
      (∀ arrivals, ∃ calls, (run {} arrivals).session.store = SettingsStore.afterAll {} calls) ∧
      ∀ server arrival, Refuses server arrival → server.next arrival = server := by
  refine ⟨?_, ?_, ?_⟩
  · intro calls
    have initial : ({} : SettingsStore).settings.isValid = true := Settings.isValid_default
    have valid := SettingsStore.isValid_afterAll initial calls
    exact ⟨Settings.usable_of_isValid valid,
      fun call error refused => SettingsStore.after_of_refused refused⟩
  · intro arrivals
    exact exists_afterAll_run {} arrivals
  · intro server arrival refuses
    exact next_of_refuses refuses

/-- Settings without a thread for indexing leave the indexed folder as it
is. -/
theorem kept_refusedSettings :
    let folder := catalogFolder "<TS></TS>"
    let server := run {} (starting folder ["file:///ws"])
    let threads := Json.ofMembers [("numThreads", Json.ofInt 0)]
    let given : Arrival := ⟨folder, givenSettings (Json.ofMembers [("indexing", threads)])⟩
    server.session.tracked.map (·.path) = ["/ws/a.ts"] ∧ server.Refuses given ∧
      server.next given = server := by
  intro folder server threads given
  have refuses : server.Refuses given := by
    have refused : (server.session.store.update
        (Json.ofMembers [("indexing", threads)])).toOption.isNone = true := by
      decide +kernel
    refine ⟨.settings (Json.ofMembers [("indexing", threads)]), rfl, ?_⟩
    cases outcome : server.session.store.update (Json.ofMembers [("indexing", threads)]) with
    | error error => exact .settings _ error outcome
    | ok store =>
        rw [outcome] at refused
        cases refused
  exact ⟨by decide +kernel, refuses, usable_and_kept.2.2 server given refuses⟩

end Server

end CatalogServer
