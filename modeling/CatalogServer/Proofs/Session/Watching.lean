import CatalogServer.Proofs.Session.Rereading
import Mathlib.Data.List.Nodup

/-!
# Batches that tell of every file once

A batch of changes is followed one change after the other, and of several
changes of a file only the last one counts.  So the order of a batch that tells
of every path once does not matter.  Of such a batch each change decides its own
path: a file that was written is read again, a file that was deleted is given
up, and all other files stay.
-/

namespace CatalogServer

namespace Session

variable {session : Session} {around : Surroundings} {disk : Disk} {changes : List FileChange}
  {path : String} {event : FileEvent}

/-- The same files are tracked at a path before and after. -/
def KeepsAt (before after : Session) (path : String) : Prop :=
  ∀ file : CatalogFile, file.path = path → (file ∈ after.tracked ↔ file ∈ before.tracked)

/-- The tracked files after a batch of changes, none of which is that of a
settings file and no two of which tell of the same path. -/
structure FollowsBatch (around : Surroundings) (changes : List FileChange)
    (before after : Session) : Prop where
  /-- A file that was written is read again. -/
  readable {path : String} {event : FileEvent} {text : String} :
    (path, event) ∈ changedPaths changes → event = .created ∨ event = .changed →
      before.acceptsPath path = true → before.isOpenAt path = false →
        around.disk.readText path = .ok text →
          ∀ file, file ∈ after.tracked ∧ file.path = path ↔
            Detection.looksLikeCatalog text = true ∧ file = .ofText path text
  /-- A file that was written stays as it was if it cannot be read. -/
  unreadable {path : String} {event : FileEvent} :
    (path, event) ∈ changedPaths changes → event = .created ∨ event = .changed →
      (∀ text, around.disk.readText path ≠ .ok text) → KeepsAt before after path
  /-- A file that was deleted is given up, also while it is open. -/
  deleted {path : String} : (path, .deleted) ∈ changedPaths changes →
    before.acceptsPath path = true → ∀ file ∈ after.tracked, file.path ≠ path
  /-- Nothing happens to a path that is not that of a catalog file. -/
  refused {path : String} : before.acceptsPath path = false → KeepsAt before after path
  /-- A file that was written while it is open stays as it was. -/
  guarded {path : String} {event : FileEvent} : (path, event) ∈ changedPaths changes →
    event = .created ∨ event = .changed → before.isOpenAt path = true →
      KeepsAt before after path
  /-- A file that the batch does not tell of stays as it was. -/
  elsewhere {path : String} : (∀ event, (path, event) ∉ changedPaths changes) →
    KeepsAt before after path

theorem path_of_followed? {change : String × FileEvent} {replaced : String × Replacement}
    (followed : session.followed? disk change = some replaced) : replaced.1 = change.1 := by
  obtain ⟨path, event⟩ := change
  rw [followed?, Option.ite_none_right_eq_some] at followed
  obtain ⟨-, followed⟩ := followed
  cases event with
  | created | changed =>
      obtain ⟨replacement, -, rfl⟩ := Option.map_eq_some_iff.mp followed
      rfl
  | deleted =>
      cases followed
      rfl
  | unknown => cases followed

/-- In a batch that tells of every path once, a change decides its path. -/
theorem lastAt?_of_told (distinct : ((changedPaths changes).map Prod.fst).Nodup)
    (told : (path, event) ∈ changedPaths changes) :
    lastAt? ((changedPaths changes).filterMap (session.followed? disk)) path =
      (session.followed? disk (path, event)).map Prod.snd := by
  have only {replacement : Replacement} :
      (path, replacement) ∈ (changedPaths changes).filterMap (session.followed? disk) ↔
        session.followed? disk (path, event) = some (path, replacement) := by
    rw [List.mem_filterMap]
    constructor
    · rintro ⟨change, changeMem, followed⟩
      obtain rfl : change = (path, event) :=
        List.inj_on_of_nodup_map distinct changeMem told (path_of_followed? followed).symm
      exact followed
    · exact fun followed => ⟨(path, event), told, followed⟩
  apply Option.ext
  intro replacement
  rw [lastAt?_eq_some_iff, only, Option.map_eq_some_iff]
  · constructor
    · exact fun followed => ⟨_, followed, rfl⟩
    · rintro ⟨replaced, followed, rfl⟩
      obtain rfl : replaced.1 = path := path_of_followed? followed
      exact followed
  · intro first second firstMem secondMem
    have same := (only.mp firstMem).symm.trans (only.mp secondMem)
    cases same
    rfl

theorem lastAt?_of_untold (untold : ∀ event, (path, event) ∉ changedPaths changes) :
    lastAt? ((changedPaths changes).filterMap (session.followed? disk)) path = none := by
  apply lastAt?_eq_none.mpr
  rintro replaced replacedMem rfl
  obtain ⟨⟨place, event⟩, changeMem, followed⟩ := List.mem_filterMap.mp replacedMem
  have here : replaced.1 = place := path_of_followed? followed
  exact untold event (here ▸ changeMem)

theorem lastAt?_of_written (distinct : ((changedPaths changes).map Prod.fst).Nodup)
    (told : (path, event) ∈ changedPaths changes) (written : event = .created ∨ event = .changed)
    (accepted : session.acceptsPath path = true) :
    lastAt? ((changedPaths changes).filterMap (session.followed? disk)) path =
      session.rereading? disk path := by
  rw [lastAt?_of_told distinct told, followed?, if_pos accepted]
  rcases written with rfl | rfl
  · cases session.rereading? disk path <;> rfl
  · cases session.rereading? disk path <;> rfl

theorem lastAt?_of_refused (distinct : ((changedPaths changes).map Prod.fst).Nodup)
    (refused : session.acceptsPath path = false) :
    lastAt? ((changedPaths changes).filterMap (session.followed? disk)) path = none := by
  by_cases told : ∃ event, (path, event) ∈ changedPaths changes
  · obtain ⟨event, told⟩ := told
    rw [lastAt?_of_told distinct told, followed?, refused]
    rfl
  · exact lastAt?_of_untold (not_exists.mp told)

theorem keepsAt_replaceAll {replacements : List (String × Replacement)}
    (untouched : lastAt? replacements path = none) :
    KeepsAt session (session.replaceAll replacements) path := by
  rintro file rfl
  rw [mem_replaceAll, untouched]

theorem keepsAt_of_unread (distinct : ((changedPaths changes).map Prod.fst).Nodup)
    (told : (path, event) ∈ changedPaths changes) (written : event = .created ∨ event = .changed)
    (unread : session.rereading? disk path = none) :
    KeepsAt session
      (session.replaceAll ((changedPaths changes).filterMap (session.followed? disk))) path := by
  apply keepsAt_replaceAll
  cases accepted : session.acceptsPath path with
  | true => exact (lastAt?_of_written distinct told written accepted).trans unread
  | false => exact lastAt?_of_refused distinct accepted

/-- A batch that tells of every path once is followed change by change. -/
theorem followsBatch_replaceAll (distinct : ((changedPaths changes).map Prod.fst).Nodup) :
    FollowsBatch around changes session
      (session.replaceAll ((changedPaths changes).filterMap (session.followed? around.disk))) := by
  constructor
  · intro path event text told written accepted unopened read file
    obtain ⟨replacement, found⟩ := exists_rereading_iff.mpr ⟨unopened, text, read⟩
    have follows : (session.replaceAll _).FollowsDisk around.disk path :=
      followsDisk_replaceAll ((lastAt?_of_written distinct told written accepted).trans found) found
    rw [follows file, Indexing.loadCandidate?_eq_some]
    constructor
    · rintro ⟨other, holds, rfl⟩
      cases read.symm.trans holds.1
      exact ⟨holds.2, rfl⟩
    · rintro ⟨catalog, rfl⟩
      exact ⟨text, ⟨read, catalog⟩, rfl⟩
  · intro path event told written unreadable
    apply keepsAt_of_unread distinct told written
    by_contra found
    obtain ⟨replacement, found⟩ := Option.ne_none_iff_exists'.mp found
    obtain ⟨-, text, read⟩ := exists_rereading_iff.mp ⟨replacement, found⟩
    exact unreadable text read
  · rintro path told accepted file fileMem rfl
    rw [mem_replaceAll, lastAt?_of_told distinct told, followed?, if_pos accepted] at fileMem
    exact fileMem
  · exact fun unaccepted => keepsAt_replaceAll (lastAt?_of_refused distinct unaccepted)
  · intro path event told written isOpen
    apply keepsAt_of_unread distinct told written
    rw [rereading?, if_pos isOpen]
  · exact fun untold => keepsAt_replaceAll (lastAt?_of_untold untold)

section Order

variable {order : List FileChange}

theorem perm_changedPaths (same : order.Perm changes) :
    (changedPaths order).Perm (changedPaths changes) :=
  same.filterMap _

theorem settingsChange?_eq_none_iff :
    settingsChange? changes = none ↔
      ∀ change ∈ changedPaths changes, isSettingsPath change.1 = false := by
  rw [settingsChange?, List.getLast?_eq_none_iff, List.filter_eq_nil_iff]
  exact forall₂_congr fun change _ => iff_of_eq (Bool.not_eq_true _)

/-- The order of a batch that tells of every path once does not matter. -/
theorem mem_replaceAll_of_perm (same : order.Perm changes)
    (distinct : ((changedPaths changes).map Prod.fst).Nodup) (file : CatalogFile) :
    file ∈ (session.replaceAll
        ((changedPaths order).filterMap (session.followed? disk))).tracked ↔
      file ∈ (session.replaceAll
        ((changedPaths changes).filterMap (session.followed? disk))).tracked := by
  have paths := perm_changedPaths same
  have distinctToo : ((changedPaths order).map Prod.fst).Nodup :=
    (paths.map Prod.fst).nodup_iff.mpr distinct
  have agree : lastAt? ((changedPaths order).filterMap (session.followed? disk)) file.path =
      lastAt? ((changedPaths changes).filterMap (session.followed? disk)) file.path := by
    by_cases told : ∃ event, (file.path, event) ∈ changedPaths changes
    · obtain ⟨event, told⟩ := told
      rw [lastAt?_of_told distinct told, lastAt?_of_told distinctToo (paths.mem_iff.mpr told)]
    · have untold := not_exists.mp told
      rw [lastAt?_of_untold untold, lastAt?_of_untold fun event member =>
        untold event (paths.mem_iff.mp member)]
  rw [mem_replaceAll, mem_replaceAll, agree]

end Order

end Session

namespace Server

variable {server : Server} {arrival : Arrival} {changes : List Session.FileChange}

theorem tracked_of_batch (notified : server.notified? arrival.incoming = some (.files changes))
    (noSettings : Session.settingsChange? changes = none) :
    (server.next arrival).session = server.session.replaceAll
      ((Session.changedPaths changes).filterMap (server.session.followed? arrival.around.disk)) := by
  rw [next_of_notified notified, Session.follow, Session.filesChanged_session, noSettings]

/-- A batch of changes of different files, with no settings file among them, is
followed change by change, and telling of the changes in another order leads to
the same tracked files. -/
theorem followsBatch_next (notified : server.notified? arrival.incoming = some (.files changes))
    (noSettings : Session.settingsChange? changes = none)
    (distinct : ((Session.changedPaths changes).map Prod.fst).Nodup) :
    Session.FollowsBatch arrival.around changes server.session (server.next arrival).session ∧
      ∀ (other : Arrival) (order : List Session.FileChange), other.around = arrival.around →
        order.Perm changes → server.notified? other.incoming = some (.files order) →
          ∀ file, file ∈ (server.next other).session.tracked ↔
            file ∈ (server.next arrival).session.tracked := by
  rw [tracked_of_batch notified noSettings]
  refine ⟨Session.followsBatch_replaceAll distinct, ?_⟩
  intro other order sameAround same notifiedToo file
  have noSettingsToo : Session.settingsChange? order = none := by
    rw [Session.settingsChange?_eq_none_iff] at noSettings ⊢
    intro change changeMem
    exact noSettings change ((Session.perm_changedPaths same).mem_iff.mp changeMem)
  rw [tracked_of_batch notifiedToo noSettingsToo, sameAround]
  exact Session.mem_replaceAll_of_perm same distinct file

/-- A catalog is moved to another path of the folder. -/
def movedFolder : Surroundings :=
  { emptyFolder with
    disk := emptyFolder.disk.write ["ws", "b.ts"] (Text.encode "<TS></TS>".toList) }

def movedCatalog : List Session.FileChange :=
  [⟨⟨"file", some "", "/ws/b.ts", none, none⟩, .created⟩, ⟨catalogAddress, .deleted⟩]

/-- The editor tells of the move. -/
def movingTold : Arrival :=
  let change := fun (address : String) (kind : Int) =>
    Json.ofMembers [("uri", .string address), ("type", Json.ofInt kind)]
  ⟨movedFolder, .notification "workspace/didChangeWatchedFiles" (some (Json.ofMembers
    [("changes", .array [change "file:///ws/b.ts" 1, change "file:///ws/a.ts" 3])]))⟩

/-- The catalog is tracked at its new path, and not at the old one. -/
theorem followsBatch_movedCatalog :
    let server := run {} (starting (catalogFolder "<TS></TS>") ["file:///ws"])
    HasText server.session.tracked "/ws/a.ts" "<TS></TS>" ∧
      server.notified? movingTold.incoming = some (.files movedCatalog) ∧
      HasText (server.next movingTold).session.tracked "/ws/b.ts" "<TS></TS>" ∧
      ∀ file ∈ (server.next movingTold).session.tracked, file.path ≠ "/ws/a.ts" := by
  intro server
  have notified : server.notified? movingTold.incoming = some (.files movedCatalog) := by
    rfl
  have follows : Session.FollowsBatch movedFolder movedCatalog server.session
      (server.next movingTold).session :=
    (followsBatch_next notified (by decide +kernel) (by decide +kernel)).1
  have read : (movedFolder.disk.readText "/ws/b.ts").toOption = some "<TS></TS>" := by
    decide +kernel
  refine ⟨by decide +kernel, notified, ?_, ?_⟩
  · have told : ("/ws/b.ts", .created) ∈ Session.changedPaths movedCatalog := by decide +kernel
    obtain ⟨fileMem, here⟩ := (follows.readable told (.inl rfl) (by decide +kernel)
      (by decide +kernel) (Except.toOption_eq_some_iff.mp read) _).mpr ⟨by decide +kernel, rfl⟩
    exact ⟨_, fileMem, here, rfl⟩
  · exact follows.deleted (by decide +kernel) (by decide +kernel)

end Server

end CatalogServer
