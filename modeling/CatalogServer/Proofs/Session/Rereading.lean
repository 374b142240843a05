import CatalogServer.Proofs.Session.Publishing

/-!
# Files that are read again

The file at a path is read again when its document is closed and when it is
told to have been written.  Then the session is to follow the disk: what is
tracked at the path is the file that can be read there, if it looks like a
catalog.  Two things keep a session from it, and neither is always wanted.

A file that cannot be read is passed over.  So a text that was never written,
or whose file is gone or is no text any more, stays tracked after its document
was closed.

A file that is open is passed over too, since its text is that of the editor.
But it counts as open only when a document is open under the very address that
the path is written as.  A path has many other addresses, and documents under
one of these are overwritten.
-/

namespace CatalogServer

namespace Session

variable {session : Session} {around : Surroundings} {disk : Disk} {uri : Uri} {path : String}

/-- What is tracked at a path is the file that the disk holds there, if it can
be read and looks like a catalog, and nothing else. -/
def FollowsDisk (session : Session) (disk : Disk) (path : String) : Prop :=
  ∀ file, file ∈ session.tracked ∧ file.path = path ↔
    Indexing.loadCandidate? disk path = some file

theorem FollowsDisk.hasText_iff (follows : session.FollowsDisk disk path) {text : String} :
    HasText session.tracked path text ↔ disk.HoldsCatalog path text := by
  constructor
  · rintro ⟨file, fileMem, here, rfl⟩
    obtain ⟨text, holds, rfl⟩ :=
      Indexing.loadCandidate?_eq_some.mp ((follows file).mp ⟨fileMem, here⟩)
    exact holds
  · intro holds
    have loaded := Indexing.loadCandidate?_eq_some.mpr ⟨text, holds, rfl⟩
    obtain ⟨fileMem, here⟩ := (follows _).mpr loaded
    exact ⟨_, fileMem, here, rfl⟩

theorem isOpenAt_eq_false_iff :
    session.isOpenAt path = false ↔
      ∀ document ∈ session.opened, Uri.ofFilePath? path ≠ some document.uri := by
  unfold isOpenAt isOpen
  cases Uri.ofFilePath? path with
  | none => simp
  | some uri =>
      simp only [Option.any_some, List.any_eq_false, beq_iff_eq, ne_eq, Option.some.injEq]
      exact forall₂_congr fun document _ => not_congr eq_comm

theorem exists_rereading_iff :
    (∃ replacement, session.rereading? disk path = some replacement) ↔
      session.isOpenAt path = false ∧ ∃ text, disk.readText path = .ok text := by
  unfold rereading?
  cases session.isOpenAt path with
  | true => simp
  | false => cases disk.readText path <;> simp

theorem followsDisk_replaceAll {held : Session} {replacements : List (String × Replacement)}
    {replacement : Replacement} (last : lastAt? replacements path = some replacement)
    (reread : held.rereading? disk path = some replacement) :
    (session.replaceAll replacements).FollowsDisk disk path := by
  intro file
  rw [Indexing.loadCandidate?_eq_some]
  cases replacement with
  | removed =>
      obtain ⟨-, text, read, uncatalog⟩ := rereading?_eq_removed.mp reread
      constructor
      · rintro ⟨fileMem, rfl⟩
        rw [mem_replaceAll, last] at fileMem
        exact fileMem.elim
      · rintro ⟨other, holds, -⟩
        cases read.symm.trans holds.1
        cases uncatalog.symm.trans holds.2
  | text text =>
      obtain ⟨-, holds⟩ := rereading?_eq_text.mp reread
      constructor
      · rintro ⟨fileMem, rfl⟩
        rw [mem_replaceAll, last] at fileMem
        exact ⟨text, holds, fileMem.symm⟩
      · rintro ⟨other, otherHolds, rfl⟩
        cases holds.1.symm.trans otherHolds.1
        refine ⟨?_, rfl⟩
        rw [mem_replaceAll, CatalogFile.ofText, last]
        rfl

section Closing

theorem isOpenAt_closeDocument (canonical : Uri.ofFilePath? path = some uri) :
    (session.closeDocument uri).isOpenAt path = false := by
  rw [isOpenAt, canonical, Option.any_some, isOpen_closeDocument, bne_self_eq_false,
    Bool.and_false]

theorem mem_documentClosed_of_unread {file : CatalogFile}
    (unread : lastAt? (session.closing around.disk uri) file.path = none) :
    file ∈ (session.documentClosed around uri).session.tracked ↔ file ∈ session.tracked := by
  rw [documentClosed_session, mem_replaceAll, unread]
  rfl

theorem followsDisk_documentClosed_iff (place : uri.filePath? = some path)
    (canonical : Uri.ofFilePath? path = some uri) :
    (session.documentClosed around uri).session.FollowsDisk around.disk path ↔
      (∃ text, around.disk.readText path = .ok text) ∨
        ∀ file ∈ session.tracked, file.path ≠ path := by
  have unguarded : (session.closeDocument uri).isOpenAt path = false :=
    isOpenAt_closeDocument canonical
  have here := (lastAt?_closing session around.disk uri path).trans (if_pos place)
  cases reread : (session.closeDocument uri).rereading? around.disk path with
  | some replacement =>
      have readable := (exists_rereading_iff.mp ⟨replacement, reread⟩).2
      refine iff_of_true ?_ (.inl readable)
      rw [documentClosed_session]
      exact followsDisk_replaceAll (here.trans reread) reread
  | none =>
      -- Nothing guards the path any more, so only a file without a text is
      -- passed over; then what was tracked stays.
      have unreadable : ¬∃ text, around.disk.readText path = .ok text := by
        intro readable
        obtain ⟨replacement, found⟩ := exists_rereading_iff.mpr ⟨unguarded, readable⟩
        cases reread.symm.trans found
      have unloaded (file : CatalogFile) : Indexing.loadCandidate? around.disk path ≠ some file := by
        intro loaded
        obtain ⟨text, holds, -⟩ := Indexing.loadCandidate?_eq_some.mp loaded
        exact unreadable ⟨text, holds.1⟩
      have kept {file : CatalogFile} (filePath : file.path = path) :
          file ∈ (session.documentClosed around uri).session.tracked ↔ file ∈ session.tracked :=
        mem_documentClosed_of_unread (filePath ▸ here.trans reread)
      rw [or_iff_right unreadable]
      constructor
      · intro follows file fileMem filePath
        exact unloaded file ((follows file).mp ⟨(kept filePath).mpr fileMem, filePath⟩)
      · intro untracked file
        refine iff_of_false ?_ (unloaded file)
        rintro ⟨fileMem, filePath⟩
        exact untracked file ((kept filePath).mp fileMem) filePath

end Closing

section Changes

variable {changes : List FileChange} {replacement : Replacement}

/-- The batch tells of files that were created or changed, and of nothing
else. -/
def OnlyWritten (changes : List FileChange) : Prop :=
  ∀ change ∈ changes, change.event = .created ∨ change.event = .changed

instance : Decidable (OnlyWritten changes) :=
  inferInstanceAs (Decidable (∀ change ∈ changes, _ ∨ _))

/-- A batch of changes puts what the disk holds at a path in place of something
else that is tracked there: the batch tells of the path, which is that of a
catalog file, no document is open under the address of the path, and the file
can be read. -/
structure Overwrites (around : Surroundings) (session : Session) (changes : List FileChange)
    (path : String) : Prop where
  reported : ∃ event, (path, event) ∈ changedPaths changes
  accepted : session.acceptsPath path = true
  unguarded : ∀ document ∈ session.opened, Uri.ofFilePath? path ≠ some document.uri
  readable : ∃ text, around.disk.readText path = .ok text
  differs : ¬∀ text, HasText session.tracked path text ↔ around.disk.HoldsCatalog path text

theorem mem_followed (written : OnlyWritten changes) :
    (path, replacement) ∈ (changedPaths changes).filterMap (session.followed? disk) ↔
      (∃ event, (path, event) ∈ changedPaths changes) ∧ session.acceptsPath path = true ∧
        session.rereading? disk path = some replacement := by
  have event {change : String × FileEvent} (reported : change ∈ changedPaths changes) :
      change.2 = .created ∨ change.2 = .changed := by
    obtain ⟨told, toldMem, named⟩ := List.mem_filterMap.mp reported
    obtain ⟨place, -, rfl⟩ := Option.map_eq_some_iff.mp named
    exact written told toldMem
  have followed {change : String × FileEvent} (reported : change ∈ changedPaths changes) :
      session.followed? disk change =
        if session.acceptsPath change.1 then
          (session.rereading? disk change.1).map (change.1, ·)
        else none := by
    unfold followed?
    rcases event reported with created | changed
    · rw [created]
    · rw [changed]
  rw [List.mem_filterMap]
  constructor
  · rintro ⟨change, reported, found⟩
    rw [followed reported, Option.ite_none_right_eq_some] at found
    obtain ⟨accepted, found⟩ := found
    obtain ⟨_, reread, same⟩ := Option.map_eq_some_iff.mp found
    cases same
    exact ⟨⟨change.2, reported⟩, accepted, reread⟩
  · rintro ⟨⟨event, reported⟩, accepted, reread⟩
    refine ⟨(path, event), reported, ?_⟩
    rw [followed reported, if_pos accepted, reread, Option.map_some]

theorem lastAt?_followed (written : OnlyWritten changes) :
    lastAt? ((changedPaths changes).filterMap (session.followed? disk)) path = some replacement ↔
      (∃ event, (path, event) ∈ changedPaths changes) ∧ session.acceptsPath path = true ∧
        session.rereading? disk path = some replacement := by
  rw [lastAt?_eq_some_iff, mem_followed written]
  intro first second firstMem secondMem
  obtain ⟨-, -, firstReread⟩ := (mem_followed written).mp firstMem
  obtain ⟨-, -, secondReread⟩ := (mem_followed written).mp secondMem
  exact Option.some.inj (firstReread.symm.trans secondReread)

theorem hasText_filesChanged_iff (noSettings : settingsChange? changes = none)
    (written : OnlyWritten changes) :
    (∀ text, HasText (session.filesChanged around changes).session.tracked path text ↔
        HasText session.tracked path text) ↔
      ¬session.Overwrites around changes path := by
  rw [filesChanged_session, noSettings]
  dsimp only
  cases last : lastAt? ((changedPaths changes).filterMap (session.followed? around.disk)) path with
  | none =>
      refine iff_of_true ?_ ?_
      · intro text
        rw [hasText_replaceAll, last]
      · intro overwrites
        obtain ⟨replacement, reread⟩ := exists_rereading_iff.mpr
          ⟨isOpenAt_eq_false_iff.mpr overwrites.unguarded, overwrites.readable⟩
        have found := (lastAt?_followed written).mpr
          ⟨overwrites.reported, overwrites.accepted, reread⟩
        cases last.symm.trans found
  | some replacement =>
      obtain ⟨reported, accepted, reread⟩ := (lastAt?_followed written).mp last
      obtain ⟨unguarded, readable⟩ := exists_rereading_iff.mp ⟨replacement, reread⟩
      have follows : (session.replaceAll ((changedPaths changes).filterMap
          (session.followed? around.disk))).FollowsDisk around.disk path :=
        followsDisk_replaceAll last reread
      simp only [follows.hasText_iff]
      constructor
      · intro unchanged overwrites
        exact overwrites.differs fun text => (unchanged text).symm
      · intro kept
        by_contra changed
        refine kept ⟨reported, accepted, isOpenAt_eq_false_iff.mp unguarded, readable, ?_⟩
        exact fun same => changed fun text => (same text).symm

end Changes

end Session

namespace Server

variable {server : Server} {arrival : Arrival} {path : String}

/-- When a document is closed that is open under the address of its path, what
is tracked there is what the disk holds just if the file can be read or was not
tracked before; the files at all other paths stay. -/
theorem followsDisk_closed_iff {uri : Uri}
    (notified : server.notified? arrival.incoming = some (.closed uri))
    (place : uri.filePath? = some path) (canonical : Uri.ofFilePath? path = some uri) :
    ((server.next arrival).session.FollowsDisk arrival.around.disk path ↔
        (∃ text, arrival.around.disk.readText path = .ok text) ∨
          ∀ file ∈ server.session.tracked, file.path ≠ path) ∧
      ∀ file, file.path ≠ path →
        (file ∈ (server.next arrival).session.tracked ↔ file ∈ server.session.tracked) := by
  rw [next_of_notified notified]
  refine ⟨Session.followsDisk_documentClosed_iff place canonical, ?_⟩
  intro file elsewhere
  refine Session.mem_documentClosed_of_unread ?_
  rw [Session.lastAt?_closing, if_neg]
  rw [place]
  rintro ⟨⟩
  exact elsewhere rfl

/-- The address of the catalog in the folder. -/
def catalogAddress : Uri :=
  ⟨"file", some "", "/ws/a.ts", none, none⟩

/-- The document of a file is closed, and what was tracked of it in the editor
gives way to the file. -/
theorem followsDisk_savedDocument :
    let folder := catalogFolder "<TS></TS>"
    let server := openedIn folder [("file:///ws/a.ts", "<TS language=\"da\"></TS>")]
    HasText server.session.tracked "/ws/a.ts" "<TS language=\"da\"></TS>" ∧
      (server.next (closingOf folder "file:///ws/a.ts")).session.FollowsDisk folder.disk
        "/ws/a.ts" := by
  intro folder server
  have notified : server.notified? (closingOf folder "file:///ws/a.ts").incoming =
      some (.closed catalogAddress) := by
    rfl
  have readable : (folder.disk.readText "/ws/a.ts").toOption = some "<TS></TS>" := by
    decide +kernel
  refine ⟨by decide +kernel, ?_⟩
  exact (followsDisk_closed_iff notified (by decide +kernel) (by decide +kernel)).1.mpr
    (.inl ⟨"<TS></TS>", Except.toOption_eq_some_iff.mp readable⟩)

/-- The document of a file that was never written is closed, and its text
stays tracked. -/
theorem not_followsDisk_unwrittenDocument :
    let server := openedIn emptyFolder [("file:///ws/a.ts", "<TS></TS>")]
    let arrival := closingOf emptyFolder "file:///ws/a.ts"
    server.notified? arrival.incoming = some (.closed catalogAddress) ∧
      server.session.isOpen catalogAddress = true ∧
      catalogAddress.filePath? = some "/ws/a.ts" ∧
      Uri.ofFilePath? "/ws/a.ts" = some catalogAddress ∧
      server.session.acceptsPath "/ws/a.ts" = true ∧
      ¬(server.next arrival).session.FollowsDisk arrival.around.disk "/ws/a.ts" := by
  intro server arrival
  refine ⟨by rfl, by decide +kernel, by decide +kernel, by decide +kernel, by decide +kernel, ?_⟩
  intro follows
  have tracked : ∃ file ∈ (server.next arrival).session.tracked, file.path = "/ws/a.ts" := by
    decide +kernel
  have unloaded : (Indexing.loadCandidate? arrival.around.disk "/ws/a.ts").isNone = true := by
    decide +kernel
  obtain ⟨file, fileMem, here⟩ := tracked
  rw [(follows file).mp ⟨fileMem, here⟩] at unloaded
  cases unloaded

/-- A batch of files that were created or changed, and no settings file among
them, keeps the text that is tracked at a path just if it does not overwrite
it; so a document under the address of its path is never overwritten. -/
theorem hasText_written_iff {changes : List Session.FileChange}
    (notified : server.notified? arrival.incoming = some (.files changes))
    (noSettings : Session.settingsChange? changes = none)
    (written : Session.OnlyWritten changes) :
    (∀ text, HasText (server.next arrival).session.tracked path text ↔
        HasText server.session.tracked path text) ↔
      ¬server.session.Overwrites arrival.around changes path := by
  rw [next_of_notified notified]
  exact Session.hasText_filesChanged_iff noSettings written

/-- The catalog in the folder is changed on the disk. -/
def changedCatalog : List Session.FileChange :=
  [⟨catalogAddress, .changed⟩]

/-- The editor tells of the change. -/
def changeIn (around : Surroundings) : Arrival :=
  let change := Json.ofMembers [("uri", .string "file:///ws/a.ts"), ("type", Json.ofInt 2)]
  ⟨around, .notification "workspace/didChangeWatchedFiles"
    (some (Json.ofMembers [("changes", .array [change])]))⟩

/-- A document under the address of its path keeps its text. -/
theorem hasText_guardedDocument :
    let folder := catalogFolder "<TS></TS>"
    let server := openedIn folder [("file:///ws/a.ts", "<TS language=\"da\"></TS>")]
    HasText (server.next (changeIn folder)).session.tracked "/ws/a.ts"
      "<TS language=\"da\"></TS>" := by
  intro folder server
  have notified : server.notified? (changeIn folder).incoming = some (.files changedCatalog) := by
    rfl
  refine ((hasText_written_iff notified (by decide +kernel) (by decide)).mpr ?_ _).mpr ?_
  · intro overwrites
    have guarded : ∃ document ∈ server.session.opened,
        Uri.ofFilePath? "/ws/a.ts" = some document.uri := by
      decide +kernel
    obtain ⟨document, documentMem, same⟩ := guarded
    exact overwrites.unguarded document documentMem same
  · decide +kernel

/-- A document under another address of the path is overwritten. -/
theorem not_hasText_respelledDocument :
    let folder := catalogFolder "<TS></TS>"
    let server := openedIn folder [("file:///ws/%61.ts", "<TS language=\"da\"></TS>")]
    server.notified? (changeIn folder).incoming = some (.files changedCatalog) ∧
      Session.settingsChange? changedCatalog = none ∧ Session.OnlyWritten changedCatalog ∧
      (∃ document ∈ server.session.opened, document.uri.filePath? = some "/ws/a.ts") ∧
      ¬∀ text, HasText (server.next (changeIn folder)).session.tracked "/ws/a.ts" text ↔
        HasText server.session.tracked "/ws/a.ts" text := by
  intro folder server
  refine ⟨by rfl, by decide +kernel, by decide, by decide +kernel, ?_⟩
  intro unchanged
  have tracked : HasText server.session.tracked "/ws/a.ts" "<TS language=\"da\"></TS>" := by
    decide +kernel
  have overwritten : ¬HasText (server.next (changeIn folder)).session.tracked "/ws/a.ts"
      "<TS language=\"da\"></TS>" := by
    decide +kernel
  exact overwritten ((unchanged _).mpr tracked)

end Server

end CatalogServer
