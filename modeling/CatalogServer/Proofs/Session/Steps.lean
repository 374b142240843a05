import CatalogServer.Proofs.Settings.Changes
import CatalogServer.Session.Server
import Mathlib.Logic.Basic

/-!
# What a message does to a server

A server handles one message of the editor after the other, while the disk
and the folders of the workspace change in between.  A message starts the
session, makes it follow a notification, or leaves the server at rest: the
settings, the tracked files and the open documents stay as they are, and no
diagnostics are published.
-/

namespace CatalogServer

section Throughout

variable {σ α : Type} {step : σ → α → σ}

/-- Where a single step keeps the states good just if it is not a bad one,
all states on the way are good just if no step is bad.  The invariant may
speak about the steps that are still to come. -/
theorem foldl_throughout_iff (inv : σ → List α → Prop) (good : σ → Prop) (bad : σ → α → Prop)
    (kept : ∀ state item rest, inv state (item :: rest) → inv (step state item) rest)
    (once : ∀ state item rest, inv state (item :: rest) → good state →
      (good (step state item) ↔ ¬bad state item))
    (items : List α) {state : σ} (start : inv state items) (sound : good state) :
    (∀ count, good ((items.take count).foldl step state)) ↔
      ∀ count item, items[count]? = some item →
        ¬bad ((items.take count).foldl step state) item := by
  induction items generalizing state with
  | nil => simp [sound]
  | cons item rest ih =>
      have first := once state item rest start sound
      have onward := ih (kept state item rest start)
      constructor
      · intro throughout
        have soundNext : good (step state item) := throughout 1
        have later := (onward soundNext).mp fun count => throughout (count + 1)
        intro count
        cases count with
        | zero =>
            rintro _ ⟨⟩
            exact first.mp soundNext
        | succ count => exact later count
      · intro harmless
        have soundNext : good (step state item) := first.mpr (harmless 0 item rfl)
        have later := (onward soundNext).mpr fun count => harmless (count + 1)
        intro count
        cases count with
        | zero => exact sound
        | succ count => exact later count

end Throughout

/-- A message of the editor with what the server finds around itself when it
handles it. -/
structure Arrival where
  around : Surroundings
  incoming : Incoming

namespace Server

variable {server : Server}

/-- The server after a message arrived. -/
def next (server : Server) (arrival : Arrival) : Server :=
  ((server.handle arrival.around arrival.incoming).map (·.server)).getD server

/-- The server after messages arrived one after the other. -/
def run (server : Server) (arrivals : List Arrival) : Server :=
  arrivals.foldl next server

/-- What a message makes the session follow. -/
def notified? (server : Server) : Incoming → Option Notification
  | .request _ _ => none
  | .notification method params =>
      if server.phase == .running && method != "exit" && method != "shutdown" then
        (Params.notification? method).bind fun decode => (decode params).toOption
      else none

/-- The root folder, if any, that a message names which starts the
session. -/
def started? (server : Server) : Incoming → Option (Option String)
  | .request method params =>
      if server.phase == .fresh && method == "initialize" then
        (Params.decoded Params.decodeStart params).toOption
      else none
  | .notification _ _ => none

/-- A workspace of one folder with nothing in it. -/
def emptyFolder : Surroundings where
  disk := { folders := [["ws"]] }
  folders := some [⟨"file", some "", "/ws", none, none⟩]

/-- The same folder with a catalog in it. -/
def catalogFolder (text : String) : Surroundings :=
  { emptyFolder with
    disk := emptyFolder.disk.write ["ws", "a.ts"] (Text.encode text.toList) }

/-- The editor starts a session with folders. -/
def starting (around : Surroundings) (addresses : List String) : List Arrival :=
  let folders := addresses.map fun address =>
    Json.ofMembers [("uri", .string address), ("name", .string "")]
  [⟨around, .request "initialize" (some (Json.ofMembers
      [("capabilities", Json.ofMembers []), ("workspaceFolders", .array folders)]))⟩,
    ⟨around, .notification "initialized" (some (Json.ofMembers []))⟩]

/-- The editor opens a document with a text. -/
def openingOf (around : Surroundings) (address text : String) : Arrival :=
  let document := Json.ofMembers [("uri", .string address), ("languageId", .string "xml"),
    ("version", Json.ofInt 1), ("text", .string text)]
  ⟨around, .notification "textDocument/didOpen"
    (some (Json.ofMembers [("textDocument", document)]))⟩

/-- The editor closes a document. -/
def closingOf (around : Surroundings) (address : String) : Arrival :=
  ⟨around, .notification "textDocument/didClose"
    (some (Json.ofMembers [("textDocument", Json.ofMembers [("uri", .string address)])]))⟩

/-- A session of a folder in which documents with texts are opened one after
the other. -/
def openedIn (around : Surroundings) (documents : List (String × String)) : Server :=
  run {} (starting around ["file:///ws"] ++
    documents.map fun document => openingOf around document.1 document.2)

/-- The editor gives settings, as they are or in a section of their own. -/
def givenSettings (settings : Json) : Incoming :=
  .notification "workspace/didChangeConfiguration" (some (Json.ofMembers [("settings", settings)]))

/-- What a server sends to the editor when a message arrives. -/
def sent (server : Server) (arrival : Arrival) : List ServerMessage :=
  ((server.handle arrival.around arrival.incoming).map (·.sent)).getD []

end Server

namespace ServerMessage

/-- The diagnostics that a message publishes for a document. -/
def shown? (uri : Uri) : ServerMessage → Option (List Diagnostic)
  | .diagnostics place found => if place = uri then some found else none
  | _ => none

end ServerMessage

/-- The diagnostics of a document that were published last. -/
def lastShown? (sent : List ServerMessage) (uri : Uri) : Option (List Diagnostic) :=
  sent.reverse.findSome? (·.shown? uri)

/-- No diagnostics are published. -/
def Silent (sent : List ServerMessage) : Prop :=
  ∀ message ∈ sent, ∀ uri, message.shown? uri = none

section Silent

variable {first second sent : List ServerMessage} {uri : Uri}

@[simp]
theorem lastShown?_nil : lastShown? [] uri = none :=
  rfl

@[simp]
theorem lastShown?_append :
    lastShown? (first ++ second) uri = (lastShown? second uri).or (lastShown? first uri) := by
  simp [lastShown?, List.reverse_append, List.findSome?_append]

@[simp]
theorem lastShown?_singleton (message : ServerMessage) :
    lastShown? [message] uri = message.shown? uri := by
  cases shown : message.shown? uri <;> simp [lastShown?, shown]

theorem lastShown?_of_silent (silent : Silent sent) (uri : Uri) : lastShown? sent uri = none := by
  rw [lastShown?, List.findSome?_eq_none_iff]
  intro message messageMem
  exact silent message (List.mem_reverse.mp messageMem) uri

theorem silent_nil : Silent [] := by
  intro message messageMem
  cases messageMem

theorem silent_singleton {message : ServerMessage} (silent : ∀ uri, message.shown? uri = none) :
    Silent [message] := by
  intro other otherMem
  rw [List.mem_singleton] at otherMem
  rw [otherMem]
  exact silent

theorem Silent.append (silentFirst : Silent first) (silentSecond : Silent second) :
    Silent (first ++ second) := by
  intro message messageMem
  rcases List.mem_append.mp messageMem with inFirst | inSecond
  · exact silentFirst message inFirst
  · exact silentSecond message inSecond

end Silent

namespace Session

variable {session : Session}

theorem runCommand_session (command : Command) :
    ∃ language, (session.runCommand command).1.session = { session with language := language } := by
  cases command with
  | statistics uri => exact ⟨session.language, rfl⟩
  | finishAll uri =>
      refine ⟨session.language, ?_⟩
      unfold runCommand
      dsimp only
      cases session.finishAll? uri <;> rfl
  | normalize uri =>
      refine ⟨session.language, ?_⟩
      unfold runCommand
      dsimp only
      split <;> rfl
  | currentLanguage => exact ⟨session.language, rfl⟩
  | chooseLanguage language => exact ⟨language, rfl⟩

theorem answer_session (request : Request) :
    ∃ language, (session.answer request).1.session = { session with language := language } := by
  cases request with
  | hover uri position => exact ⟨session.language, rfl⟩
  | definition uri position => exact ⟨session.language, rfl⟩
  | references uri position withDeclaration =>
      refine ⟨session.language, ?_⟩
      unfold answer
      dsimp only
      split <;> rfl
  | codeAction uri position diagnostics => exact ⟨session.language, rfl⟩
  | command name arguments =>
      unfold answer
      dsimp only
      cases Command.decode? name arguments with
      | none => exact ⟨session.language, rfl⟩
      | some command => exact runCommand_session command
  | unsupported => exact ⟨session.language, rfl⟩

/-- Settings that are given are refused, which changes nothing, or put into
effect, for which the workspace is indexed again. -/
theorem settingsChanged_cases (session : Session) (around : Surroundings) (value : Json) :
    (∃ error, session.store.apply (.update value) = (.error error, session.store) ∧
      session.settingsChanged around value =
        ⟨session, [.notice .error ("linguist: " ++ error.message)]⟩) ∨
    ∃ store, session.store.apply (.update value) = (.ok (), store) ∧
      session.settingsChanged around value =
        ({ session with store := store } : Session).reindex around := by
  rcases SettingsStore.apply_cases (SettingsChange.guarded_update value) session.store with
    ⟨error, refused⟩ | ⟨store, made⟩
  · exact .inl ⟨error, refused, by rw [settingsChanged, refused]⟩
  · exact .inr ⟨store, made, by rw [settingsChanged, made]⟩

theorem loadSettings_cases (session : Session) (around : Surroundings) (root : Option String) :
    (∃ error, session.store.apply (.load around.disk root) = (.error error, session.store) ∧
      session.loadSettings around root = (.error error, session)) ∨
    ∃ store, session.store.apply (.load around.disk root) = (.ok (), store) ∧
      session.loadSettings around root = (.ok (), { session with store := store }) := by
  rcases SettingsStore.apply_cases (SettingsChange.guarded_load around.disk root) session.store with
    ⟨error, refused⟩ | ⟨store, made⟩
  · exact .inl ⟨error, refused, by rw [loadSettings, refused]⟩
  · exact .inr ⟨store, made, by rw [loadSettings, made]⟩

theorem start_opened (around : Surroundings) (root : Option String) :
    (session.start around root).session.opened = session.opened := by
  rcases session.loadSettings_cases around root with ⟨error, -, loads⟩ | ⟨store, -, loads⟩ <;>
  · rw [start, loads]

theorem start_tracked (around : Surroundings) (root : Option String) :
    (session.start around root).session.tracked = session.tracked := by
  rcases session.loadSettings_cases around root with ⟨error, -, loads⟩ | ⟨store, -, loads⟩ <;>
  · rw [start, loads]

theorem start_store (around : Surroundings) (root : Option String) :
    (session.start around root).session.store =
      (session.store.apply (.load around.disk root)).2 := by
  rcases session.loadSettings_cases around root with
    ⟨error, given, loads⟩ | ⟨store, given, loads⟩ <;>
  · rw [start, loads, given]

theorem silent_editMessages (uri : Uri) (edits : List TextEdit) :
    Silent (editMessages uri edits) := by
  unfold editMessages
  split
  · exact silent_nil
  · exact silent_singleton fun _ => rfl

theorem silent_runCommand (command : Command) : Silent (session.runCommand command).1.sent := by
  cases command with
  | statistics uri => exact silent_nil
  | finishAll uri =>
      unfold runCommand
      dsimp only
      cases session.finishAll? uri with
      | none => exact silent_nil
      | some edits => exact silent_editMessages uri edits
  | normalize uri =>
      unfold runCommand
      dsimp only
      split
      · exact silent_nil
      · exact silent_singleton fun _ => rfl
      · exact silent_nil
      · next edit _ => exact silent_editMessages uri [edit]
  | currentLanguage => exact silent_nil
  | chooseLanguage language => exact silent_singleton fun _ => rfl

/-- Answering a request publishes no diagnostics. -/
theorem silent_answer (request : Request) : Silent (session.answer request).1.sent := by
  cases request with
  | hover uri position => exact silent_nil
  | definition uri position => exact silent_nil
  | references uri position withDeclaration =>
      unfold answer
      dsimp only
      split <;> exact silent_nil
  | codeAction uri position diagnostics => exact silent_nil
  | command name arguments =>
      unfold answer
      dsimp only
      cases Command.decode? name arguments with
      | none => exact silent_nil
      | some command => exact silent_runCommand command
  | unsupported => exact silent_nil

theorem silent_start (around : Surroundings) (root : Option String) :
    Silent (session.start around root).sent := by
  unfold start
  split
  · exact silent_singleton fun _ => rfl
  · exact silent_nil

end Session

namespace Server

variable {server : Server}

theorem notified?_notification (method : String) (params : Option Json) :
    server.notified? (.notification method params) =
      if server.phase == .running && method != "exit" && method != "shutdown" then
        (Params.notification? method).bind fun decode => (decode params).toOption
      else none :=
  rfl

theorem exists_notified_iff {incoming : Incoming} {notification : Notification}
    (notified : server.notified? incoming = some notification) {said : Notification → Prop} :
    (∃ other, server.notified? incoming = some other ∧ said other) ↔ said notification := by
  simp [notified]

theorem not_exists_notified {incoming : Incoming}
    (unfollowed : server.notified? incoming = none) {said : Notification → Prop} :
    ¬∃ other, server.notified? incoming = some other ∧ said other := by
  simp [unfollowed]

theorem handle_of_notified {around : Surroundings} {incoming : Incoming}
    {notification : Notification} (notified : server.notified? incoming = some notification) :
    server.handle around incoming =
      some (server.afterTurn (server.session.follow around notification) none) := by
  cases incoming with
  | request method params => cases notified
  | notification method params =>
      rw [notified?_notification, Option.ite_none_right_eq_some] at notified
      obtain ⟨running, found⟩ := notified
      simp only [Bool.and_eq_true, beq_iff_eq, bne_iff_ne] at running
      obtain ⟨⟨phase, notExit⟩, notShutdown⟩ := running
      obtain ⟨decode, known, decoded⟩ := Option.bind_eq_some_iff.mp found
      have handled : server.handleNotification around method params =
          server.notify around decode params := by
        unfold handleNotification
        split
        · contradiction
        · contradiction
        · rw [known]
      rw [handle, if_neg (by simp [phase]), handled, notify, if_pos (by simp [phase])]
      cases outcome : decode params with
      | error error =>
          rw [outcome] at decoded
          cases decoded
      | ok followed =>
          rw [outcome] at decoded
          cases decoded
          rfl

theorem next_of_notified {arrival : Arrival} {notification : Notification}
    (notified : server.notified? arrival.incoming = some notification) :
    server.next arrival =
      { server with session := (server.session.follow arrival.around notification).session } := by
  rw [next, handle_of_notified notified]
  rfl

theorem running_of_notified {incoming : Incoming} {notification : Notification}
    (notified : server.notified? incoming = some notification) : server.phase = .running := by
  cases incoming with
  | request method params => cases notified
  | notification method params =>
      rw [notified?_notification, Option.ite_none_right_eq_some] at notified
      simp only [Bool.and_eq_true, beq_iff_eq] at notified
      exact notified.1.1.1

/-- Handling a message neither starts a session nor makes it follow
anything. -/
structure Rests (server : Server) (handled : Handled) : Prop where
  opened : handled.server.session.opened = server.session.opened
  tracked : handled.server.session.tracked = server.session.tracked
  store : handled.server.session.store = server.session.store
  phase : handled.server.phase = server.phase ∨
    handled.server.phase = .shutDown ∨ handled.server.phase = .exited
  silent : Silent handled.sent

theorem Rests.running {handled : Handled} (rests : server.Rests handled)
    (running : handled.server.phase = .running) : server.phase = .running := by
  rcases rests.phase with same | down | gone
  · exact same ▸ running
  · cases down.symm.trans running
  · cases gone.symm.trans running

theorem Rests.fresh {handled : Handled} (rests : server.Rests handled)
    (fresh : handled.server.phase = .fresh) : server.phase = .fresh := by
  rcases rests.phase with same | down | gone
  · exact same ▸ fresh
  · cases down.symm.trans fresh
  · cases gone.symm.trans fresh

theorem rests_reply (answer : Answer) : Rests server (server.reply answer) :=
  ⟨rfl, rfl, rfl, .inl rfl, silent_nil⟩

theorem rests_pass : Rests server server.pass :=
  ⟨rfl, rfl, rfl, .inl rfl, silent_nil⟩

theorem rests_exit : Rests server server.exit :=
  ⟨rfl, rfl, rfl, .inr (.inr rfl), silent_nil⟩

theorem rests_shutDown (params : Option Json) : Rests server (server.shutDown params) := by
  unfold shutDown
  split
  · cases params <;> exact ⟨rfl, rfl, rfl, .inr (.inl rfl), silent_nil⟩
  · exact rests_reply _

theorem rests_request (decode : Option Json → Except ParamsError Request)
    (params : Option Json) : Rests server (server.request decode params) := by
  unfold request
  split
  · split
    · exact rests_reply _
    · rename_i request _
      obtain ⟨language, answered⟩ := server.session.answer_session request
      have session : (server.afterTurn (server.session.answer request).1
          (some (server.session.answer request).2)).server.session =
            { server.session with language := language } := answered
      exact ⟨by rw [session], by rw [session], by rw [session], .inl rfl,
        Session.silent_answer request⟩
  · exact rests_reply _

theorem rests_start {around : Surroundings} {params : Option Json}
    (unstarted : server.started? (.request "initialize" params) = none) :
    Rests server (server.start around params) := by
  unfold start
  split
  · next fresh =>
      split
      · exact rests_reply _
      · next root decoded =>
          simp [started?, fresh, decoded] at unstarted
  · exact rests_reply _

theorem rests_handleRequest {around : Surroundings} {method : String} {params : Option Json}
    (unstarted : server.started? (.request method params) = none) :
    Rests server (server.handleRequest around method params) := by
  unfold handleRequest
  split
  · exact rests_exit
  · exact rests_start unstarted
  · exact rests_shutDown params
  · split
    · exact rests_request _ params
    · split
      · exact rests_pass
      · split
        · exact rests_reply _
        · split
          · exact rests_pass
          · exact rests_reply _

theorem rests_handleNotification {around : Surroundings} {method : String}
    {params : Option Json}
    (unfollowed : server.notified? (.notification method params) = none) :
    Rests server (server.handleNotification around method params) := by
  unfold handleNotification
  split
  case h_1 => exact rests_exit
  case h_2 =>
    split
    · exact ⟨rfl, rfl, rfl, .inr (.inl rfl), silent_nil⟩
    · exact rests_pass
  case h_3 notExit notShutdown =>
    split
    case h_1 decode known =>
      unfold notify
      split
      case isTrue running =>
        split
        · exact rests_pass
        · next notification decoded =>
            have inSession : (server.phase == .running && method != "exit" &&
                method != "shutdown") = true := by
              simp only [Bool.and_eq_true, bne_iff_ne]
              exact ⟨⟨running, notExit⟩, notShutdown⟩
            rw [notified?_notification, if_pos inSession, known, Option.bind_some, decoded]
              at unfollowed
            cases unfollowed
      case isFalse => exact rests_pass
    case h_2 => exact rests_pass

/-- What becomes of a server when a message arrives, and what it sends
meanwhile. -/
inductive Step (server : Server) (arrival : Arrival) : Prop
  | starts (root : Option String)
      (started : server.started? arrival.incoming = some root)
      (next : server.next arrival =
        { phase := .running, session := (server.session.start arrival.around root).session })
      (sent : server.sent arrival = (server.session.start arrival.around root).sent)
  | follows (notification : Notification)
      (notified : server.notified? arrival.incoming = some notification)
      (next : server.next arrival =
        { server with
          session := (server.session.follow arrival.around notification).session })
      (sent : server.sent arrival = (server.session.follow arrival.around notification).sent)
  | rests (handled : Handled) (unfollowed : server.notified? arrival.incoming = none)
      (next : server.next arrival = handled.server)
      (sent : server.sent arrival = handled.sent) (rests : server.Rests handled)

theorem handle_of_started (around : Surroundings) {incoming : Incoming} {root : Option String}
    (started : server.started? incoming = some root) :
    server.handle around incoming =
      some ({ server with phase := .running }.afterTurn (server.session.start around root)
        (some (.result greeting))) := by
  cases incoming with
  | notification method params => cases started
  | request method params =>
      rw [started?, Option.ite_none_right_eq_some, Bool.and_eq_true] at started
      obtain ⟨⟨fresh, first⟩, named⟩ := started
      have phase : server.phase = .fresh := beq_iff_eq.mp fresh
      have decoded := Except.toOption_eq_some_iff.mp named
      have starts : server.start around params =
          { server with phase := .running }.afterTurn (server.session.start around root)
            (some (.result greeting)) := by
        rw [start, if_pos fresh, decoded]
      rw [beq_iff_eq.mp first, handle, if_neg (by simp [phase]), ← starts]
      rfl

theorem rests_handle {around : Surroundings} {incoming : Incoming} {handled : Handled}
    (unstarted : server.started? incoming = none) (unfollowed : server.notified? incoming = none)
    (handles : server.handle around incoming = some handled) : Rests server handled := by
  unfold handle at handles
  split at handles
  · cases handles
  · cases incoming with
    | request method params =>
        cases handles
        exact rests_handleRequest unstarted
    | notification method params =>
        cases handles
        exact rests_handleNotification unfollowed

/-- A message starts the session, is followed, or leaves the server at
rest. -/
theorem step_cases (server : Server) (arrival : Arrival) : server.Step arrival := by
  cases started : server.started? arrival.incoming with
  | some root =>
      have handles := handle_of_started arrival.around started
      refine .starts root started ?_ ?_
      · rw [next, handles]
        rfl
      · rw [sent, handles]
        rfl
  | none =>
      cases notified : server.notified? arrival.incoming with
      | some notification =>
          refine .follows notification notified (next_of_notified notified) ?_
          rw [sent, handle_of_notified notified]
          rfl
      | none =>
          cases handles : server.handle arrival.around arrival.incoming with
          | some handled =>
              refine .rests handled notified ?_ ?_ (rests_handle started notified handles)
              · rw [next, handles]
                rfl
              · rw [sent, handles]
                rfl
          | none =>
              refine .rests server.pass notified ?_ ?_ rests_pass
              · rw [next, handles]
                rfl
              · rw [sent, handles]
                rfl

theorem notified?_of_started {incoming : Incoming} {root : Option String}
    (started : server.started? incoming = some root) : server.notified? incoming = none := by
  cases incoming with
  | request method params => rfl
  | notification method params => cases started

theorem fresh_of_started {incoming : Incoming} {root : Option String}
    (started : server.started? incoming = some root) : server.phase = .fresh := by
  cases incoming with
  | notification method params => cases started
  | request method params =>
      rw [started?, Option.ite_none_right_eq_some, Bool.and_eq_true] at started
      exact beq_iff_eq.mp started.1.1

end Server

end CatalogServer
