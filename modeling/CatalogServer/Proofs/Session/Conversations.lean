import CatalogServer.Proofs.Session.Refreshing

/-!
# Conversations with the editor

Along a conversation the editor keeps what was published last for every
document.  What it shows is due in every state of a running session just if
no message that arrives neglects it.
-/

namespace CatalogServer

/-- A server, and what it sent to the editor so far. -/
structure Conversation where
  server : Server := {}
  sent : List ServerMessage := []

namespace Server

/-- A message neglects what the editor shows. -/
def Neglects (server : Server) (arrival : Arrival) : Prop :=
  ∃ notification, server.notified? arrival.incoming = some notification ∧
    server.session.Neglects arrival.around notification

end Server

namespace Conversation

variable {conversation : Conversation}

/-- The conversation after a message arrived. -/
def next (conversation : Conversation) (arrival : Arrival) : Conversation :=
  ⟨conversation.server.next arrival, conversation.sent ++ conversation.server.sent arrival⟩

/-- The conversation after messages arrived one after the other. -/
def run (conversation : Conversation) (arrivals : List Arrival) : Conversation :=
  arrivals.foldl next conversation

theorem run_server (arrivals : List Arrival) :
    (conversation.run arrivals).server = conversation.server.run arrivals := by
  induction arrivals generalizing conversation with
  | nil => rfl
  | cons arrival rest ih => exact ih

/-- For every document the diagnostics published last are due, or none when
nothing was published. -/
def UpToDate (conversation : Conversation) : Prop :=
  ∀ uri, (lastShown? conversation.sent uri).getD [] = conversation.server.session.due uri

/-- Before the first request is answered no document is open, and nothing was
published. -/
def BeginsQuietly (conversation : Conversation) : Prop :=
  conversation.server.phase = .fresh →
    conversation.server.session.opened = [] ∧ ∀ uri, lastShown? conversation.sent uri = none

theorem BeginsQuietly.next (quiet : conversation.BeginsQuietly) (arrival : Arrival) :
    (conversation.next arrival).BeginsQuietly := by
  intro fresh
  rw [Conversation.next] at fresh ⊢
  cases conversation.server.step_cases arrival with
  | starts root started next sent =>
      rw [next] at fresh
      cases fresh
  | follows notification notified next sent =>
      rw [next] at fresh
      cases (Server.running_of_notified notified).symm.trans fresh
  | rests handled unfollowed next sent rests =>
      rw [next] at fresh ⊢
      obtain ⟨unopened, unshown⟩ := quiet (rests.fresh fresh)
      refine ⟨rests.opened.trans unopened, fun uri => ?_⟩
      rw [sent, lastShown?_append, lastShown?_of_silent rests.silent, Option.none_or]
      exact unshown uri

theorem upToDate_append_iff {server after : Server} {sent : List ServerMessage} {turn : Turn}
    (upToDate : UpToDate ⟨server, sent⟩) (session : after.session = turn.session) :
    UpToDate ⟨after, sent ++ turn.sent⟩ ↔ turn.Refreshes server.session := by
  refine forall_congr' fun uri => ?_
  have before := upToDate uri
  dsimp only at before ⊢
  rw [lastShown?_append, Option.getD_or, before, session]

/-- One message keeps a running session up to date just if it does not neglect
what is shown. -/
theorem upToDate_next_iff (quiet : conversation.BeginsQuietly)
    (upToDate : conversation.server.phase = .running → conversation.UpToDate)
    (arrival : Arrival) :
    ((conversation.next arrival).server.phase = .running →
        (conversation.next arrival).UpToDate) ↔
      ¬conversation.server.Neglects arrival := by
  rw [Conversation.next]
  cases conversation.server.step_cases arrival with
  | starts root started next sent =>
      refine iff_of_true ?_ (Server.not_exists_notified (Server.notified?_of_started started))
      intro _ uri
      obtain ⟨unopened, unshown⟩ := quiet (Server.fresh_of_started started)
      have undue : (conversation.server.next arrival).session.due uri = [] := by
        refine Session.due_of_not_isOpen ?_
        rw [next, Session.isOpen, Session.start_opened, unopened, List.any_nil]
      rw [undue, sent, lastShown?_append,
        lastShown?_of_silent (Session.silent_start arrival.around root), Option.none_or,
        unshown, Option.getD_none]
  | follows notification notified next sent =>
      have running := Server.running_of_notified notified
      rw [next, imp_iff_right running, sent, upToDate_append_iff (upToDate running) rfl,
        Session.refreshes_follow_iff]
      exact not_congr (Server.exists_notified_iff notified).symm
  | rests handled unfollowed next sent rests =>
      refine iff_of_true ?_ (Server.not_exists_notified unfollowed)
      intro running uri
      rw [next] at running ⊢
      have sameDue : handled.server.session.due uri = conversation.server.session.due uri := by
        refine Session.due_congr rests.store rests.tracked ?_
        rw [Session.isOpen, Session.isOpen, rests.opened]
      rw [sent, lastShown?_append, lastShown?_of_silent rests.silent, Option.none_or, sameDue]
      exact upToDate (rests.running running) uri

/-- The editor shows what is due in every state of a running session just if
no message neglects what it shows. -/
theorem upToDate_throughout_iff (arrivals : List Arrival) :
    (∀ count, (run {} (arrivals.take count)).server.phase = .running →
        (run {} (arrivals.take count)).UpToDate) ↔
      ∀ count arrival, arrivals[count]? = some arrival →
        ¬(Server.run {} (arrivals.take count)).Neglects arrival := by
  -- What is shown counts while the session runs, so before that the invariant
  -- has to tell that there is nothing to show.
  have quiet : BeginsQuietly {} := fun _ => ⟨rfl, fun _ => rfl⟩
  have throughout := foldl_throughout_iff
    (fun (conversation : Conversation) (_ : List Arrival) => conversation.BeginsQuietly)
    (fun conversation => conversation.server.phase = .running → conversation.UpToDate)
    (fun conversation => conversation.server.Neglects)
    (fun _ arrival _ quiet => quiet.next arrival)
    (fun _ arrival _ quiet upToDate => upToDate_next_iff quiet upToDate arrival)
    arrivals quiet (by rintro ⟨⟩)
  refine throughout.trans (forall_congr' fun count => ?_)
  rw [← run, run_server]

/-- A catalog that does not name its language is opened, and then its file is
deleted. -/
def deletedFile : List Arrival :=
  let holding : Surroundings :=
    { Server.emptyFolder with
      disk := Server.emptyFolder.disk.write ["ws", "a.ts"] (Text.encode "<TS></TS>".toList) }
  let address : String × Json := ("uri", .string "file:///ws/a.ts")
  let document := Json.ofMembers [address, ("languageId", .string "xml"),
    ("version", Json.ofInt 1), ("text", .string "<TS></TS>")]
  let deletion := Json.ofMembers [address, ("type", Json.ofInt 3)]
  Server.starting holding ["file:///ws"] ++
    [⟨holding, .notification "textDocument/didOpen"
        (some (Json.ofMembers [("textDocument", document)]))⟩,
      ⟨Server.emptyFolder, .notification "workspace/didChangeWatchedFiles"
        (some (Json.ofMembers [("changes", .array [deletion])]))⟩]

/-- The file is not tracked any more, and what was found in it is still
shown. -/
theorem not_upToDate_deletedFile :
    ¬∀ count, (run {} (deletedFile.take count)).server.phase = .running →
      (run {} (deletedFile.take count)).UpToDate := by
  intro throughout
  let uri : Uri := ⟨"file", some "", "/ws/a.ts", none, none⟩
  have running : (run {} deletedFile).server.phase = .running := by decide +kernel
  have shown : ((lastShown? (run {} deletedFile).sent uri).getD []).isEmpty = false := by
    decide +kernel
  have undue : ((run {} deletedFile).server.session.due uri).isEmpty = true := by
    decide +kernel
  have same : (lastShown? (run {} deletedFile).sent uri).getD [] =
      (run {} deletedFile).server.session.due uri :=
    throughout 4 running uri
  rw [same, undue] at shown
  cases shown

end Conversation

end CatalogServer
