import CatalogServer.Proofs.Session.Overlooking
import CatalogServer.Proofs.Session.Steps

/-!
# Runs that overlook nothing

Open documents stay authoritative along a whole run just if nothing that
arrives overlooks one of them.
-/

namespace CatalogServer

namespace Session

variable {session : Session}

theorem authoritative_of_opened_nil (unopened : session.opened = []) :
    session.Authoritative := by
  intro document documentMem
  rw [unopened] at documentMem
  cases documentMem

end Session

namespace Server

variable {server : Server}

/-- A message makes the session overlook an open document. -/
def Overlooks (server : Server) (arrival : Arrival) : Prop :=
  ∃ notification, server.notified? arrival.incoming = some notification ∧
    server.session.Overlooks arrival.around notification

/-- Before the first request is answered no document is open. -/
def OpensLate (server : Server) : Prop :=
  server.phase = .fresh → server.session.opened = []

theorem OpensLate.next (late : server.OpensLate) (arrival : Arrival) :
    (server.next arrival).OpensLate := by
  intro fresh
  cases server.step_cases arrival with
  | starts root started next sent =>
      rw [next] at fresh
      cases fresh
  | follows notification notified next sent =>
      rw [next] at fresh
      cases (running_of_notified notified).symm.trans fresh
  | rests handled unfollowed next sent rests =>
      rw [next] at fresh ⊢
      exact rests.opened.trans (late (rests.fresh fresh))

theorem authoritative_next_iff (late : server.OpensLate)
    (authoritative : server.session.Authoritative) (arrival : Arrival) :
    (server.next arrival).session.Authoritative ↔ ¬server.Overlooks arrival := by
  cases server.step_cases arrival with
  | starts root started next sent =>
      refine iff_of_true ?_ (not_exists_notified (notified?_of_started started))
      rw [next]
      exact Session.authoritative_of_opened_nil
        ((Session.start_opened arrival.around root).trans (late (fresh_of_started started)))
  | follows notification notified next sent =>
      rw [next, Session.authoritative_follow_iff authoritative]
      exact not_congr (exists_notified_iff notified).symm
  | rests handled unfollowed next sent rests =>
      refine iff_of_true ?_ (not_exists_notified unfollowed)
      rw [next]
      exact (Session.authoritative_congr rests.store rests.tracked rests.opened).mpr authoritative

theorem authoritative_run_iff (arrivals : List Arrival) (late : server.OpensLate)
    (authoritative : server.session.Authoritative) :
    (∀ count, (server.run (arrivals.take count)).session.Authoritative) ↔
      ∀ count arrival, arrivals[count]? = some arrival →
        ¬(server.run (arrivals.take count)).Overlooks arrival := by
  refine foldl_throughout_iff (fun server _ => server.OpensLate)
    (fun server => server.session.Authoritative) Overlooks ?_ ?_ arrivals late authoritative
  · exact fun server arrival _ late => late.next arrival
  · exact fun server arrival _ late authoritative =>
      authoritative_next_iff late authoritative arrival

/-- Open documents are authoritative in every state of a run just if nothing
that arrives makes the session overlook one of them. -/
theorem authoritative_throughout_iff (arrivals : List Arrival) :
    (∀ count, (run {} (arrivals.take count)).session.Authoritative) ↔
      ∀ count arrival, arrivals[count]? = some arrival →
        ¬(run {} (arrivals.take count)).Overlooks arrival := by
  refine authoritative_run_iff arrivals ?_ ?_
  · exact fun _ => rfl
  · exact Session.authoritative_of_opened_nil rfl

/-- A catalog is opened, and then its text is deleted in the editor. -/
def emptiedDocument : List Arrival :=
  let address : String × Json := ("uri", .string "file:///ws/a.ts")
  let document := Json.ofMembers [address, ("languageId", .string "xml"),
    ("version", Json.ofInt 1), ("text", .string "<TS></TS>")]
  let changed := Json.ofMembers [address, ("version", Json.ofInt 2)]
  let change := Json.ofMembers [("text", .string "")]
  [⟨{}, .request "initialize"
      (some (Json.ofMembers [("capabilities", Json.ofMembers [])]))⟩,
    ⟨{}, .notification "initialized" (some (Json.ofMembers []))⟩,
    ⟨{}, .notification "textDocument/didOpen"
      (some (Json.ofMembers [("textDocument", document)]))⟩,
    ⟨{}, .notification "textDocument/didChange"
      (some (Json.ofMembers [("textDocument", changed), ("contentChanges", .array [change])]))⟩]

/-- The empty text is no catalog, and the text it replaced stays tracked. -/
theorem not_authoritative_emptiedDocument :
    ¬∀ count, (run {} (emptiedDocument.take count)).session.Authoritative := by
  intro throughout
  have stale : ∃ document ∈ (run {} emptiedDocument).session.opened,
      ∃ file ∈ (run {} emptiedDocument).session.tracked,
        document.uri.filePath? = some file.path ∧ file.text ≠ document.text := by
    decide +kernel
  obtain ⟨document, documentMem, file, fileMem, place, different⟩ := stale
  exact different ((throughout 4 document documentMem file.path place).1 file fileMem rfl)

end Server

end CatalogServer
