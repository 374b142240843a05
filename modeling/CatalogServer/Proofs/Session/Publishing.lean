import CatalogServer.Proofs.Session.Overlooking
import CatalogServer.Proofs.Session.Steps

/-!
# Diagnostics that are due

For an open document whose file is tracked the diagnostics of this file are
due, and for any other document none.  A turn refreshes what the editor shows
when the last diagnostics it publishes, or else those that were due before,
are due after it.  One that publishes at its end does so unless it drops a
file whose diagnostics are shown, since nothing is published for a document
without a file.
-/

namespace CatalogServer

namespace Session

variable {session : Session} {uri : Uri} {path : String}

/-- The diagnostics that the editor has to show for a document. -/
def due (session : Session) (uri : Uri) : List Diagnostic :=
  if session.isOpen uri then ((session.fileOf? uri).map session.diagnosticsOf).getD [] else []

theorem due_of_isOpen (isOpen : session.isOpen uri = true) :
    session.due uri = ((session.fileOf? uri).map session.diagnosticsOf).getD [] :=
  if_pos isOpen

theorem due_of_not_isOpen (unopened : session.isOpen uri = false) : session.due uri = [] :=
  if_neg (Bool.eq_false_iff.mp unopened)

theorem due_congr {first second : Session} (sameStore : first.store = second.store)
    (sameTracked : first.tracked = second.tracked)
    (sameOpen : first.isOpen uri = second.isOpen uri) : first.due uri = second.due uri := by
  have sameFile : first.fileOf? uri = second.fileOf? uri := by
    have sameAt : first.fileAt? = second.fileAt? := by
      funext path
      rw [fileAt?, fileAt?, sameTracked]
    rw [fileOf?, fileOf?, sameAt]
  have sameDiagnostics : first.diagnosticsOf = second.diagnosticsOf := by
    funext file
    rw [diagnosticsOf, diagnosticsOf, otherFiles, otherFiles, settings, settings, sameStore,
      sameTracked]
  rw [due, due, sameOpen, sameFile, sameDiagnostics]

theorem fileAt?_eq_none :
    session.fileAt? path = none ↔ ¬∃ text, HasText session.tracked path text := by
  rw [exists_hasText, fileAt?, List.find?_eq_none]
  simp

theorem fileOf?_eq_none (place : uri.filePath? = some path) :
    session.fileOf? uri = none ↔ ¬∃ text, HasText session.tracked path text := by
  rw [fileOf?, place, Option.bind_some, fileAt?_eq_none]

theorem isOpen_of_due (due : session.due uri ≠ []) : session.isOpen uri = true := by
  by_contra unopened
  exact due (due_of_not_isOpen (Bool.eq_false_iff.mpr unopened))

theorem exists_file_of_due (due : session.due uri ≠ []) :
    ∃ file, session.fileOf? uri = some file := by
  rw [due_of_isOpen (isOpen_of_due due)] at due
  cases found : session.fileOf? uri with
  | none =>
      rw [found] at due
      exact absurd rfl due
  | some file => exact ⟨file, rfl⟩

theorem exists_filePath_of_due (due : session.due uri ≠ []) :
    ∃ path, uri.filePath? = some path := by
  obtain ⟨file, found⟩ := exists_file_of_due due
  obtain ⟨path, place, -⟩ := Option.bind_eq_some_iff.mp found
  exact ⟨path, place⟩

/-- Diagnostics are due only for a document at the path of a tracked file. -/
theorem tracked_of_due (due : session.due uri ≠ []) (place : uri.filePath? = some path) :
    ∃ text, HasText session.tracked path text := by
  by_contra untracked
  obtain ⟨file, found⟩ := exists_file_of_due due
  cases found.symm.trans ((fileOf?_eq_none place).mpr untracked)

theorem isOpen_openDocument (document : OpenDocument) :
    (session.openDocument document).isOpen uri = (session.isOpen uri || uri == document.uri) := by
  rw [Bool.eq_iff_iff]
  simp only [isOpen, openDocument, List.any_append, List.any_filter, List.any_cons, List.any_nil,
    Bool.or_false, Bool.or_eq_true, List.any_eq_true, Bool.and_eq_true, bne_iff_ne, beq_iff_eq]
  constructor
  · rintro (⟨held, heldMem, different, rfl⟩ | rfl)
    · exact .inl ⟨held, heldMem, rfl⟩
    · exact .inr rfl
  · rintro (⟨held, heldMem, rfl⟩ | rfl)
    · by_cases same : held.uri = document.uri
      · exact .inr same.symm
      · exact .inl ⟨held, heldMem, same, rfl⟩
    · exact .inr rfl

theorem isOpen_editDocument (edited : Uri) (text : String) :
    (session.editDocument edited text).isOpen uri = session.isOpen uri := by
  unfold isOpen editDocument
  rw [List.any_map]
  congr 1
  funext held
  dsimp only [Function.comp_apply]
  split
  · next same => rw [beq_iff_eq.mp same]
  · rfl

theorem isOpen_closeDocument (closed : Uri) :
    (session.closeDocument closed).isOpen uri = (session.isOpen uri && uri != closed) := by
  rw [Bool.eq_iff_iff]
  simp only [isOpen, closeDocument, List.any_filter, List.any_eq_true, Bool.and_eq_true,
    bne_iff_ne, beq_iff_eq]
  constructor
  · rintro ⟨held, heldMem, different, rfl⟩
    exact ⟨⟨held, heldMem, rfl⟩, different⟩
  · rintro ⟨⟨held, heldMem, rfl⟩, different⟩
    exact ⟨held, heldMem, different, rfl⟩

/-- Publishing shows the diagnostics of every open document that is tracked,
and nothing else. -/
theorem lastShown?_publish :
    lastShown? session.publish.sent uri =
      if session.isOpen uri then (session.fileOf? uri).map session.diagnosticsOf else none := by
  -- Documents at one address show the same, so it does not matter which of
  -- them is the last.
  have shown : ∀ documents : List OpenDocument,
      lastShown? (documents.filterMap session.publication?) uri =
        if documents.any (·.uri == uri) then (session.fileOf? uri).map session.diagnosticsOf
        else none := by
    intro documents
    induction documents with
    | nil => rfl
    | cons document rest ih =>
        have first : lastShown? (session.publication? document).toList uri =
            if document.uri = uri then (session.fileOf? uri).map session.diagnosticsOf
            else none := by
          unfold publication?
          by_cases same : document.uri = uri
          · subst same
            cases session.fileOf? document.uri <;> simp [ServerMessage.shown?]
          · cases session.fileOf? document.uri <;> simp [ServerMessage.shown?, same]
        have split : (document :: rest).filterMap session.publication? =
            (session.publication? document).toList ++ rest.filterMap session.publication? := by
          cases heading : session.publication? document <;> simp [heading]
        rw [split, lastShown?_append, first, ih, List.any_cons]
        by_cases same : document.uri = uri
        · simp [same]
          split <;> simp
        · simp [same]
  exact shown session.opened

end Session

namespace Turn

variable {before : Session} {turn : Turn}

/-- What the editor shows after a turn is due, if it was before. -/
def Refreshes (before : Session) (turn : Turn) : Prop :=
  ∀ uri, (lastShown? turn.sent uri).getD (before.due uri) = turn.session.due uri

/-- A turn shows what publishing at its end shows. -/
def Publishes (turn : Turn) : Prop :=
  ∀ uri, lastShown? turn.sent uri = lastShown? turn.session.publish.sent uri

theorem publishes_publish (session : Session) : session.publish.Publishes :=
  fun _ => rfl

theorem refreshes_iff_of_silent (silent : Silent turn.sent) :
    turn.Refreshes before ↔ ∀ uri, before.due uri = turn.session.due uri := by
  refine forall_congr' fun uri => ?_
  rw [lastShown?_of_silent silent, Option.getD_none]

theorem refreshes_of_silent {sent : List ServerMessage} (silent : Silent sent) :
    Refreshes before ⟨before, sent⟩ :=
  (refreshes_iff_of_silent silent).mpr fun _ => rfl

theorem Refreshes.andThen_iff (refreshes : turn.Refreshes before) (step : Session → Turn) :
    (turn.andThen step).Refreshes before ↔ (step turn.session).Refreshes turn.session := by
  refine forall_congr' fun uri => ?_
  have shown : lastShown? (turn.andThen step).sent uri =
      (lastShown? (step turn.session).sent uri).or (lastShown? turn.sent uri) :=
    lastShown?_append
  rw [shown, Option.getD_or, refreshes uri]
  rfl

/-- A turn that publishes refreshes what is shown unless it drops a file whose
diagnostics are shown. -/
theorem Publishes.refreshes_iff (publishes : turn.Publishes)
    (kept : ∀ uri, before.due uri ≠ [] → turn.session.isOpen uri = true) :
    turn.Refreshes before ↔
      ∀ uri path, before.due uri ≠ [] → uri.filePath? = some path →
        ∃ text, HasText turn.session.tracked path text := by
  constructor
  · intro refreshes uri path due place
    by_contra dropped
    have untracked := (Session.fileOf?_eq_none place).mpr dropped
    have shown := refreshes uri
    rw [publishes, Session.lastShown?_publish, if_pos (kept uri due),
      turn.session.due_of_isOpen (kept uri due), untracked] at shown
    exact due shown
  · intro tracked uri
    rw [publishes, Session.lastShown?_publish]
    by_cases due : before.due uri = []
    · rw [due, Session.due]
      split <;> rfl
    · have isOpen := kept uri due
      obtain ⟨path, place⟩ := Session.exists_filePath_of_due due
      rw [if_pos isOpen, turn.session.due_of_isOpen isOpen]
      cases found : turn.session.fileOf? uri with
      | none => exact absurd (tracked uri path due place) ((Session.fileOf?_eq_none place).mp found)
      | some file => rfl

end Turn

end CatalogServer
