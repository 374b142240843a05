import CatalogServer.Proofs.Catalog.Resuming
import CatalogServer.Proofs.Catalog.Traits
import CatalogServer.Proofs.Xml.Locality
import Mathlib.Logic.Relation

/-!
# Stages of reading

A stage of reading is what was taken from the text so far, the elements that
are open, the state of the reader, and the text that is left.  Reading a
document leads from stage to stage, one piece of text at a time.  Between two
stages the reader does the same to whatever text follows, which is how an
edited document is compared with the one it was made from.
-/

namespace CatalogServer.Reader

open Text Xml

/-- A stage of reading a text. -/
structure Stage where
  taken : List Char
  opened : List (List Char)
  state : State
  left : List Char

/-- One piece leads from a stage to the next one. -/
inductive Stage.Next : Stage → Stage → Prop where
  | piece {taken piece left : List Char} {opened behind : List (List Char)}
      {state next : State} {event : Event} (takes : Takes opened piece event behind left)
      (step : state.step ⟨⟨byteSize taken, byteSize taken + byteSize piece⟩, event⟩ = .ok next) :
      Next ⟨taken, opened, state, piece ++ left⟩ ⟨taken ++ piece, behind, next, left⟩

/-- Pieces lead from a stage to another one. -/
def Stage.Reaches : Stage → Stage → Prop :=
  Relation.ReflTransGen Stage.Next

/-- The stage at which reading a text starts. -/
def Stage.initial (text : List Char) : Stage :=
  ⟨[], [], .prolog, text⟩

theorem reaches_of_resume {opened : List (List Char)} {text : List Char} :
    ∀ {taken : List Char} {state : State} {document : Document},
      resume state (scan (byteSize taken) opened text) = .ok document →
        ∃ behind, Stage.Reaches ⟨taken, opened, state, text⟩
          ⟨taken ++ text, behind, .epilog document, []⟩ := by
  induction opened, text using scan_induction with
  | done opened =>
      intro taken state document read
      rw [scan_nil] at read
      change state.complete (byteSize taken) = .ok document at read
      refine ⟨opened, ?_⟩
      cases state with
      | epilog other =>
          cases read
          rw [List.append_nil]
          exact Relation.ReflTransGen.refl
      | _ => cases read
  | fault opened text error distance failed =>
      intro taken state document read
      rw [failed] at read
      cases read
  | takes opened piece event behind after first ih =>
      intro taken state document read
      rw [scan_of_takes first, resume_cons] at read
      cases step : state.step ⟨⟨byteSize taken, byteSize taken + byteSize piece⟩, event⟩ with
      | error error =>
          rw [step] at read
          cases read
      | ok next =>
          rw [step] at read
          change resume next _ = .ok document at read
          rw [← byteSize_append] at read
          obtain ⟨last, reaches⟩ := ih read
          rw [List.append_assoc] at reaches
          exact ⟨last, Relation.ReflTransGen.head (.piece first step) reaches⟩

theorem reaches_of_read {text : String} {document : Document}
    (read : Document.read text = .ok document) :
    ∃ behind, (Stage.initial (dropByteOrderMark text.toList)).Reaches
      ⟨dropByteOrderMark text.toList, behind, .epilog document, []⟩ := by
  have resumed : resume .prolog (scan (byteSize []) [] (dropByteOrderMark text.toList)) =
      .ok document := read
  exact reaches_of_resume resumed

/-- What a piece leads to does not depend on where it stands. -/
theorem catalogFrom_of_step {opened behind : List (List Char)} {piece after : List Char}
    {event : Event} {state next : State} {span : ByteSpan}
    (takes : Takes opened piece event behind after)
    (step : state.step ⟨span, event⟩ = .ok next) :
    catalogFrom state opened (piece ++ after) = catalogFrom next behind after := by
  have related := Likeness.related_of_step (sameContent_laws default span)
    (sameContent_refl state) event
  rw [catalogFrom_of_takes takes]
  rw [step, Except.toOption_ok] at related
  generalize (state.step ⟨default, event⟩).toOption = other at related
  cases related with
  | some same => exact catalogFrom_congr same behind after

/-- From one stage to another a certain part of the text is taken, whatever
follows it that ends character data wherever the old text did. -/
theorem Stage.Reaches.exists_part {first last : Stage} (reaches : first.Reaches last) :
    ∃ part, last.taken = first.taken ++ part ∧ first.left = part ++ last.left ∧
      ∀ other, (Boundary last.left → Boundary other) →
        (Boundary first.left → Boundary (part ++ other)) ∧
          catalogFrom first.state first.opened (part ++ other) =
            catalogFrom last.state last.opened other := by
  induction reaches using Relation.ReflTransGen.head_induction_on with
  | refl =>
      refine ⟨[], by simp, rfl, ?_⟩
      intro other boundary
      exact ⟨boundary, rfl⟩
  | head next reaches ih =>
      obtain ⟨part, takenEq, leftEq, behaves⟩ := ih
      cases next with
      | @piece taken piece left opened behind state next event takes step =>
          dsimp only at takenEq leftEq behaves ⊢
          refine ⟨piece ++ part, ?_, ?_, ?_⟩
          · rw [takenEq, List.append_assoc]
          · rw [leftEq, List.append_assoc]
          · intro other boundary
            obtain ⟨ends, same⟩ := behaves other boundary
            rw [List.append_assoc]
            refine ⟨?_, ?_⟩
            · intro starts
              exact takes.boundary starts _
            · rw [catalogFrom_of_step (takes.behind ends) step, same]

end CatalogServer.Reader
