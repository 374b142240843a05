import CatalogServer.Proofs.Catalog.Stages

/-!
# Between two events

A document that is read is taken apart at the ends of its events.  At every
such seam the reader stands at a stage of its own, which the part of the text
in front of the seam determines: from there on it reads whatever follows.
-/

namespace CatalogServer.Reader

open Text Xml

section Reaches

variable {first last stage : Stage}

/-- Every event of a document stands between two stages of reading it. -/
theorem Stage.Reaches.exists_of_mem (reaches : first.Reaches last) (done : last.left = [])
    {located : Located}
    (member : located ∈ (scan (byteSize first.taken) first.opened first.left).events) :
    ∃ stage next piece, first.Reaches stage ∧ stage.Next next ∧ next.Reaches last ∧
      stage.left = piece ++ next.left ∧
      Takes stage.opened piece located.event next.opened next.left ∧
      next.taken = stage.taken ++ piece ∧
      located.span = ⟨byteSize stage.taken, byteSize next.taken⟩ := by
  induction reaches using Relation.ReflTransGen.head_induction_on with
  | refl =>
      rw [done, scan_nil] at member
      cases member
  | head next reaches ih =>
      cases next with
      | @piece taken piece left opened behind state following event takes step =>
          dsimp only at member ih
          rw [scan_of_takes takes, EventStream.cons] at member
          rcases List.mem_cons.mp member with rfl | later
          · refine ⟨_, _, piece, .refl, .piece takes step, reaches, rfl, takes, rfl, ?_⟩
            rw [byteSize_append]
          · rw [← byteSize_append] at later
            obtain ⟨stage, after, part, fromNext, rest⟩ := ih later
            exact ⟨stage, after, part, fromNext.head (.piece takes step), rest⟩

theorem Stage.Reaches.eq_of_byteSize {front back : List Char}
    (reaches : (Stage.initial (front ++ back)).Reaches stage)
    (size : byteSize stage.taken = byteSize front) :
    stage.taken = front ∧ stage.left = back := by
  obtain ⟨part, taken, whole, -⟩ := reaches.exists_part
  have same : front ++ back = stage.taken ++ stage.left := by
    rw [taken]
    exact whole
  obtain ⟨frontEq, backEq⟩ := append_inj_of_byteSize same size.symm
  exact ⟨frontEq.symm, backEq.symm⟩

/-- From a stage on, the text that is left leads to the same catalog as from the
start, and so does every other text that ends character data wherever it did. -/
theorem Stage.Reaches.catalogFrom_eq {text other : List Char}
    (reaches : (Stage.initial text).Reaches stage)
    (boundary : Boundary stage.left → Boundary other) :
    catalogFrom .prolog [] (stage.taken ++ other) = catalogFrom stage.state stage.opened other := by
  obtain ⟨part, taken, -, behaves⟩ := reaches.exists_part
  rw [taken]
  exact (behaves other boundary).2

theorem boundary_of_append {part rest : List Char} (boundary : Boundary (part ++ rest)) :
    Boundary part := by
  cases part with
  | nil => exact .inl rfl
  | cons c others =>
      rcases boundary with empty | ⟨_, starts⟩
      · cases empty
      · cases starts
        exact .inr ⟨others, rfl⟩

/-- The part of a text that is taken between two stages leads from the one to
the other by itself. -/
theorem Stage.Reaches.exists_run (reaches : first.Reaches last) :
    ∃ part, last.taken = first.taken ++ part ∧ first.left = part ++ last.left ∧
      (scan (byteSize first.taken) first.opened part).events.foldlM State.step first.state =
        .ok last.state := by
  induction reaches using Relation.ReflTransGen.head_induction_on with
  | refl => exact ⟨[], by simp, rfl, by rw [scan_nil]; rfl⟩
  | head next reaches ih =>
      obtain ⟨part, takenEq, leftEq, run⟩ := ih
      cases next with
      | @piece taken piece left opened behind state following event takes step =>
          dsimp only at takenEq leftEq run ⊢
          refine ⟨piece ++ part, by rw [takenEq, List.append_assoc], ?_, ?_⟩
          · rw [leftEq, List.append_assoc]
          · rw [leftEq] at takes
            rw [scan_of_takes (takes.behind boundary_of_append), EventStream.cons,
              List.foldlM_cons, step, ← byteSize_append]
            exact run

/-- The state of the reader behind the front part of a document. -/
def stateBehind (front : String) : Except ReadError State :=
  (Xml.events front).events.foldlM State.step .prolog

theorem Stage.Reaches.stateBehind_eq {front : String} {text : List Char}
    (reaches : (Stage.initial text).Reaches stage)
    (taken : stage.taken = dropByteOrderMark front.toList) :
    stateBehind front = .ok stage.state := by
  obtain ⟨part, takenEq, -, run⟩ := reaches.exists_run
  obtain rfl : part = dropByteOrderMark front.toList := by
    rw [← taken, takenEq]
    rfl
  exact run

end Reaches

theorem exists_stage_of_start {front back : String} {document : Document}
    (read : Document.read (front ++ back) = .ok document) {located : Located}
    (member : located ∈ (Xml.events (front ++ back)).events)
    (start : located.span.start = byteSize (dropByteOrderMark front.toList))
    (unmarked : back.toList.head? ≠ some '\uFEFF') :
    ∃ stage, (Stage.initial (dropByteOrderMark front.toList ++ back.toList)).Reaches stage ∧
      stage.taken = dropByteOrderMark front.toList ∧ stage.left = back.toList := by
  obtain ⟨opened, reaches⟩ := reaches_of_read read
  rw [String.toList_append, dropByteOrderMark_append fun _ => unmarked] at reaches
  rw [Xml.events, String.toList_append, dropByteOrderMark_append fun _ => unmarked] at member
  obtain ⟨stage, next, piece, toStage, -, -, -, -, -, span⟩ := reaches.exists_of_mem rfl member
  have size : byteSize stage.taken = byteSize (dropByteOrderMark front.toList) := by
    rw [← start, span]
  exact ⟨stage, toStage, Stage.Reaches.eq_of_byteSize toStage size⟩

end CatalogServer.Reader
