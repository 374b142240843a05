import CatalogServer.Proofs.Catalog.Seams

/-!
# Comments

A comment may stand between any two events of a document, and it changes
nothing in the catalog that is read: in every state the reader goes on with
what it held.  It need not be looked at where the comment stands, in the
prolog, in the text of an element or in a part that is skipped.
-/

namespace CatalogServer

open Text Xml

namespace Xml

/-- A text is cut at the start of a document or at the end of an event of it. -/
def IsSeam (front back : String) : Prop :=
  front = "" ∨ ∃ located ∈ (events (front ++ back)).events,
    located.span.stop = byteSize front.toList

theorem splitAtDelimiter_of_absent {delimiter : List Char} {mark : Char} {text : List Char}
    (begins : delimiter.head? = some mark) (absent : mark ∉ text) (after : List Char) :
    splitAtDelimiter delimiter (text ++ delimiter ++ after) = some (text, after) := by
  obtain ⟨marks, rfl⟩ := List.head?_eq_some_iff.mp begins
  induction text with
  | nil =>
      have initial : (mark :: marks).isPrefixOf (mark :: (marks ++ after)) = true := by
        rw [List.isPrefixOf_iff_prefix]
        exact List.prefix_append (mark :: marks) after
      rw [List.nil_append, List.cons_append, splitAtDelimiter, if_pos initial]
      simp
  | cons c rest ih =>
      rw [List.mem_cons, not_or] at absent
      have other : (mark == c) = false := beq_eq_false_iff_ne.mpr absent.1
      rw [List.append_assoc, List.cons_append, ← List.append_assoc, splitAtDelimiter, ih absent.2]
      simp [List.isPrefixOf, other]

theorem takes_comment {comment : List Char} (undashed : '-' ∉ comment)
    (opened : List (List Char)) (after : List Char) :
    Takes opened ("<!--".toList ++ comment ++ "-->".toList) .comment opened after := by
  have split : splitAtDelimiter "-->".toList (comment ++ "-->".toList ++ after) =
      some (comment, after) :=
    splitAtDelimiter_of_absent rfl undashed after
  have recognised : scanMarkup ("!--".toList ++ comment ++ "-->".toList ++ after) =
      .event .comment ("!--".toList ++ comment ++ "-->".toList) after := by
    change scanComment ('-' :: (comment ++ "-->".toList ++ after)) = _
    rw [scanComment, split]
    rfl
  exact .markup recognised

end Xml

namespace Reader

theorem step_comment (state : State) (span : ByteSpan) :
    ∃ next, state.step ⟨span, .comment⟩ = .ok next ∧ sameContent.Related next state := by
  have same := sameContent_refl state
  cases state with
  | contextText | messageText | variant | form | formVariant =>
      exact ⟨_, rfl, by simpa using same⟩
  | target place =>
      cases same with
      | target alike =>
          have started : (addPiece place ⟨[], false⟩ span.start).target.textStart =
              place.target.textStart := by
            simp only [addPiece]
            cases place.target.textStart <;> rfl
          have sameDraft : (addPiece place ⟨[], false⟩ span.start).target.Alike place.target :=
            ⟨rfl, rfl, List.append_nil _, by rw [started], rfl, rfl⟩
          exact ⟨_, rfl, .target ⟨alike.message, sameDraft⟩⟩
  | _ => exact ⟨_, rfl, same⟩

/-- A comment in front of the text that is left makes no difference. -/
theorem catalogFrom_comment {comment : List Char} (undashed : '-' ∉ comment) (state : State)
    (opened : List (List Char)) (text : List Char) :
    catalogFrom state opened ("<!--".toList ++ comment ++ "-->".toList ++ text) =
      catalogFrom state opened text := by
  obtain ⟨next, step, same⟩ := step_comment state default
  rw [catalogFrom_of_takes (takes_comment undashed opened text), step]
  exact catalogFrom_congr same opened text

/-- At a seam of a document that is read the reader stands at a stage. -/
theorem exists_stage_of_isSeam {front back : String} {document : Document}
    (read : Document.read (front ++ back) = .ok document) (seam : IsSeam front back)
    (unmarked : (front ++ back).toList.head? ≠ some '\uFEFF') :
    ∃ stage, (Stage.initial (front ++ back).toList).Reaches stage ∧
      stage.taken = front.toList ∧ stage.left = back.toList := by
  obtain ⟨opened, reaches⟩ := reaches_of_read read
  rw [dropByteOrderMark_of_head unmarked] at reaches
  rcases seam with rfl | ⟨located, member, stop⟩
  · exact ⟨_, .refl, rfl, by simp [Stage.initial]⟩
  · rw [events, dropByteOrderMark_of_head unmarked] at member
    obtain ⟨stage, next, piece, toStage, step, -, -, -, -, span⟩ :=
      reaches.exists_of_mem rfl member
    have toNext := toStage.tail step
    have size : byteSize next.taken = byteSize front.toList := by rw [← stop, span]
    rw [String.toList_append] at toNext ⊢
    exact ⟨next, toNext, Stage.Reaches.eq_of_byteSize toNext size⟩

end Reader

open Reader

/-- Wherever a comment is put between two events of a document, the document is
read as the same catalog. -/
theorem Document.read_comment {front back comment : String} {document : Document}
    (read : Document.read (front ++ back) = .ok document)
    (unmarked : (front ++ back).toList.head? ≠ some '\uFEFF') (seam : IsSeam front back)
    (undashed : '-' ∉ comment.toList) :
    ∃ other, Document.read (front ++ "<!--" ++ comment ++ "-->" ++ back) = .ok other ∧
      other.catalog = document.catalog := by
  obtain ⟨stage, reaches, takenEq, leftEq⟩ := exists_stage_of_isSeam read seam unmarked
  have whole : (front ++ "<!--" ++ comment ++ "-->" ++ back).toList =
      front.toList ++ ("<!--".toList ++ comment.toList ++ "-->".toList ++ back.toList) := by
    simp
  have stillUnmarked :
      (front ++ "<!--" ++ comment ++ "-->" ++ back).toList.head? ≠ some '\uFEFF' := by
    rw [whole]
    rw [String.toList_append] at unmarked
    cases frontEq : front.toList with
    | nil => simp
    | cons c rest => simpa [frontEq] using unmarked
  have catalog : catalogFrom .prolog [] (front.toList ++ back.toList) =
      some document.catalog := by
    rw [← String.toList_append, ← dropByteOrderMark_of_head unmarked, ← catalog_read, read]
    rfl
  have bracket : Boundary
      ("<!--".toList ++ comment.toList ++ "-->".toList ++ back.toList) :=
    .inr ⟨_, rfl⟩
  have commented : (Document.read (front ++ "<!--" ++ comment ++ "-->" ++ back)).toOption.map
      (·.catalog) = some document.catalog := by
    rw [catalog_read, dropByteOrderMark_of_head stillUnmarked, whole, ← takenEq,
      reaches.catalogFrom_eq fun _ => bracket, catalogFrom_comment undashed, ← leftEq,
      ← reaches.catalogFrom_eq id, takenEq, leftEq, catalog]
  exact Except.toOption_map_eq_some_iff.mp commented

/-- The part of a document in front of the end tag of a target. -/
def targetFront : String :=
  "<?xml version=\"1.0\"?><TS><context><name>n</name><message><source>s</source>" ++
    "<translation>a b"

def targetBack : String :=
  "</translation></message></context></TS>"

theorem read_comment_inTarget :
    ∃ document other, Document.read (targetFront ++ targetBack) = .ok document ∧
      Document.read (targetFront ++ "<!--" ++ " why & \"how\" " ++ "-->" ++ targetBack) =
        .ok other ∧
      other.catalog = document.catalog := by
  have accepted : (Document.read (targetFront ++ targetBack)).toOption.isSome = true := by
    decide +kernel
  obtain ⟨document, read⟩ := Except.isSome_toOption_iff.mp accepted
  have cut : (events (targetFront ++ targetBack)).events.any
      (fun located => located.span.stop == byteSize targetFront.toList) = true := by
    decide +kernel
  have seam : IsSeam targetFront targetBack := by
    obtain ⟨located, member, stop⟩ := List.any_eq_true.mp cut
    exact .inr ⟨located, member, eq_of_beq stop⟩
  have undashed : '-' ∉ " why & \"how\" ".toList := by decide +kernel
  obtain ⟨other, readOther, same⟩ :=
    Document.read_comment read (by decide +kernel) seam undashed
  exact ⟨document, other, read, readOther, same⟩

end CatalogServer
