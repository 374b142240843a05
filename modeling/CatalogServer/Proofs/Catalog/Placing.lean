import CatalogServer.Proofs.Catalog.Recording

/-!
# Where target elements stand

Every target that a document records is an element of its text: from a stage
in front of the element, inside a message, the reader comes to a stage behind
it, where it holds the target, and the same elements are open at both.
-/

namespace CatalogServer.Reader

open Text Xml

/-- Number of elements that are open behind an event. -/
def depthBehind (depth : Nat) : Event → Nat
  | .opening _ => depth + 1
  | .closing => depth - 1
  | _ => depth

theorem depthBehind_of_textPiece {parent : String} {located : Located} {piece : Piece}
    (read : textPiece parent located = .ok piece) (depth : Nat) :
    depthBehind depth located.event = depth := by
  obtain ⟨span, event⟩ := located
  cases event with
  | opening tag => cases read
  | closing => cases read
  | _ => rfl

theorem depthBehind_of_acceptInsignificant {parent : String} {located : Located}
    (accepted : acceptInsignificant parent located = .ok ()) (depth : Nat) :
    depthBehind depth located.event = depth := by
  obtain ⟨span, event⟩ := located
  cases event with
  | opening tag => cases accepted
  | closing => cases accepted
  | _ => rfl

section Steps

variable {span : ByteSpan} {event : Event} {next : State}

theorem targetDepth_of_targetPiece {place : InTarget}
    (step : targetPiece place ⟨span, event⟩ = .ok next) :
    next.targetDepth = depthBehind 1 event := by
  obtain ⟨piece, read, rfl⟩ := Except.map_eq_ok step
  exact (depthBehind_of_textPiece read 1).symm

theorem targetDepth_of_targetStep {place : InTarget}
    (step : targetStep place ⟨span, event⟩ = .ok next) :
    next.targetDepth = depthBehind 1 event := by
  cases event with
  | opening tag =>
      simp only [targetStep] at step
      split at step
      · unfold openForm at step
        obtain ⟨attributes, -, opened⟩ := Except.bind_eq_ok step
        cases opened
        change (if _ then _ else _ : State).targetDepth = 2
        split <;> rfl
      split at step
      · cases step
        rfl
      · exact targetDepth_of_targetPiece step
  | selfClosing tag =>
      simp only [targetStep] at step
      split at step
      · cases step
        rfl
      split at step
      · cases step
        rfl
      · exact targetDepth_of_targetPiece step
  | closing =>
      simp only [targetStep, closeTarget] at step
      split at step
      · split at step
        · cases step
          rfl
        · cases step
      · cases step
        rfl
  | _ => exact targetDepth_of_targetPiece step

theorem targetDepth_of_leafStep {element : String} {close stay : List Char → State}
    {text : List Char} {depth : Nat}
    (step : leafStep element close stay text ⟨span, event⟩ = .ok next)
    (closes : ∀ text, (close text).targetDepth = depth - 1)
    (stays : ∀ text, (stay text).targetDepth = depth) :
    next.targetDepth = depthBehind depth event := by
  unfold leafStep at step
  split at step
  · next closing =>
      cases step
      dsimp only at closing
      rw [closes, closing]
      rfl
  · obtain ⟨piece, read, rfl⟩ := Except.map_eq_ok step
    rw [stays]
    exact (depthBehind_of_textPiece read depth).symm

theorem targetDepth_of_formVariantsStep {place : InTarget} {texts : List String}
    (step : formVariantsStep place texts ⟨span, event⟩ = .ok next) :
    next.targetDepth = depthBehind 2 event := by
  cases event with
  | opening tag =>
      simp only [formVariantsStep] at step
      split at step
      · cases step
        rfl
      · cases step
  | selfClosing tag =>
      simp only [formVariantsStep] at step
      split at step
      · cases step
        rfl
      · cases step
  | closing =>
      cases step
      rfl
  | _ =>
      simp only [formVariantsStep] at step
      obtain ⟨_, accepted, rfl⟩ := Except.map_eq_ok step
      exact (depthBehind_of_acceptInsignificant accepted 2).symm

theorem targetDepth_of_step {state : State} (step : state.step ⟨span, event⟩ = .ok next)
    (inside : 0 < state.targetDepth) :
    next.targetDepth = depthBehind state.targetDepth event := by
  cases state with
  | target place => exact targetDepth_of_targetStep step
  | variant place text =>
      simp only [State.step] at step
      exact targetDepth_of_leafStep step (fun _ => rfl) (fun _ => rfl)
  | form place text =>
      simp only [State.step] at step
      exact targetDepth_of_leafStep step (fun _ => rfl) (fun _ => rfl)
  | formVariants place texts => exact targetDepth_of_formVariantsStep step
  | formVariant place texts text =>
      simp only [State.step] at step
      exact targetDepth_of_leafStep step (fun _ => rfl) (fun _ => rfl)
  | _ => cases inside

theorem opening_of_messageStep {place : InMessage}
    (step : messageStep place ⟨span, event⟩ = .ok next) (inside : 0 < next.targetDepth) :
    ∃ tag, event = .opening tag ∧ next.targetDepth = 1 := by
  cases event with
  | opening tag =>
      refine ⟨tag, rfl, ?_⟩
      simp only [messageStep] at step
      split at step
      · obtain ⟨location, -, rfl⟩ := Except.map_eq_ok step
        cases inside
      split at step
      · unfold openTarget at step
        obtain ⟨attributes, -, opened⟩ := Except.bind_eq_ok step
        cases opened
        rfl
      · cases step
        cases inside
  | selfClosing tag =>
      simp only [messageStep] at step
      split at step
      · obtain ⟨location, -, rfl⟩ := Except.map_eq_ok step
        cases inside
      split at step
      · cases step
        cases inside
      split at step
      · unfold emptyTarget at step
        obtain ⟨attributes, -, emptied⟩ := Except.bind_eq_ok step
        cases emptied
        cases inside
      · obtain ⟨stored, -, rfl⟩ := Except.map_eq_ok step
        cases inside
  | closing =>
      simp only [messageStep, closeMessage] at step
      split at step
      · cases step
      · cases step
        cases inside
  | _ =>
      simp only [messageStep] at step
      obtain ⟨_, -, rfl⟩ := Except.map_eq_ok step
      cases inside

theorem eq_of_messageStep_text {place : InMessage} {raw : List Char}
    (step : messageStep place ⟨span, .text raw⟩ = .ok next) : next = .message place := by
  obtain ⟨_, -, rfl⟩ := Except.map_eq_ok step
  rfl

theorem depthBehind_of_messageStep {place later : InMessage}
    (step : messageStep place ⟨span, event⟩ = .ok (.message later)) (depth : Nat) :
    depthBehind depth event = depth := by
  cases event with
  | opening tag =>
      simp only [messageStep] at step
      split at step
      · obtain ⟨location, -, stays⟩ := Except.map_eq_ok step
        cases stays
      split at step
      · unfold openTarget at step
        obtain ⟨attributes, -, opened⟩ := Except.bind_eq_ok step
        cases opened
      · cases step
  | closing =>
      simp only [messageStep, closeMessage] at step
      split at step <;> cases step
  | _ => rfl

end Steps

/-- Inside some of the open elements, the elements around them stay open. -/
theorem exists_inner_of_takes {inner outer behind : List (List Char)} {piece left : List Char}
    {event : Event} (takes : Takes (inner ++ outer) piece event behind left) (inside : 0 < inner.length) :
    ∃ innerBehind, innerBehind.length = depthBehind inner.length event ∧
      behind = innerBehind ++ outer := by
  generalize openedEq : inner ++ outer = opened at takes
  cases takes with
  | @markup opened taken after event recognised =>
      subst openedEq
      cases event with
      | opening tag => exact ⟨tag.nameChars :: inner, rfl, rfl⟩
      | closing => exact absurd rfl (ne_closing_of_scanMarkup recognised)
      | _ => exact ⟨inner, rfl, rfl⟩
  | endTag recognised =>
      cases inner with
      | nil => cases inside
      | cons name rest =>
          cases openedEq
          exact ⟨rest, rfl, rfl⟩
  | text => exact ⟨inner, rfl, openedEq.symm⟩

/-- The reader came to a stage inside a target element from a stage in front
of it, and the elements that were open there still are. -/
structure Entered (first stage : Stage) (place : InMessage) (startTag : ByteSpan)
    (front : Stage) : Prop where
  fromFirst : first.Reaches front
  inMessage : front.state = .message place
  start : byteSize front.taken = startTag.start
  bracket : ∃ rest, front.left = '<' :: rest
  toStage : front.Reaches stage
  inside : ∃ inner, inner.length = stage.state.targetDepth ∧
    stage.opened = inner ++ front.opened

/-- The reader read a target element, from a stage in front of it to one
behind it, and came to another stage later. -/
structure Placed (first stage : Stage) (index : MessageIndex) (spans : TargetSpans)
    (front behind : Stage) (place : InMessage) (target : Target) : Prop where
  fromFirst : first.Reaches front
  inMessage : front.state = .message place
  isNext : index = place.nextIndex
  start : byteSize front.taken = spans.element.start
  bracket : ∃ rest, front.left = '<' :: rest
  element : front.Reaches behind
  nonempty : byteSize front.taken < byteSize behind.taken
  holds : behind.state = .message (setTarget place target spans)
  sameOpened : behind.opened = front.opened
  stop : byteSize behind.taken = spans.element.stop
  closes : behind.taken.getLast? = some '>'
  toStage : behind.Reaches stage

/-- A reader keeps track of target elements: it entered the one it stands in,
and read the ones it has recorded. -/
structure Tracked (first stage : Stage) : Prop where
  entered {place : InMessage} {startTag : ByteSpan} :
    stage.state.InTargetAt place startTag → ∃ front, Entered first stage place startTag front
  placed {index : MessageIndex} {spans : TargetSpans} :
    stage.state.Records index spans →
      ∃ front behind place target, Placed first stage index spans front behind place target

theorem targetDepth_pos {state : State} {place : InMessage} {startTag : ByteSpan}
    (inside : state.InTargetAt place startTag) : 0 < state.targetDepth := by
  cases state with
  | target | variant | form | formVariants | formVariant => simp [State.targetDepth]
  | _ => cases inside

section Onward

variable {first : Stage} {taken piece left : List Char} {opened behind : List (List Char)}
  {state following : State} {event : Event} {place : InMessage} {startTag : ByteSpan}

theorem Entered.exists_inner {front : Stage}
    (entered : Entered first ⟨taken, opened, state, piece ++ left⟩ place startTag front)
    (inside : 0 < state.targetDepth) (takes : Takes opened piece event behind left)
    (step : state.step ⟨⟨byteSize taken, byteSize taken + byteSize piece⟩, event⟩ =
      .ok following) :
    ∃ inner, inner.length = following.targetDepth ∧ behind = inner ++ front.opened := by
  obtain ⟨inner, length, openedEq⟩ := entered.inside
  dsimp only at length openedEq
  subst openedEq
  obtain ⟨innerBehind, lengthBehind, behindEq⟩ := exists_inner_of_takes takes (by omega)
  refine ⟨innerBehind, ?_, behindEq⟩
  rw [lengthBehind, length, targetDepth_of_step step inside]

theorem entered_of_opening
    (reaches : first.Reaches ⟨taken, opened, .message place, piece ++ left⟩)
    (takes : Takes opened piece event behind left)
    (step : (State.message place).step
      ⟨⟨byteSize taken, byteSize taken + byteSize piece⟩, event⟩ = .ok following)
    (inside : following.InTargetAt place ⟨byteSize taken, byteSize taken + byteSize piece⟩) :
    Entered first ⟨taken ++ piece, behind, following, left⟩ place
      ⟨byteSize taken, byteSize taken + byteSize piece⟩
      ⟨taken, opened, .message place, piece ++ left⟩ := by
  obtain ⟨tag, rfl, depth⟩ := opening_of_messageStep step (targetDepth_pos inside)
  obtain ⟨⟨rest, rfl⟩, -⟩ := takes.brackets (by simp)
  refine ⟨reaches, rfl, rfl, ⟨_, rfl⟩, .single (.piece takes step), [tag.nameChars], ?_, ?_⟩
  · rw [depth]
    rfl
  · cases takes
    rfl

/-- The piece that ends the target element in which a stage stands places the
element. -/
theorem placed_of_end {spans : TargetSpans} {target : Target} {front : Stage}
    (entered : Entered first ⟨taken, opened, state, piece ++ left⟩ place spans.startTag front)
    (inside : state.InTargetAt place spans.startTag)
    (takes : Takes opened piece event behind left)
    (step : state.step ⟨⟨byteSize taken, byteSize taken + byteSize piece⟩, event⟩ =
      .ok (.message (setTarget place target spans)))
    (element : spans.element = ⟨spans.startTag.start, byteSize taken + byteSize piece⟩) :
    Placed first ⟨taken ++ piece, behind, .message (setTarget place target spans), left⟩
      place.nextIndex spans front
      ⟨taken ++ piece, behind, .message (setTarget place target spans), left⟩ place target := by
  have positive := targetDepth_pos inside
  have depth := targetDepth_of_step step positive
  have closing : event = .closing := by
    cases event with
    | closing => rfl
    | opening tag => cases depth
    | _ =>
        simp only [depthBehind, State.targetDepth] at depth positive
        omega
  subst closing
  obtain ⟨-, closes⟩ := takes.brackets (by simp)
  obtain ⟨inner, length, behindEq⟩ := entered.exists_inner positive takes step
  obtain rfl := List.length_eq_zero_iff.mp length
  have nonempty : byteSize front.taken < byteSize (taken ++ piece) := by
    obtain ⟨part, takenEq, -⟩ := entered.toStage.exists_part
    have positive := byteSize_pos (List.length_pos_iff.mp (length_of_takes takes))
    dsimp only at takenEq
    rw [takenEq, byteSize_append, byteSize_append]
    omega
  exact {
    fromFirst := entered.fromFirst
    inMessage := entered.inMessage
    isNext := rfl
    start := by rw [element]; exact entered.start
    bracket := entered.bracket
    element := entered.toStage.tail (.piece takes step)
    nonempty := nonempty
    holds := rfl
    sameOpened := behindEq
    stop := by rw [element]; exact byteSize_append taken piece
    closes := getLast_append closes taken
    toStage := .refl }

theorem placed_of_empty {spans : TargetSpans} {target : Target}
    (reaches : first.Reaches ⟨taken, opened, .message place, piece ++ left⟩)
    (takes : Takes opened piece event behind left)
    (step : (State.message place).step
      ⟨⟨byteSize taken, byteSize taken + byteSize piece⟩, event⟩ =
        .ok (.message (setTarget place target spans)))
    (element : spans.element = ⟨byteSize taken, byteSize taken + byteSize piece⟩)
    (markup : ∀ raw, event ≠ .text raw) :
    Placed first ⟨taken ++ piece, behind, .message (setTarget place target spans), left⟩
      place.nextIndex spans ⟨taken, opened, .message place, piece ++ left⟩
      ⟨taken ++ piece, behind, .message (setTarget place target spans), left⟩ place target := by
  obtain ⟨⟨rest, rfl⟩, closes⟩ := takes.brackets markup
  have stays := depthBehind_of_messageStep step
  have sameOpened : behind = opened := by
    cases takes with
    | markup recognised =>
        cases event with
        | opening tag => cases stays 0
        | _ => rfl
    | endTag => cases stays 1
    | text => rfl
  exact {
    fromFirst := reaches
    inMessage := rfl
    isNext := rfl
    start := by rw [element]
    bracket := ⟨_, rfl⟩
    element := .single (.piece takes step)
    nonempty := by
      have positive := byteSize_pos (List.cons_ne_nil '<' rest)
      dsimp only
      rw [byteSize_append]
      omega
    holds := rfl
    sameOpened := sameOpened
    stop := by rw [element]; exact byteSize_append taken _
    closes := getLast_append closes taken
    toStage := .refl }

end Onward

theorem Placed.onward {first stage later : Stage} {index : MessageIndex} {spans : TargetSpans}
    {front behind : Stage} {place : InMessage} {target : Target}
    (placed : Placed first stage index spans front behind place target)
    (next : stage.Next later) : Placed first later index spans front behind place target :=
  { placed with toStage := placed.toStage.tail next }

theorem Tracked.onward {first stage later : Stage} (tracked : Tracked first stage)
    (reaches : first.Reaches stage) (next : stage.Next later) : Tracked first later := by
  have still {index : MessageIndex} {spans : TargetSpans}
      (recorded : stage.state.Records index spans) :
      ∃ front behind place target, Placed first later index spans front behind place target := by
    obtain ⟨front, behind, place, target, placed⟩ := tracked.placed recorded
    exact ⟨front, behind, place, target, placed.onward next⟩
  cases next with
  | @piece taken piece left opened behind state following event takes step =>
      constructor
      · intro place startTag inside
        rcases inTargetAt_of_step step inside with before | ⟨rfl, rfl⟩
        · obtain ⟨front, entered⟩ := tracked.entered before
          exact ⟨front, { entered with
            toStage := entered.toStage.tail (.piece takes step)
            inside := entered.exists_inner (targetDepth_pos before) takes step }⟩
        · exact ⟨_, entered_of_opening reaches takes step inside⟩
      · intro index spans recorded
        rcases records_of_step step recorded with before | ⟨place, target, rfl, rfl, ends⟩
        · exact still before
        · rcases ends with ⟨inside, element⟩ | ⟨rfl, rfl⟩
          · obtain ⟨front, entered⟩ := tracked.entered inside
            exact ⟨front, _, place, target, placed_of_end entered inside takes step element⟩
          · by_cases text : ∃ raw, event = .text raw
            · obtain ⟨raw, rfl⟩ := text
              rw [eq_of_messageStep_text step] at recorded
              exact still recorded
            · have markup : ∀ raw, event ≠ .text raw := fun raw isText => text ⟨raw, isText⟩
              exact ⟨_, _, place, target, placed_of_empty reaches takes step rfl markup⟩

/-- Every stage of reading a text keeps track of target elements. -/
theorem tracked_of_reaches {text : List Char} {stage : Stage}
    (reaches : (Stage.initial text).Reaches stage) : Tracked (Stage.initial text) stage := by
  induction reaches with
  | refl =>
      constructor
      · intro place startTag inside
        cases inside
      · intro index spans recorded
        cases recorded
  | tail reaches next ih => exact ih.onward reaches next

end CatalogServer.Reader
