import CatalogServer.Proofs.Catalog.Placing
import CatalogServer.Proofs.Xml.Elements

/-!
# How deep a reader stands

The state of a reader tells how many elements are open.  Every step keeps this
number right, and no element is open before the first event or behind the last
one.  So the events of a document that is read are nested, each start tag with
its end tag.
-/

namespace CatalogServer.Reader

open Text Xml

/-- Number of elements that are open. -/
def State.depth : State → Nat
  | .prolog | .epilog _ => 0
  | .root _ => 1
  | .dependencies _ depth => depth + 2
  | .context _ => 2
  | .contextText _ _ _ _ => 3
  | .message _ => 3
  | .location _ depth => depth + 4
  | .messageText _ _ _ _ => 4
  | .target _ => 4
  | .variant _ _ => 5
  | .form _ _ => 5
  | .formVariants _ _ => 5
  | .formVariant _ _ _ => 6

theorem depth_of_targetDepth {state : State} (inside : 0 < state.targetDepth) :
    state.depth = state.targetDepth + 3 := by
  cases state with
  | target | variant | form | formVariants | formVariant => rfl
  | _ => cases inside

section Steps

variable {span : ByteSpan} {event : Event} {next : State}

theorem depth_of_map_textPiece {parent : String} {f : Piece → State} {depth : Nat}
    (step : (textPiece parent ⟨span, event⟩).map f = .ok next)
    (stays : ∀ piece, (f piece).depth = depth) : next.depth = depthBehind depth event := by
  obtain ⟨piece, read, rfl⟩ := Except.map_eq_ok step
  rw [stays]
  exact (depthBehind_of_textPiece read depth).symm

theorem depth_of_map_acceptInsignificant {parent : String} {state : State}
    (step : (acceptInsignificant parent ⟨span, event⟩).map (fun _ => state) = .ok next) :
    next.depth = depthBehind state.depth event := by
  obtain ⟨_, accepted, rfl⟩ := Except.map_eq_ok step
  exact (depthBehind_of_acceptInsignificant accepted state.depth).symm

theorem depth_of_prologStep (step : prologStep ⟨span, event⟩ = .ok next) :
    next.depth = depthBehind 0 event := by
  cases event with
  | opening tag =>
      simp only [prologStep] at step
      split at step
      · obtain ⟨document, -, rfl⟩ := Except.map_eq_ok step
        rfl
      · cases step
  | selfClosing tag =>
      simp only [prologStep] at step
      split at step
      · obtain ⟨document, -, rfl⟩ := Except.map_eq_ok step
        rfl
      · cases step
  | text raw =>
      simp only [prologStep] at step
      split at step
      · cases step
        rfl
      · cases step
  | cdata | closing => cases step
  | _ =>
      cases step
      rfl

theorem depth_of_rootStep {document : Document}
    (step : rootStep document ⟨span, event⟩ = .ok next) :
    next.depth = depthBehind 1 event := by
  cases event with
  | opening tag =>
      simp only [rootStep] at step
      split at step
      · cases step
        rfl
      split at step
      · cases step
        rfl
      · cases step
  | selfClosing tag =>
      simp only [rootStep] at step
      split at step
      · cases step
        rfl
      · cases step
  | closing =>
      cases step
      rfl
  | _ =>
      simp only [rootStep] at step
      exact depth_of_map_acceptInsignificant step

theorem depth_of_skipStep {inside : Nat → State} {outside : State} {base : Nat}
    (insides : ∀ depth, (inside depth).depth = depth + base + 1) (outsides : outside.depth = base)
    (depth : Nat) (event : Event) :
    (skipStep inside outside depth event).depth = depthBehind (depth + base + 1) event := by
  cases event with
  | opening tag =>
      simp only [skipStep, insides, depthBehind]
      omega
  | closing =>
      simp only [skipStep, depthBehind]
      split
      · next outermost =>
          rw [outsides, eq_of_beq outermost]
          omega
      · next deeper =>
          rw [beq_iff_eq] at deeper
          rw [insides]
          omega
  | _ => simp only [skipStep, insides, depthBehind]

theorem depth_of_contextStep {place : InContext}
    (step : contextStep place ⟨span, event⟩ = .ok next) :
    next.depth = depthBehind 2 event := by
  cases event with
  | opening tag =>
      simp only [contextStep] at step
      split at step
      · cases step
        rfl
      split at step
      · cases step
        rfl
      split at step
      · unfold openMessage at step
        obtain ⟨attributes, -, opened⟩ := Except.bind_eq_ok step
        cases opened
        rfl
      · cases step
  | selfClosing tag =>
      simp only [contextStep] at step
      split at step
      · cases step
        rfl
      split at step
      · cases step
        rfl
      · cases step
  | closing =>
      simp only [contextStep, closeContext] at step
      split at step
      · cases step
      · cases step
        rfl
  | _ =>
      simp only [contextStep] at step
      exact depth_of_map_acceptInsignificant step

theorem depth_of_contextTextStep {place : InContext} {part : ContextPart} {start : Nat}
    {text : List Char} (step : contextTextStep place part start text ⟨span, event⟩ = .ok next) :
    next.depth = depthBehind 3 event := by
  cases event with
  | closing =>
      cases step
      rfl
  | _ =>
      simp only [contextTextStep] at step
      exact depth_of_map_textPiece step fun _ => rfl

theorem depth_of_messageStep {place : InMessage}
    (step : messageStep place ⟨span, event⟩ = .ok next) :
    next.depth = depthBehind 3 event := by
  cases event with
  | opening tag =>
      simp only [messageStep] at step
      split at step
      · obtain ⟨location, -, rfl⟩ := Except.map_eq_ok step
        rfl
      split at step
      · unfold openTarget at step
        obtain ⟨attributes, -, opened⟩ := Except.bind_eq_ok step
        cases opened
        rfl
      · cases step
        rfl
  | selfClosing tag =>
      simp only [messageStep] at step
      split at step
      · obtain ⟨location, -, rfl⟩ := Except.map_eq_ok step
        rfl
      split at step
      · cases step
        rfl
      split at step
      · unfold emptyTarget at step
        obtain ⟨attributes, -, emptied⟩ := Except.bind_eq_ok step
        cases emptied
        rfl
      · obtain ⟨stored, -, rfl⟩ := Except.map_eq_ok step
        rfl
  | closing =>
      simp only [messageStep, closeMessage] at step
      split at step
      · cases step
      · cases step
        rfl
  | _ =>
      simp only [messageStep] at step
      exact depth_of_map_acceptInsignificant step

theorem depth_of_messageTextStep {place : InMessage} {element : String} {start : Nat}
    {text : List Char} (step : messageTextStep place element start text ⟨span, event⟩ = .ok next) :
    next.depth = depthBehind 4 event := by
  cases event with
  | closing =>
      simp only [messageTextStep, closeMessageText] at step
      split at step
      · cases step
        rfl
      · obtain ⟨stored, -, rfl⟩ := Except.map_eq_ok step
        rfl
  | _ =>
      simp only [messageTextStep] at step
      exact depth_of_map_textPiece step fun _ => rfl

theorem depth_of_closeTarget {place : InTarget} {stop : Nat}
    (step : closeTarget place stop = .ok next) : next.depth = 3 := by
  simp only [closeTarget] at step
  split at step
  · split at step
    · cases step
      rfl
    · cases step
  · cases step
    rfl

/-- Behind a step from inside a target the reader stands inside it, or the step
was its end tag. -/
theorem depth_of_step_in_target {state : State} (step : state.step ⟨span, event⟩ = .ok next)
    (inside : 0 < state.targetDepth) : next.depth = depthBehind state.depth event := by
  have behind := targetDepth_of_step step inside
  have before := depth_of_targetDepth inside
  cases event with
  | closing =>
      cases state with
      | target place => exact depth_of_closeTarget step
      | variant | form | formVariants | formVariant =>
          cases step
          rfl
      | _ => cases inside
  | _ =>
      simp only [depthBehind] at behind ⊢
      rw [depth_of_targetDepth (by omega), behind, before]

theorem depth_of_epilogStep {document : Document}
    (step : epilogStep document ⟨span, event⟩ = .ok next) : next.depth = depthBehind 0 event := by
  cases event with
  | comment | instruction =>
      cases step
      rfl
  | text raw =>
      simp only [epilogStep] at step
      split at step
      · cases step
        rfl
      · cases step
  | _ => cases step

theorem depth_of_step {state : State} (step : state.step ⟨span, event⟩ = .ok next) :
    next.depth = depthBehind state.depth event := by
  cases state with
  | prolog => exact depth_of_prologStep step
  | root document => exact depth_of_rootStep step
  | dependencies document depth =>
      cases step
      exact depth_of_skipStep (fun _ => rfl) rfl depth event
  | context place => exact depth_of_contextStep step
  | contextText place part start text => exact depth_of_contextTextStep step
  | message place => exact depth_of_messageStep step
  | location place depth =>
      cases step
      exact depth_of_skipStep (fun _ => rfl) rfl depth event
  | messageText place element start text => exact depth_of_messageTextStep step
  | epilog document => exact depth_of_epilogStep step
  | target | variant | form | formVariants | formVariant =>
      exact depth_of_step_in_target step (by simp [State.targetDepth])

theorem depth_pos_of_closing {state : State} (step : state.step ⟨span, .closing⟩ = .ok next) :
    0 < state.depth := by
  cases state with
  | prolog | epilog => cases step
  | _ => simp [State.depth]

end Steps

/-- A piece changes the number of open elements as its event says. -/
theorem length_behind {opened behind : List (List Char)} {piece after : List Char}
    {event : Event} (first : Takes opened piece event behind after) :
    behind.length = depthBehind opened.length event := by
  cases first with
  | markup recognised =>
      cases event with
      | closing => exact absurd rfl (ne_closing_of_scanMarkup recognised)
      | _ => rfl
  | endTag => rfl
  | text => rfl

/-- The events that lead to the epilog are nested, but for the end tags of the
elements that are open in front of them. -/
theorem nest_of_run {events : List Located} {document : Document} :
    ∀ {state : State}, events.foldlM State.step state = .ok (.epilog document) →
      ∃ content closed, Content.nest events = some (content, closed) ∧
        closed.length = state.depth := by
  induction events with
  | nil =>
      intro state run
      cases run
      exact ⟨.nothing, [], rfl, rfl⟩
  | cons located events ih =>
      intro state run
      obtain ⟨span, event⟩ := located
      rw [List.foldlM_cons] at run
      obtain ⟨next, step, run⟩ := Except.bind_eq_ok run
      obtain ⟨content, closed, found, length⟩ := ih run
      -- behind the step there are as many end tags without a start tag as elements are open
      have behind := depth_of_step step
      rw [← length] at behind
      cases event with
      | opening tag =>
          cases closed with
          | nil => cases behind
          | cons first outer =>
              exact ⟨_, outer, Content.nest_opening found, by simpa [depthBehind] using behind⟩
      | closing =>
          have positive := depth_pos_of_closing step
          refine ⟨_, _, Content.nest_closing found, ?_⟩
          simp only [depthBehind] at behind
          simp only [List.length_cons]
          omega
      | _ => exact ⟨_, closed, Content.nest_flat (by rfl) found, behind⟩

theorem nested_of_run {events : List Located} {document : Document}
    (run : events.foldlM State.step .prolog = .ok (.epilog document)) :
    ∃ content, Content.nested? events = some content := by
  obtain ⟨content, closed, found, length⟩ := nest_of_run run
  cases List.length_eq_zero_iff.mp length
  exact ⟨content, by simp [Content.nested?, found]⟩

theorem run_of_read {text : String} {document : Document}
    (read : Document.read text = .ok document) :
    (Xml.events text).events.foldlM State.step .prolog = .ok (.epilog document) ∧
      ∃ stop, (Xml.events text).ending = .complete stop := by
  obtain ⟨last, run, finished⟩ := Except.bind_eq_ok (show readEvents _ = _ from read)
  cases ending : (Xml.events text).ending with
  | failed offset error =>
      rw [ending] at finished
      cases finished
  | complete stop =>
      rw [ending] at finished
      cases last with
      | epilog other =>
          cases finished
          exact ⟨run, stop, rfl⟩
      | _ => cases finished

end CatalogServer.Reader
