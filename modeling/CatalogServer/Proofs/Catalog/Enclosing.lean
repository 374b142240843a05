import CatalogServer.Proofs.Catalog.Depth
import CatalogServer.Proofs.Catalog.Stages

/-!
# The elements around a place

The state of a reader tells the names of the structural elements it stands in.
They are the last ones of the elements that are open; inside an element that is
skipped or holds a text there are more, whose names make no difference to the
reader.
-/

namespace CatalogServer

open Text Xml

namespace Xml

variable {opened behind : List (List Char)} {piece after : List Char} {event : Event} {tag : Tag}

theorem Takes.behind_of_opening (takes : Takes opened piece (.opening tag) behind after) :
    behind = tag.nameChars :: opened := by
  cases takes
  rfl

theorem Takes.opened_or_behind (takes : Takes opened piece event behind after) :
    opened <:+ behind ∨ behind <:+ opened := by
  cases takes with
  | markup =>
      refine .inl ?_
      cases event with
      | opening tag => exact List.suffix_cons _ _
      | _ => exact List.suffix_refl _
  | endTag => exact .inr (List.suffix_cons _ _)
  | text => exact .inl (List.suffix_refl _)

end Xml

namespace Reader

/-- The names of the structural elements around a place, innermost first. -/
def State.enclosing : State → List (List Char)
  | .prolog | .epilog _ => []
  | .root _ | .dependencies _ _ => ["TS".toList]
  | .context _ | .contextText _ _ _ _ => ["context".toList, "TS".toList]
  | .message _ | .location _ _ | .messageText _ _ _ _ =>
      ["message".toList, "context".toList, "TS".toList]
  | .target _ | .variant _ _ | .form _ _ | .formVariants _ _ | .formVariant _ _ _ =>
      ["translation".toList, "message".toList, "context".toList, "TS".toList]

theorem length_enclosing_le (state : State) : state.enclosing.length ≤ state.depth := by
  cases state <;> simp [State.enclosing, State.depth]

/-- An event leads out of structural elements, or into one through its start
tag, if no other element is open. -/
def Leads (state : State) (event : Event) (next : State) : Prop :=
  next.enclosing <:+ state.enclosing ∨ ∃ tag, event = .opening tag ∧
    next.enclosing = tag.nameChars :: state.enclosing ∧ state.enclosing.length = state.depth

section Steps

variable {span : ByteSpan} {event : Event} {state next : State}

theorem Leads.stays (same : next.enclosing = state.enclosing) : Leads state event next :=
  .inl (same ▸ List.suffix_refl _)

theorem leads_of_tag {tag : Tag} {name : String} (named : (tag.name == name) = true)
    (outside : state.enclosing.length = state.depth)
    (inside : next.enclosing = name.toList :: state.enclosing) :
    Leads state (.opening tag) next := by
  have chars : tag.nameChars = name.toList := by
    rw [← eq_of_beq named, Tag.name, String.toList_ofList]
  exact .inr ⟨tag, rfl, by rw [chars, inside], outside⟩

theorem leads_of_map {α : Type} {outcome : Except ReadError α} {f : α → State}
    (step : outcome.map f = .ok next) (stays : ∀ value, (f value).enclosing = state.enclosing) :
    Leads state event next := by
  obtain ⟨value, -, rfl⟩ := Except.map_eq_ok step
  exact .stays (stays value)

theorem leads_of_skipStep {inside : Nat → State} {outside : State}
    (insides : ∀ depth, (inside depth).enclosing = state.enclosing)
    (outsides : outside.enclosing = state.enclosing) (depth : Nat) :
    Leads state event (skipStep inside outside depth event) := by
  refine .stays ?_
  cases event with
  | closing =>
      simp only [skipStep]
      split
      · exact outsides
      · exact insides _
  | _ => exact insides _

theorem leads_of_prologStep (step : prologStep ⟨span, event⟩ = .ok next) :
    Leads .prolog event next := by
  cases event with
  | opening tag =>
      simp only [prologStep] at step
      split at step
      · next named =>
          obtain ⟨document, -, rfl⟩ := Except.map_eq_ok step
          exact leads_of_tag named rfl rfl
      · cases step
  | selfClosing tag =>
      simp only [prologStep] at step
      split at step
      · exact leads_of_map step fun _ => rfl
      · cases step
  | text raw =>
      simp only [prologStep] at step
      split at step
      · cases step
        exact .stays rfl
      · cases step
  | cdata | closing => cases step
  | _ =>
      cases step
      exact .stays rfl

theorem leads_of_rootStep {document : Document}
    (step : rootStep document ⟨span, event⟩ = .ok next) : Leads (.root document) event next := by
  cases event with
  | opening tag =>
      simp only [rootStep] at step
      split at step
      · next named =>
          cases step
          exact leads_of_tag named rfl rfl
      split at step
      · cases step
        exact .stays rfl
      · cases step
  | selfClosing tag =>
      simp only [rootStep] at step
      split at step
      · cases step
        exact .stays rfl
      · cases step
  | closing =>
      cases step
      exact .inl List.nil_suffix
  | _ =>
      simp only [rootStep] at step
      exact leads_of_map step fun _ => rfl

theorem leads_of_contextStep {place : InContext}
    (step : contextStep place ⟨span, event⟩ = .ok next) :
    Leads (.context place) event next := by
  cases event with
  | opening tag =>
      simp only [contextStep] at step
      split at step
      · cases step
        exact .stays rfl
      split at step
      · cases step
        exact .stays rfl
      split at step
      · next named =>
          unfold openMessage at step
          obtain ⟨attributes, -, opened⟩ := Except.bind_eq_ok step
          cases opened
          exact leads_of_tag named rfl rfl
      · cases step
  | selfClosing tag =>
      simp only [contextStep] at step
      split at step
      · cases step
        exact .stays rfl
      split at step
      · cases step
        exact .stays rfl
      · cases step
  | closing =>
      simp only [contextStep, closeContext] at step
      split at step
      · cases step
      · cases step
        exact .inl (List.suffix_cons _ _)
  | _ =>
      simp only [contextStep] at step
      exact leads_of_map step fun _ => rfl

theorem leads_of_contextTextStep {place : InContext} {part : ContextPart} {start : Nat}
    {text : List Char} (step : contextTextStep place part start text ⟨span, event⟩ = .ok next) :
    Leads (.contextText place part start text) event next := by
  cases event with
  | closing =>
      cases step
      exact .stays rfl
  | _ =>
      simp only [contextTextStep] at step
      exact leads_of_map step fun _ => rfl

theorem leads_of_messageStep {place : InMessage}
    (step : messageStep place ⟨span, event⟩ = .ok next) :
    Leads (.message place) event next := by
  cases event with
  | opening tag =>
      simp only [messageStep] at step
      split at step
      · exact leads_of_map step fun _ => rfl
      split at step
      · next named =>
          unfold openTarget at step
          obtain ⟨attributes, -, opened⟩ := Except.bind_eq_ok step
          cases opened
          exact leads_of_tag named rfl rfl
      · cases step
        exact .stays rfl
  | selfClosing tag =>
      simp only [messageStep] at step
      split at step
      · exact leads_of_map step fun _ => rfl
      split at step
      · cases step
        exact .stays rfl
      split at step
      · unfold emptyTarget at step
        obtain ⟨attributes, -, emptied⟩ := Except.bind_eq_ok step
        cases emptied
        exact .stays rfl
      · exact leads_of_map step fun _ => rfl
  | closing =>
      simp only [messageStep, closeMessage] at step
      split at step
      · cases step
      · cases step
        exact .inl (List.suffix_cons _ _)
  | _ =>
      simp only [messageStep] at step
      exact leads_of_map step fun _ => rfl

theorem leads_of_messageTextStep {place : InMessage} {element : String} {start : Nat}
    {text : List Char} (step : messageTextStep place element start text ⟨span, event⟩ = .ok next) :
    Leads (.messageText place element start text) event next := by
  cases event with
  | closing =>
      simp only [messageTextStep, closeMessageText] at step
      split at step
      · cases step
        exact .stays rfl
      · exact leads_of_map step fun _ => rfl
  | _ =>
      simp only [messageTextStep] at step
      exact leads_of_map step fun _ => rfl

theorem leads_of_targetStep {place : InTarget}
    (step : targetStep place ⟨span, event⟩ = .ok next) :
    Leads (.target place) event next := by
  cases event with
  | opening tag =>
      simp only [targetStep] at step
      split at step
      · unfold openForm at step
        obtain ⟨attributes, -, opened⟩ := Except.bind_eq_ok step
        cases opened
        split <;> exact .stays rfl
      split at step
      · cases step
        exact .stays rfl
      · exact leads_of_map step fun _ => rfl
  | selfClosing tag =>
      simp only [targetStep] at step
      split at step
      · cases step
        exact .stays rfl
      split at step
      · cases step
        exact .stays rfl
      · exact leads_of_map step fun _ => rfl
  | closing =>
      simp only [targetStep, closeTarget] at step
      refine .inl ?_
      split at step
      · split at step
        · cases step
          exact List.suffix_cons _ _
        · cases step
      · cases step
        exact List.suffix_cons _ _
  | _ =>
      simp only [targetStep] at step
      exact leads_of_map step fun _ => rfl

theorem leads_of_leafStep {element : String} {close stay : List Char → State} {text : List Char}
    (step : leafStep element close stay text ⟨span, event⟩ = .ok next)
    (closes : ∀ text, (close text).enclosing = state.enclosing)
    (stays : ∀ text, (stay text).enclosing = state.enclosing) : Leads state event next := by
  cases event with
  | closing =>
      cases step
      exact .stays (closes _)
  | _ =>
      simp only [leafStep] at step
      exact leads_of_map step fun _ => stays _

theorem leads_of_formVariantsStep {place : InTarget} {texts : List String}
    (step : formVariantsStep place texts ⟨span, event⟩ = .ok next) :
    Leads (.formVariants place texts) event next := by
  cases event with
  | opening tag =>
      simp only [formVariantsStep] at step
      split at step
      · cases step
        exact .stays rfl
      · cases step
  | selfClosing tag =>
      simp only [formVariantsStep] at step
      split at step
      · cases step
        exact .stays rfl
      · cases step
  | closing =>
      cases step
      exact .stays rfl
  | _ =>
      simp only [formVariantsStep] at step
      exact leads_of_map step fun _ => rfl

theorem leads_of_epilogStep {document : Document}
    (step : epilogStep document ⟨span, event⟩ = .ok next) :
    Leads (.epilog document) event next := by
  cases event with
  | comment | instruction =>
      cases step
      exact .stays rfl
  | text raw =>
      simp only [epilogStep] at step
      split at step
      · cases step
        exact .stays rfl
      · cases step
  | _ => cases step

/-- Every step leads out of structural elements or into one. -/
theorem leads_of_step (step : state.step ⟨span, event⟩ = .ok next) : Leads state event next := by
  cases state with
  | prolog => exact leads_of_prologStep step
  | root document => exact leads_of_rootStep step
  | dependencies document depth =>
      cases step
      refine leads_of_skipStep ?_ ?_ depth
      · exact fun _ => rfl
      · rfl
  | context place => exact leads_of_contextStep step
  | contextText place part start text => exact leads_of_contextTextStep step
  | message place => exact leads_of_messageStep step
  | location place depth =>
      cases step
      refine leads_of_skipStep ?_ ?_ depth
      · exact fun _ => rfl
      · rfl
  | messageText place element start text => exact leads_of_messageTextStep step
  | target place => exact leads_of_targetStep step
  | formVariants place texts => exact leads_of_formVariantsStep step
  | variant | form | formVariant =>
      simp only [State.step] at step
      exact leads_of_leafStep step (fun _ => rfl) fun _ => rfl
  | epilog document => exact leads_of_epilogStep step

end Steps

/-- The elements that are open are those that the state of the reader tells. -/
structure Stage.Encloses (stage : Stage) : Prop where
  names : stage.state.enclosing <:+ stage.opened
  depth : stage.opened.length = stage.state.depth

theorem Stage.Next.encloses {stage next : Stage} (step : stage.Next next)
    (before : stage.Encloses) : next.Encloses := by
  obtain ⟨names, depth⟩ := before
  cases step with
  | @piece taken piece left opened behind state next event takes step =>
      dsimp only at names depth ⊢
      have depthNext : behind.length = next.depth := by
        rw [length_behind takes, depth, depth_of_step step]
      refine ⟨?_, depthNext⟩
      rcases leads_of_step step with out | ⟨tag, rfl, into, outermost⟩
      · have inOpened := out.trans names
        rcases takes.opened_or_behind with more | less
        · exact inOpened.trans more
        · refine List.suffix_of_suffix_length_le inOpened less ?_
          rw [depthNext]
          exact length_enclosing_le next
      · have same := names.eq_of_length (by rw [outermost, depth])
        have whole : next.enclosing = behind := by
          rw [into, same, ← takes.behind_of_opening]
        exact whole ▸ List.suffix_refl _

theorem Stage.Reaches.encloses {text : List Char} {stage : Stage}
    (reaches : (Stage.initial text).Reaches stage) : stage.Encloses := by
  induction reaches with
  | refl => exact ⟨List.nil_suffix, rfl⟩
  | tail _ next ih => exact next.encloses ih

end Reader

end CatalogServer
