import CatalogServer.Check.Message
import CatalogServer.Check.Progress

/-!
# What is left to do for a message

A message is finished, unfinished, without a target, or no longer in use.  The
progress of a catalog counts its messages by that, and the checks of a message
report it with one issue, unless the message is finished.
-/

namespace CatalogServer

theorem IssueKind.ofCode?_code (kind : IssueKind) : ofCode? kind.code = some kind := by
  cases kind <;> decide

theorem IssueKind.code_injective : Function.Injective code := by
  intro first second same
  have found := ofCode?_code first
  rw [same, ofCode?_code second] at found
  exact (Option.some.inj found).symm

/-- What is left to do for a message. -/
inductive Standing where
  | finished
  | unfinished
  | missing
  | obsolete
  deriving DecidableEq, Repr

namespace Standing

/-- The kind of issue that reports a standing. -/
def kind? : Standing → Option IssueKind
  | finished => none
  | unfinished => some .unfinished
  | missing => some .missingTarget
  | obsolete => some .obsolete

end Standing

namespace Message

variable {message : Message}

def standing (message : Message) : Standing :=
  if !message.target.status.isActive then .obsolete
  else if message.target.isEmpty then .missing
  else if message.target.status == .unfinished then .unfinished
  else .finished

theorem standing_eq_obsolete_iff :
    message.standing = .obsolete ↔ message.target.status.isActive = false := by
  unfold standing
  cases message.target.status <;> cases message.target.isEmpty <;> decide

theorem standing_eq_missing_iff :
    message.standing = .missing ↔
      message.target.status.isActive = true ∧ message.target.isEmpty = true := by
  unfold standing
  cases message.target.status <;> cases message.target.isEmpty <;> decide

end Message

namespace Progress

end Progress

namespace Check

variable {setting : Setting} {message : Message} {spans : MessageSpans} {index : MessageIndex}

/-- The kinds of issues about the quality of a target, in the order of their
checks. -/
def qualityKinds : List IssueKind :=
  [.pluralForms, .placeholderMismatch, .acceleratorMismatch, .punctuationMismatch]

theorem map_kind_targetIssue (kind : IssueKind) (wording : Option String) :
    ((targetIssue kind spans index wording).map (·.kind)).Sublist [kind] := by
  cases wording with
  | none => exact List.nil_sublist _
  | some wording => exact .refl _

theorem map_kind_pluralIssues :
    ((pluralIssues setting message spans index).map (·.kind)).Sublist [.pluralForms] := by
  rw [pluralIssues]
  split
  · exact List.nil_sublist _
  · exact .refl _

theorem map_kind_markerIssues :
    ((markerIssues setting message spans index).map (·.kind)).Sublist
      [.placeholderMismatch, .acceleratorMismatch, .punctuationMismatch] := by
  simp only [markerIssues]
  split
  · exact List.nil_sublist _
  · rw [List.map_append, List.map_append]
    exact ((map_kind_targetIssue _ _).append (map_kind_targetIssue _ _)).append
      (map_kind_targetIssue _ _)

theorem map_kind_stateIssues (active : message.target.status.isActive = true) :
    (stateIssues message spans index).map (·.kind) = message.standing.kind?.toList := by
  unfold stateIssues Message.standing
  rw [active]
  cases message.target.isEmpty <;> cases message.target.status == .unfinished <;> rfl

/-- The checks of a message report its standing, and the quality of its target
only if it is in use. -/
theorem exists_map_kind_messageIssues (setting : Setting) (message : Message)
    (spans : MessageSpans) (index : MessageIndex) :
    ∃ quality : List IssueKind, quality.Sublist qualityKinds ∧
      (message.target.status.isActive = false → quality = []) ∧
      (messageIssues setting message spans index).map (·.kind) =
        (if message.source == "" then [.emptySource] else []) ++
          message.standing.kind?.toList ++ quality := by
  have source : (sourceIssues message spans index).map (·.kind) =
      if message.source == "" then [.emptySource] else [] := by
    rw [sourceIssues]
    split <;> rfl
  cases active : message.target.status.isActive with
  | true =>
      refine ⟨(pluralIssues setting message spans index).map (·.kind) ++
        (markerIssues setting message spans index).map (·.kind),
        map_kind_pluralIssues.append map_kind_markerIssues, nofun, ?_⟩
      rw [messageIssues, active, if_pos rfl]
      simp only [List.map_append, source, map_kind_stateIssues active, List.append_assoc]
  | false =>
      refine ⟨[], List.nil_sublist _, fun _ => rfl, ?_⟩
      rw [messageIssues, active, List.map_append, source,
        Message.standing_eq_obsolete_iff.mpr active, List.append_nil]
      rfl

theorem index_of_mem_targetIssue {kind : IssueKind} {wording : Option String} {issue : Issue}
    (member : issue ∈ targetIssue kind spans index wording) : issue.index = some index := by
  cases wording with
  | none => cases member
  | some wording => rw [List.mem_singleton.mp member]

theorem index_of_mem_messageIssues {issue : Issue}
    (member : issue ∈ messageIssues setting message spans index) : issue.index = some index := by
  simp only [messageIssues, sourceIssues, stateIssues, pluralIssues, markerIssues] at member
  grind [index_of_mem_targetIssue]

theorem kind_of_mem_targetIssue {kind : IssueKind} {wording : Option String} {issue : Issue}
    (member : issue ∈ targetIssue kind spans index wording) : issue.kind = kind := by
  cases wording with
  | none => cases member
  | some wording => rw [List.mem_singleton.mp member]

theorem mem_messageIssues_pluralForms_iff {issue : Issue} :
    issue ∈ messageIssues setting message spans index ∧ issue.kind = .pluralForms ↔
      message.target.status.isActive = true ∧ issue ∈ pluralIssues setting message spans index := by
  have own : issue ∈ pluralIssues setting message spans index → issue.kind = .pluralForms := by
    intro member
    simpa using map_kind_pluralIssues.subset (List.mem_map_of_mem member)
  simp only [messageIssues, sourceIssues, stateIssues, markerIssues]
  grind [kind_of_mem_targetIssue]

theorem exists_mem_pluralIssues_iff {wording : String} :
    (∃ issue ∈ pluralIssues setting message spans index, issue.message = wording) ↔
      ∃ problem, pluralProblem? setting.expectedForms message = some problem ∧
        problem.message setting.language = wording := by
  rw [pluralIssues]
  cases pluralProblem? setting.expectedForms message <;> simp

end Check

end CatalogServer
