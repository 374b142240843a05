import CatalogServer.Editor.Diagnostic
import CatalogServer.Proofs.Catalog.Resuming
import CatalogServer.Proofs.Text.Ranges

/-!
# Where a text is refused

The error of a text that is refused names the offset where it was noticed.  The
reader takes these offsets from the events that it goes through: from the event
that it refuses, or from an earlier one whose start it keeps for the case that
something is missing at the end of an element.  The other errors are noticed at
the end of the events.  Each of these places is one at which the text can be cut,
so an editor can show the error there.
-/

namespace CatalogServer

open Text Xml

namespace Xml

/-- The offset at which a sequence of events ends. -/
def Ending.offset : Ending → Nat
  | .complete offset | .failed offset _ => offset

/-- Where the events of a document start and where they end. -/
def EventStream.places (stream : EventStream) : List Nat :=
  stream.events.map (·.span.start) ++ [stream.ending.offset]

/-- A document type without a name is noticed at its closing angle bracket. -/
theorem exists_of_scanDoctype {text : List Char} {error : MarkupError} {distance : Nat}
    (faulty : scanDoctype text = .faultBehind error distance) :
    ∃ body after, text = body ++ '>' :: after ∧ distance = byteSize ('!' :: body) + 1 := by
  simp only [scanDoctype] at faulty
  split at faulty
  · cases faulty
  · next body after found =>
      split at faulty
      · split at faulty
        · cases faulty
          exact ⟨body, after, eq_of_splitDoctype found, rfl⟩
        · cases faulty
      · cases faulty

theorem exists_of_faultBehind {text : List Char} {error : MarkupError} {distance : Nat}
    (faulty : scanMarkup text = .faultBehind error distance) :
    ∃ front back, text = front ++ back ∧ distance = byteSize ('<' :: front) := by
  have ofDoctype {rest : List Char} (faulty : scanDoctype rest = .faultBehind error distance) :
      ∃ front back, '!' :: rest = front ++ back ∧ distance = byteSize ('<' :: front) := by
    obtain ⟨body, after, rfl, rfl⟩ := exists_of_scanDoctype faulty
    exact ⟨'!' :: body, '>' :: after, rfl, Nat.add_comm ..⟩
  unfold scanMarkup scanComment scanCdata scanInstruction scanEndTag scanStartTag at faulty
  repeat' split at faulty
  all_goals first | cases faulty | exact ofDoctype faulty

theorem exists_of_failed {opened : List (List Char)} {text : List Char} {offset place : Nat}
    {error : MarkupError} (failed : scan offset opened text = ⟨[], .failed place error⟩) :
    ∃ before after, text = before ++ after ∧ place = offset + byteSize before := by
  cases text with
  | nil =>
      rw [scan_nil] at failed
      cases failed
  | cons c rest =>
      by_cases bracket : c = '<'
      · subst bracket
        rw [scan] at failed
        split at failed
        · cases failed
          exact ⟨[], _, rfl, rfl⟩
        · next faulty =>
            cases failed
            obtain ⟨front, back, rfl, rfl⟩ := exists_of_faultBehind faulty
            exact ⟨'<' :: front, back, rfl, rfl⟩
        · cases failed
        · dsimp only at failed
          split at failed
          · cases failed
            exact ⟨[], _, rfl, rfl⟩
          · split at failed
            · cases failed
            · cases failed
              exact ⟨[], _, rfl, rfl⟩
      · -- Ordinary text is an event, so the scan does not stop in front of it.
        have scanned := scan_of_takes (takes_of_ordinary bracket opened rest) offset
        rw [List.cons_append, List.takeWhile_append_dropWhile, failed] at scanned
        cases scanned

theorem exists_of_mem_places {opened : List (List Char)} {text : List Char} :
    ∀ {offset place : Nat}, place ∈ (scan offset opened text).places →
      ∃ before after, text = before ++ after ∧ place = offset + byteSize before := by
  induction opened, text using scan_induction with
  | done opened =>
      intro offset place member
      rw [scan_nil] at member
      exact ⟨[], [], rfl, List.mem_singleton.mp member⟩
  | fault opened text error distance failed =>
      intro offset place member
      rw [failed] at member
      cases List.mem_singleton.mp member
      exact exists_of_failed (failed offset)
  | takes opened piece event behind after first ih =>
      intro offset place member
      rw [scan_of_takes first] at member
      rcases List.mem_cons.mp member with rfl | later
      · exact ⟨[], piece ++ after, rfl, rfl⟩
      · obtain ⟨before, rest, rfl, rfl⟩ := ih later
        refine ⟨piece ++ before, rest, by rw [List.append_assoc], ?_⟩
        rw [byteSize_append, Nat.add_assoc]

end Xml

namespace Reader

/-- The value of an outcome is good, or its error is noticed at one of the places. -/
def Yields {α : Type} (places : List Nat) (good : α → Prop) : Except ReadError α → Prop
  | .ok value => good value
  | .error error => error.offset ∈ places

section Outcomes

variable {α β : Type} {places : List Nat} {good : α → Prop} {outcome : Except ReadError α}

theorem Yields.bind {next : α → Except ReadError β} {better : β → Prop}
    (first : Yields places good outcome)
    (second : ∀ value, good value → Yields places better (next value)) :
    Yields places better (outcome >>= next) := by
  cases outcome with
  | error error => exact first
  | ok value => exact second value first

theorem Yields.map {f : α → β} {better : β → Prop} (first : Yields places good outcome)
    (second : ∀ value, good value → better (f value)) : Yields places better (outcome.map f) := by
  cases outcome with
  | error error => exact first
  | ok value => exact second value first

end Outcomes

section Parts

variable {places : List Nat} {offset : Nat}

theorem yields_attributesAt (here : offset ∈ places) (tag : Tag) :
    Yields places (fun _ => True) (attributesAt offset tag) := by
  unfold attributesAt
  cases tag.attributes with
  | error error => exact here
  | ok attributes => trivial

theorem yields_locationAt (here : offset ∈ places) (tag : Tag) :
    Yields places (fun _ => True) (locationAt offset tag) :=
  (yields_attributesAt here tag).bind fun _ _ => trivial

theorem yields_rootDocument {span : ByteSpan} (here : span.start ∈ places) (tag : Tag) :
    Yields places (fun _ => True) (rootDocument span tag) :=
  (yields_attributesAt here tag).bind fun _ _ => trivial

theorem yields_acceptInsignificant (parent : String) {located : Located}
    (here : located.span.start ∈ places) :
    Yields places (fun _ => True) (acceptInsignificant parent located) := by
  unfold acceptInsignificant
  cases located.event with
  | text raw =>
      dsimp only
      split
      · trivial
      · exact here
  | comment | instruction => trivial
  | _ => exact here

theorem yields_textPiece (parent : String) {located : Located}
    (here : located.span.start ∈ places) :
    Yields places (fun _ => True) (textPiece parent located) := by
  unfold textPiece
  cases located.event with
  | text raw =>
      dsimp only
      split
      · trivial
      · exact here
  | selfClosing tag =>
      dsimp only
      split
      · refine (yields_attributesAt here tag).bind fun attributes _ => ?_
        split
        · trivial
        · exact here
      · exact here
  | cdata | comment | instruction => trivial
  | _ => exact here

theorem yields_storeText (here : offset ∈ places) (message : Message) (element text : String) :
    Yields places (fun _ => True) (storeText message element text offset) := by
  unfold storeText
  repeat' split
  all_goals first | exact trivial | exact here

end Parts

/-- The places that are kept of a context whose start tag was read. -/
def InContext.marks (place : InContext) : List Nat :=
  [place.context.start]

def InMessage.marks (place : InMessage) : List Nat :=
  place.message.start :: place.toInContext.marks

def InTarget.marks (place : InTarget) : List Nat :=
  place.target.textStart.toList ++ place.toInMessage.marks

/-- The places in front of a state at which errors may still be noticed. -/
def State.marks : State → List Nat
  | .prolog | .root _ | .dependencies _ _ | .epilog _ => []
  | .context place | .contextText place _ _ _ => place.marks
  | .message place | .location place _ => place.marks
  | .messageText place _ start _ => start :: place.marks
  | .target place | .variant place _ | .form place _ | .formVariants place _
  | .formVariant place _ _ => place.marks

/-- The state keeps no other places than these. -/
def State.MarkedIn (places : List Nat) (state : State) : Prop :=
  state.marks ⊆ places

section Steps

variable {places : List Nat} {located : Located}

theorem yields_prologStep (here : located.span.start ∈ places) :
    Yields places (State.MarkedIn places) (prologStep located) := by
  unfold prologStep
  cases located.event with
  | opening tag | selfClosing tag =>
      dsimp only
      split
      · exact (yields_rootDocument here tag).map fun _ _ => List.nil_subset _
      · exact here
  | text raw =>
      dsimp only
      split
      · exact List.nil_subset _
      · exact here
  | cdata | closing => exact here
  | _ => exact List.nil_subset _

theorem yields_rootStep (here : located.span.start ∈ places) (document : Document) :
    Yields places (State.MarkedIn places) (rootStep document located) := by
  unfold rootStep
  cases located.event with
  | opening tag =>
      dsimp only
      split
      · exact List.cons_subset.mpr ⟨here, List.nil_subset _⟩
      split
      · exact List.nil_subset _
      · exact here
  | selfClosing tag =>
      dsimp only
      split
      · exact List.nil_subset _
      · exact here
  | closing => exact List.nil_subset _
  | _ => exact (yields_acceptInsignificant "TS" here).map fun _ _ => List.nil_subset _

theorem yields_skipStep {inside : Nat → State} {outside : State}
    (insides : ∀ depth, (inside depth).MarkedIn places) (outsides : outside.MarkedIn places)
    (depth : Nat) (event : Event) :
    Yields places (State.MarkedIn places) (.ok (skipStep inside outside depth event)) := by
  unfold skipStep
  cases event with
  | closing =>
      dsimp only
      split
      · exact outsides
      · exact insides _
  | _ => exact insides _

theorem yields_contextStep (here : located.span.start ∈ places) {place : InContext}
    (kept : place.marks ⊆ places) :
    Yields places (State.MarkedIn places) (contextStep place located) := by
  unfold contextStep
  cases located.event with
  | opening tag =>
      dsimp only
      split
      · exact kept
      split
      · exact kept
      split
      · exact (yields_attributesAt here tag).bind fun _ _ => List.cons_subset.mpr ⟨here, kept⟩
      · exact here
  | selfClosing tag =>
      dsimp only
      split
      · exact kept
      split
      · exact kept
      · exact here
  | closing =>
      unfold closeContext
      dsimp only
      split
      · exact kept List.mem_cons_self
      · exact List.nil_subset _
  | _ => exact (yields_acceptInsignificant "context" here).map fun _ _ => kept

theorem yields_contextTextStep (here : located.span.start ∈ places) {place : InContext}
    (kept : place.marks ⊆ places) (part : ContextPart) (start : Nat) (text : List Char) :
    Yields places (State.MarkedIn places) (contextTextStep place part start text located) := by
  unfold contextTextStep
  cases located.event with
  | closing => cases part <;> exact kept
  | _ => exact (yields_textPiece part.element here).map fun _ _ => kept

theorem yields_setText {offset : Nat} (here : offset ∈ places) {place : InMessage}
    (kept : place.marks ⊆ places) (element text : String) :
    Yields places (State.MarkedIn places) ((setText place element text offset).map .message) := by
  have stored : Yields places (fun behind : InMessage => behind.marks ⊆ places)
      (setText place element text offset) :=
    (yields_storeText here place.message.message element text).bind fun _ _ => kept
  exact stored.map fun _ marked => marked

theorem yields_messageStep (here : located.span.start ∈ places) {place : InMessage}
    (kept : place.marks ⊆ places) :
    Yields places (State.MarkedIn places) (messageStep place located) := by
  unfold messageStep
  cases located.event with
  | opening tag =>
      dsimp only
      split
      · exact (yields_locationAt here tag).map fun _ _ => kept
      split
      · exact (yields_attributesAt here tag).bind fun _ _ => kept
      · exact List.cons_subset.mpr ⟨here, kept⟩
  | selfClosing tag =>
      dsimp only
      split
      · exact (yields_locationAt here tag).map fun _ _ => kept
      split
      · exact kept
      split
      · exact (yields_attributesAt here tag).bind fun _ _ => kept
      · exact yields_setText here kept tag.name ""
  | closing =>
      unfold closeMessage
      dsimp only
      split
      · exact kept List.mem_cons_self
      · exact (List.cons_subset.mp kept).2
  | _ => exact (yields_acceptInsignificant "message" here).map fun _ _ => kept

theorem yields_messageTextStep (here : located.span.start ∈ places) {place : InMessage}
    {start : Nat} (kept : start :: place.marks ⊆ places) (element : String) (text : List Char) :
    Yields places (State.MarkedIn places) (messageTextStep place element start text located) := by
  obtain ⟨started, inside⟩ := List.cons_subset.mp kept
  unfold messageTextStep
  cases located.event with
  | closing =>
      unfold closeMessageText
      dsimp only
      split
      · exact inside
      · exact yields_setText started inside element (String.ofList text)
  | _ => exact (yields_textPiece element here).map fun _ _ => kept

/-- Character data that is not blank is kept with its place. -/
theorem marks_addPiece {offset : Nat} (here : offset ∈ places) {place : InTarget}
    (kept : place.marks ⊆ places) (piece : Piece) :
    (addPiece place piece offset).marks ⊆ places := by
  obtain ⟨ofTarget, ofMessage⟩ := List.append_subset.mp kept
  refine List.append_subset.mpr ⟨?_, ofMessage⟩
  unfold addPiece
  dsimp only
  split
  · next textEq =>
      rwa [textEq] at ofTarget
  · split
    · exact List.cons_subset.mpr ⟨here, List.nil_subset _⟩
    · exact List.nil_subset _

theorem yields_targetPiece (here : located.span.start ∈ places) {place : InTarget}
    (kept : place.marks ⊆ places) :
    Yields places (State.MarkedIn places) (targetPiece place located) :=
  (yields_textPiece "translation" here).map fun piece _ => marks_addPiece here kept piece

theorem yields_targetStep (here : located.span.start ∈ places) {place : InTarget}
    (kept : place.marks ⊆ places) :
    Yields places (State.MarkedIn places) (targetStep place located) := by
  unfold targetStep
  cases located.event with
  | opening tag =>
      dsimp only
      split
      · unfold openForm
        refine (yields_attributesAt here tag).bind fun _ _ => ?_
        split
        · exact kept
        · exact kept
      split
      · exact kept
      · exact yields_targetPiece here kept
  | selfClosing tag =>
      dsimp only
      split
      · exact kept
      split
      · exact kept
      · exact yields_targetPiece here kept
  | closing =>
      obtain ⟨ofTarget, ofMessage⟩ := List.append_subset.mp kept
      unfold closeTarget
      dsimp only
      split
      · next textEq =>
          split
          · exact ofMessage
          · rw [textEq] at ofTarget
            exact ofTarget (List.mem_singleton_self _)
      · exact ofMessage
  | _ => exact yields_targetPiece here kept

theorem yields_leafStep (here : located.span.start ∈ places) (element : String)
    {close stay : List Char → State} (closes : ∀ text, (close text).MarkedIn places)
    (stays : ∀ text, (stay text).MarkedIn places) (text : List Char) :
    Yields places (State.MarkedIn places) (leafStep element close stay text located) := by
  unfold leafStep
  cases located.event with
  | closing => exact closes text
  | _ => exact (yields_textPiece element here).map fun _ _ => stays _

theorem yields_formVariantsStep (here : located.span.start ∈ places) {place : InTarget}
    (kept : place.marks ⊆ places) (texts : List String) :
    Yields places (State.MarkedIn places) (formVariantsStep place texts located) := by
  unfold formVariantsStep
  cases located.event with
  | opening tag | selfClosing tag =>
      dsimp only
      split
      · exact kept
      · exact here
  | closing => exact kept
  | _ => exact (yields_acceptInsignificant "numerusform" here).map fun _ _ => kept

theorem yields_epilogStep (here : located.span.start ∈ places) (document : Document) :
    Yields places (State.MarkedIn places) (epilogStep document located) := by
  unfold epilogStep
  cases located.event with
  | text raw =>
      dsimp only
      split
      · exact List.nil_subset _
      · exact here
  | comment | instruction => exact List.nil_subset _
  | _ => exact here

/-- A step is refused at the start of its event or at a place that was kept, and
the next state keeps no other places than these. -/
theorem yields_step (here : located.span.start ∈ places) {state : State}
    (kept : state.MarkedIn places) :
    Yields places (State.MarkedIn places) (state.step located) := by
  unfold State.step
  cases state with
  | prolog => exact yields_prologStep here
  | root document => exact yields_rootStep here document
  | dependencies document depth =>
      exact yields_skipStep (fun _ => List.nil_subset _) (List.nil_subset _) depth located.event
  | context place => exact yields_contextStep here kept
  | contextText place part start text => exact yields_contextTextStep here kept part start text
  | message place => exact yields_messageStep here kept
  | location place depth =>
      refine yields_skipStep ?_ ?_ depth located.event
      · exact fun _ => kept
      · exact kept
  | messageText place element start text => exact yields_messageTextStep here kept element text
  | target place => exact yields_targetStep here kept
  | variant | form | formVariant =>
      refine yields_leafStep here _ ?_ ?_ _
      · exact fun _ => kept
      · exact fun _ => kept
  | formVariants place texts => exact yields_formVariantsStep here kept texts
  | epilog document => exact yields_epilogStep here document

end Steps

theorem yields_finish {places : List Nat} {ending : Ending} (here : ending.offset ∈ places)
    (state : State) : Yields places (fun _ => True) (state.finish ending) := by
  cases ending with
  | complete offset =>
      cases state with
      | epilog document => trivial
      | _ => exact here
  | failed offset error => exact here

/-- Every error is noticed where an event starts or where the events end. -/
theorem yields_resume {places : List Nat} {stream : EventStream}
    (included : stream.places ⊆ places) {state : State} (kept : state.MarkedIn places) :
    Yields places (fun _ => True) (resume state stream) := by
  obtain ⟨events, ending⟩ := stream
  -- What the state keeps stays among the places, since the start of every event is one.
  induction events generalizing state with
  | nil => exact yields_finish (included List.mem_cons_self) state
  | cons located events ih =>
      obtain ⟨here, later⟩ := List.cons_subset.mp included
      have split := resume_cons state located ⟨events, ending⟩
      exact split ▸ (yields_step here kept).bind fun _ marked => ih marked later

end Reader

/-- A range is empty and shows a place of a text, in a line that exists. -/
structure Text.Range.MarksPlace (range : Range) (text : List Char) : Prop where
  empty : range.start = range.stop
  line : range.start.line < 1 + text.count '\n'
  place : ∃ offset, IsBoundary text offset ∧ range.start = LineIndex.position text offset

/-- An offset is shown at a place of the text, also where it lies inside a character
or behind the end. -/
theorem Text.LineIndex.marksPlace_point (content : List Char) (offset : Nat) :
    (range content (.point offset)).MarksPlace content := by
  obtain ⟨place, boundary, -, same⟩ := exists_isBoundary_position content offset
  refine ⟨rfl, ?_, place, boundary, same⟩
  have line := line_position_le boundary
  rw [← same] at line
  exact Nat.lt_of_le_of_lt line (by omega)

namespace Document

variable {text : String} {error : ReadError}

/-- An error is noticed where the text behind its byte order mark can be cut. -/
theorem isBoundary_of_refused (refused : Document.read text = .error error) :
    IsBoundary (dropByteOrderMark text.toList) error.offset := by
  have unmarked : Reader.State.prolog.MarkedIn (events text).places := List.nil_subset _
  have noticed := Reader.yields_resume (List.Subset.refl _) unmarked
  have resumed : Reader.resume .prolog (events text) = .error error := refused
  rw [resumed] at noticed
  obtain ⟨before, after, whole, place⟩ := exists_of_mem_places noticed
  exact ⟨before, after, whole, by rw [place, Nat.zero_add]⟩

/-- What an editor shows of a file whose text is refused is the error. -/
theorem ofFile_of_refused {file : CatalogFile} (refused : file.read = .error error)
    (others : List CatalogFile) (settings : Settings) :
    Diagnostic.ofFile file others settings =
      if settings.isEnabled .malformed then
        [Diagnostic.ofIssue file.text.toList settings (Check.malformedIssue error)]
      else [] := by
  have issues : Check.fileIssues file others settings.checkOptions =
      [Check.malformedIssue error] := by
    simp [Check.fileIssues, Check.ownIssues, Check.missingInLocale, CatalogFile.document?, refused]
  have kind : (Check.malformedIssue error).kind = .malformed := rfl
  rw [Diagnostic.ofFile, issues, List.filter_singleton, kind]
  cases settings.isEnabled .malformed <;> rfl

/-- The error of a text that is refused is noticed inside the text, where the text
behind a byte order mark can be cut.  If its kind is enabled, it is all that an
editor shows of a file with this text, with an empty range at a place of the text,
in a line that exists. -/
theorem errorPlaced_of_refused (refused : Document.read text = .error error) :
    error.offset ≤ byteSize text.toList ∧
      IsBoundary (dropByteOrderMark text.toList) error.offset ∧
      ∀ settings, (Diagnostic.ofIssue text.toList settings
          (Check.malformedIssue error)).range.MarksPlace text.toList ∧
        ∀ file others, file.text = text → Diagnostic.ofFile file others settings =
          if settings.isEnabled .malformed then
            [Diagnostic.ofIssue text.toList settings (Check.malformedIssue error)]
          else [] := by
  have boundary := isBoundary_of_refused refused
  refine ⟨boundary.le_byteSize.trans (byteSize_dropByteOrderMark_le _), boundary, ?_⟩
  intro settings
  refine ⟨LineIndex.marksPlace_point text.toList error.offset, ?_⟩
  rintro file others rfl
  exact ofFile_of_refused refused others settings

end Document

/-- A text with a byte order mark, which counts in its positions and not in the
offsets of errors: the offset of its error lies inside a character. -/
def slippedText : String :=
  "\uFEFF\n<?a😀?><b/>"

theorem errorPlaced_slippedText :
    Document.read slippedText = .error (.unexpectedElement 10 "b" "document") ∧
      ¬ IsBoundary slippedText.toList 10 ∧
      (LineIndex.range slippedText.toList (.point 10)).MarksPlace slippedText.toList := by
  have refused : Document.read slippedText = .error (.unexpectedElement 10 "b" "document") := by
    decide +kernel
  obtain ⟨-, -, shown⟩ := Document.errorPlaced_of_refused refused
  exact ⟨refused, by decide +kernel, (shown {}).1⟩

end CatalogServer
