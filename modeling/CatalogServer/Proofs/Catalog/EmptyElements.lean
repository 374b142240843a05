import CatalogServer.Proofs.Catalog.StartTags

/-!
# Elements without content

An element without content is written with one tag that closes itself or with a
start tag and an end tag.  The reader takes the two spellings in different
ways, and in most states it comes to the same.  The states in which it does not
are listed in `State.tellsApart`: a `byte` element stands in a text, an
empty name follows another one, and a plural form or the target of a message
with plural forms announces length variants.
-/

namespace CatalogServer

open Text Xml

namespace Xml

/-- The two ways in which an element without content is written: with one tag
that closes itself, or with a start tag and an end tag. -/
inductive Spelling where
  | short
  | paired
  deriving DecidableEq, Repr

/-- An element with a tag and without content. -/
def Spelling.write (tag : Tag) : Spelling → String
  | .short => "<" ++ String.ofList tag.content ++ "/>"
  | .paired => "<" ++ String.ofList tag.content ++ "></" ++ tag.name ++ ">"

/-- A tag that is read as written, both as a start tag and as one that closes
itself, and whose name can be written in an end tag. -/
def Tag.isProper (tag : Tag) : Bool :=
  isClosed tag.content && startsElement tag.content && tag.content.getLast? != some '/' &&
    isPlainName tag.nameChars

end Xml

namespace Reader

/-- The state behind an element without content. -/
def State.behind (state : State) (tag : Tag) : Spelling → Option State
  | .short => (state.step ⟨default, .selfClosing tag⟩).toOption
  | .paired => (state.step ⟨default, .opening tag⟩).toOption.bind fun inside =>
      (inside.step ⟨default, .closing⟩).toOption

/-- Inside an element that holds only text. -/
def State.holdsText : State → Bool
  | .contextText _ _ _ _ | .messageText _ _ _ _ | .variant _ _ | .form _ _ | .formVariant _ _ _ =>
      true
  | _ => false

/-- In this state the reader makes something else of the two spellings of an
element without content. -/
def State.tellsApart (tag : Tag) : State → Bool
  | .context place => tag.name == "name" && place.context.context.name != ""
  | .message place =>
      tag.name == "translation" && place.message.message.numerus &&
        tag.attributes.toOption.any announcesVariants
  | .target _ =>
      tag.name == "numerusform" && tag.attributes.toOption.all announcesVariants ||
        (pieceOf (.selfClosing tag)).isSome
  | state => state.holdsText && (pieceOf (.selfClosing tag)).isSome

variable {tag : Tag} {state : State}

theorem catalogFrom_spelling (proper : tag.isProper) (state : State) (opened : List (List Char))
    (spelling : Spelling) (rest : List Char) :
    catalogFrom state opened ((spelling.write tag).toList ++ rest) =
      (state.behind tag spelling).bind fun next => catalogFrom next opened rest := by
  simp only [Tag.isProper, Bool.and_eq_true, bne_iff_ne] at proper
  obtain ⟨⟨⟨closed, starts⟩, unslashed⟩, plain⟩ := proper
  cases spelling with
  | short =>
      have short := catalogFrom_selfClosing closed starts state opened rest
      simpa [Spelling.write, State.behind] using short
  | paired =>
      have start := catalogFrom_opening closed starts unslashed state opened
        ('<' :: '/' :: (tag.nameChars ++ '>' :: rest))
      simp only [catalogFrom_endTag plain] at start
      simpa [Spelling.write, State.behind, Tag.name, Option.bind_assoc] using start

@[simp]
theorem pieceOf_opening (tag : Tag) : pieceOf (.opening tag) = none :=
  rfl

/-! ### What stands behind the elements that are told apart -/

section Behind

variable {attributes : List Attribute}

theorem behind_name (place : InContext) (named : tag.name = "name") :
    (State.context place).behind tag .short =
        some (.context { place with context := { place.context with name := some default } }) ∧
      (State.context place).behind tag .paired =
        some (.context (closeContextText place .name "" default)) := by
  constructor <;> simp [State.behind, State.step, contextStep, named, contextTextStep]

theorem behind_translation (place : InMessage) (named : tag.name = "translation")
    (given : tag.attributes.toOption = some attributes) :
    (State.message place).behind tag .short =
        some (.message (setTarget place ⟨statusOf attributes,
          emptyTargetText place.message.message.numerus (announcesVariants attributes)⟩
          default)) ∧
      (State.message place).behind tag .paired =
        some (.message (setTarget place ⟨statusOf attributes,
          targetText place.message.message.numerus
            { startTag := default
              status := statusOf attributes
              announcesVariants := announcesVariants attributes }⟩
          default)) := by
  constructor <;>
    simp [State.behind, State.step, messageStep, named, emptyTarget, openTarget, given, targetStep,
      closeTarget]
  · rfl
  · rfl

theorem behind_numerusform (place : InTarget) (named : tag.name = "numerusform")
    (given : tag.attributes.toOption = some attributes) :
    (State.target place).behind tag .short = some (.target (addForm place (.plain ""))) ∧
      (State.target place).behind tag .paired =
        some (.target (addForm place
          (if announcesVariants attributes then .lengthVariants [] else .plain ""))) := by
  constructor
  · simp [State.behind, State.step, targetStep, named]
  · cases announces : announcesVariants attributes <;>
      simp [State.behind, State.step, targetStep, named, openForm, given, announces, leafStep,
        formVariantsStep]

end Behind

/-! ### Where the spellings are alike -/

section Alike

theorem rel_of_eq {found other : Option State} (same : found = other) :
    Option.Rel sameContent.Related found other := by
  subst same
  cases found with
  | none => exact .none
  | some state => exact .some (sameContent_refl state)

theorem behind_prolog (tag : Tag) :
    State.prolog.behind tag .short = State.prolog.behind tag .paired := by
  by_cases isRoot : tag.name = "TS"
  · cases given : tag.attributes.toOption with
    | none => simp [State.behind, State.step, prologStep, isRoot, rootDocument, given]
    | some attributes =>
        simp [State.behind, State.step, prologStep, isRoot, rootDocument, given, rootStep]
  · simp [State.behind, State.step, prologStep, isRoot]

/-- A target that announces nothing its message does not hold is the same with an
end tag of its own. -/
theorem targetText_empty {numerus announces : Bool} (plain : (numerus && announces) = false)
    (startTag : ByteSpan) (status : Status) :
    targetText numerus { startTag, status, announcesVariants := announces } =
      emptyTargetText numerus announces := by
  cases numerus with
  | true =>
      obtain rfl : announces = false := plain
      rfl
  | false => cases announces <;> rfl

theorem behind_root (document : Document) (tag : Tag) :
    (State.root document).behind tag .short = (State.root document).behind tag .paired := by
  by_cases isContext : tag.name = "context"
  · -- a context without content has no name
    simp [State.behind, State.step, rootStep, isContext, contextStep, closeContext]
  by_cases skipped : tag.name = "dependencies"
  · simp [State.behind, State.step, rootStep, skipped, skipStep]
  · simp [State.behind, State.step, rootStep, isContext, skipped]

theorem behind_context (place : InContext) (other : tag.name ≠ "name") :
    (State.context place).behind tag .short = (State.context place).behind tag .paired := by
  by_cases isComment : tag.name = "comment"
  · simp [State.behind, State.step, contextStep, isComment, contextTextStep, closeContextText]
  by_cases isMessage : tag.name = "message"
  · -- a message without content has no source
    cases given : tag.attributes.toOption with
    | none => simp [State.behind, State.step, contextStep, isMessage, openMessage, given]
    | some attributes =>
        simp [State.behind, State.step, contextStep, isMessage, openMessage, given, messageStep,
          closeMessage]
  · simp [State.behind, State.step, contextStep, other, isComment, isMessage]

theorem behind_location (place : InMessage) (named : tag.name = "location") :
    (State.message place).behind tag .short = (State.message place).behind tag .paired := by
  cases given : tag.attributes.toOption with
  | none => simp [State.behind, State.step, messageStep, named, locationAt, given]
  | some attributes =>
      simp [State.behind, State.step, messageStep, named, locationAt, given, skipStep]

theorem behind_messageText (place : InMessage) (noLocation : tag.name ≠ "location")
    (noTarget : tag.name ≠ "translation") :
    (State.message place).behind tag .short = (State.message place).behind tag .paired := by
  by_cases isSource : tag.name = "source"
  · simp [State.behind, State.step, messageStep, isSource, messageTextStep, closeMessageText]
  · simp [State.behind, State.step, messageStep, noLocation, isSource, noTarget, messageTextStep,
      closeMessageText]

theorem behind_unreadable (place : InMessage) (named : tag.name = "translation")
    (unreadable : tag.attributes.toOption = none) :
    (State.message place).behind tag .short = (State.message place).behind tag .paired := by
  simp [State.behind, State.step, messageStep, named, emptyTarget, openTarget, unreadable]

theorem behind_target (place : InTarget) (other : tag.name ≠ "numerusform")
    (noPiece : pieceOf (.selfClosing tag) = none) :
    (State.target place).behind tag .short = (State.target place).behind tag .paired := by
  by_cases isVariant : tag.name = "lengthvariant"
  · simp [State.behind, State.step, targetStep, isVariant, leafStep]
  · simp [State.behind, State.step, targetStep, isVariant, other, targetPiece, noPiece]

theorem behind_formVariants (place : InTarget) (texts : List String) (tag : Tag) :
    (State.formVariants place texts).behind tag .short =
      (State.formVariants place texts).behind tag .paired := by
  by_cases isVariant : tag.name = "lengthvariant"
  · simp [State.behind, State.step, formVariantsStep, isVariant, leafStep]
  · simp [State.behind, State.step, formVariantsStep, isVariant]

/-- Where a text stands, no element is taken, but for a short one that stands for
a character. -/
theorem behind_text (text : state.holdsText = true) :
    (state.behind tag .short).isSome = (pieceOf (.selfClosing tag)).isSome ∧
      state.behind tag .paired = none := by
  cases state with
  | contextText | messageText | variant | form | formVariant =>
      simp [State.behind, State.step, contextTextStep, messageTextStep, leafStep]
  | _ => cases text

theorem rel_behind_context (place : InContext)
    (alike : (State.context place).tellsApart tag = false) :
    Option.Rel sameContent.Related ((State.context place).behind tag .short)
      ((State.context place).behind tag .paired) := by
  by_cases named : tag.name = "name"
  · obtain ⟨short, paired⟩ := behind_name place named
    simp only [State.tellsApart, named, beq_self_eq_true, Bool.true_and,
      bne_eq_false_iff_eq] at alike
    rw [short, paired]
    refine .some (.context ⟨rfl, ?_, rfl⟩)
    change place.context.context = { place.context.context with name := "" }
    rw [← alike]
  · exact rel_of_eq (behind_context place named)

theorem rel_behind_message (place : InMessage)
    (alike : (State.message place).tellsApart tag = false) :
    Option.Rel sameContent.Related ((State.message place).behind tag .short)
      ((State.message place).behind tag .paired) := by
  by_cases isTarget : tag.name = "translation"
  · cases given : tag.attributes.toOption with
    | none => exact rel_of_eq (behind_unreadable place isTarget given)
    | some attributes =>
        obtain ⟨short, paired⟩ := behind_translation place isTarget given
        simp only [State.tellsApart, isTarget, given, Option.any_some, beq_self_eq_true,
          Bool.true_and] at alike
        rw [short, paired, targetText_empty alike]
        exact .some (sameContent_refl _)
  by_cases isLocation : tag.name = "location"
  · exact rel_of_eq (behind_location place isLocation)
  · exact rel_of_eq (behind_messageText place isLocation isTarget)

theorem rel_behind_target (place : InTarget)
    (alike : (State.target place).tellsApart tag = false) :
    Option.Rel sameContent.Related ((State.target place).behind tag .short)
      ((State.target place).behind tag .paired) := by
  simp only [State.tellsApart, Bool.or_eq_false_iff, Option.isSome_eq_false_iff,
    Option.isNone_iff_eq_none] at alike
  obtain ⟨plain, noPiece⟩ := alike
  by_cases isForm : tag.name = "numerusform"
  · simp only [isForm, beq_self_eq_true, Bool.true_and] at plain
    cases given : tag.attributes.toOption with
    | none =>
        rw [given] at plain
        cases plain
    | some attributes =>
        obtain ⟨short, paired⟩ := behind_numerusform place isForm given
        rw [given, Option.all_some] at plain
        rw [short, paired, plain]
        exact .some (sameContent_refl _)
  · exact rel_of_eq (behind_target place isForm noPiece)

theorem rel_behind (alike : state.tellsApart tag = false) :
    Option.Rel sameContent.Related (state.behind tag .short) (state.behind tag .paired) := by
  have textOnly (text : state.holdsText = true)
      (noPiece : (state.holdsText && (pieceOf (.selfClosing tag)).isSome) = false) :
      Option.Rel sameContent.Related (state.behind tag .short) (state.behind tag .paired) := by
    obtain ⟨short, paired⟩ := @behind_text tag state text
    rw [text, Bool.true_and, ← short, Option.isSome_eq_false_iff,
      Option.isNone_iff_eq_none] at noPiece
    rw [noPiece, paired]
    exact .none
  cases state with
  | prolog => exact rel_of_eq (behind_prolog tag)
  | root document => exact rel_of_eq (behind_root document tag)
  | context place => exact rel_behind_context place alike
  | message place => exact rel_behind_message place alike
  | target place => exact rel_behind_target place alike
  | formVariants place texts => exact rel_of_eq (behind_formVariants place texts tag)
  | contextText | messageText | variant | form | formVariant => exact textOnly rfl alike
  | dependencies | location | epilog => exact rel_of_eq rfl

end Alike
end Reader

end CatalogServer
