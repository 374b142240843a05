import CatalogServer.Proofs.Catalog.EmptyElements
import CatalogServer.Proofs.Catalog.Enclosing
import CatalogServer.Proofs.Catalog.InnerContent
import CatalogServer.Proofs.Catalog.Seams

/-!
# The two spellings of an empty element in a document

An element without content may be spelled either way in a document, as far as
the reader does not tell the spellings apart in the state in front of it: the two
states behind it have the same content then, so any text that follows is read as
the same catalog.

Where the reader does tell them apart, an end of the document shows it.  Such an
end closes the elements that are still open and leaves what differs in the
catalog.  A target with text beside plural forms has no such end, since its end
tag is refused, but then the document is not read in either spelling.
-/

namespace CatalogServer

open Text Xml

namespace Reader

/-! ### Ends of a document -/

/-- The end of a document inside a context. -/
def restOfContext : List Char :=
  "</context></TS>".toList

/-- The end of a document inside a message.  A context without a name would be
refused, so one is given behind the message. -/
def restOfMessage : List Char :=
  "<source/></message><name/>".toList ++ restOfContext

/-- The end of a document inside a target. -/
def restOfTarget : List Char :=
  "</translation>".toList ++ restOfMessage

/-- The catalog of a document that ends with a context. -/
def InContext.catalog (place : InContext) : Catalog :=
  { place.document.catalog with
    contexts := place.document.catalog.contexts ++ [place.context.context] }

theorem catalogFrom_restOfContext (place : InContext) (named : place.context.name.isSome = true) :
    catalogFrom (.context place) (State.context place).enclosing restOfContext =
      some place.catalog := by
  have written : restOfContext =
      '<' :: '/' :: ("context".toList ++ '>' :: '<' :: '/' :: ("TS".toList ++ '>' :: [])) := rfl
  obtain ⟨name, nameEq⟩ := Option.isSome_iff_exists.mp named
  rw [written, State.enclosing, catalogFrom_endTag (by decide)]
  simp only [State.step, contextStep, closeContext, nameEq, Except.toOption_ok, Option.bind_some]
  rw [catalogFrom_endTag (by decide)]
  simp only [State.step, rootStep, Except.toOption_ok, Option.bind_some, catalogFrom_nil]
  rfl

/-- The catalog of a document that ends with a message that has got a source
without text. -/
def InMessage.catalog (place : InMessage) : Catalog :=
  (addMessage place.toInContext { place.message.message with source := "" } default).catalog

theorem catalogFrom_restOfMessage (place : InMessage) :
    catalogFrom (.message place) (State.message place).enclosing restOfMessage =
      some place.catalog := by
  have written : restOfMessage =
      '<' :: ("source".toList ++ '/' :: '>' ::
        '<' :: '/' :: ("message".toList ++ '>' ::
          '<' :: ("name".toList ++ '/' :: '>' :: restOfContext))) := rfl
  have source : ((State.message place).step ⟨default, .selfClosing ⟨"source".toList⟩⟩).toOption =
      some (.message (setSource place "" default)) := rfl
  have name (behind : InContext) :
      ((State.context behind).step ⟨default, .selfClosing ⟨"name".toList⟩⟩).toOption =
        some (.context { behind with
          context := { behind.context with name := some default } }) := rfl
  rw [written, State.enclosing, catalogFrom_selfClosing (by decide) (by decide), source,
    Option.bind_some, catalogFrom_endTag (by decide)]
  simp only [State.step, messageStep, closeMessage, setSource, Except.toOption_ok,
    Option.bind_some]
  rw [catalogFrom_selfClosing (by decide) (by decide), name, Option.bind_some]
  exact catalogFrom_restOfContext _ rfl

theorem catalogFrom_restOfTarget {place : InTarget} (blank : place.target.textStart = none)
    (formed : place.target.forms ≠ []) :
    catalogFrom (.target place) (State.target place).enclosing restOfTarget =
      some (setTarget place.toInMessage ⟨place.target.status, .plural place.target.forms⟩
        default).catalog := by
  have written : restOfTarget =
      '<' :: '/' :: ("translation".toList ++ '>' :: restOfMessage) := rfl
  have text : targetText place.message.message.numerus place.target =
      .plural place.target.forms := by
    rw [targetText, if_pos (by simpa using formed)]
  rw [written, State.enclosing, catalogFrom_endTag (by decide)]
  simp only [State.step, targetStep, closeTarget, blank, Except.toOption_ok, Option.bind_some, text]
  exact catalogFrom_restOfMessage _

/-! ### Text beside plural forms -/

/-- A target with text beside plural forms. -/
def InTarget.IsMixed (place : InTarget) : Prop :=
  place.target.textStart ≠ none ∧ place.target.forms ≠ []

/-- Inside a target with text beside plural forms. -/
def State.InMixed : State → Prop
  | .target place | .variant place _ | .form place _ | .formVariants place _
  | .formVariant place _ _ => place.IsMixed
  | _ => False

section Mixed

variable {place : InTarget} {span : ByteSpan} {event : Event} {next : State}

theorem InTarget.IsMixed.addForm (mixed : place.IsMixed) (form : FormText) :
    (Reader.addForm place form).IsMixed :=
  ⟨mixed.1, by simp [Reader.addForm]⟩

theorem inMixed_of_map {α : Type} {outcome : Except ReadError α} {f : α → State}
    (step : outcome.map f = .ok next) (stays : ∀ value, (f value).InMixed) : next.InMixed := by
  obtain ⟨value, -, rfl⟩ := Except.map_eq_ok step
  exact stays value

theorem inMixed_of_targetPiece (mixed : place.IsMixed)
    (step : targetPiece place ⟨span, event⟩ = .ok next) : next.InMixed := by
  refine inMixed_of_map step fun piece => ⟨?_, mixed.2⟩
  obtain ⟨start, started⟩ := Option.ne_none_iff_exists'.mp mixed.1
  simp [addPiece, started]

theorem inMixed_of_targetStep (mixed : place.IsMixed)
    (step : targetStep place ⟨span, event⟩ = .ok next) : next.InMixed := by
  cases event with
  | opening tag =>
      simp only [targetStep] at step
      split at step
      · unfold openForm at step
        obtain ⟨attributes, -, opened⟩ := Except.bind_eq_ok step
        cases opened
        split <;> exact mixed
      split at step
      · cases step
        exact mixed
      · exact inMixed_of_targetPiece mixed step
  | selfClosing tag =>
      simp only [targetStep] at step
      split at step
      · cases step
        exact mixed.addForm _
      split at step
      · cases step
        exact mixed
      · exact inMixed_of_targetPiece mixed step
  | closing =>
      -- the end tag of the target is refused
      obtain ⟨start, started⟩ := Option.ne_none_iff_exists'.mp mixed.1
      simp [targetStep, closeTarget, started, mixed.2] at step
  | _ =>
      simp only [targetStep] at step
      exact inMixed_of_targetPiece mixed step

theorem inMixed_of_leafStep {element : String} {close stay : List Char → State}
    {text : List Char} (step : leafStep element close stay text ⟨span, event⟩ = .ok next)
    (closes : ∀ text, (close text).InMixed) (stays : ∀ text, (stay text).InMixed) :
    next.InMixed := by
  cases event with
  | closing =>
      cases step
      exact closes _
  | _ =>
      simp only [leafStep] at step
      exact inMixed_of_map step fun _ => stays _

theorem inMixed_of_formVariantsStep {texts : List String} (mixed : place.IsMixed)
    (step : formVariantsStep place texts ⟨span, event⟩ = .ok next) : next.InMixed := by
  cases event with
  | closing =>
      cases step
      exact mixed.addForm _
  | opening tag | selfClosing tag =>
      simp only [formVariantsStep] at step
      split at step
      · cases step
        exact mixed
      · cases step
  | _ =>
      simp only [formVariantsStep] at step
      exact inMixed_of_map step fun _ => mixed

theorem inMixed_of_step {state : State} (mixed : state.InMixed)
    (step : state.step ⟨span, event⟩ = .ok next) : next.InMixed := by
  cases state with
  | target place => exact inMixed_of_targetStep mixed step
  | formVariants place texts => exact inMixed_of_formVariantsStep mixed step
  | form place text =>
      simp only [State.step] at step
      exact inMixed_of_leafStep step (fun _ => InTarget.IsMixed.addForm mixed _) fun _ => mixed
  | variant | formVariant =>
      simp only [State.step] at step
      exact inMixed_of_leafStep step (fun _ => mixed) fun _ => mixed
  | _ => cases mixed

end Mixed

theorem catalogFrom_of_inMixed {state : State} (mixed : state.InMixed)
    (opened : List (List Char)) (text : List Char) : catalogFrom state opened text = none := by
  induction opened, text using scan_induction generalizing state with
  | done opened =>
      rw [catalogFrom_nil]
      cases state with
      | epilog => cases mixed
      | _ => rfl
  | fault opened text error distance failed => exact catalogFrom_of_fault (failed 0) state
  | takes opened piece event behind after first ih =>
      rw [catalogFrom_of_takes first, Option.bind_eq_none_iff]
      intro next step
      exact ih (inMixed_of_step mixed (Except.toOption_eq_some_iff.mp step))

/-! ### Where an end tells the spellings apart -/

section Apart

variable {tag : Tag} {state : State} {opened : List (List Char)}

/-- Some text behind an element without content is not read the same way behind
both of its spellings. -/
def Distinguished (state : State) (opened : List (List Char)) (tag : Tag) : Prop :=
  ∃ rest, ((state.behind tag .short).bind fun next => catalogFrom next opened rest) ≠
    (state.behind tag .paired).bind fun next => catalogFrom next opened rest

/-- An element is read with one of its spellings, and a text behind it. -/
def Accepted (state : State) (opened : List (List Char)) (tag : Tag) : Prop :=
  ∃ spelling rest,
    ((state.behind tag spelling).bind fun next => catalogFrom next opened rest) ≠ none

theorem distinguished_of_refused (accepted : Accepted state opened tag)
    (refused : state.behind tag .paired = none) : Distinguished state opened tag := by
  obtain ⟨spelling, rest, found⟩ := accepted
  refine ⟨rest, ?_⟩
  rw [refused]
  cases spelling with
  | short => exact found
  | paired =>
      rw [refused] at found
      exact absurd rfl found

theorem distinguished_context {place : InContext}
    (told : (State.context place).tellsApart tag = true) :
    Distinguished (.context place) (State.context place).enclosing tag := by
  simp only [State.tellsApart, Bool.and_eq_true, beq_iff_eq, bne_iff_ne] at told
  obtain ⟨named, nonempty⟩ := told
  obtain ⟨short, paired⟩ := behind_name place named
  refine ⟨restOfContext, ?_⟩
  rw [short, paired, Option.bind_some, Option.bind_some]
  intro same
  have sameContext := (catalogFrom_restOfContext _ rfl).symm.trans
    (same.trans (catalogFrom_restOfContext _ rfl))
  simp only [InContext.catalog, closeContextText, Option.some.injEq, Catalog.mk.injEq,
    List.append_cancel_left_eq, List.cons.injEq, and_true, true_and] at sameContext
  exact nonempty (congrArg Context.name sameContext)

theorem target_of_catalog {place : InMessage} {first second : Target} {spans : TargetSpans}
    (same : (setTarget place first spans).catalog = (setTarget place second spans).catalog) :
    first = second := by
  simp only [InMessage.catalog, InContext.catalog, addMessage, setTarget, Catalog.mk.injEq,
    List.append_cancel_left_eq, List.cons.injEq, Context.mk.injEq, and_true, true_and] at same
  exact congrArg Message.target same

theorem distinguished_message {place : InMessage}
    (told : (State.message place).tellsApart tag = true) :
    Distinguished (.message place) (State.message place).enclosing tag := by
  simp only [State.tellsApart, Bool.and_eq_true, beq_iff_eq] at told
  obtain ⟨⟨named, numerus⟩, announced⟩ := told
  cases given : tag.attributes.toOption with
  | none =>
      rw [given] at announced
      cases announced
  | some attributes =>
      rw [given, Option.any_some] at announced
      obtain ⟨short, paired⟩ := behind_translation place named given
      refine ⟨restOfMessage, ?_⟩
      rw [short, paired, Option.bind_some, Option.bind_some, numerus, announced]
      intro same
      have sameCatalog := (catalogFrom_restOfMessage _).symm.trans
        (same.trans (catalogFrom_restOfMessage _))
      have sameTarget := target_of_catalog (Option.some.inj sameCatalog)
      cases congrArg Target.text sameTarget

/-- A target that a form is added to in an accepted document has no text. -/
theorem textStart_of_accepted {place : InTarget} {first second : FormText}
    (short : (State.target place).behind tag .short = some (.target (addForm place first)))
    (paired : (State.target place).behind tag .paired = some (.target (addForm place second)))
    (accepted : Accepted (.target place) opened tag) : place.target.textStart = none := by
  by_contra started
  have mixed (form : FormText) : (State.target (addForm place form)).InMixed :=
    ⟨started, by simp [addForm]⟩
  obtain ⟨spelling, rest, found⟩ := accepted
  cases spelling with
  | short =>
      rw [short, Option.bind_some, catalogFrom_of_inMixed (mixed first)] at found
      exact found rfl
  | paired =>
      rw [paired, Option.bind_some, catalogFrom_of_inMixed (mixed second)] at found
      exact found rfl

theorem distinguished_form {place : InTarget} (named : tag.name = "numerusform")
    (announced : tag.attributes.toOption.all announcesVariants = true)
    (accepted : Accepted (.target place) (State.target place).enclosing tag) :
    Distinguished (.target place) (State.target place).enclosing tag := by
  cases given : tag.attributes.toOption with
  | none =>
      refine distinguished_of_refused accepted ?_
      simp [State.behind, State.step, targetStep, named, openForm, given]
  | some attributes =>
      rw [given, Option.all_some] at announced
      obtain ⟨short, paired⟩ := behind_numerusform place named given
      rw [announced, if_pos rfl] at paired
      have textless := textStart_of_accepted short paired accepted
      have blank (form : FormText) : (addForm place form).target.textStart = none := textless
      refine ⟨restOfTarget, ?_⟩
      rw [short, paired, Option.bind_some, Option.bind_some]
      intro same
      have formed (form : FormText) : (addForm place form).target.forms ≠ [] := by simp [addForm]
      have sameCatalog := (catalogFrom_restOfTarget (blank _) (formed _)).symm.trans
        (same.trans (catalogFrom_restOfTarget (blank _) (formed _)))
      have sameTarget := target_of_catalog (Option.some.inj sameCatalog)
      simp [addForm] at sameTarget

theorem distinguished_target {place : InTarget}
    (told : (State.target place).tellsApart tag = true)
    (accepted : Accepted (.target place) (State.target place).enclosing tag) :
    Distinguished (.target place) (State.target place).enclosing tag := by
  simp only [State.tellsApart, Bool.or_eq_true, Bool.and_eq_true, beq_iff_eq] at told
  rcases told with ⟨named, announced⟩ | character
  · exact distinguished_form named announced accepted
  · obtain ⟨piece, given⟩ := Option.isSome_iff_exists.mp character
    have named := name_of_pieceOf given
    refine distinguished_of_refused accepted ?_
    simp [State.behind, State.step, targetStep, named, targetPiece]

theorem distinguished_of_tellsApart {stage : Stage} (encloses : stage.Encloses)
    (told : stage.state.tellsApart tag = true) (accepted : Accepted stage.state stage.opened tag) :
    Distinguished stage.state stage.opened tag := by
  obtain ⟨taken, opened, state, left⟩ := stage
  obtain ⟨names, depth⟩ := encloses
  dsimp only at names depth told accepted ⊢
  have outermost (same : state.enclosing.length = state.depth) : opened = state.enclosing :=
    (names.eq_of_length (same.trans depth.symm)).symm
  have textOnly (text : state.holdsText = true) : Distinguished state opened tag :=
    distinguished_of_refused accepted (behind_text text).2
  cases state with
  | context place =>
      obtain rfl := outermost rfl
      exact distinguished_context told
  | message place =>
      obtain rfl := outermost rfl
      exact distinguished_message told
  | target place =>
      obtain rfl := outermost rfl
      exact distinguished_target told accepted
  | contextText | messageText | variant | form | formVariant => exact textOnly rfl
  | _ => cases told

/-- In an accepted document the spellings are told apart just if some text
behind them shows it. -/
theorem distinguished_iff {stage : Stage} (encloses : stage.Encloses)
    (accepted : Accepted stage.state stage.opened tag) :
    Distinguished stage.state stage.opened tag ↔ stage.state.tellsApart tag = true := by
  refine ⟨?_, fun told => distinguished_of_tellsApart encloses told accepted⟩
  rintro ⟨rest, differs⟩
  by_contra alike
  rw [Bool.not_eq_true] at alike
  exact differs (Likeness.bind_eq_of_rel (rel_behind alike) fun next other same =>
    catalogFrom_congr same stage.opened rest)

end Apart

/-! ### In the text of a document -/

/-- The catalog in a text, if it is one. -/
def catalogIn? (text : String) : Option Catalog :=
  (Document.read text).toOption.map (·.catalog)

/-- The reader tells the two spellings of an element apart behind the front part
of a document. -/
def tellsApartBehind (front : String) (tag : Tag) : Bool :=
  (stateBehind front).toOption.any (State.tellsApart tag)

theorem head_write (spelling : Spelling) (tag : Tag) (rest : List Char) :
    ((spelling.write tag).toList ++ rest).head? = some '<' := by
  cases spelling <;> simp [Spelling.write]

theorem catalogIn?_write {front back : String} {tag : Tag} {stage : Stage} (proper : tag.isProper)
    (reaches : (Stage.initial (dropByteOrderMark front.toList ++ back.toList)).Reaches stage)
    (taken : stage.taken = dropByteOrderMark front.toList) (spelling : Spelling) (rest : String) :
    catalogIn? (front ++ spelling.write tag ++ rest) =
      (stage.state.behind tag spelling).bind fun next =>
        catalogFrom next stage.opened rest.toList := by
  have begins := head_write spelling tag rest.toList
  have unmarked : ((spelling.write tag).toList ++ rest.toList).head? ≠ some '\uFEFF' := by
    rw [begins]
    decide
  have bracket : Boundary ((spelling.write tag).toList ++ rest.toList) := by
    obtain ⟨others, starts⟩ := List.head?_eq_some_iff.mp begins
    exact .inr ⟨others, starts⟩
  rw [catalogIn?, catalog_read, String.append_assoc, String.toList_append, String.toList_append,
    dropByteOrderMark_append fun _ => unmarked, ← taken, reaches.catalogFrom_eq fun _ => bracket,
    catalogFrom_spelling proper]

theorem not_distinguished_iff {front back : String} {tag : Tag} {stage : Stage}
    (proper : tag.isProper)
    (reaches : (Stage.initial (dropByteOrderMark front.toList ++ back.toList)).Reaches stage)
    (taken : stage.taken = dropByteOrderMark front.toList) :
    ¬ Distinguished stage.state stage.opened tag ↔
      ∀ rest, catalogIn? (front ++ Spelling.short.write tag ++ rest) =
        catalogIn? (front ++ Spelling.paired.write tag ++ rest) := by
  simp only [catalogIn?_write proper reaches taken]
  refine ⟨fun alike rest => ?_, ?_⟩
  · by_contra differs
    exact alike ⟨rest.toList, differs⟩
  · rintro alike ⟨rest, differs⟩
    have equal := alike (String.ofList rest)
    rw [String.toList_ofList] at equal
    exact differs equal

end Reader

open Reader

/-- An event of a document starts behind its front part. -/
def Xml.StartsBehind (front back : String) : Prop :=
  ∃ located ∈ (events (front ++ back)).events,
    located.span.start = byteSize (dropByteOrderMark front.toList)

instance (front back : String) : Decidable (StartsBehind front back) :=
  List.decidableBEx _ _

/-- In a document that is read, an element without content can be spelled either
way, whatever follows it, just if the reader does not tell the spellings apart in
front of it.  Then the document is read as the same catalog. -/
theorem Document.read_respelled_iff {front back : String} {tag : Tag} {spelling : Spelling}
    {document : Document} (proper : tag.isProper)
    (read : Document.read (front ++ spelling.write tag ++ back) = .ok document)
    (starts : StartsBehind front (spelling.write tag ++ back)) :
    (tellsApartBehind front tag = false ↔
      ∀ rest, catalogIn? (front ++ Spelling.short.write tag ++ rest) =
        catalogIn? (front ++ Spelling.paired.write tag ++ rest)) ∧
      (tellsApartBehind front tag = false → ∀ other : Spelling, ∃ again,
        Document.read (front ++ other.write tag ++ back) = .ok again ∧
          again.catalog = document.catalog) := by
  obtain ⟨located, member, start⟩ := starts
  have readFront := read
  rw [String.append_assoc] at readFront
  have unmarked : (spelling.write tag ++ back).toList.head? ≠ some '\uFEFF' := by
    rw [String.toList_append, head_write]
    decide
  obtain ⟨stage, reaches, taken, -⟩ := exists_stage_of_start readFront member start unmarked
  have found : catalogIn? (front ++ spelling.write tag ++ back) = some document.catalog := by
    rw [catalogIn?, read]
    rfl
  have accepted : Accepted stage.state stage.opened tag := by
    refine ⟨spelling, back.toList, ?_⟩
    rw [← catalogIn?_write proper reaches taken, found]
    exact Option.some_ne_none _
  have told : tellsApartBehind front tag = stage.state.tellsApart tag := by
    rw [tellsApartBehind, reaches.stateBehind_eq taken]
    rfl
  have same : tellsApartBehind front tag = false ↔
      ∀ rest, catalogIn? (front ++ Spelling.short.write tag ++ rest) =
        catalogIn? (front ++ Spelling.paired.write tag ++ rest) := by
    rw [told, ← Bool.not_eq_true, ← distinguished_iff reaches.encloses accepted,
      not_distinguished_iff proper reaches taken]
  refine ⟨same, fun alike other => ?_⟩
  have asShort (other : Spelling) : catalogIn? (front ++ other.write tag ++ back) =
      catalogIn? (front ++ Spelling.short.write tag ++ back) := by
    cases other with
    | short => rfl
    | paired => exact (same.mp alike back).symm
  have respelled : catalogIn? (front ++ other.write tag ++ back) = some document.catalog := by
    rw [asShort, ← asShort spelling, found]
  exact Except.toOption_map_eq_some_iff.mp respelled

/-- The front part of a document with an empty name. -/
def namelessFront : String :=
  "<TS><context>"

def namelessBack : String :=
  "</context></TS>"

def nameTag : Tag :=
  ⟨"name ".toList⟩

theorem read_respelled_nameless :
    ∃ document again,
      Document.read (namelessFront ++ "<name />" ++ namelessBack) = .ok document ∧
        Document.read (namelessFront ++ "<name ></name>" ++ namelessBack) = .ok again ∧
          again.catalog = document.catalog := by
  have accepted : (Document.read (namelessFront ++ "<name />" ++ namelessBack)).toOption.isSome =
      true := by
    decide +kernel
  obtain ⟨document, found⟩ := Except.isSome_toOption_iff.mp accepted
  have short : Spelling.short.write nameTag = "<name />" := by decide +kernel
  have paired : Spelling.paired.write nameTag = "<name ></name>" := by decide +kernel
  have read : Document.read (namelessFront ++ Spelling.short.write nameTag ++ namelessBack) =
      .ok document := by
    rw [short, found]
  obtain ⟨again, readAgain, same⟩ :=
    (Document.read_respelled_iff (by decide) read (by decide +kernel)).2 (by decide +kernel) .paired
  rw [short] at read
  rw [paired] at readAgain
  exact ⟨document, again, read, readAgain, same⟩

/-- The front part of a document up to a plural form. -/
def formFront : String :=
  "<TS><context><name/><message><source/><translation>"

def formBack : String :=
  "</translation></message></context></TS>"

def formTag : Tag :=
  ⟨"numerusform variants=\"yes\"".toList⟩

/-- Not every element without content can be spelled either way: a plural form
that announces length variants has a list of them only with an end tag of its
own. -/
theorem not_read_respelled_form :
    ¬ ∀ (front back : String) (tag : Tag) (spelling other : Spelling) (document : Document),
      tag.isProper → Document.read (front ++ spelling.write tag ++ back) = .ok document →
        StartsBehind front (spelling.write tag ++ back) →
          ∃ again, Document.read (front ++ other.write tag ++ back) = .ok again ∧
            again.catalog = document.catalog := by
  intro respelled
  have short : (catalogIn? (formFront ++ Spelling.short.write formTag ++ formBack)).map
      (fun catalog => catalog.contexts.flatMap (·.messages.map (·.target.text))) =
        some [.plural [.plain ""]] := by
    decide +kernel
  have paired : (catalogIn? (formFront ++ Spelling.paired.write formTag ++ formBack)).map
      (fun catalog => catalog.contexts.flatMap (·.messages.map (·.target.text))) =
        some [.plural [.lengthVariants []]] := by
    decide +kernel
  rw [catalogIn?, Option.map_map] at short paired
  obtain ⟨document, found, shortText⟩ := Except.toOption_map_eq_some_iff.mp short
  obtain ⟨again, readAgain, same⟩ := respelled formFront formBack formTag .short .paired document
    (by decide) found (by decide +kernel)
  rw [readAgain, Except.toOption_ok, Option.map_some, Function.comp_apply, same] at paired
  rw [Function.comp_apply] at shortText
  rw [shortText] at paired
  cases paired

end CatalogServer
