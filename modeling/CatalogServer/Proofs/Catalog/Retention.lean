import CatalogServer.Proofs.Catalog.Resuming
import CatalogServer.Proofs.Catalog.Traits

/-!
# What was read stays

A reader only ever adds to the contexts, the messages of a context and the
additional data of a message.  So the catalog that it ends with tells what a
reader on the way to it can have held.  A reader that holds something else
has strayed from that catalog, and it does not come back to it.
-/

namespace CatalogServer.Reader

open Text Xml

/-- The contexts that are complete, and the messages of the one at hand,
stand at the front of the contexts of a catalog. -/
def InContext.LeadsTo (place : InContext) (catalog : Catalog) (context : Context) : Prop :=
  place.document.catalog.contexts ++ [context] <+: catalog.contexts ∧
    place.context.context.messages <+: context.messages

/-- The message at hand is among the messages of a catalog, with the given
additional data at the front of its own. -/
def InMessage.LeadsTo (place : InMessage) (extras : List Extra) (catalog : Catalog) : Prop :=
  ∃ context message, place.document.catalog.contexts ++ [context] <+: catalog.contexts ∧
    place.context.context.messages ++ [message] <+: context.messages ∧
    extras <+: message.extras ∧ message.numerus = place.message.message.numerus

/-- The additional data that an element will be, once its text is known. -/
def extraOf (element : String) (value : String) : List Extra :=
  if "extra-".toList.isPrefixOf element.toList then
    [⟨String.ofList (element.toList.drop "extra-".length), value⟩]
  else
    []

theorem extraOf_extra (name value : String) : extraOf ("extra-" ++ name) value = [⟨name, value⟩] := by
  have begins : "extra-".toList.isPrefixOf ("extra-" ++ name).toList = true := by
    rw [List.isPrefixOf_iff_prefix, String.toList_append]
    exact List.prefix_append _ _
  have behind : String.ofList (("extra-" ++ name).toList.drop "extra-".length) = name := by
    rw [String.toList_append, show "extra-".length = "extra-".toList.length from rfl,
      List.drop_left, String.ofList_toList]
  rw [extraOf, if_pos begins, behind]

variable {catalog : Catalog}

theorem leadsTo_of_inMessage {place : InMessage} {extras : List Extra}
    (leads : place.LeadsTo extras catalog) : ∃ context, place.toInContext.LeadsTo catalog context := by
  obtain ⟨context, message, contexts, messages, -⟩ := leads
  exact ⟨context, contexts, (List.prefix_append _ _).trans messages⟩

theorem leadsTo_of_append {place : InMessage} {first second : List Extra}
    (leads : place.LeadsTo (first ++ second) catalog) : place.LeadsTo first catalog := by
  obtain ⟨context, message, contexts, messages, extras, counted⟩ := leads
  exact ⟨context, message, contexts, messages, (List.prefix_append _ _).trans extras, counted⟩

theorem contexts_of_inContext {place : InContext}
    (leads : ∃ context, place.LeadsTo catalog context) :
    place.document.catalog.contexts <+: catalog.contexts := by
  obtain ⟨context, contexts, -⟩ := leads
  exact (List.prefix_append _ _).trans contexts

theorem extras_of_storeText {message behind : Message} {element text : String} {offset : Nat}
    (stored : storeText message element text offset = .ok behind) :
    behind.extras = message.extras ++ extraOf element text := by
  cases begins : "extra-".toList.isPrefixOf element.toList with
  | true =>
      obtain ⟨name, spelled⟩ := List.isPrefixOf_iff_prefix.mp begins
      have whole : element = "extra-" ++ String.ofList name := by
        rw [← String.toList_inj, String.toList_append, ← spelled]
        congr 1
        exact String.toList_ofList.symm
      rw [whole, storeText_extra] at stored
      cases stored
      have name_eq : element.toList.drop "extra-".length = name := by
        rw [← spelled, show "extra-".length = "extra-".toList.length from rfl, List.drop_left]
      rw [extraOf, if_pos begins, name_eq]
  | false =>
      rw [extraOf, begins, if_neg (by decide), List.append_nil]
      simp only [storeText, begins, Bool.false_eq_true, if_false] at stored
      repeat' split at stored
      all_goals
        first
        | cases stored
          rfl
        | simp at stored

theorem leadsTo_of_storeText {place : InMessage} {behind : Message} {element text : String}
    {offset : Nat} (stored : storeText place.message.message element text offset = .ok behind)
    (leads : InMessage.LeadsTo { place with message := { place.message with message := behind } }
      behind.extras catalog) :
    place.LeadsTo (place.message.message.extras ++ extraOf element text) catalog := by
  obtain ⟨context, message, contexts, messages, extras, counted⟩ := leads
  rw [extras_of_storeText stored] at extras
  exact ⟨context, message, contexts, messages, extras,
    counted.trans (target_of_storeText stored).1⟩

/-- What a reader on the way to a catalog has in common with it. -/
def leadsTo (catalog : Catalog) : Trait where
  prolog := True
  document document := document.catalog.contexts <+: catalog.contexts
  context place := ∃ context, place.LeadsTo catalog context
  part place _ := ∃ context, place.LeadsTo catalog context
  message place := place.LeadsTo place.message.message.extras catalog
  location place := place.LeadsTo place.message.message.extras catalog
  text element place _ :=
    ∃ value, place.LeadsTo (place.message.message.extras ++ extraOf element value) catalog
  target place _ := place.LeadsTo place.message.message.extras catalog

/-- What a reader holds that can no longer end with a catalog. -/
def strays (catalog : Catalog) : Trait where
  prolog := False
  document document := ¬ (leadsTo catalog).document document
  context place := ¬ (leadsTo catalog).context place
  part place start := ¬ (leadsTo catalog).part place start
  message place := ¬ (leadsTo catalog).message place
  location place := ¬ (leadsTo catalog).location place
  text element place start := ¬ (leadsTo catalog).text element place start
  target place startTag := ¬ (leadsTo catalog).target place startTag

/-- A reader that has strayed from a catalog does not come back to it. -/
theorem strays_laws (catalog : Catalog) (span : ByteSpan) :
    Trait.Laws (strays catalog) (strays catalog) span where
  prolog := id
  document := id
  context := id
  part := id
  message := id
  location := id
  text := id
  target := id
  root _ _ _ holds := holds.elim
  openContext holds leads := holds (contexts_of_inContext leads)
  openPart := id
  closePart part _ holds leads := holds (by cases part <;> exact leads)
  emptyName := id
  emptyComment := id
  closeContext holds _ leads := holds ⟨_, leads, List.prefix_refl _⟩
  openMessage _ _ holds leads := holds (leadsTo_of_inMessage leads)
  openLocation _ := id
  closeLocation := id
  emptyLocation _ := id
  openText _ holds := fun ⟨_, leads⟩ => holds (leadsTo_of_append leads)
  closeSource text holds leads := holds ⟨text, by
    rw [show extraOf "source" text = [] from rfl, List.append_nil]
    exact leads⟩
  emptySource := id
  closeText holds stored leads := holds ⟨_, leadsTo_of_storeText stored leads⟩
  emptyText _ holds stored leads :=
    holds (leadsTo_of_append (leadsTo_of_storeText stored leads))
  openTarget := id
  closeTarget _ _ := id
  emptyTarget _ _ := id
  closeMessage holds _ := fun ⟨context, contexts, messages⟩ =>
    holds ⟨context, _, contexts, messages, List.prefix_refl _, rfl⟩

theorem strays_of_not_leadsTo {state : State} (strays : ¬ (leadsTo catalog).Holds state) :
    (Reader.strays catalog).Holds state := by
  cases state with
  | prolog => exact absurd trivial strays
  | _ => exact strays

theorem catalogFrom_ne_of_strays {state : State} (holds : (strays catalog).Holds state)
    (opened : List (List Char)) (text : List Char) :
    catalogFrom state opened text ≠ some catalog := by
  induction opened, text using scan_induction generalizing state with
  | done opened =>
      rw [catalogFrom_nil]
      intro ends
      cases state with
      | epilog document =>
          cases ends
          exact holds (List.prefix_refl _)
      | _ => simp [State.catalog?] at ends
  | fault opened text error distance failed =>
      rw [catalogFrom_of_fault (failed 0)]
      simp
  | takes opened piece event behind after first ih =>
      intro read
      rw [catalogFrom_of_takes first, Option.bind_eq_some_iff] at read
      obtain ⟨next, step, read⟩ := read
      have later := Trait.holds_of_step (strays_laws catalog default) holds
        (Except.toOption_eq_some_iff.mp step)
      exact ih later read

/-- Every reader on the way to a catalog leads to it. -/
theorem leadsTo_of_catalogFrom {state : State} {opened : List (List Char)}
    {text : List Char} (read : catalogFrom state opened text = some catalog) :
    (leadsTo catalog).Holds state := by
  by_contra holds
  exact catalogFrom_ne_of_strays (strays_of_not_leadsTo holds) opened text read

end CatalogServer.Reader
