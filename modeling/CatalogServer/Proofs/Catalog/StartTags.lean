import CatalogServer.Catalog.Writer
import CatalogServer.Proofs.Catalog.Escaping
import CatalogServer.Proofs.Catalog.Resuming
import CatalogServer.Proofs.Xml.Attributes

/-!
# Written tags are read back

The start tags of a written catalog consist of a name and of attributes that
are given or not.  Such a tag is read as a tag with that name, whatever
follows it, and its attributes are the given ones.  They are refused as a
whole when one of the values holds the null character, which XML has no
reference for.
-/

namespace CatalogServer.Reader

open Text Xml

/-- The names and values that the attributes of a tag are written from. -/
abbrev Given := List (String × Option String)

namespace Given

def present (given : Given) : List Attribute :=
  given.filterMap fun entry => entry.2.map fun value => ⟨entry.1, value⟩

/-- The attributes that are present, as written. -/
def raws (given : Given) : List RawAttribute :=
  given.present.map fun attr =>
    ⟨attr.key.toList, attr.value.toList.flatMap Escape.attributeChar⟩

/-- No value holds the null character. -/
def NullFree (given : Given) : Prop :=
  ∀ attr ∈ given.present, '\x00' ∉ attr.value.toList

instance (given : Given) : Decidable given.NullFree :=
  inferInstanceAs (Decidable (∀ attr ∈ given.present, '\x00' ∉ attr.value.toList))

/-- Names that an attr can have, each given once. -/
structure Named (given : Given) : Prop where
  words : ∀ entry ∈ given, entry.1.toList.all isKeyChar = true ∧ entry.1.toList ≠ [] ∧
    isClosed entry.1.toList = true
  distinct : (given.map (·.1)).Nodup

instance (given : Given) : Decidable given.Named :=
  decidable_of_iff
    ((∀ entry ∈ given, entry.1.toList.all isKeyChar = true ∧ entry.1.toList ≠ [] ∧
      isClosed entry.1.toList = true) ∧ (given.map (·.1)).Nodup)
    ⟨fun ⟨words, distinct⟩ => ⟨words, distinct⟩, fun ⟨words, distinct⟩ => ⟨words, distinct⟩⟩

theorem mem_present {given : Given} {attr : Attribute} :
    attr ∈ given.present ↔ (attr.key, some attr.value) ∈ given := by
  simp only [present, List.mem_filterMap, Option.map_eq_some_iff, Prod.exists]
  constructor
  · rintro ⟨name, value, member, read, rfl, rfl⟩
    exact member
  · intro member
    exact ⟨_, _, member, _, rfl, rfl⟩

theorem keys_present_sublist (given : Given) :
    List.Sublist (given.present.map (·.key)) (given.map (·.1)) := by
  induction given with
  | nil => exact List.Sublist.slnil
  | cons entry rest ih =>
      obtain ⟨name, value⟩ := entry
      cases value with
      | none => exact List.Sublist.cons name ih
      | some value => exact List.Sublist.cons_cons name ih

variable {given : Given}

theorem writable_raws (named : given.Named) : ∀ raw ∈ given.raws, raw.Writable := by
  intro raw member
  simp only [raws, List.mem_map] at member
  obtain ⟨attr, present, rfl⟩ := member
  obtain ⟨word, nonempty, closed⟩ := named.words _ (mem_present.mp present)
  refine ⟨word, nonempty, closed, ?_⟩
  intro quote
  rw [List.mem_flatMap] at quote
  obtain ⟨c, -, inside⟩ := quote
  exact (Escape.ne_of_mem_attributeChar inside).2.2.1 rfl

theorem nodup_raws (named : given.Named) : (given.raws.map (·.key)).Nodup := by
  have keys : given.raws.map (·.key) = (given.present.map (·.key)).map String.toList := by
    simp [raws, Function.comp_def]
  rw [keys]
  have distinct := named.distinct.sublist (keys_present_sublist given)
  refine List.Pairwise.map String.toList (fun first second differ same => ?_) distinct
  exact differ (String.ext same)

/-- The value of a written attribute is read back exactly when it holds no
null character. -/
theorem toOption_resolve (attr : Attribute) :
    (RawAttribute.resolve ⟨attr.key.toList,
      attr.value.toList.flatMap Escape.attributeChar⟩).toOption =
      if '\x00' ∈ attr.value.toList then none else some attr := by
  simp only [RawAttribute.resolve, Except.toOption_bind, Except.toOption_mapError,
    Escape.toOption_unescape_attributeValue]
  split <;> simp

/-- Going through a list of which some items are refused. -/
theorem mapM_refuse {α : Type} (refused : α → Prop) [DecidablePred refused] (items : List α) :
    (items.mapM fun item => if refused item then none else some item) =
      if ∀ item ∈ items, ¬ refused item then some items else none := by
  induction items with
  | nil => simp
  | cons item rest ih =>
      rw [List.mapM_cons, ih]
      by_cases here : refused item
      · simp [here]
      · have whole := List.forall_mem_cons (p := fun other => ¬ refused other) (a := item) (l := rest)
        by_cases later : ∀ other ∈ rest, ¬ refused other
        · rw [if_pos later, if_neg here, if_pos (whole.mpr ⟨here, later⟩)]
          rfl
        · rw [if_neg later, if_neg here, if_neg fun all => later (whole.mp all).2]
          rfl

theorem toOption_attributes (named : given.Named) {name : List Char}
    (plain : isPlainName name) :
    (writtenTag name given.raws).attributes.toOption =
      if given.NullFree then some given.present else none := by
  unfold Tag.attributes
  rw [Except.toOption_mapM, rawAttributes_writtenTag plain (writable_raws named)
    (nodup_raws named), raws, List.map_map, List.mapM_map]
  have each := mapM_refuse (fun attr : Attribute => '\x00' ∈ attr.value.toList) given.present
  have resolves : (fun attr : Attribute => ((Except.ok ⟨attr.key.toList,
      attr.value.toList.flatMap Escape.attributeChar⟩ : Except AttributeError RawAttribute) >>=
        RawAttribute.resolve).toOption) =
      fun attr => if '\x00' ∈ attr.value.toList then none else some attr := by
    funext attr
    exact toOption_resolve attr
  rw [← resolves] at each
  exact each

theorem attribute_present (named : given.Named) (name : String) {value : Option String}
    (member : (name, value) ∈ given) : attribute? given.present name = value := by
  have distinct := named.distinct
  clear named
  unfold attribute?
  induction given with
  | nil => simp at member
  | cons entry rest ih =>
      obtain ⟨other, shown⟩ := entry
      simp only [List.map_cons, List.nodup_cons] at distinct
      rcases List.mem_cons.mp member with same | later
      · cases same
        cases value with
        | some value => simp [present]
        | none =>
            -- No later entry has the name.
            have absent : ∀ attr ∈ Given.present rest, (attr.key == name) = false := by
              intro attr shown
              rw [beq_eq_false_iff_ne]
              rintro rfl
              exact distinct.1 (List.mem_map_of_mem (mem_present.mp shown))
            have unfound : (Given.present rest).find? (·.key == name) = none := by
              rw [List.find?_eq_none]
              intro attr shown
              simp [absent attr shown]
            change ((Given.present rest).find? (·.key == name)).map (·.value) = none
            rw [unfound]
            rfl
      · have different : other ≠ name := by
          rintro rfl
          exact distinct.1 (List.mem_map_of_mem later)
        have found := ih later distinct.2
        cases shown with
        | none => simpa [present] using found
        | some shown =>
            simpa [present, different] using found

end Given

namespace Given

theorem present_append (first second : Given) :
    Given.present (first ++ second) = first.present ++ second.present :=
  List.filterMap_append

theorem written_append (first second : Given) :
    (Given.raws (first ++ second)).flatMap (·.written) =
      first.raws.flatMap (·.written) ++ second.raws.flatMap (·.written) := by
  simp [raws, present_append]

theorem written_single (name : String) (value : Option String) :
    (Given.raws [(name, value)]).flatMap (·.written) =
      (Writer.attributeText name value).toList := by
  cases value with
  | none => rfl
  | some value =>
      simp [raws, present, Writer.attributeText, RawAttribute.written, Escape.attributeValue]

end Given

theorem catalogFrom_opening {content : List Char} (closed : isClosed content)
    (starts : startsElement content) (unslashed : content.getLast? ≠ some '/') (state : State)
    (opened : List (List Char)) (rest : List Char) :
    catalogFrom state opened ('<' :: (content ++ '>' :: rest)) =
      (state.step ⟨default, .opening ⟨content⟩⟩).toOption.bind fun next =>
        catalogFrom next ((Tag.mk content).nameChars :: opened) rest := by
  have takes : Takes opened ('<' :: (content ++ ['>'])) (.opening ⟨content⟩)
      ((Tag.mk content).nameChars :: opened) rest := by
    apply Takes.markup
    rw [List.append_assoc]
    exact scanMarkup_opening closed starts unslashed rest
  have read := catalogFrom_of_takes takes state
  rw [List.cons_append, List.append_assoc] at read
  exact read

theorem catalogFrom_selfClosing {content : List Char} (closed : isClosed content)
    (starts : startsElement content) (state : State) (opened : List (List Char))
    (rest : List Char) :
    catalogFrom state opened ('<' :: (content ++ '/' :: '>' :: rest)) =
      (state.step ⟨default, .selfClosing ⟨content⟩⟩).toOption.bind fun next =>
        catalogFrom next opened rest := by
  have takes : Takes opened ('<' :: (content ++ ['/', '>'])) (.selfClosing ⟨content⟩) opened
      rest := by
    have recognised := scanMarkup_selfClosing closed starts rest
    have markup : scanMarkup (content ++ ['/', '>'] ++ rest) =
        .event (.selfClosing ⟨content⟩) (content ++ ['/', '>']) rest := by
      rw [List.append_assoc]
      exact recognised
    exact .markup markup
  have read := catalogFrom_of_takes takes state
  rw [List.cons_append, List.append_assoc] at read
  exact read

theorem catalogFrom_endTag {name : List Char} (plain : isPlainName name) (state : State)
    (outer : List (List Char)) (rest : List Char) :
    catalogFrom state (name :: outer) ('<' :: '/' :: (name ++ '>' :: rest)) =
      (state.step ⟨default, .closing⟩).toOption.bind fun next =>
        catalogFrom next outer rest := by
  have takes : Takes (name :: outer) ('<' :: '/' :: (name ++ ['>'])) .closing outer rest := by
    have recognised := scanMarkup_endTag plain rest
    have markup : scanMarkup ('/' :: (name ++ ['>']) ++ rest) =
        .endTag name ('/' :: name ++ ['>']) rest := by
      simpa using recognised
    exact .endTag markup
  have read := catalogFrom_of_takes takes state
  rw [List.cons_append, List.cons_append, List.append_assoc] at read
  exact read

theorem name_writtenTag {name : String} (plain : isPlainName name.toList)
    (raws : List RawAttribute) : (writtenTag name.toList raws).name = name := by
  unfold Tag.name
  rw [(nameChars_writtenTag plain raws).1, String.ofList_toList]

section Written

variable {name : String} {given : Given} (element : isElementName name.toList)
  (named : given.Named)

include element named

theorem catalogFrom_startTag (state : State) (opened : List (List Char)) (rest : List Char) :
    catalogFrom state opened
        ('<' :: (name.toList ++ given.raws.flatMap (·.written) ++ '>' :: rest)) =
      (state.step ⟨default, .opening (writtenTag name.toList given.raws)⟩).toOption.bind
        fun next => catalogFrom next (name.toList :: opened) rest := by
  simp only [isElementName, Bool.and_eq_true] at element
  have read := catalogFrom_opening
    (isClosed_writtenTag element.1 (Given.writable_raws named))
    (startsElement_append element.2 _) (getLast_writtenTag element.1) state opened rest
  have name := (nameChars_writtenTag element.1 given.raws).1
  unfold writtenTag at name
  rw [name] at read
  exact read

theorem catalogFrom_emptyTag (state : State) (opened : List (List Char)) (rest : List Char) :
    catalogFrom state opened
        ('<' :: (name.toList ++ given.raws.flatMap (·.written) ++ '/' :: '>' :: rest)) =
      (state.step ⟨default, .selfClosing (writtenTag name.toList given.raws)⟩).toOption.bind
        fun next => catalogFrom next opened rest := by
  simp only [isElementName, Bool.and_eq_true] at element
  exact catalogFrom_selfClosing
    (isClosed_writtenTag element.1 (Given.writable_raws named))
    (startsElement_append element.2 _) state opened rest

end Written

end CatalogServer.Reader
