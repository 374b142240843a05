import CatalogServer.Proofs.Xml.Tags
import CatalogServer.Xml.Attribute

/-!
# Written attributes are read back

An attribute that stands as a blank, a key, an equals sign and a value between
quotation marks of either kind is read back as it is, and so is a list of them
with different keys behind the name of a tag.  Their tag leaves no quote open.
The attributes that the program writes have double quotes.
-/

namespace CatalogServer.Xml

open Text

namespace RawAttribute

/-- An attribute in quotes of a kind, with its leading blank. -/
def quoted (quote : Char) (raw : RawAttribute) : List Char :=
  ' ' :: (raw.key ++ '=' :: quote :: (raw.value ++ [quote]))

/-- An attribute with its leading blank. -/
def written (raw : RawAttribute) : List Char :=
  ' ' :: (raw.key ++ '=' :: '"' :: (raw.value ++ ['"']))

/-- An attribute that can stand in quotes of a kind: its key is one, leaves no
quote open, and the mark does not occur in its value. -/
structure Quotable (quote : Char) (raw : RawAttribute) : Prop where
  mark : quote = '"' ∨ quote = '\''
  word : raw.key.all isKeyChar = true
  nonempty : raw.key ≠ []
  closed : isClosed raw.key = true
  unquoted : quote ∉ raw.value

/-- An attribute that can be written: its key is one, leaves no quote open,
and no quotation mark stands in its value. -/
structure Writable (raw : RawAttribute) : Prop where
  word : raw.key.all isKeyChar = true
  nonempty : raw.key ≠ []
  closed : isClosed raw.key = true
  unquoted : '"' ∉ raw.value

variable {quote : Char} {raw : RawAttribute}

theorem Writable.quotable (writable : raw.Writable) : raw.Quotable '"' :=
  ⟨.inl rfl, writable.word, writable.nonempty, writable.closed, writable.unquoted⟩

theorem isClosed_quoted (quotable : raw.Quotable quote) : isClosed (raw.quoted quote) := by
  have blank : isClosed [' '] := by decide
  have front : isClosed (' ' :: raw.key) := isClosed_append blank quotable.closed
  have opens : quoteBehind none ['=', quote] = some (some quote) := by
    rcases quotable.mark with rfl | rfl <;> decide
  have value : isClosed (['=', quote] ++ (raw.value ++ [quote])) := by
    have inside := quoteBehind_quoted quotable.unquoted
    rw [isClosed, quoteBehind_append, opens, Option.bind_some, quoteBehind_append, inside]
    simp [quoteBehind]
  have whole := isClosed_append front value
  simpa [quoted] using whole

theorem getLast_quoted (quote : Char) (raw : RawAttribute) :
    (raw.quoted quote).getLast? = some quote := by
  simp [quoted, List.getLast?_cons, List.getLast?_append]

end RawAttribute

theorem isMarkupBlank_of_isKeyChar {c : Char} (key : isKeyChar c = true) :
    isMarkupBlank c = false := by
  simp only [isKeyChar, Bool.and_eq_true, Bool.not_eq_true'] at key
  exact key.2

theorem quotedValue_append {quote : Char} {value : List Char} (unquoted : quote ∉ value)
    (stop : Nat) (key : List Char) (seen : SeenKeys) (rest : List Char) :
    quotedValue stop key seen quote (value ++ quote :: rest) =
      .found ⟨key, value⟩ seen rest := by
  have inside : ∀ c ∈ value, (c != quote) = true := by
    intro c member
    rw [bne_iff_ne]
    rintro rfl
    exact unquoted member
  unfold quotedValue
  rw [List.dropWhile_append_of_pos inside, List.takeWhile_append_of_pos inside]
  simp

theorem attributeValue_quoted {quote : Char} (mark : quote = '"' ∨ quote = '\'') (stop : Nat)
    (key : List Char) (seen : SeenKeys) (text : List Char) :
    attributeValue stop key seen (quote :: text) = quotedValue stop key seen quote text := by
  rcases mark with rfl | rfl
  · have visible : isMarkupBlank '"' = false := by decide
    simp [attributeValue, visible]
  · have visible : isMarkupBlank '\'' = false := by decide
    simp [attributeValue, visible]

theorem nextAttribute_quoted {quote : Char} {raw : RawAttribute} (quotable : raw.Quotable quote)
    (stop : Nat) {seen : SeenKeys} (new : seen.find? (·.1 == raw.key) = none)
    (rest : List Char) :
    ∃ offset, nextAttribute stop seen (raw.quoted quote ++ rest) =
      .found raw ((raw.key, offset) :: seen) rest := by
  obtain ⟨key, value⟩ := raw
  cases key with
  | nil => exact absurd rfl quotable.nonempty
  | cons first others =>
      have word := quotable.word
      simp only [List.all_cons, Bool.and_eq_true, List.all_eq_true] at word
      have startsKey : isMarkupBlank first = false := isMarkupBlank_of_isKeyChar word.1
      have blanks : (RawAttribute.quoted quote ⟨first :: others, value⟩ ++ rest).dropWhile
          isMarkupBlank = first :: (others ++ '=' :: quote :: (value ++ quote :: rest)) := by
        simp [RawAttribute.quoted, startsKey, show isMarkupBlank ' ' = true by decide]
      have ends : isKeyChar '=' = false := by decide
      have notBlank : isMarkupBlank '=' = false := by decide
      unfold nextAttribute
      rw [blanks]
      simp only [List.takeWhile_append_of_pos word.2, List.dropWhile_append_of_pos word.2,
        List.takeWhile_cons, List.dropWhile_cons, ends, notBlank, Bool.false_eq_true, if_false,
        List.append_nil, new]
      refine ⟨stop - byteSize (first :: (others ++ '=' :: quote :: (value ++ quote :: rest))), ?_⟩
      rw [attributeValue_quoted quotable.mark]
      exact quotedValue_append quotable.unquoted _ _ _ _

/-- Attributes, each with the kind of its quotes. -/
abbrev QuotedAttributes := List (Char × RawAttribute)

namespace QuotedAttributes

def text (attributes : QuotedAttributes) : List Char :=
  attributes.flatMap fun entry => entry.2.quoted entry.1

def keys (attributes : QuotedAttributes) : List (List Char) :=
  attributes.map (·.2.key)

/-- Attributes that can stand in their quotes, each with a key of its own. -/
structure Legible (attributes : QuotedAttributes) : Prop where
  quotable : ∀ entry ∈ attributes, entry.2.Quotable entry.1
  distinct : attributes.keys.Nodup

end QuotedAttributes

/-- Attributes with different keys are read back in their order. -/
theorem attributesFrom_quoted {attributes : QuotedAttributes} (legible : attributes.Legible)
    (stop : Nat) {seen : SeenKeys}
    (new : ∀ entry ∈ attributes, seen.find? (·.1 == entry.2.key) = none) :
    attributesFrom stop seen attributes.text = attributes.map (.ok ·.2) := by
  obtain ⟨quotable, distinct⟩ := legible
  induction attributes generalizing seen with
  | nil =>
      rw [QuotedAttributes.text, List.flatMap_nil, attributesFrom]
      rfl
  | cons entry rest ih =>
      have newEntry := new entry List.mem_cons_self
      simp only [QuotedAttributes.keys, List.map_cons, List.nodup_cons] at distinct
      obtain ⟨offset, next⟩ := nextAttribute_quoted (quotable entry List.mem_cons_self) stop
        newEntry (QuotedAttributes.text rest)
      have newBehind : ∀ other ∈ rest,
          ((entry.2.key, offset) :: seen).find? (·.1 == other.2.key) = none := by
        intro other member
        have differs : entry.2.key ≠ other.2.key := by
          intro same
          apply distinct.1
          rw [same]
          exact List.mem_map_of_mem member
        simp [differs, new other (List.mem_cons_of_mem entry member)]
      have others := ih newBehind
        (fun other member => quotable other (List.mem_cons_of_mem entry member)) distinct.2
      rw [QuotedAttributes.text, List.flatMap_cons, ← QuotedAttributes.text, attributesFrom]
      split
      · simp_all
      · next step =>
          rw [next] at step
          cases step
          rw [others]
          rfl
      · simp_all

/-- A tag is a name and attributes in quotes. -/
def quotedTag (name : List Char) (attributes : QuotedAttributes) : Tag :=
  ⟨name ++ attributes.text⟩

section Quoted

variable {name : List Char} {attributes : QuotedAttributes}

theorem nameChars_quotedTag (plain : isPlainName name) (attributes : QuotedAttributes) :
    (quotedTag name attributes).nameChars = name ∧
      (quotedTag name attributes).attributeText = attributes.text := by
  have unblank := unblank_of_isPlainName plain
  have blank : isMarkupBlank ' ' = true := by decide
  unfold quotedTag Tag.nameChars Tag.attributeText
  rw [List.takeWhile_append_of_pos unblank, List.dropWhile_append_of_pos unblank]
  cases attributes with
  | nil => simp [QuotedAttributes.text]
  | cons entry rest => simp [QuotedAttributes.text, RawAttribute.quoted, blank]

theorem rawAttributes_quotedTag (plain : isPlainName name) (legible : attributes.Legible) :
    (quotedTag name attributes).rawAttributes = attributes.map (.ok ·.2) := by
  unfold Tag.rawAttributes
  rw [(nameChars_quotedTag plain attributes).2]
  exact attributesFrom_quoted legible _ (by simp)

theorem isClosed_quotedTag (plain : isPlainName name)
    (quotable : ∀ entry ∈ attributes, entry.2.Quotable entry.1) :
    isClosed (quotedTag name attributes).content := by
  apply isClosed_append (isClosed_of_isPlainName plain)
  induction attributes with
  | nil => decide
  | cons entry rest ih =>
      rw [QuotedAttributes.text, List.flatMap_cons]
      exact isClosed_append (RawAttribute.isClosed_quoted (quotable entry List.mem_cons_self))
        (ih fun other member => quotable other (List.mem_cons_of_mem entry member))

theorem getLast_quotedTag (plain : isPlainName name)
    (marks : ∀ entry ∈ attributes, entry.1 ≠ '/') :
    (quotedTag name attributes).content.getLast? ≠ some '/' := by
  unfold quotedTag QuotedAttributes.text
  rw [List.getLast?_append]
  rcases List.eq_nil_or_concat attributes with rfl | ⟨others, last, rfl⟩
  · simpa using getLast_of_isPlainName plain
  · have mark := marks last (by simp)
    simpa [List.flatMap_append, List.getLast?_append, RawAttribute.getLast_quoted] using mark

end Quoted

/-- A tag is a name and written attributes. -/
def writtenTag (name : List Char) (raws : List RawAttribute) : Tag :=
  ⟨name ++ raws.flatMap (·.written)⟩

theorem writtenTag_eq (name : List Char) (raws : List RawAttribute) :
    writtenTag name raws = quotedTag name (raws.map fun raw => ('"', raw)) := by
  rw [writtenTag, quotedTag, QuotedAttributes.text, List.flatMap_map]
  rfl

section Written

variable {name : List Char} {raws : List RawAttribute}

theorem quotable_of_writable (writable : ∀ raw ∈ raws, raw.Writable) :
    ∀ entry ∈ raws.map fun raw => ('"', raw), entry.2.Quotable entry.1 := by
  intro entry member
  obtain ⟨raw, inside, rfl⟩ := List.mem_map.mp member
  exact (writable raw inside).quotable

theorem nameChars_writtenTag (plain : isPlainName name) (raws : List RawAttribute) :
    (writtenTag name raws).nameChars = name ∧
      (writtenTag name raws).attributeText = raws.flatMap (·.written) := by
  have read := nameChars_quotedTag plain (raws.map fun raw => ('"', raw))
  rw [← writtenTag_eq] at read
  refine ⟨read.1, read.2.trans ?_⟩
  rw [QuotedAttributes.text, List.flatMap_map]
  rfl

theorem rawAttributes_writtenTag (plain : isPlainName name)
    (writable : ∀ raw ∈ raws, raw.Writable) (distinct : (raws.map (·.key)).Nodup) :
    (writtenTag name raws).rawAttributes = raws.map .ok := by
  have legible : QuotedAttributes.Legible (raws.map fun raw => ('"', raw)) :=
    ⟨quotable_of_writable writable, by
      simpa [QuotedAttributes.keys, Function.comp_def] using distinct⟩
  rw [writtenTag_eq, rawAttributes_quotedTag plain legible, List.map_map]
  rfl

theorem isClosed_writtenTag (plain : isPlainName name)
    (writable : ∀ raw ∈ raws, raw.Writable) :
    isClosed (name ++ raws.flatMap (·.written)) := by
  have closed := isClosed_quotedTag plain (quotable_of_writable writable)
  rw [← writtenTag_eq] at closed
  exact closed

theorem getLast_writtenTag (plain : isPlainName name) :
    (name ++ raws.flatMap (·.written)).getLast? ≠ some '/' := by
  have unslashed : ∀ entry ∈ raws.map fun raw => ('"', raw), entry.1 ≠ '/' := by
    intro entry member
    obtain ⟨raw, -, rfl⟩ := List.mem_map.mp member
    exact (by decide : '"' ≠ '/')
  have last := getLast_quotedTag plain unslashed
  rw [← writtenTag_eq] at last
  exact last

end Written

end CatalogServer.Xml
