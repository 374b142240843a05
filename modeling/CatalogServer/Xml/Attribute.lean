import CatalogServer.Text.Utf8
import CatalogServer.Xml.Event
import CatalogServer.Xml.Reference

/-!
# Attributes

The attributes of a tag are read from left to right: a key, an equals sign
and a quoted value, with blanks allowed around the equals sign.  A key must
not occur twice, and it counts as soon as its equals sign is read, whatever
becomes of its value.  The reading of one attribute either yields it or a
fault with a place from which the reading of later attributes may go on.
-/

namespace CatalogServer.Xml

open Text

/-- An attribute as written, its value still with references. -/
structure RawAttribute where
  key : List Char
  value : List Char
  deriving DecidableEq, Repr

/-- Why an attribute cannot be read; offsets count from the tag's name. -/
inductive AttributeError where
  /-- Something other than an equals sign follows the key. -/
  | expectedEquals (offset : Nat)
  | expectedValue (offset : Nat)
  /-- The value does not start with a quote. -/
  | unquotedValue (offset : Nat)
  | expectedQuote (offset : Nat) (quote : Char)
  | duplicated (offset previous : Nat)
  /-- A reference in the value cannot be read. -/
  | reference (error : ReferenceError)
  deriving DecidableEq, Repr

def AttributeError.message : AttributeError → String
  | .expectedEquals offset =>
      "position " ++ toString offset ++
        ": attribute key must be directly followed by `=` or space"
  | .expectedValue offset =>
      "position " ++ toString offset ++ ": `=` must be followed by an attribute value"
  | .unquotedValue offset =>
      "position " ++ toString offset ++
        ": attribute value must be enclosed in `\"` or `'`"
  | .expectedQuote offset quote =>
      "position " ++ toString offset ++ ": missing closing quote `" ++
        String.singleton quote ++ "` in attribute value"
  | .duplicated offset previous =>
      "position " ++ toString offset ++
        ": duplicated attribute, previous declaration at position " ++
        toString previous
  | .reference error => error.message

/-- Keys with the offsets at which they were first read. -/
abbrev SeenKeys := List (List Char × Nat)

/-- What stands at the front of the attributes of a tag, with the keys that
are seen behind it and the text from which to go on. -/
inductive AttributeStep where
  | done
  | found (raw : RawAttribute) (seen : SeenKeys) (rest : List Char)
  | fault (error : AttributeError) (seen : SeenKeys) (rest : List Char)

/-- Reads a quoted value whose opening quote was taken; `stop` is the offset
of the end of the tag. -/
def quotedValue (stop : Nat) (key : List Char) (seen : SeenKeys) (quote : Char)
    (text : List Char) : AttributeStep :=
  match text.dropWhile (· != quote) with
  | [] => .fault (.expectedQuote stop quote) seen []
  | _ :: rest => .found ⟨key, text.takeWhile (· != quote)⟩ seen rest

def attributeValue (stop : Nat) (key : List Char) (seen : SeenKeys)
    (text : List Char) : AttributeStep :=
  match text.dropWhile isMarkupBlank with
  | [] => .fault (.expectedValue stop) seen []
  | '"' :: rest => quotedValue stop key seen '"' rest
  | '\'' :: rest => quotedValue stop key seen '\'' rest
  | unquoted =>
      .fault (.unquotedValue (stop - byteSize unquoted)) seen
        (unquoted.dropWhile (!isMarkupBlank ·))

/-- A key runs up to an equals sign or a blank. -/
def isKeyChar (c : Char) : Bool :=
  c != '=' && !isMarkupBlank c

/-- Reads one attribute from the front of a text that ends at offset `stop`
of its tag.  After a repeated key the reading goes on at the next blank
behind the equals sign. -/
def nextAttribute (stop : Nat) (seen : SeenKeys) (text : List Char) : AttributeStep :=
  match text.dropWhile isMarkupBlank with
  | [] => .done
  | start :: behind =>
      let key := start :: behind.takeWhile isKeyChar
      let offset := stop - byteSize (start :: behind)
      match (behind.dropWhile isKeyChar).dropWhile isMarkupBlank with
      | '=' :: rest =>
          match seen.find? (·.1 == key) with
          | some (_, previous) =>
              .fault (.duplicated offset previous) seen
                (rest.dropWhile (!isMarkupBlank ·))
          | none => attributeValue stop key ((key, offset) :: seen) rest
      | other => .fault (.expectedEquals (stop - byteSize other)) seen other

theorem length_dropWhile_le {test : Char → Bool} (text : List Char) :
    (text.dropWhile test).length ≤ text.length :=
  (List.dropWhile_suffix test).length_le

def AttributeStep.Shortens (text : List Char) : AttributeStep → Prop
  | .done => True
  | .found _ _ rest => rest.length < text.length
  | .fault _ _ rest => rest.length < text.length

theorem quotedValue_shortens (stop : Nat) (key : List Char) (seen : SeenKeys) (quote : Char)
    (value text : List Char) (shorter : value.length < text.length) :
    (quotedValue stop key seen quote value).Shortens text := by
  unfold quotedValue
  have bound : (value.dropWhile (· != quote)).length ≤ value.length :=
    length_dropWhile_le value
  split
  · simp only [AttributeStep.Shortens, List.length_nil]
    omega
  · next rest found =>
      rw [found] at bound
      simp only [List.length_cons] at bound
      simp only [AttributeStep.Shortens]
      omega

theorem attributeValue_shortens (stop : Nat) (key : List Char) (seen : SeenKeys)
    (value text : List Char) (shorter : value.length < text.length) :
    (attributeValue stop key seen value).Shortens text := by
  unfold attributeValue
  have bound : (value.dropWhile isMarkupBlank).length ≤ value.length :=
    length_dropWhile_le value
  split
  · simp only [AttributeStep.Shortens, List.length_nil]
    omega
  · next rest found =>
      rw [found] at bound
      simp only [List.length_cons] at bound
      exact quotedValue_shortens _ _ _ _ _ _ (by omega)
  · next rest found =>
      rw [found] at bound
      simp only [List.length_cons] at bound
      exact quotedValue_shortens _ _ _ _ _ _ (by omega)
  · have again : ((value.dropWhile isMarkupBlank).dropWhile (!isMarkupBlank ·)).length ≤
        (value.dropWhile isMarkupBlank).length :=
      length_dropWhile_le _
    simp only [AttributeStep.Shortens]
    omega

theorem nextAttribute_shortens (stop : Nat) (seen : SeenKeys) (text : List Char) :
    (nextAttribute stop seen text).Shortens text := by
  unfold nextAttribute
  have bound : (text.dropWhile isMarkupBlank).length ≤ text.length :=
    length_dropWhile_le text
  split
  · trivial
  · next start behind found =>
      rw [found] at bound
      simp only [List.length_cons] at bound
      have behindKey : (behind.dropWhile isKeyChar).length ≤ behind.length :=
        length_dropWhile_le behind
      have behindBlanks :
          ((behind.dropWhile isKeyChar).dropWhile isMarkupBlank).length ≤
            (behind.dropWhile isKeyChar).length :=
        length_dropWhile_le _
      simp only
      split
      · next rest equals =>
          rw [equals] at behindBlanks
          simp only [List.length_cons] at behindBlanks
          split
          · have skipped : (rest.dropWhile (!isMarkupBlank ·)).length ≤ rest.length :=
              length_dropWhile_le rest
            simp only [AttributeStep.Shortens]
            omega
          · exact attributeValue_shortens _ _ _ _ _ (by omega)
      · simp only [AttributeStep.Shortens]
        omega

/-- The attributes of a text that ends at offset `stop` of its tag, each
read or faulty. -/
def attributesFrom (stop : Nat) (seen : SeenKeys) (text : List Char) :
    List (Except AttributeError RawAttribute) :=
  match _step : nextAttribute stop seen text with
  | .done => []
  | .found raw known rest => .ok raw :: attributesFrom stop known rest
  | .fault error known rest => .error error :: attributesFrom stop known rest
termination_by text.length
decreasing_by
  · have shortens := nextAttribute_shortens stop seen text
    rw [_step] at shortens
    exact shortens
  · have shortens := nextAttribute_shortens stop seen text
    rw [_step] at shortens
    exact shortens

/-- The attributes of a tag as written, each read or faulty. -/
def Tag.rawAttributes (tag : Tag) : List (Except AttributeError RawAttribute) :=
  attributesFrom (byteSize tag.content) [] tag.attributeText

/-- An attribute with its references resolved. -/
structure Attribute where
  key : String
  value : String
  deriving DecidableEq, Repr

def RawAttribute.resolve (raw : RawAttribute) : Except AttributeError Attribute := do
  let value ← (unescape raw.value).mapError .reference
  .ok ⟨String.ofList raw.key, String.ofList value⟩

/-- All attributes of a tag, or the first fault among them. -/
def Tag.attributes (tag : Tag) : Except AttributeError (List Attribute) :=
  tag.rawAttributes.mapM fun read => do
    let raw ← read
    raw.resolve

def attribute? (attributes : List Attribute) (key : String) : Option String :=
  (attributes.find? (·.key == key)).map (·.value)

end CatalogServer.Xml
