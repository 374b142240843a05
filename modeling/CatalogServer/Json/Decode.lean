import CatalogServer.Json.Basic
import CatalogServer.Text.Quoted

/-!
# Decoding JSON values

Records, lists and choices are decoded from JSON values.  A record is given
as an object or as the list of its members; members that are not given keep
the value they have in the record that decoding starts from, and members
that are not known are passed over.  Decoding stops at the first value that
does not fit, in the order in which the values are met.
-/

namespace CatalogServer.Json

/-- The integers that a place can hold. -/
structure IntegerKind where
  name : String
  low : Int
  high : Int
  deriving DecidableEq, Repr

namespace IntegerKind

def size : IntegerKind := ⟨"usize", 0, maxInteger⟩

def word32 : IntegerKind := ⟨"u32", 0, 0xFFFFFFFF⟩

def signed32 : IntegerKind := ⟨"i32", -0x80000000, 0x7FFFFFFF⟩

end IntegerKind

/-- What a value must be. -/
inductive Expectation where
  | record (name : String)
  | sequence
  | map
  | text
  | truth
  | integer (kind : IntegerKind)
  | choice
  | singleMember
  | nothing
  | address
  deriving DecidableEq, Repr

def Expectation.describe : Expectation → String
  | .record name => "struct " ++ name
  | .sequence => "a sequence"
  | .map => "a map"
  | .text => "a string"
  | .truth => "a boolean"
  | .integer kind => kind.name
  | .choice => "string or map"
  | .singleMember => "map with a single key"
  | .nothing => "unit"
  | .address => "a string representing an URL"

def describe : Json → String
  | .null => "null"
  | .bool true => "boolean `true`"
  | .bool false => "boolean `false`"
  | .number (.integer value) => "integer `" ++ toString value ++ "`"
  | .number (.real spelling) => "floating point `" ++ spelling ++ "`"
  | .string value => "string " ++ Text.quoted value
  | .array _ => "sequence"
  | .object _ => "map"

/-- Why a value cannot be decoded. -/
inductive DecodeError where
  | wrongType (found : Json) (expected : Expectation)
  /-- The value is of the right type but not allowed. -/
  | wrongValue (found : Json) (expected : Expectation)
  /-- A list gives more members than a record has. -/
  | tooManyMembers (count : Nat)
  /-- A list gives fewer members than a record has. -/
  | tooFewMembers (count : Nat) (name : String) (members : Nat)
  /-- A record lacks a member that must be given. -/
  | missingMember (key : String)
  | unknownChoice (name : String) (choices : List String)
  /-- A text cannot be read as what it should be. -/
  | unreadable (reason : String)
  deriving Repr

def DecodeError.message : DecodeError → String
  | .wrongType found expected =>
      "invalid type: " ++ found.describe ++ ", expected " ++ expected.describe
  | .wrongValue found expected =>
      "invalid value: " ++ found.describe ++ ", expected " ++ expected.describe
  | .tooManyMembers count =>
      "invalid length " ++ toString count ++ ", expected fewer elements in array"
  | .tooFewMembers count name members =>
      "invalid length " ++ toString count ++ ", expected struct " ++ name ++ " with " ++
        toString members ++ (if members == 1 then " element" else " elements")
  | .missingMember key => "missing field `" ++ key ++ "`"
  | .unknownChoice name choices =>
      "unknown variant `" ++ name ++ "`, expected one of " ++
        ", ".intercalate (choices.map fun choice => "`" ++ choice ++ "`")
  | .unreadable reason => reason

abbrev Decoder (α : Type) := Json → Except DecodeError α

def asText : Decoder String
  | .string value => .ok value
  | other => .error (.wrongType other .text)

def asTruth : Decoder Bool
  | .bool value => .ok value
  | other => .error (.wrongType other .truth)

def asInteger (kind : IntegerKind) : Decoder Int
  | .number (.integer value) =>
      if kind.low ≤ value && value ≤ kind.high then .ok value
      else .error (.wrongValue (ofInt value) (.integer kind))
  | other => .error (.wrongType other (.integer kind))

def asSize : Decoder Nat
  | .number (.integer value) =>
      if 0 ≤ value then .ok value.toNat
      else .error (.wrongValue (ofInt value) (.integer .size))
  | other => .error (.wrongType other (.integer .size))

def asOptional {α : Type} (decode : Decoder α) : Decoder (Option α)
  | .null => .ok none
  | other => (decode other).map some

def asList {α : Type} (decode : Decoder α) : Decoder (List α)
  | .array items => items.mapM decode
  | other => .error (.wrongType other .sequence)

/-- The members of an object, each with its key decoded first. -/
def asEntries {κ α : Type} (key : String → Except DecodeError κ) (decode : Decoder α) :
    Decoder (List (κ × α))
  | .object members => members.mapM fun (name, value) => do
      let decodedKey ← key name
      let decodedValue ← decode value
      return (decodedKey, decodedValue)
  | other => .error (.wrongType other .map)

def choiceOf {α : Type} (ofName? : String → Option α) (choices : List String)
    (name : String) : Except DecodeError α :=
  match ofName? name with
  | some value => .ok value
  | none => .error (.unknownChoice name choices)

/-- A choice, given by its name or as an object whose only member has the
name as key and no value. -/
def asChoice {α : Type} (ofName? : String → Option α) (choices : List String) : Decoder α
  | .string name => choiceOf ofName? choices name
  | .object [(name, value)] => do
      let chosen ← choiceOf ofName? choices name
      match value with
      | .null => return chosen
      | other => throw (.wrongType other .nothing)
  | .object members => .error (.wrongValue (.object members) .singleMember)
  | other => .error (.wrongType other .choice)

/-- A member of a record: its key, and how its value changes the record. -/
structure Member (ρ : Type) where
  key : String
  /-- The record with the member decoded from a value. -/
  set : ρ → Json → Except DecodeError ρ

def setMembers {ρ : Type} (known : List (Member ρ)) (record : ρ) :
    List (String × Json) → Except DecodeError ρ
  | [] => .ok record
  | (key, value) :: rest => do
      let changed ←
        match known.find? (·.key == key) with
        | some known => known.set record value
        | none => pure record
      setMembers known changed rest

/-- Sets the members that a list gives in their order. -/
def setInOrder {ρ : Type} (record : ρ) : List (Member ρ) → List Json → Except DecodeError ρ
  | known :: others, value :: rest => do
      setInOrder (← known.set record value) others rest
  | _, _ => .ok record

/-- A record with the members of a value set. -/
def asRecord {ρ : Type} (name : String) (known : List (Member ρ)) (record : ρ) : Decoder ρ
  | .object members => setMembers known record members
  | .array items => do
      let decoded ← setInOrder record known items
      if known.length < items.length then throw (.tooManyMembers items.length)
      return decoded
  | other => .error (.wrongType other (.record name))

/-- The members that a value gives to a record with the given keys, none of
which a list may leave out. -/
def asMembers (name : String) (keys : List String) : Decoder (List (String × Json))
  | .object members => .ok members
  | .array items =>
      if keys.length < items.length then .error (.tooManyMembers items.length)
      else if items.length < keys.length then
        .error (.tooFewMembers items.length name keys.length)
      else .ok (keys.zip items)
  | other => .error (.wrongType other (.record name))

/-- The members of an object that is given for a record. -/
def asObject (name : String) : Decoder (List (String × Json))
  | .object members => .ok members
  | other => .error (.wrongType other (.record name))

/-- The decoded member with a key, if it is given. -/
def given {α : Type} (members : List (String × Json)) (key : String) (decode : Decoder α) :
    Except DecodeError (Option α) :=
  match members.lookup key with
  | some value => (decode value).map some
  | none => .ok none

/-- A member that may be left out or null. -/
def givenOptional {α : Type} (members : List (String × Json)) (key : String)
    (decode : Decoder α) : Except DecodeError (Option α) :=
  (given members key (asOptional decode)).map Option.join

def require {α : Type} (key : String) : Option α → Except DecodeError α
  | some value => .ok value
  | none => .error (.missingMember key)

end CatalogServer.Json
