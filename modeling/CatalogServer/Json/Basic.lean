import CatalogServer.Text.Binary64

/-!
# JSON values

Settings, requests and answers are JSON values.  The members of an object
are kept in the order of their keys, each key once, so equal objects are
equal values whatever the order in which they were written.
-/

namespace CatalogServer

inductive Json.Number where
  | integer (value : Int)
  /-- Any other number, by the shortest spelling that keeps its value. -/
  | real (spelling : String)
  deriving DecidableEq, Repr

inductive Json where
  | null
  | bool (value : Bool)
  | number (value : Json.Number)
  | string (value : String)
  | array (items : List Json)
  | object (members : List (String × Json))
  deriving Repr, Inhabited, BEq

namespace Json

/-- Sets the member with a key among members in the order of their keys. -/
def insertMember (key : String) (value : Json) :
    List (String × Json) → List (String × Json)
  | [] => [(key, value)]
  | (first, held) :: rest =>
      if key < first then (key, value) :: (first, held) :: rest
      else if key == first then (key, value) :: rest
      else (first, held) :: insertMember key value rest

/-- The object with the given members; of equal keys the last one counts. -/
def ofMembers (members : List (String × Json)) : Json :=
  .object (members.foldl (fun sorted (key, value) => insertMember key value sorted) [])

def ofInt (value : Int) : Json :=
  .number (.integer value)

def ofNat (value : Nat) : Json :=
  ofInt value

def ofOption {α : Type} (encode : α → Json) : Option α → Json
  | none => .null
  | some value => encode value

def ofList {α : Type} (encode : α → Json) (values : List α) : Json :=
  .array (values.map encode)

def member? (key : String) : Json → Option Json
  | .object members => members.lookup key
  | _ => none

def ofPresentMembers (members : List (String × Option Json)) : Json :=
  ofMembers (members.filterMap fun (key, value) => value.map (key, ·))

def maxInteger : Int := 0xFFFFFFFFFFFFFFFF

def minInteger : Int := -0x8000000000000000

/-- The number written with a sign, digits and an exponent; `integral` tells
that neither a point nor an exponent was written.  Integers of more than
sixty-four bits and the negative zero are kept as reals.  There is no number
for a real that is too large. -/
def Number.ofLiteral? (negative : Bool) (digits : Nat) (exponent : Int) (integral : Bool) :
    Option Number :=
  let value : Int := if negative then -digits else digits
  if integral && minInteger ≤ value && value ≤ maxInteger && !(negative && digits == 0) then
    some (.integer value)
  else
    (Text.spellReal? negative digits exponent).map .real

end Json

end CatalogServer
