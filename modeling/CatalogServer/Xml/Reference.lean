import CatalogServer.Text.Numeral
import CatalogServer.Text.Utf8

/-!
# References

Character data and attribute values write markup characters as references:
an ampersand, the name of a predefined entity or a number sign with a
character code, and a semicolon.  Nothing else is changed: blanks and line
ends stay as they are.
-/

namespace CatalogServer.Xml

open Text

/-- Why a numeric character reference is refused. -/
inductive CharacterCodeError where
  | signed
  | numeral (error : NumeralError)
  | notScalar (code : Nat)
  | null
  deriving DecidableEq, Repr

def CharacterCodeError.message : CharacterCodeError → String
  | .signed => "unexpected number sign"
  | .numeral error => error.message
  | .notScalar code => "`" ++ toString code ++ "` is not a valid codepoint"
  | .null => "0x0 character is not permitted in XML"

/-- Why a text with references cannot be read. -/
inductive ReferenceError where
  /-- An ampersand without its semicolon; the offsets are those of the
  ampersand and of the end of the text. -/
  | unterminated (start stop : Nat)
  /-- No predefined entity has this name; the offsets are those of the name. -/
  | unknownEntity (start stop : Nat) (name : String)
  /-- The number of a character reference is refused. -/
  | badCode (error : CharacterCodeError)
  deriving DecidableEq, Repr

def ReferenceError.message : ReferenceError → String
  | .unterminated start stop =>
      "Error while escaping character at range " ++ toString start ++ ".." ++
        toString stop ++ ": Cannot find ';' after '&'"
  | .unknownEntity start stop name =>
      "at " ++ toString start ++ ".." ++ toString stop ++
        ": unrecognized entity `" ++ name ++ "`"
  | .badCode error => "invalid character reference: " ++ error.message

def predefinedEntity? (name : List Char) : Option Char :=
  if name == "lt".toList then some '<'
  else if name == "gt".toList then some '>'
  else if name == "amp".toList then some '&'
  else if name == "apos".toList then some '\''
  else if name == "quot".toList then some '"'
  else none

/-- The character with the code written behind the number sign: decimal, or
hexadecimal behind a small `x`.  A sign is not allowed. -/
def characterOfCode (digits : List Char) : Except CharacterCodeError Char := do
  let (base, digits) :=
    match digits with
    | 'x' :: rest => (16, rest)
    | _ => (10, digits)
  let code ←
    match digits with
    | '+' :: _ => .error .signed
    | '-' :: _ => .error .signed
    | _ => (readNumeral base maxWord32 digits).mapError .numeral
  if code == 0 then
    .error .null
  else
    match charOfCode? code with
    | some c => .ok c
    | none => .error (.notScalar code)

/-- The character that a reference stands for, given what is written between
the ampersand, at byte offset `start`, and the semicolon. -/
def resolveReference (start : Nat) (body : List Char) : Except ReferenceError Char :=
  match body with
  | '#' :: digits => (characterOfCode digits).mapError .badCode
  | name =>
      match predefinedEntity? name with
      | some c => .ok c
      | none =>
          .error (.unknownEntity (start + 1) (start + 1 + byteSize name) (String.ofList name))

/-- Cuts the body of a reference off at its semicolon, which must come
before the next ampersand. -/
def splitReference : List Char → Option (List Char × List Char)
  | [] => none
  | c :: rest =>
      if c == ';' then
        some ([], rest)
      else if c == '&' then
        none
      else
        (splitReference rest).map fun (body, after) => (c :: body, after)

theorem eq_of_splitReference {text body after : List Char}
    (split : splitReference text = some (body, after)) :
    text = body ++ ';' :: after := by
  induction text generalizing body with
  | nil => simp [splitReference] at split
  | cons c rest ih =>
      simp only [splitReference] at split
      split at split
      case isTrue ends =>
        simp only [Option.some.injEq, Prod.mk.injEq] at split
        obtain ⟨rfl, rfl⟩ := split
        simp [eq_of_beq ends]
      case isFalse =>
        split at split
        · simp at split
        · simp only [Option.map_eq_some_iff, Prod.mk.injEq, Prod.exists] at split
          obtain ⟨body', after', found, rfl, rfl⟩ := split
          simp [ih found]

/-- Resolves the references of a text that begins at a byte offset. -/
def unescapeFrom (offset : Nat) (text : List Char) : Except ReferenceError (List Char) :=
  match text with
  | [] => .ok []
  | c :: rest =>
      if c == '&' then
        match split : splitReference rest with
        | none => .error (.unterminated offset (offset + byteSize (c :: rest)))
        | some (body, after) => do
            let character ← resolveReference offset body
            let resolved ← unescapeFrom (offset + 1 + byteSize body + 1) after
            .ok (character :: resolved)
      else do
        let resolved ← unescapeFrom (offset + c.utf8Size) rest
        .ok (c :: resolved)
termination_by text.length
decreasing_by
  · have whole := eq_of_splitReference split
    simp only [whole, List.length_append, List.length_cons]
    omega
  · simp only [List.length_cons]
    omega

def unescape (text : List Char) : Except ReferenceError (List Char) :=
  unescapeFrom 0 text

end CatalogServer.Xml
