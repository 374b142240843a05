import CatalogServer.Json.Basic
import CatalogServer.Json.Token

/-!
# Reading relaxed JSON

The tokens of a text are taken one by one; the reader holds the lists and
members that wait for a value, innermost first.  Commas between items may be
left out and one may follow the last item, but two commas in a row, or one
in front of the first item, are refused.
-/

namespace CatalogServer.Json

/-- A list or member that waits for a value inside it.  The text from the
opening bracket or brace on tells where the list or object started. -/
inductive Holder where
  /-- A list with the items before the value, the last one first. -/
  | array (opening : List Char) (items : List Json)
  /-- A member of an object with the members before it. -/
  | member (opening : List Char) (members : List (String × Json)) (key : String)

/-- What was read so far, with what is open around it, innermost first. -/
inductive ReadState where
  | start
  /-- Items of a list, the last one first; `behindItem` tells that a comma may
  come. -/
  | inArray (opening : List Char) (items : List Json) (behindItem : Bool)
      (outer : List Holder)
  /-- Members of an object; `behindItem` tells that a comma may come. -/
  | inObject (opening : List Char) (members : List (String × Json)) (behindItem : Bool)
      (outer : List Holder)
  | behindKey (opening : List Char) (members : List (String × Json)) (key : String)
      (outer : List Holder)
  /-- A key and its colon, so that the value comes next. -/
  | behindColon (opening : List Char) (members : List (String × Json)) (key : String)
      (outer : List Holder)
  | done (value : Json)

/-- The sign, digits and exponent of a decimal literal, and whether it is
written as an integer. -/
structure DecimalLiteral where
  negative : Bool
  digits : Nat
  /-- The power of ten they are multiplied with. -/
  exponent : Int
  integral : Bool

def decimalValue (digits : List Char) : Nat :=
  digits.foldl (fun value c => value * 10 + (c.toNat - '0'.toNat)) 0

def decimalLiteral (negative : Bool) (text : List Char) : DecimalLiteral :=
  let whole := text.takeWhile Char.isDigit
  let behindWhole := text.dropWhile Char.isDigit
  let (fraction, behindFraction) :=
    match behindWhole with
    | '.' :: rest => (rest.takeWhile Char.isDigit, rest.dropWhile Char.isDigit)
    | rest => ([], rest)
  let exponent : Int :=
    match behindFraction.drop 1 with
    | '-' :: digits => -(decimalValue digits : Int)
    | '+' :: digits => decimalValue digits
    | digits => decimalValue digits
  ⟨negative, decimalValue (whole ++ fraction), exponent - fraction.length, behindWhole.isEmpty⟩

/-- The value of a number as written.  Hexadecimal numbers of more than
sixty-three bits and reals that are too large stay text. -/
def ofNumberLiteral (literal : List Char) : Json :=
  let (negative, unsigned) :=
    match literal with
    | '-' :: rest => (true, rest)
    | '+' :: rest => (false, rest)
    | rest => (false, rest)
  match unsigned with
  | '0' :: mark :: digits =>
      if mark == 'x' || mark == 'X' then
        match Text.readNumeral 16 0x7FFFFFFFFFFFFFFF digits with
        | .ok value => ofInt (if negative then -value else value)
        | .error _ => .string (String.ofList literal)
      else
        decimal negative unsigned
  | _ => decimal negative unsigned
where
  decimal (negative : Bool) (unsigned : List Char) : Json :=
    let parts := decimalLiteral negative unsigned
    match Number.ofLiteral? parts.negative parts.digits parts.exponent parts.integral with
    | some value => .number value
    | none => .string (String.ofList (if negative then '-' :: unsigned else unsigned))

/-- Puts a complete value into the innermost list or member that waits for
one. -/
def ReadState.deliver (value : Json) : List Holder → ReadState
  | [] => .done value
  | .array opening items :: outer => .inArray opening (value :: items) true outer
  | .member opening members key :: outer =>
      .inObject opening (insertMember key value members) true outer

def Token.key? : Token → Option String
  | .string value => some value
  | .word value => some value
  | .number literal => some (String.ofList literal)
  | _ => none

/-- Takes the first token of a value that the given lists and members wait
for. -/
def Token.startValue (place : List Char) (outer : List Holder) :
    Token → Except Fault ReadState
  | .openBrace => .ok (.inObject place [] false outer)
  | .openBracket => .ok (.inArray place [] false outer)
  | .string value => .ok (ReadState.deliver (.string value) outer)
  | .number literal => .ok (ReadState.deliver (ofNumberLiteral literal) outer)
  | .bool value => .ok (ReadState.deliver (.bool value) outer)
  | .null => .ok (ReadState.deliver .null outer)
  | .closeBrace => .error ⟨.unexpectedCloseBrace, place⟩
  | .closeBracket => .error ⟨.unexpectedCloseBracket, place⟩
  | .comma => .error ⟨.unexpectedComma, place⟩
  | .colon => .error ⟨.unexpectedColon, place⟩
  | .word _ => .error ⟨.unexpectedWord, place⟩

def ReadState.step (token : Token) (place : List Char) : ReadState → Except Fault ReadState
  | .start => token.startValue place []
  | .inArray opening items behindItem outer =>
      match token, behindItem with
      | .closeBracket, _ => .ok (deliver (.array items.reverse) outer)
      | .comma, true => .ok (.inArray opening items false outer)
      | _, _ => token.startValue place (.array opening items :: outer)
  | .inObject opening members behindItem outer =>
      match token, behindItem with
      | .closeBrace, _ => .ok (deliver (.object members) outer)
      | .comma, true => .ok (.inObject opening members false outer)
      | _, _ =>
          match token.key? with
          | some key => .ok (.behindKey opening members key outer)
          | none => .error ⟨.missingKey, place⟩
  | .behindKey opening members key outer =>
      match token with
      | .colon => .ok (.behindColon opening members key outer)
      | _ => .error ⟨.missingColon, place⟩
  | .behindColon opening members key outer =>
      token.startValue place (.member opening members key :: outer)
  | .done _ => .error ⟨.multipleValues, place⟩

def ReadState.finish : ReadState → Except Fault (Option Json)
  | .start => .ok none
  | .inArray opening _ _ _ => .error ⟨.unterminatedArray, opening⟩
  | .inObject opening _ _ _ => .error ⟨.unterminatedObject, opening⟩
  | .behindKey _ _ _ _ => .error ⟨.missingColon, []⟩
  | .behindColon _ _ _ _ => .error ⟨.missingValue, []⟩
  | .done value => .ok (some value)

def ReadState.run : ReadState → Tokens → Except Fault (Option Json)
  | state, .finish => state.finish
  | _, .broken fault => .error fault
  | state, .next token place behind => do
      let state ← state.step token place
      state.run behind

/-- Reads the value of a text in relaxed JSON, or none when there are only
blanks and comments. -/
def read (text : String) : Except SyntaxError (Option Json) :=
  (ReadState.start.run (tokens text.toList)).mapError (Fault.errorIn text.toList)

end CatalogServer.Json
