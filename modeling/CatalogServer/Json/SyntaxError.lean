/-!
# Errors in relaxed JSON

A text that is no relaxed JSON has one problem, the first one that a reader
meets.  While a text is read, a place in it is the text from there on; the
error that is reported names the line and the column.
-/

namespace CatalogServer.Json

/-- Why a text is not relaxed JSON. -/
inductive SyntaxProblem where
  | unexpectedToken
  | unterminatedComment
  | unterminatedString
  /-- A double quote is escaped between single quotes. -/
  | escapedDoubleQuote
  /-- A single quote is escaped between double quotes. -/
  | escapedSingleQuote
  | invalidEscape
  /-- A code point escape with fewer than four digits. -/
  | shortCodePoint
  /-- A code point escape that stands for no character. -/
  | invalidCodePoint (digits : List Char)
  /-- A number without a digit where one is needed. -/
  | missingDigit
  | missingNumber
  /-- The mark of an exponent without the exponent. -/
  | missingExponent
  | unexpectedCloseBrace
  | unexpectedCloseBracket
  | unexpectedColon
  | unexpectedComma
  | unexpectedWord
  | missingKey
  | missingColon
  | missingValue
  | unterminatedArray
  | unterminatedObject
  | multipleValues
  deriving DecidableEq, Repr

def SyntaxProblem.message : SyntaxProblem → String
  | .unexpectedToken => "Unexpected token"
  | .unterminatedComment => "Unterminated comment block"
  | .unterminatedString => "Unterminated string literal"
  | .escapedDoubleQuote => "Invalid escape in single quote string"
  | .escapedSingleQuote => "Invalid escape in double quote string"
  | .invalidEscape => "Invalid escape"
  | .shortCodePoint => "Expected four hex digits"
  | .invalidCodePoint digits =>
      "Invalid unicode escape sequence. '" ++ String.ofList digits ++
        "' is not a valid UTF8 character"
  | .missingDigit => "Expected digit"
  | .missingNumber => "Expected digit following negative sign"
  | .missingExponent => "Expected plus, minus, or digit in number literal"
  | .unexpectedCloseBrace => "Unexpected close brace"
  | .unexpectedCloseBracket => "Unexpected close bracket"
  | .unexpectedColon => "Unexpected colon"
  | .unexpectedComma => "Unexpected comma"
  | .unexpectedWord => "Unexpected word"
  | .missingKey => "Unexpected token in object"
  | .missingColon => "Expected colon after the string or word in object property"
  | .missingValue => "Expected value after colon in object property"
  | .unterminatedArray => "Unterminated array"
  | .unterminatedObject => "Unterminated object"
  | .multipleValues => "Text cannot contain more than one JSON value"

/-- A problem and the text from its place on. -/
structure Fault where
  problem : SyntaxProblem
  /-- The text from the place of the problem on. -/
  place : List Char
  deriving DecidableEq, Repr

/-- Why and where a text is not relaxed JSON. -/
structure SyntaxError where
  problem : SyntaxProblem
  line : Nat
  /-- Number of the character in its line, from one. -/
  column : Nat
  deriving DecidableEq, Repr

def SyntaxError.message (error : SyntaxError) : String :=
  error.problem.message ++ " on line " ++ toString error.line ++ " column " ++
    toString error.column

/-- The error that a fault of a text is. -/
def Fault.errorIn (text : List Char) (fault : Fault) : SyntaxError :=
  let before := text.take (text.length - fault.place.length)
  { problem := fault.problem
    line := before.count '\n' + 1
    column := (before.reverse.takeWhile (· != '\n')).length + 1 }

end CatalogServer.Json
