import CatalogServer.Json.SyntaxError
import CatalogServer.Text.Alphanumeric
import CatalogServer.Text.Blank
import CatalogServer.Text.Numeral

/-!
# Tokens of relaxed JSON

Settings files are JSON with a few liberties: comments, strings in single
quotes, line ends in strings, bare words as keys, hexadecimal numbers and a
leading plus sign.  This file splits such a text into tokens.
-/

namespace CatalogServer.Json

open Text

/-- A token of relaxed JSON. -/
inductive Token where
  | openBrace
  | closeBrace
  | openBracket
  | closeBracket
  | comma
  | colon
  | string (value : String)
  | number (literal : List Char)
  | bool (value : Bool)
  | null
  | word (value : String)
  deriving DecidableEq, Repr

abbrev Scanned := Token × List Char

def isWordChar (c : Char) : Bool :=
  isAlphanumeric c || c == '-' || c == '_'

def isHexDigit (c : Char) : Bool :=
  (digitValue? 16 c).isSome

/-- Text behind a block comment whose opening was taken. -/
def skipBlockComment : List Char → Option (List Char)
  | [] => none
  | '*' :: '/' :: rest => some rest
  | _ :: rest => skipBlockComment rest

def fourHexDigits? : List Char → Option (List Char × List Char)
  | a :: b :: c :: d :: rest =>
      if [a, b, c, d].all isHexDigit then some ([a, b, c, d], rest) else none
  | _ => none

def hexValue (digits : List Char) : Nat :=
  digits.foldl (fun value c => value * 16 + (digitValue? 16 c).getD 0) 0

/-- The character of a code point escape, with the text behind it.  A high
surrogate needs a low one in a second escape. -/
def unicodeEscape (text : List Char) : Except SyntaxProblem (Char × List Char) :=
  match fourHexDigits? text with
  | none => .error .shortCodePoint
  | some (digits, rest) =>
      let unit := hexValue digits
      if 0xD800 ≤ unit && unit < 0xDC00 then
        match rest with
        | '\\' :: 'u' :: more =>
            match fourHexDigits? more with
            | none => .error .shortCodePoint
            | some (lowDigits, after) =>
                let low := hexValue lowDigits
                if 0xDC00 ≤ low && low < 0xE000 then
                  toChar digits (0x10000 + (unit - 0xD800) * 0x400 + (low - 0xDC00)) after
                else
                  .error (.invalidCodePoint digits)
        | _ => .error (.invalidCodePoint digits)
      else
        toChar digits unit rest
where
  toChar (digits : List Char) (code : Nat) (rest : List Char) :
      Except SyntaxProblem (Char × List Char) :=
    match charOfCode? code with
    | some c => .ok (c, rest)
    | none => .error (.invalidCodePoint digits)

/-- The character of a one-letter escape in a string with the given quotes. -/
def simpleEscape (quote c : Char) : Except SyntaxProblem Char :=
  if c == quote || c == '\\' || c == '/' then .ok c
  else if c == 'b' then .ok '\x08'
  else if c == 'f' then .ok '\x0c'
  else if c == 'n' then .ok '\n'
  else if c == 'r' then .ok '\r'
  else if c == 't' then .ok '\t'
  else if c == '"' then .error .escapedDoubleQuote
  else if c == '\'' then .error .escapedSingleQuote
  else .error .invalidEscape

theorem length_fourHexDigits {text digits rest : List Char}
    (found : fourHexDigits? text = some (digits, rest)) :
    rest.length < text.length := by
  unfold fourHexDigits? at found
  split at found
  · split at found
    · simp only [Option.some.injEq, Prod.mk.injEq] at found
      rw [found.2]
      simp only [List.length_cons]
      omega
    · simp at found
  · simp at found

theorem unicodeEscape.rest_of_toChar {digits rest after : List Char} {code : Nat} {c : Char}
    (found : unicodeEscape.toChar digits code rest = .ok (c, after)) :
    after = rest := by
  unfold unicodeEscape.toChar at found
  split at found
  · simp only [Except.ok.injEq, Prod.mk.injEq] at found
    exact found.2.symm
  · simp at found

theorem length_unicodeEscape {text rest : List Char} {c : Char}
    (found : unicodeEscape text = .ok (c, rest)) :
    rest.length < text.length := by
  unfold unicodeEscape at found
  split at found
  · simp at found
  · next digits after first =>
    have firstShorter := length_fourHexDigits first
    simp only at found
    split at found
    · split at found
      · split at found
        · simp at found
        · next lowDigits behind second =>
          have secondShorter := length_fourHexDigits second
          simp only [List.length_cons] at firstShorter
          split at found
          · rw [unicodeEscape.rest_of_toChar found]
            omega
          · simp at found
      · simp at found
    · rw [unicodeEscape.rest_of_toChar found]
      exact firstShorter

/-- The rest of a string whose opening quote was taken; `opening` is the text
from that quote on. -/
def scanString (quote : Char) (opening text : List Char) :
    Except Fault (List Char × List Char) :=
  match text with
  | [] => .error ⟨.unterminatedString, opening⟩
  | '\\' :: 'u' :: rest =>
      match _escape : unicodeEscape rest with
      | .error problem => .error ⟨problem, '\\' :: 'u' :: rest⟩
      | .ok (c, after) => do
          let (value, behind) ← scanString quote opening after
          .ok (c :: value, behind)
  | '\\' :: c :: rest =>
      match simpleEscape quote c with
      | .error problem => .error ⟨problem, '\\' :: c :: rest⟩
      | .ok c => do
          let (value, behind) ← scanString quote opening rest
          .ok (c :: value, behind)
  | c :: rest =>
      if c == quote then
        .ok ([], rest)
      else do
        let (value, behind) ← scanString quote opening rest
        .ok (c :: value, behind)
termination_by text.length
decreasing_by
  · have shorter := length_unicodeEscape _escape
    simp only [List.length_cons]
    omega
  all_goals
    simp only [List.length_cons]
    omega

/-- Cuts a run of decimal digits off, which must not be empty. -/
def takeDigits (problem : SyntaxProblem) (text : List Char) :
    Except Fault (List Char × List Char) :=
  match text.takeWhile Char.isDigit with
  | [] => .error ⟨problem, text⟩
  | digits => .ok (digits, text.dropWhile Char.isDigit)

/-- Cuts the fraction of a number off, if it has one. -/
def takeFraction : List Char → Except Fault (List Char × List Char)
  | '.' :: rest => do
      let (digits, after) ← takeDigits .missingDigit rest
      .ok ('.' :: digits, after)
  | text => .ok ([], text)

/-- Cuts the exponent of a number off, if it has one. -/
def takeExponent : List Char → Except Fault (List Char × List Char)
  | [] => .ok ([], [])
  | mark :: rest =>
      if mark == 'e' || mark == 'E' then
        match rest with
        | '-' :: digits => do
            let (taken, after) ← takeDigits .missingDigit digits
            .ok (mark :: '-' :: taken, after)
        | '+' :: digits => do
            let (taken, after) ← takeDigits .missingDigit digits
            .ok (mark :: '+' :: taken, after)
        | digits => do
            let (taken, after) ← takeDigits .missingExponent digits
            .ok (mark :: taken, after)
      else
        .ok ([], mark :: rest)

/-- Cuts a number without sign off.  A zero has no further digits in front
of the point. -/
def scanUnsigned (text : List Char) : Except Fault (List Char × List Char) :=
  match text with
  | '0' :: mark :: rest =>
      if mark == 'x' || mark == 'X' then
        match rest.takeWhile isHexDigit with
        | [] => .error ⟨.missingDigit, rest⟩
        | digits => .ok ('0' :: mark :: digits, rest.dropWhile isHexDigit)
      else do
        let (fraction, afterFraction) ← takeFraction (mark :: rest)
        let (exponent, after) ← takeExponent afterFraction
        .ok ('0' :: fraction ++ exponent, after)
  | ['0'] => .ok (['0'], [])
  | _ => do
      let (whole, afterWhole) ← takeDigits .missingNumber text
      let (fraction, afterFraction) ← takeFraction afterWhole
      let (exponent, after) ← takeExponent afterFraction
      .ok (whole ++ fraction ++ exponent, after)

def scanNumber : List Char → Except Fault (List Char × List Char)
  | '-' :: rest => do
      let (taken, after) ← scanUnsigned rest
      .ok ('-' :: taken, after)
  | '+' :: rest => do
      let (taken, after) ← scanUnsigned rest
      .ok ('+' :: taken, after)
  | text => scanUnsigned text

/-- Cuts a word off, which ends at a blank or a colon. -/
def scanWord (text : List Char) : Except Fault (List Char × List Char) :=
  let endsWord := fun c => isBlank c || c == ':'
  let word := text.takeWhile (!endsWord ·)
  if word.isEmpty || !word.all isWordChar then .error ⟨.unexpectedToken, text⟩
  else .ok (word, text.dropWhile (!endsWord ·))

/-- Cuts a keyword off when no word character follows it. -/
def keyword? (name : String) (text : List Char) : Option (List Char) :=
  if name.toList.isPrefixOf text then
    let rest := text.drop name.length
    if rest.head?.any isWordChar then none else some rest
  else
    none

/-- The token at the front of a text that starts with neither a blank nor a
comment. -/
def scanToken (text : List Char) : Except Fault Scanned :=
  match text with
  | '\x7b' :: rest => .ok (.openBrace, rest)
  | '\x7d' :: rest => .ok (.closeBrace, rest)
  | '[' :: rest => .ok (.openBracket, rest)
  | ']' :: rest => .ok (.closeBracket, rest)
  | ',' :: rest => .ok (.comma, rest)
  | ':' :: rest => .ok (.colon, rest)
  | '"' :: rest =>
      (scanString '"' text rest).map fun (value, after) =>
        (.string (String.ofList value), after)
  | '\'' :: rest =>
      (scanString '\'' text rest).map fun (value, after) =>
        (.string (String.ofList value), after)
  | _ =>
      if text.head?.any fun c => c == '-' || c == '+' || c.isDigit then
        (scanNumber text).map fun (literal, after) => (.number literal, after)
      else if let some rest := keyword? "true" text then
        .ok (.bool true, rest)
      else if let some rest := keyword? "false" text then
        .ok (.bool false, rest)
      else if let some rest := keyword? "null" text then
        .ok (.null, rest)
      else
        (scanWord text).map fun (word, after) => (.word (String.ofList word), after)

/-- The tokens of a text up to its end or its first fault. -/
inductive Tokens where
  | finish
  | broken (fault : Fault)
  /-- A token, the text from it on and the tokens behind it. -/
  | next (token : Token) (place : List Char) (behind : Tokens)

/-- The tokens of a text, with fuel for one step per character. -/
def tokensFrom : (fuel : Nat) → List Char → Tokens
  | 0, _ => .finish
  | _ + 1, [] => .finish
  | fuel + 1, '/' :: '/' :: rest => tokensFrom fuel (rest.dropWhile (· != '\n'))
  | fuel + 1, '/' :: '*' :: rest =>
      match skipBlockComment rest with
      | none => .broken ⟨.unterminatedComment, '/' :: '*' :: rest⟩
      | some after => tokensFrom fuel after
  | fuel + 1, c :: rest =>
      if isBlank c then
        tokensFrom fuel rest
      else
        match scanToken (c :: rest) with
        | .error fault => .broken fault
        | .ok (token, after) => .next token (c :: rest) (tokensFrom fuel after)

/-- The tokens of a text.  Every step takes at least one character, so one
step per character is enough. -/
def tokens (text : List Char) : Tokens :=
  tokensFrom (text.length + 1) text

end CatalogServer.Json
