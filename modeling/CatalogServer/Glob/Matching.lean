import CatalogServer.Glob.Reader
import CatalogServer.Text.Utf8

/-!
# Matching paths

A pattern is matched part by part.  Each part turns the set of rests of the
path behind the parts before it into the set of rests behind itself, so the
work is bounded by the length of the pattern and of the path.  The path
matches when one of the final rests is empty.
-/

namespace CatalogServer.Glob

open Text

abbrev Rest := List UInt8

def separator : UInt8 := 0x2F

abbrev ByteRange := UInt8 × UInt8

/-- The byte ranges of a range of characters.  A character of several bytes
stands for each of its bytes; in a range, the last byte of the first
character is joined with the first byte of the last one. -/
def byteRanges (range : Char × Char) : List ByteRange :=
  let single := fun byte => (byte, byte)
  let first := encode [range.1]
  let last := encode [range.2]
  if range.1 == range.2 then first.map single
  else
    match first.getLast?, last with
    | some low, high :: rest => first.dropLast.map single ++ (low, high) :: rest.map single
    | _, _ => []

def inRanges (ranges : List (Char × Char)) (byte : UInt8) : Bool :=
  (ranges.flatMap byteRanges).any fun (low, high) => low ≤ byte && byte ≤ high

/-- The rests that start at some byte of a rest, as long as the bytes before
it may be passed over; the whole rest is one of them. -/
def restsWhile (passes : UInt8 → Bool) : Rest → List Rest
  | [] => [[]]
  | byte :: rest => (byte :: rest) :: if passes byte then restsWhile passes rest else []

def restsBehindSeparators : Rest → List Rest
  | [] => []
  | byte :: rest =>
      if byte == separator then rest :: restsBehindSeparators rest
      else restsBehindSeparators rest

/-- The rest behind its first byte, if that byte is allowed. -/
def restBehind (allowed : UInt8 → Bool) : Rest → List Rest
  | [] => []
  | byte :: rest => if allowed byte then [rest] else []

/-- The rest behind the given bytes, if it starts with them. -/
def restBehindBytes (bytes : List UInt8) (rest : Rest) : List Rest :=
  if bytes.isPrefixOf rest then [rest.drop bytes.length] else []

/-- Adds a rest to rests of the same path; those of equal length are the
same. -/
def insertRest (rest : Rest) (rests : List Rest) : List Rest :=
  if rests.any (·.length == rest.length) then rests else rest :: rests

def distinctRests (rests : List Rest) : List Rest :=
  rests.foldr insertRest []

/-- How wildcards treat separators. -/
inductive SeparatorRule where
  | wild
  /-- Only a separator or a wildcard for folders matches a separator. -/
  | strict
  deriving DecidableEq, Repr

/-- A wildcard for bytes may stand for a byte. -/
def SeparatorRule.allows (rule : SeparatorRule) (byte : UInt8) : Bool :=
  rule == .wild || byte != separator

mutual

def Token.rests (rule : SeparatorRule) : Token → Rest → List Rest
  | .literal c, rest => restBehindBytes (encode [c]) rest
  | .anyByte, rest => restBehind rule.allows rest
  | .anyRun, rest => restsWhile rule.allows rest
  | .leadingFolders, rest => rest :: restsBehindSeparators rest
  | .innerFolders, rest =>
      (restBehind (· == separator) rest).flatMap fun behind =>
        behind :: restsBehindSeparators behind
  | .trailingFolders, rest =>
      (restBehind (· == separator) rest).flatMap (restsWhile fun _ => true)
  | .byteIn negated ranges, rest =>
      restBehind (fun byte => inRanges ranges byte != negated) rest
  | .oneOf [], rest => [rest]
  | .oneOf (tokens :: others), rest =>
      restsOfTokens rule tokens [rest] ++ restsOfAlternatives rule others rest

/-- The rests behind several parts, one behind the other. -/
def restsOfTokens (rule : SeparatorRule) : List Token → List Rest → List Rest
  | [], rests => rests
  | token :: tokens, rests =>
      restsOfTokens rule tokens (distinctRests (rests.flatMap (Token.rests rule token)))

def restsOfAlternatives (rule : SeparatorRule) : List (List Token) → Rest → List Rest
  | [], _ => []
  | tokens :: others, rest =>
      restsOfTokens rule tokens [rest] ++ restsOfAlternatives rule others rest

end

namespace Pattern

def isEverything (pattern : Pattern) : Bool :=
  match pattern.tokens with
  | [.leadingFolders] => true
  | _ => false

def matchesBytes (pattern : Pattern) (rule : SeparatorRule) (path : Rest) : Bool :=
  pattern.isEverything || (restsOfTokens rule pattern.tokens [path]).any (·.isEmpty)

def matchesPath (pattern : Pattern) (rule : SeparatorRule) (path : String) : Bool :=
  pattern.matchesBytes rule (encode path.toList)

end Pattern

end CatalogServer.Glob
