import CatalogServer.Text.Blank

/-!
# Locale tags

A locale tag names a language and may name a territory, as in `da`, `pt_BR`
or `sr-Latn-RS`.  Underscores and dashes separate the parts, a script is
passed over, and the letter case does not matter.
-/

namespace CatalogServer

open Text

/-- A locale: a language and possibly a territory. -/
structure LocaleTag where
  language : String
  /-- Territory code in upper case, or three digits. -/
  territory : Option String
  deriving DecidableEq, Repr

namespace LocaleTag

/-- The parts of a tag end at underscores and dashes. -/
def isSeparator (c : Char) : Bool :=
  c == '_' || c == '-'

/-- The pieces of a text between separators, empty ones included. -/
def splitParts : List Char → List (List Char)
  | [] => [[]]
  | c :: rest =>
      if isSeparator c then
        [] :: splitParts rest
      else
        match splitParts rest with
        | [] => [[c]]
        | first :: others => (c :: first) :: others

def isLanguage (part : List Char) : Bool :=
  (part.length == 2 || part.length == 3) && part.all Char.isAlpha

/-- A territory code has two letters or three digits. -/
def isTerritory (part : List Char) : Bool :=
  (part.length == 2 && part.all Char.isAlpha) ||
    (part.length == 3 && part.all Char.isDigit)

/-- Reads a tag; blanks around it do not matter. -/
def parse? (tag : String) : Option LocaleTag :=
  match (splitParts (trim tag.toList)).filter (!·.isEmpty) with
  | [] => none
  | language :: others =>
      if isLanguage language then
        some {
          language := String.ofList (language.map Char.toLower)
          territory := (others.find? isTerritory).map fun part =>
            String.ofList (part.map Char.toUpper) }
      else
        none

def render (tag : LocaleTag) : String :=
  match tag.territory with
  | some territory => tag.language ++ "_" ++ territory
  | none => tag.language

end LocaleTag

end CatalogServer
