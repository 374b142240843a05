import CatalogServer.Catalog.Reader
import CatalogServer.Check.Message
import CatalogServer.Locale.Plural
import CatalogServer.Workspace.Path

/-!
# Telling catalogs, languages and projects

Catalog files share their extension with sources of a programming language,
so a text is looked at before it is read.  The language of a catalog is the
one its root element names, or else the one that its file name ends in; the
rest of the file name is the project, which all locales of a catalog share.
-/

namespace CatalogServer

open Text

namespace Detection

/-- Texts that occur near the start of every catalog. -/
def markers : List String := ["<TS>", "<TS ", "<TS\n", "<!DOCTYPE TS>"]

def searchedLength : Nat := 1024

def occursIn (part : List Char) : List Char → Bool
  | [] => part.isEmpty
  | c :: rest => part.isPrefixOf (c :: rest) || occursIn part rest

/-- True of a text that looks like a catalog: behind byte order marks and
blanks it starts with markup, and one of the markers occurs near its start. -/
def looksLikeCatalog (text : String) : Bool :=
  match trimStart (text.toList.dropWhile (· == '\uFEFF')) with
  | '<' :: rest =>
      let searched := ('<' :: rest).take searchedLength
      markers.any fun marker => occursIn marker.toList searched
  | _ => false

/-- The usable language among the attributes of a root element.  Attributes
that cannot be read are passed over. -/
def languageAttribute? (tag : Xml.Tag) : Option String := do
  let readable := tag.rawAttributes.filterMap Except.toOption
  let raw ← readable.find? (·.key == "language".toList)
  let attr ← raw.resolve.toOption
  let language := trimmed attr.value
  if language == "" then none else some language

/-- The usable language of the first element among events, which must be the
root element of a catalog. -/
def rootLanguage? : List Xml.Located → Option String
  | [] => none
  | located :: rest =>
      match located.event with
      | .opening tag | .selfClosing tag =>
          if tag.name == "TS" then languageAttribute? tag else none
      | _ => rootLanguage? rest

/-- Separators between a project and a locale in a file name. -/
def isSeparator (c : Char) : Bool :=
  c == '_' || c == '-' || c == '.'

/-- True of a text that names a locale with a known plural rule, in at most
three parts. -/
def isLocale (text : List Char) : Bool :=
  (LocaleTag.splitParts text).length ≤ 3 &&
    (PluralRule.ofLocale? (String.ofList text)).isSome

/-- Cuts a file name at the first separator behind which a locale stands. -/
def splitAtLocale : List Char → Option (List Char × List Char)
  | [] => none
  | c :: rest =>
      if isSeparator c && isLocale rest then
        some ([], rest)
      else
        (splitAtLocale rest).map fun (before, locale) => (c :: before, locale)

/-- The project and the locale of a file name without its extension. -/
def splitName (name : List Char) : List Char × Option (List Char) :=
  match splitAtLocale name with
  | some (project, locale) => (project, some locale)
  | none => if isLocale name then ([], some name) else (name, none)

/-- The locale that the name of a file ends in. -/
def nameLocale? (path : String) : Option String := do
  let name ← Path.stem? path
  let locale ← (splitName name.toList).2
  some (String.ofList locale)

def language (path text : String) : String :=
  match rootLanguage? (Xml.events text).events with
  | some language => language
  | none => (nameLocale? path).getD unknownLanguage

/-- The project of a catalog file: its name without the locale, or the name
of its folder when nothing else is left. -/
def project (path : String) : String :=
  let name := ((Path.stem? path).getD "").toList
  match (splitName name).1 with
  | [] => (Path.parentName? path).getD ""
  | project => String.ofList project

end Detection

/-- A catalog file of the workspace. -/
structure CatalogFile where
  path : String
  language : String
  project : String
  text : String
  deriving DecidableEq, Repr, Inhabited

namespace CatalogFile

/-- The file with a text at a path, its language and project detected. -/
def ofText (path text : String) : CatalogFile :=
  ⟨path, Detection.language path text, Detection.project path, text⟩

def read (file : CatalogFile) : Except ReadError Document :=
  Document.read file.text

/-- The catalog in a file, if its text is one. -/
def document? (file : CatalogFile) : Option Document :=
  file.read.toOption

end CatalogFile

end CatalogServer
