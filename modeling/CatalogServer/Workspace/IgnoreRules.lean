import CatalogServer.Glob.Matching
import CatalogServer.Text.Blank

/-!
# Ignore files

An ignore file has one rule on each line.  A rule names files or folders
that are passed over when a workspace is searched, or takes back what an
earlier rule named.  The last rule that fits decides.
-/

namespace CatalogServer

open Text

/-- A rule of an ignore file. -/
structure IgnoreRule where
  /-- The paths it is about, from the folder that holds the file. -/
  pattern : Glob.Pattern
  /-- The rule takes back what earlier rules name. -/
  keeps : Bool
  foldersOnly : Bool
  deriving Repr

/-- What ignore files say about a file or folder. -/
inductive Verdict where
  | ignored
  | kept
  deriving DecidableEq, Repr

namespace IgnoreRule

/-- A line without the blanks at its end, unless the last one is escaped. -/
def trimLine (line : List Char) : List Char :=
  if [' ', '\\'].isPrefixOf line.reverse then line else trimEnd line

/-- What the marks in front of a line mean. -/
structure Front where
  /-- The line takes back what earlier rules name. -/
  keeps : Bool
  /-- The path starts in the folder that holds the file. -/
  anchored : Bool
  rest : List Char
  deriving DecidableEq, Repr

/-- The text behind a slash in front, which anchors the rule. -/
def Front.ofPath (keeps : Bool) : List Char → Front
  | '/' :: rest => ⟨keeps, true, rest⟩
  | rest => ⟨keeps, false, rest⟩

/-- The marks in front of a line.  An escape makes an exclamation mark or a
number sign part of the path. -/
def Front.ofLine : List Char → Front
  | '\\' :: '!' :: rest => ⟨false, false, '!' :: rest⟩
  | '\\' :: '#' :: rest => ⟨false, false, '#' :: rest⟩
  | '!' :: rest => .ofPath true rest
  | rest => .ofPath false rest

/-- A path without the slash at its end, which restricts a rule to folders;
an escape in front of the slash goes with it. -/
def cutSlash (path : List Char) : List Char × Bool :=
  match path.reverse with
  | '/' :: '\\' :: before => (before.reverse, true)
  | '/' :: before => (before.reverse, true)
  | _ => (path, false)

/-- The pattern of a path.  A path with a single name is looked for in every
folder; everything below a folder does not include the folder. -/
def patternText (anchored : Bool) (path : List Char) : List Char :=
  let anywhere := "**/".toList
  let below := "/**".toList
  let placed :=
    if anchored || path.contains '/' || path == ['*', '*'] then path else anywhere ++ path
  if below.isSuffixOf placed then placed ++ ['/', '*'] else placed

/-- The rule of a line.  Comments, empty lines and lines that make no
pattern have none. -/
def ofLine? (line : List Char) : Option IgnoreRule :=
  let text := trimLine line
  if text.isEmpty || line.head? == some '#' then none
  else
    let front := Front.ofLine text
    let (path, foldersOnly) := cutSlash front.rest
    match Glob.Pattern.read (String.ofList (patternText front.anchored path)) true with
    | .ok pattern => some ⟨pattern, front.keeps, foldersOnly⟩
    | .error _ => none

/-- The rule is about a path below the folder that holds the file. -/
def fits (rule : IgnoreRule) (path : String) (isFolder : Bool) : Bool :=
  (isFolder || !rule.foldersOnly) && rule.pattern.matchesPath .strict path

end IgnoreRule

/-- The rules of an ignore file in their order. -/
abbrev IgnoreRules := List IgnoreRule

namespace IgnoreRules

def splitLines : List UInt8 → List (List UInt8)
  | [] => [[]]
  | byte :: rest =>
      if byte == 0x0A then
        [] :: splitLines rest
      else
        match splitLines rest with
        | [] => [[byte]]
        | first :: others => (byte :: first) :: others

/-- The lines of a file up to the first one that is no text.  A byte order
mark in front does not count. -/
def textLines (bytes : List UInt8) : List (List Char) :=
  let readable := ((splitLines bytes).map decode).takeWhile Option.isSome
  match readable.filterMap (·.map String.toList) with
  | [] => []
  | first :: others => first.dropWhile (· == '\uFEFF') :: others

def ofBytes (bytes : List UInt8) : IgnoreRules :=
  (textLines bytes).filterMap IgnoreRule.ofLine?

/-- What the rules say about a path below the folder that holds the file. -/
def verdict? (rules : IgnoreRules) (path : String) (isFolder : Bool) : Option Verdict :=
  (rules.reverse.find? (·.fits path isFolder)).map fun rule =>
    if rule.keeps then .kept else .ignored

end IgnoreRules

end CatalogServer
