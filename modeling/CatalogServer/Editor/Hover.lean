import CatalogServer.Workspace.Detection

/-!
# Hover texts

The text shown over a message has its key, the notes of the developer and
its target in every catalog of the project.  The current language comes
first, then the primary languages in their order, then all others by name.
The text is marked up, so catalog texts are escaped and never start a line.
-/

namespace CatalogServer.Hover

def maxLength : Nat := 80

/-- The place of a language in the order of languages. -/
inductive Priority where
  | current
  | primary (number : Nat)
  | other (language : String)
  deriving DecidableEq, Repr

namespace Priority

def isAtMost : Priority → Priority → Bool
  | .current, _ => true
  | .primary _, .current => false
  | .primary first, .primary second => decide (first ≤ second)
  | .primary _, .other _ => true
  | .other first, .other second => decide (first ≤ second)
  | .other _, _ => false

def ofLanguage (current : Option String) (primary : Option (List String))
    (language : String) : Priority :=
  if current == some language then .current
  else
    match (primary.getD []).findIdx? (· == language) with
    | some number => .primary number
    | none => .other language

end Priority

def isMarkup (c : Char) : Bool :=
  ['*', '_', '\x60', '[', ']', '<', '>', '\\'].contains c

/-- A character in a marked-up text on one line. -/
def escapeChar (c : Char) : List Char :=
  if isMarkup c then ['\\', c] else if c == '\n' then [' '] else [c]

/-- A text in a marked-up text, on one line. -/
def escape (text : String) : String :=
  String.ofList (text.toList.flatMap escapeChar)

/-- A text cut to a number of characters, with dots in place of the rest. -/
def shorten (length : Nat) (text : String) : String :=
  let characters := text.toList
  if characters.length ≤ length then text
  else String.ofList (characters.take (length - 3)) ++ "..."

def formText (form : FormText) : String :=
  escape (shorten maxLength form.primary)

/-- The mark of a target that is not finished. -/
def statusMark : Status → String
  | .finished => ""
  | .unfinished => " _(unfinished)_"
  | .vanished | .obsolete => " _(obsolete)_"

/-- A plural form with its number on a line of its own. -/
def pluralLine (number : Nat) (form : FormText) : String :=
  "\n  `[" ++ toString number ++ "]`: " ++ formText form

def targetText (target : Target) : String :=
  let mark := statusMark target.status
  if target.isEmpty then "_(untranslated)_"
  else
    match target.text with
    | .single form => formText form ++ mark
    | .plural forms => "(plural)" ++ mark ++ String.join (forms.mapIdx pluralLine)

def paragraph (heading text : String) : String :=
  "\n**" ++ heading ++ ":** " ++ escape text ++ "\n"

/-- The paragraphs with the key and the notes of the developer. -/
def header (key : MessageKey) (note : Option String) : String :=
  "**Context:** `" ++ key.context ++ "`\n" ++ paragraph "Source" key.source ++
    (key.comment.map (paragraph "Disambiguation")).getD "" ++
    (note.map (paragraph "Developer comment")).getD "" ++ "\n"

/-- The target of a message in one catalog. -/
structure Line where
  language : String
  text : String
  deriving DecidableEq, Repr

/-- The target of the message with a key in a file, if it is a catalog. -/
def line? (key : MessageKey) (file : CatalogFile) : Option Line :=
  file.document?.map fun document =>
    let text :=
      match document.locate? key with
      | some located => targetText located.message.target
      | none => "_(missing)_"
    ⟨file.language, text⟩

def Line.render (line : Line) : String :=
  "**" ++ line.language ++ "**: " ++ line.text ++ "\n"

def Line.isAtMost (current : Option String) (primary : Option (List String))
    (first second : Line) : Bool :=
  (Priority.ofLanguage current primary first.language).isAtMost
    (Priority.ofLanguage current primary second.language)

/-- The text over a message of a file; `files` are all files of the
workspace. -/
def text? (key : MessageKey) (file : CatalogFile) (files : List CatalogFile)
    (current : Option String) (primary : Option (List String)) : Option String := do
  let document ← file.document?
  let located ← document.locate? key
  let lines := (files.filter (·.project == file.project)).filterMap (line? key)
  let sorted := lines.mergeSort (Line.isAtMost current primary)
  some (header key located.message.extraComment ++ String.join (sorted.map Line.render))

end CatalogServer.Hover
