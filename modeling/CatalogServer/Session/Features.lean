import CatalogServer.Catalog.Writer
import CatalogServer.Editor.Hover
import CatalogServer.Editor.Navigation
import CatalogServer.Session.Basic

/-!
# What editors ask for

Requests about the message under a cursor are answered from the tracked
files; commands report on the files, edit them, or set the language shown
first.
-/

namespace CatalogServer

open Text

/-- The progress of a tracked file. -/
structure FileStatistics where
  uri : Uri
  language : String
  project : String
  progress : Option Progress
  deriving DecidableEq, Repr

namespace Session

/-- The message at a position of a tracked file. -/
def messageAt? (session : Session) (uri : Uri) (position : Position) :
    Option (CatalogFile × MessageKey) := do
  let file ← session.fileOf? uri
  let key ← file.keyAt? position
  some (file, key)

/-- The text shown over the message at a position. -/
def hover? (session : Session) (uri : Uri) (position : Position) : Option String := do
  if !session.indexed then none
  let (file, key) ← session.messageAt? uri position
  Hover.text? key file session.tracked session.language session.settings.primaryLanguages

/-- The message at a position in the other catalogs of its project. -/
def definitions (session : Session) (uri : Uri) (position : Position) : List Location :=
  if !session.indexed then []
  else
    match session.messageAt? uri position with
    | none => []
    | some (file, key) =>
        Navigation.definitions key file.project (session.otherFiles file.path)

/-- All occurrences of the message at a position; the declaration is the one
in the document itself. -/
def references (session : Session) (uri : Uri) (position : Position)
    (withDeclaration : Bool) : List Location :=
  match session.messageAt? uri position with
  | none => []
  | some (_, key) =>
      let found := Navigation.references key session.tracked
      if withDeclaration then found else found.filter (·.uri != uri)

def quickFixes (session : Session) (uri : Uri) (position : Position)
    (diagnostics : List Diagnostic) : List QuickFix :=
  let found := do
    let file ← session.fileOf? uri
    let document ← file.document?
    let text := file.text.toList
    let offset ← LineIndex.offset text position
    some (QuickFix.atOffset document text offset session.settings.checkOptions diagnostics)
  found.getD []

/-- The progress of the tracked files, or of the one at a path, in the order
of their paths. -/
def statistics (session : Session) (only : Option String) : List FileStatistics :=
  let files := session.tracked.filter fun file => only.all (file.path == ·)
  (files.mergeSort CatalogFile.isAtMost).filterMap fun file =>
    (Uri.ofFilePath? file.path).map fun uri =>
      ⟨uri, file.language, file.project, Check.fileProgress? file⟩

/-- The edits that mark every target of a tracked file as finished that can
be, if it is a catalog. -/
def finishAll? (session : Session) (uri : Uri) : Option (List TextEdit) := do
  let file ← session.fileOf? uri
  let document ← file.document?
  some (QuickFix.finishAll document file.text.toList)

/-- What writing a file in the canonical layout comes to. -/
inductive Normalization where
  | malformed
  | unchanged
  | edit (edit : TextEdit)
  deriving DecidableEq, Repr

def normalizationOf (file : CatalogFile) : Normalization :=
  match file.document? with
  | none => .malformed
  | some document =>
      let written := Writer.write document.catalog
      if written == file.text then .unchanged
      else .edit ⟨LineIndex.fullRange file.text.toList, written⟩

def chooseLanguage (language : Option String) (session : Session) : Turn :=
  let wording :=
    match language with
    | some name => "Some(" ++ quoted name ++ ")"
    | none => "None"
  ⟨{ session with language := language },
    [.log .information ("Current language set to: " ++ wording)]⟩

end Session

end CatalogServer
