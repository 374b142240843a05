import CatalogServer.Catalog.Writer
import CatalogServer.Editor.Diagnostic

/-!
# Quick fixes

A quick fix replaces the target element of the message under a cursor.  An
unfinished target with text can be marked as finished, and a plural target
can be given the number of forms that its language needs.
-/

namespace CatalogServer

open Json Text

/-- A replacement of a stretch of a document. -/
structure TextEdit where
  range : Range
  newText : String
  deriving DecidableEq, Repr

def TextEdit.encode (edit : TextEdit) : Json :=
  ofMembers [("range", edit.range.encode), ("newText", .string edit.newText)]

def encodeEdits (uri : Uri) (edits : List TextEdit) : Json :=
  ofMembers [("changes", ofMembers [(uri.render, ofList TextEdit.encode edits)])]

/-- A fix that an editor offers. -/
structure QuickFix where
  title : String
  edit : TextEdit
  diagnostics : List Diagnostic
  preferred : Bool
  deriving Repr

namespace QuickFix

/-- The target with the number of plural forms that its language needs, if
it has another number.  Added forms are empty and leave it unfinished. -/
def withFormCount? (message : Message) (expected : Nat) : Option Target :=
  let target := message.target
  if !message.numerus || target.isEmpty then none
  else if target.isPlural && target.forms.length == expected then none
  else if target.forms.length < expected then
    let missing := List.replicate (expected - target.forms.length) (FormText.plain "")
    some ⟨.unfinished, .plural (target.forms ++ missing)⟩
  else
    some ⟨target.status, .plural (target.forms.take expected)⟩

/-- The replacement of a target element; the indentation stays. -/
def replaceTarget (text : List Char) (span : ByteSpan) (target : Target) : TextEdit :=
  ⟨LineIndex.range text span, Writer.bareTargetElement target⟩

/-- The diagnostics of a kind that lie in a range. -/
def settledBy (kind : IssueKind) (range : Range) (diagnostics : List Diagnostic) :
    List Diagnostic :=
  diagnostics.filter fun diagnostic =>
    diagnostic.code == some (.name kind.code) && range.contains diagnostic.range.start &&
      range.contains diagnostic.range.stop

/-- A message that can be fixed, with the places of its parts. -/
structure Fixable where
  message : Message
  element : ByteSpan
  target : ByteSpan
  deriving DecidableEq, Repr

/-- The message at a place, if it has a target element. -/
def fixable? (document : Document) (index : MessageIndex) : Option Fixable := do
  let message ← document.catalog.message? index
  let spans ← document.spans.message? index
  let target ← spans.target
  some ⟨message, spans.element, target.element⟩

def finished (message : Message) : Target :=
  { message.target with status := .finished }

def markFinished (text : List Char) (fixable : Fixable) (diagnostics : List Diagnostic) :
    QuickFix where
  title := "Mark translation as finished"
  edit := replaceTarget text fixable.target (finished fixable.message)
  diagnostics :=
    settledBy .unfinished (LineIndex.range text fixable.element) diagnostics
  preferred := true

/-- Gives a target the number of forms that its language needs. -/
def useForms (text : List Char) (fixable : Fixable) (language : String) (expected : Nat)
    (target : Target) (diagnostics : List Diagnostic) : QuickFix where
  title := "Use " ++ toString expected ++ " plural form" ++
    (if expected == 1 then "" else "s") ++ " for '" ++ language ++ "'"
  edit := replaceTarget text fixable.target target
  diagnostics :=
    settledBy .pluralForms (LineIndex.range text fixable.element) diagnostics
  preferred := false

/-- The fix that marks a target as finished, if it applies. -/
def markFinished? (text : List Char) (fixable : Fixable) (diagnostics : List Diagnostic) :
    Option QuickFix :=
  if fixable.message.canBeFinished then some (markFinished text fixable diagnostics)
  else none

/-- The fix of the number of forms, if it applies. -/
def useForms? (text : List Char) (fixable : Fixable) (language : String)
    (options : CheckOptions) (diagnostics : List Diagnostic) : Option QuickFix := do
  let expected ← options.expectedFormCount? language
  let target ← withFormCount? fixable.message expected
  some (useForms text fixable language expected target diagnostics)

/-- The fixes at an offset; `diagnostics` are those that the editor shows
there. -/
def atOffset (document : Document) (text : List Char) (offset : Nat)
    (options : CheckOptions) (diagnostics : List Diagnostic) : List QuickFix :=
  match (document.spans.messageAt? offset).bind (fixable? document) with
  | none => []
  | some fixable =>
      let language := document.catalog.language.getD ""
      (markFinished? text fixable diagnostics).toList ++
        (useForms? text fixable language options diagnostics).toList

/-- The edits that mark every target of a document as finished that can
be. -/
def finishAll (document : Document) (text : List Char) : List TextEdit :=
  let unfinished := document.catalog.entries.filter (·.message.canBeFinished)
  (unfinished.filterMap fun entry => fixable? document entry.index).map fun fixable =>
    replaceTarget text fixable.target (finished fixable.message)

def encode (uri : Uri) (fix : QuickFix) : Json :=
  ofPresentMembers [
    ("title", some (.string fix.title)),
    ("kind", some (.string "quickfix")),
    ("diagnostics",
      if fix.diagnostics.isEmpty then none
      else some (ofList Diagnostic.encode fix.diagnostics)),
    ("edit", some (encodeEdits uri [fix.edit])),
    ("isPreferred", some (.bool fix.preferred))]

end QuickFix

end CatalogServer
