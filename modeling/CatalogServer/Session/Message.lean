import CatalogServer.Editor.QuickFix

/-!
# Messages to the editor

Besides answering requests the server tells the editor about its work,
publishes diagnostics and asks the editor for things that only the editor
can do.
-/

namespace CatalogServer

open Json

/-- How much a notice matters. -/
inductive NoticeLevel where
  | error
  | warning
  | information
  deriving DecidableEq, Repr

def NoticeLevel.code : NoticeLevel → Nat
  | .error => 1
  | .warning => 2
  | .information => 3

/-- How far indexing a folder has come. -/
inductive IndexingProgress where
  | begins
  /-- Some of the candidates have been looked at. -/
  | candidate (current total : Nat)
  | ends (summary : String)
  deriving DecidableEq, Repr

/-- A message to the editor. -/
inductive ServerMessage where
  | log (level : NoticeLevel) (text : String)
  | notice (level : NoticeLevel) (text : String)
  | progress (step : IndexingProgress)
  /-- The diagnostics of a document, in place of earlier ones. -/
  | diagnostics (uri : Uri) (diagnostics : List Diagnostic)
  | askFolders
  /-- Asks to be told of changes to files that match patterns. -/
  | watchFiles (patterns : List String)
  | applyEdits (uri : Uri) (edits : List TextEdit)
  deriving Repr

def progressToken : String := "workspace-indexing"

def IndexingProgress.encode : IndexingProgress → Json
  | .begins => ofMembers [("kind", .string "begin"),
      ("title", .string "Indexing translations"), ("cancellable", .bool false),
      ("message", .string "Starting..."), ("percentage", ofNat 0)]
  | .candidate current total => ofMembers [("kind", .string "report"),
      ("cancellable", .bool false),
      ("message", .string ("Processing files: " ++ toString current ++ "/" ++ toString total)),
      ("percentage", ofNat (current * 100 / total))]
  | .ends summary => ofMembers [("kind", .string "end"), ("message", .string summary)]

/-- A request to be told of changes to files as a value. -/
def encodeWatch (patterns : List String) : Json :=
  let watchers := patterns.map fun pattern => ofMembers [("globPattern", .string pattern)]
  ofMembers [("registrations", .array [ofMembers [
    ("id", .string "linguist-file-watcher"),
    ("method", .string "workspace/didChangeWatchedFiles"),
    ("registerOptions", ofMembers [("watchers", .array watchers)])]])]

def encodeNotice (level : NoticeLevel) (text : String) : Json :=
  ofMembers [("type", ofNat level.code), ("message", .string text)]

namespace ServerMessage

def method : ServerMessage → String
  | .log _ _ => "window/logMessage"
  | .notice _ _ => "window/showMessage"
  | .progress _ => "$/progress"
  | .diagnostics _ _ => "textDocument/publishDiagnostics"
  | .askFolders => "workspace/workspaceFolders"
  | .watchFiles _ => "client/registerCapability"
  | .applyEdits _ _ => "workspace/applyEdit"

def params : ServerMessage → Option Json
  | .log level text | .notice level text => some (encodeNotice level text)
  | .progress step =>
      some (ofMembers [("token", .string progressToken), ("value", step.encode)])
  | .diagnostics uri found =>
      some (ofMembers [("uri", uri.encode), ("diagnostics", ofList Diagnostic.encode found)])
  | .askFolders => none
  | .watchFiles patterns => some (encodeWatch patterns)
  | .applyEdits uri edits => some (ofMembers [("edit", encodeEdits uri edits)])

end ServerMessage

end CatalogServer
