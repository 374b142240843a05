import CatalogServer.Json.Writer
import CatalogServer.Session.Command
import CatalogServer.Session.Synchronization

/-!
# Requests and notifications

An editor sends requests, which are answered, and notifications, which are
not.  Both have a method and parameters; this file decodes what they ask
for.
-/

namespace CatalogServer

open Json Text

/-- What an editor asks for. -/
inductive Request where
  | hover (uri : Uri) (position : Position)
  /-- Where a message stands in the other catalogs of its project. -/
  | definition (uri : Uri) (position : Position)
  | references (uri : Uri) (position : Position) (withDeclaration : Bool)
  | codeAction (uri : Uri) (position : Position) (diagnostics : List Diagnostic)
  | command (name : String) (arguments : List Json)
  | unsupported
  deriving Repr

/-- What an editor tells. -/
inductive Notification where
  | ready
  | opened (uri : Uri) (text : String)
  | changed (uri : Uri) (texts : List String)
  | closed (uri : Uri)
  | settings (value : Json)
  | files (changes : List Session.FileChange)
  | ignored
  deriving Repr

/-- Why parameters are refused. -/
inductive ParamsError where
  | missing
  | unexpected (params : Json)
  | unfitting (error : DecodeError)
  deriving Repr

def ParamsError.message : ParamsError → String
  | .missing => "Missing params field"
  | .unexpected params => "Unexpected params: " ++ params.render
  | .unfitting error => error.message

namespace Params

def decodeDocument : Decoder Uri := fun value => do
  let members ← asMembers "TextDocumentIdentifier" ["uri"] value
  require "uri" (← given members "uri" Uri.decode)

def decodePlace (members : List (String × Json)) : Except DecodeError (Uri × Position) := do
  let position ← given members "position" Position.decode
  let document ← given members "textDocument" decodeDocument
  let uri ← require "textDocument" document
  return (uri, ← require "position" position)

def decodeAtPosition (name : String) (ask : Uri → Position → Request) : Decoder Request :=
  fun value => do
    let (uri, position) ← decodePlace (← asObject name value)
    return ask uri position

def decodeReferenceContext : Decoder Bool := fun value => do
  let members ← asMembers "ReferenceContext" ["includeDeclaration"] value
  require "includeDeclaration" (← given members "includeDeclaration" asTruth)

def decodeReferences : Decoder Request := fun value => do
  let members ← asObject "ReferenceParams" value
  let context ← given members "context" decodeReferenceContext
  let withDeclaration ← require "context" context
  let (uri, position) ← decodePlace members
  return .references uri position withDeclaration

/-- The diagnostics that a request for fixes is about. -/
def decodeActionContext : Decoder (List Diagnostic) := fun value => do
  let members ← asObject "CodeActionContext" value
  let diagnostics ← given members "diagnostics" (asList Diagnostic.decode)
  let _ ← givenOptional members "only" (asList asText)
  require "diagnostics" diagnostics

def decodeCodeAction : Decoder Request := fun value => do
  let members ← asObject "CodeActionParams" value
  let context ← given members "context" decodeActionContext
  let range ← given members "range" Range.decode
  let document ← given members "textDocument" decodeDocument
  let uri ← require "textDocument" document
  let place ← require "range" range
  return .codeAction uri place.start (← require "context" context)

def decodeCommand : Decoder Request := fun value => do
  let members ← asObject "ExecuteCommandParams" value
  let arguments ← given members "arguments" (asList .ok)
  let name ← given members "command" asText
  return .command (← require "command" name) (arguments.getD [])

def decodeFolder : Decoder Uri := fun value => do
  let members ← asMembers "WorkspaceFolder" ["uri", "name"] value
  let name ← given members "name" asText
  let uri ← given members "uri" Uri.decode
  let found ← require "uri" uri
  let _ ← require "name" name
  return found

/-- Parameters of the first request: the path of the first folder. -/
def decodeStart : Decoder (Option String) := fun value => do
  let members ← asObject "InitializeParams" value
  let capabilities ← given members "capabilities" (asObject "ClientCapabilities")
  let _ ← givenOptional members "locale" asText
  let _ ← givenOptional members "processId" (asInteger .word32)
  let _ ← givenOptional members "rootPath" asText
  let _ ← givenOptional members "rootUri" Uri.decode
  let folders ← givenOptional members "workspaceFolders" (asList decodeFolder)
  let _ ← require "capabilities" capabilities
  return ((folders.getD []).head?).bind Uri.filePath?

def decodeOpened : Decoder Notification := fun value => do
  let members ← asMembers "DidOpenTextDocumentParams" ["textDocument"] value
  let document ← require "textDocument" (← given members "textDocument"
    (asMembers "TextDocumentItem" ["uri", "languageId", "version", "text"]))
  let language ← given document "languageId" asText
  let text ← given document "text" asText
  let uri ← given document "uri" Uri.decode
  let version ← given document "version" (asInteger .signed32)
  let found ← require "uri" uri
  let _ ← require "languageId" language
  let _ ← require "version" version
  return .opened found (← require "text" text)

def decodeChange : Decoder String := fun value => do
  let members ← asMembers "TextDocumentContentChangeEvent"
    ["range", "rangeLength", "text"] value
  let _ ← givenOptional members "range" Range.decode
  let _ ← givenOptional members "rangeLength" (asInteger .word32)
  require "text" (← given members "text" asText)

def decodeChanged : Decoder Notification := fun value => do
  let members ← asMembers "DidChangeTextDocumentParams" ["textDocument", "contentChanges"] value
  let changes ← given members "contentChanges" (asList decodeChange)
  let document ← require "textDocument" (← given members "textDocument"
    (asMembers "VersionedTextDocumentIdentifier" ["uri", "version"]))
  let uri ← given document "uri" Uri.decode
  let version ← given document "version" (asInteger .signed32)
  let found ← require "uri" uri
  let _ ← require "version" version
  return .changed found (← require "contentChanges" changes)

def decodeClosed : Decoder Notification := fun value => do
  let members ← asMembers "DidCloseTextDocumentParams" ["textDocument"] value
  return .closed (← require "textDocument" (← given members "textDocument" decodeDocument))

def decodeSettings : Decoder Notification := fun value => do
  let members ← asMembers "DidChangeConfigurationParams" ["settings"] value
  return .settings (← require "settings" (← given members "settings" .ok))

def fileEvent (code : Int) : Session.FileEvent :=
  if code == 1 then .created
  else if code == 2 then .changed
  else if code == 3 then .deleted
  else .unknown

def decodeFileChange : Decoder Session.FileChange := fun value => do
  let members ← asMembers "FileEvent" ["uri", "type"] value
  let code ← given members "type" (asInteger .signed32)
  let uri ← given members "uri" Uri.decode
  let found ← require "uri" uri
  return ⟨found, fileEvent (← require "type" code)⟩

def decodeFiles : Decoder Notification := fun value => do
  let members ← asMembers "DidChangeWatchedFilesParams" ["changes"] value
  return .files (← require "changes" (← given members "changes" (asList decodeFileChange)))

def decoded {α : Type} (decode : Decoder α) : Option Json → Except ParamsError α
  | none => .error .missing
  | some params => (decode params).mapError .unfitting

/-- Requests that the server knows but does not offer. -/
def unsupportedRequests : List String := [
  "textDocument/willSaveWaitUntil", "textDocument/declaration",
  "textDocument/typeDefinition", "textDocument/implementation",
  "textDocument/prepareCallHierarchy", "callHierarchy/incomingCalls",
  "callHierarchy/outgoingCalls", "textDocument/prepareTypeHierarchy",
  "typeHierarchy/supertypes", "typeHierarchy/subtypes",
  "textDocument/documentHighlight", "textDocument/documentLink", "documentLink/resolve",
  "textDocument/codeLens", "codeLens/resolve", "textDocument/foldingRange",
  "textDocument/selectionRange", "textDocument/documentSymbol",
  "textDocument/semanticTokens/full", "textDocument/semanticTokens/full/delta",
  "textDocument/semanticTokens/range", "textDocument/inlineValue",
  "textDocument/inlayHint", "inlayHint/resolve", "textDocument/moniker",
  "textDocument/completion", "completionItem/resolve", "textDocument/diagnostic",
  "workspace/diagnostic", "textDocument/signatureHelp", "codeAction/resolve",
  "textDocument/documentColor", "textDocument/colorPresentation",
  "textDocument/formatting", "textDocument/rangeFormatting",
  "textDocument/onTypeFormatting", "textDocument/rename", "textDocument/prepareRename",
  "textDocument/linkedEditingRange", "workspace/symbol", "workspaceSymbol/resolve",
  "workspace/willCreateFiles", "workspace/willRenameFiles", "workspace/willDeleteFiles"]

def ignoredNotifications : List String := [
  "textDocument/willSave", "textDocument/didSave", "workspace/didChangeWorkspaceFolders",
  "workspace/didCreateFiles", "workspace/didRenameFiles", "workspace/didDeleteFiles",
  "window/workDoneProgress/cancel"]

/-- What a request with a method asks for, if the server knows the method. -/
def request? (method : String) : Option (Option Json → Except ParamsError Request) :=
  match method with
  | "textDocument/hover" => some (decoded (decodeAtPosition "HoverParams" .hover))
  | "textDocument/definition" =>
      some (decoded (decodeAtPosition "GotoDefinitionParams" .definition))
  | "textDocument/references" => some (decoded decodeReferences)
  | "textDocument/codeAction" => some (decoded decodeCodeAction)
  | "workspace/executeCommand" => some (decoded decodeCommand)
  | other =>
      if unsupportedRequests.contains other then
        some (decoded fun _ => .ok .unsupported)
      else none

/-- What a notification with a method tells, if the server knows the
method. -/
def notification? (method : String) :
    Option (Option Json → Except ParamsError Notification) :=
  match method with
  | "initialized" => some (decoded fun value => do
      let _ ← asMembers "InitializedParams" [] value
      return .ready)
  | "textDocument/didOpen" => some (decoded decodeOpened)
  | "textDocument/didChange" => some (decoded decodeChanged)
  | "textDocument/didClose" => some (decoded decodeClosed)
  | "workspace/didChangeConfiguration" => some (decoded decodeSettings)
  | "workspace/didChangeWatchedFiles" => some (decoded decodeFiles)
  | other =>
      if ignoredNotifications.contains other then
        some (decoded fun _ => .ok .ignored)
      else none

end Params

end CatalogServer
