import CatalogServer.Session.Params

/-!
# The server

A server goes through phases: it is fresh until the first request was
answered, then it runs a session until it is shut down, and after it exits
it handles nothing any more.  Whatever arrives in the wrong phase is refused
or passed over.
-/

namespace CatalogServer

open Json

/-- How far a server is. -/
inductive Phase where
  | fresh
  | running
  | shutDown
  | exited
  deriving DecidableEq, Repr, Inhabited

structure Server where
  phase : Phase := .fresh
  session : Session := {}
  deriving Repr, Inhabited

/-- A message of the editor. -/
inductive Incoming where
  | request (method : String) (params : Option Json)
  | notification (method : String) (params : Option Json)
  deriving Repr

/-- The answer to a request. -/
inductive Answer where
  | result (value : Json)
  | failure (code : Int) (message : String)
  deriving Repr

/-- What handling a message comes to. -/
structure Handled where
  server : Server
  answer : Option Answer := none
  sent : List ServerMessage := []
  deriving Repr

namespace Answer

def unknownMethod : Answer := .failure (-32601) "Method not found"

def invalidRequest : Answer := .failure (-32600) "Invalid request"

def notStarted : Answer := .failure (-32002) "Server not initialized"

def refused (error : ParamsError) : Answer := .failure (-32602) error.message

def outside : Phase → Answer
  | .fresh => notStarted
  | .running | .shutDown | .exited => invalidRequest

/-- A list of locations; without any the answer is null. -/
def ofLocations (locations : List Location) : Answer :=
  .result (if locations.isEmpty then .null else ofList Location.encode locations)

def ofHover (text : Option String) : Answer :=
  .result (ofOption
    (fun text => ofMembers [("contents",
      ofMembers [("kind", .string "markdown"), ("value", .string text)])])
    text)

end Answer

namespace Session

def answer (request : Request) (session : Session) : Turn × Answer :=
  match request with
  | .hover uri position => (⟨session, []⟩, .ofHover (session.hover? uri position))
  | .definition uri position =>
      (⟨session, []⟩, .ofLocations (session.definitions uri position))
  | .references uri position withDeclaration =>
      if session.indexed then
        (⟨session, []⟩, .ofLocations (session.references uri position withDeclaration))
      else
        (⟨session, []⟩, .result (.array []))
  | .codeAction uri position diagnostics =>
      (⟨session, []⟩,
        .result (ofList (QuickFix.encode uri) (session.quickFixes uri position diagnostics)))
  | .command name arguments =>
      match Command.decode? name arguments with
      | none => (⟨session, []⟩, .result .null)
      | some command =>
          let (turn, value) := session.runCommand command
          (turn, .result value)
  | .unsupported => (⟨session, []⟩, .unknownMethod)

def follow (around : Surroundings) (notification : Notification) (session : Session) : Turn :=
  match notification with
  | .ready => session.ready around
  | .opened uri text => session.documentOpened uri text
  | .changed uri texts => session.documentChanged uri texts
  | .closed uri => session.documentClosed around uri
  | .settings value => session.settingsChanged around value
  | .files changes => session.filesChanged around changes
  | .ignored => ⟨session, []⟩

end Session

namespace Server

def capabilities : Json :=
  ofMembers [
    ("textDocumentSync", ofNat 1),
    ("hoverProvider", .bool true),
    ("definitionProvider", .bool true),
    ("referencesProvider", .bool true),
    ("codeActionProvider", ofMembers [("codeActionKinds", .array [.string "quickfix"]),
      ("resolveProvider", .bool false)]),
    ("executeCommandProvider", ofMembers [("commands", ofList .string Command.names)]),
    ("workspace", ofMembers [("workspaceFolders", ofMembers [("supported", .bool true),
      ("changeNotifications", .bool true)])])]

def greeting : Json :=
  ofMembers [
    ("serverInfo", ofMembers [("name", .string "linguist-language-server"),
      ("version", .string "0.1.0")]),
    ("capabilities", capabilities)]

def afterTurn (server : Server) (turn : Turn) (answer : Option Answer) : Handled :=
  ⟨{ server with session := turn.session }, answer, turn.sent⟩

def reply (server : Server) (answer : Answer) : Handled :=
  ⟨server, some answer, []⟩

def pass (server : Server) : Handled :=
  ⟨server, none, []⟩

def start (around : Surroundings) (params : Option Json) (server : Server) : Handled :=
  if server.phase == .fresh then
    match Params.decoded Params.decodeStart params with
    | .error error => server.reply (.refused error)
    | .ok root =>
        { server with phase := .running }.afterTurn (server.session.start around root)
          (some (.result greeting))
  else
    server.reply .invalidRequest

/-- The request to shut down, which has no parameters. -/
def shutDown (params : Option Json) (server : Server) : Handled :=
  if server.phase == .running then
    let down := { server with phase := .shutDown }
    match params with
    | none => down.reply (.result .null)
    | some params => down.reply (.refused (.unexpected params))
  else
    server.reply (.outside server.phase)

def request (decode : Option Json → Except ParamsError Request) (params : Option Json)
    (server : Server) : Handled :=
  if server.phase == .running then
    match decode params with
    | .error error => server.reply (.refused error)
    | .ok request =>
        let (turn, answer) := server.session.answer request
        server.afterTurn turn (some answer)
  else
    server.reply (.outside server.phase)

def notify (around : Surroundings)
    (decode : Option Json → Except ParamsError Notification) (params : Option Json)
    (server : Server) : Handled :=
  if server.phase == .running then
    match decode params with
    | .error _ => server.pass
    | .ok notification =>
        server.afterTurn (server.session.follow around notification) none
  else
    server.pass

def exit (server : Server) : Handled :=
  { server with phase := .exited }.pass

def isDetail (method : String) : Bool :=
  "$/".toList.isPrefixOf method.toList

def handleRequest (around : Surroundings) (method : String) (params : Option Json)
    (server : Server) : Handled :=
  match method with
  | "exit" => server.exit
  | "initialize" => server.start around params
  | "shutdown" => server.shutDown params
  | method =>
      match Params.request? method with
      | some decode => server.request decode params
      | none =>
          if isDetail method then server.pass
          else if (Params.notification? method).isNone then server.reply .unknownMethod
          else if server.phase == .running then server.pass
          else server.reply (.outside server.phase)

def handleNotification (around : Surroundings) (method : String) (params : Option Json)
    (server : Server) : Handled :=
  match method with
  | "exit" => server.exit
  | "shutdown" =>
      if server.phase == .running then { server with phase := .shutDown }.pass
      else server.pass
  | method =>
      match Params.notification? method with
      | some decode => server.notify around decode params
      | none => server.pass

/-- Handles a message of the editor; a server that has exited handles
nothing. -/
def handle (around : Surroundings) (incoming : Incoming) (server : Server) :
    Option Handled :=
  if server.phase == .exited then none
  else
    match incoming with
    | .request method params => some (server.handleRequest around method params)
    | .notification method params => some (server.handleNotification around method params)

end Server

end CatalogServer
