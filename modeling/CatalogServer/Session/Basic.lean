import CatalogServer.Session.Message
import CatalogServer.Settings.Store
import CatalogServer.Workspace.Indexing

/-!
# Sessions

A session holds the settings in effect, the catalog files that are tracked,
the documents open in the editor, and what the user chose.  Tracked files
come from the disk or, while they are open, from the editor.
-/

namespace CatalogServer

/-- A document open in the editor. -/
structure OpenDocument where
  uri : Uri
  text : String
  deriving DecidableEq, Repr, Inhabited

/-- What the server finds around itself. -/
structure Surroundings where
  disk : Disk := {}
  /-- The folders of the workspace, unless the editor refuses to tell. -/
  folders : Option (List Uri) := some []
  deriving Repr, Inhabited

/-- The state of a session. -/
structure Session where
  store : SettingsStore := {}
  tracked : List CatalogFile := []
  opened : List OpenDocument := []
  language : Option String := none
  indexed : Bool := false
  deriving Repr, Inhabited

/-- The state after a message was handled, and what was sent meanwhile. -/
structure Turn where
  session : Session
  /-- The messages to the editor in their order. -/
  sent : List ServerMessage := []
  deriving Repr

def Turn.andThen (turn : Turn) (step : Session → Turn) : Turn :=
  let next := step turn.session
  ⟨next.session, turn.sent ++ next.sent⟩

namespace Session

def settings (session : Session) : Settings :=
  session.store.settings

def send (sent : List ServerMessage) (session : Session) : Turn :=
  ⟨session, sent⟩

/-- The path is that of a catalog file under the settings in effect. -/
def acceptsPath (session : Session) (path : String) : Bool :=
  match session.store.root with
  | none => Path.extension? path == some "ts"
  | some root =>
      match FileMatcher.ofSettings root session.settings with
      | .ok matcher => matcher.accepts path
      | .error _ => false

def fileAt? (session : Session) (path : String) : Option CatalogFile :=
  session.tracked.find? (·.path == path)

def fileOf? (session : Session) (uri : Uri) : Option CatalogFile :=
  uri.filePath?.bind session.fileAt?

def otherFiles (session : Session) (path : String) : List CatalogFile :=
  session.tracked.filter (·.path != path)

/-- Tracks the file with a text at a path, in place of an earlier one. -/
def track (session : Session) (path text : String) : Session :=
  let file := CatalogFile.ofText path text
  if session.tracked.any (·.path == path) then
    { session with
      tracked := session.tracked.map fun held => if held.path == path then file else held }
  else
    { session with tracked := session.tracked ++ [file] }

def untrack (session : Session) (path : String) : Session :=
  { session with tracked := session.otherFiles path }

/-- Tracks a text that looks like a catalog at a path that is that of a
catalog file. -/
def trackIfCatalog (session : Session) (path text : String) : Session :=
  if Detection.looksLikeCatalog text && session.acceptsPath path then
    session.track path text
  else
    session

def isOpen (session : Session) (uri : Uri) : Bool :=
  session.opened.any (·.uri == uri)

def openDocument (session : Session) (document : OpenDocument) : Session :=
  { session with
    opened := session.opened.filter (·.uri != document.uri) ++ [document] }

/-- Sets the text of a document, if it is open. -/
def editDocument (session : Session) (uri : Uri) (text : String) : Session :=
  { session with
    opened := session.opened.map fun held => if held.uri == uri then ⟨uri, text⟩ else held }

def closeDocument (session : Session) (uri : Uri) : Session :=
  { session with opened := session.opened.filter (·.uri != uri) }

def diagnosticsOf (session : Session) (file : CatalogFile) : List Diagnostic :=
  Diagnostic.ofFile file (session.otherFiles file.path) session.settings

/-- The diagnostics of an open document, if it is tracked. -/
def publication? (session : Session) (document : OpenDocument) : Option ServerMessage :=
  (session.fileOf? document.uri).map fun file =>
    .diagnostics document.uri (session.diagnosticsOf file)

/-- Publishes the diagnostics of all open documents that are tracked. -/
def publish (session : Session) : Turn :=
  ⟨session, session.opened.filterMap session.publication?⟩

end Session

end CatalogServer
