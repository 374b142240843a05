import CatalogServer.Session.Reindexing

/-!
# Following the editor and the disk

While a document is open its text is that of the editor; otherwise the disk
counts.  The settings follow the editor and the settings file, and with
them changes what is tracked.
-/

namespace CatalogServer.Session

/-- Tracks the text of a document, and publishes all diagnostics when it is
a catalog. -/
def updateDocument (uri : Uri) (text : String) (session : Session) : Turn :=
  match uri.filePath? with
  | none => ⟨session, []⟩
  | some path =>
      if Detection.looksLikeCatalog text && session.acceptsPath path then
        (session.track path text).publish
      else
        ⟨session, []⟩

def documentOpened (uri : Uri) (text : String) (session : Session) : Turn :=
  (session.openDocument ⟨uri, text⟩).updateDocument uri text

/-- The editor changed the text of a document; only the last of several
texts counts. -/
def documentChanged (uri : Uri) (texts : List String) (session : Session) : Turn :=
  match texts.getLast? with
  | none => ⟨session, []⟩
  | some text => (session.editDocument uri text).updateDocument uri text

/-- The document at the address that a path has is open. -/
def isOpenAt (session : Session) (path : String) : Bool :=
  (Uri.ofFilePath? path).any session.isOpen

/-- Reads the file at a path again, unless it is open.  Nothing changes when
it cannot be read. -/
def reload (disk : Disk) (path : String) (session : Session) : Session :=
  if session.isOpenAt path then session
  else
    match disk.readText path with
    | .error _ => session
    | .ok text =>
        if Detection.looksLikeCatalog text then session.track path text
        else session.untrack path

def documentClosed (around : Surroundings) (uri : Uri) (session : Session) : Turn :=
  let closed := session.closeDocument uri
  let reloaded :=
    match uri.filePath? with
    | some path => closed.reload around.disk path
    | none => closed
  (Turn.mk reloaded [.diagnostics uri []]).andThen publish

def settingsChanged (around : Surroundings) (value : Json) (session : Session) : Turn :=
  let (outcome, store) := session.store.apply (.update value)
  let changed := { session with store := store }
  match outcome with
  | .error error => ⟨changed, [.notice .error ("linguist: " ++ error.message)]⟩
  | .ok () => changed.reindex around

def isSettingsPath (path : String) : Bool :=
  Path.fileName? path == some settingsFileName

/-- Puts the settings of a root folder into effect, and tells how that ends. -/
def loadSettings (around : Surroundings) (root : Option String) (session : Session) :
    Except SettingsError Unit × Session :=
  let (outcome, store) := session.store.apply (.load around.disk root)
  (outcome, { session with store := store })

def settingsNotice (error : SettingsError) : ServerMessage :=
  .log .error ("Configuration error: " ++ error.message)

def settingsFileChanged (around : Surroundings) (path : String) (session : Session) : Turn :=
  let root := session.store.root.or (Path.parent? path)
  match session.loadSettings around root with
  | (.error error, left) => ⟨left, [settingsNotice error]⟩
  | (.ok (), loaded) => loaded.reindex around

/-- What happened to a file. -/
inductive FileEvent where
  | created
  | changed
  | deleted
  | unknown
  deriving DecidableEq, Repr

/-- A change of a file on the disk. -/
structure FileChange where
  uri : Uri
  event : FileEvent
  deriving DecidableEq, Repr

/-- Follows the change of a catalog file; none when there is nothing to
follow. -/
def followChange? (disk : Disk) (path : String) (event : FileEvent) (session : Session) :
    Option Session :=
  if session.acceptsPath path then
    match event with
    | .created | .changed => some (session.reload disk path)
    | .deleted => some (session.untrack path)
    | .unknown => none
  else
    none

/-- Follows changes of catalog files; the flag tells that there was
something to follow. -/
def followChanges (disk : Disk) (session : Session) :
    List (String × FileEvent) → Session × Bool
  | [] => (session, false)
  | (path, event) :: rest =>
      match session.followChange? disk path event with
      | some followed => ((followChanges disk followed rest).1, true)
      | none => followChanges disk session rest

/-- Files changed on the disk.  A change of a settings file covers all other
changes. -/
def filesChanged (around : Surroundings) (changes : List FileChange) (session : Session) :
    Turn :=
  let paths := changes.filterMap fun change =>
    change.uri.filePath?.map fun path => (path, change.event)
  match (paths.filter fun change => isSettingsPath change.1).getLast? with
  | some (path, _) => session.settingsFileChanged around path
  | none =>
      let (followed, any) := session.followChanges around.disk paths
      if any then followed.publish else ⟨followed, []⟩

/-- The editor names the root folder of the workspace and asks what the
server can do. -/
def start (around : Surroundings) (root : Option String) (session : Session) : Turn :=
  match session.loadSettings around root with
  | (.error error, left) => ⟨left, [settingsNotice error]⟩
  | (.ok (), loaded) => ⟨loaded, []⟩

/-- Patterns of files whose changes the server wants to know. -/
def watchedPatterns (session : Session) : List String :=
  session.settings.catalogFiles.includePatterns ++ ["**/" ++ settingsFileName]

def ready (around : Surroundings) (session : Session) : Turn :=
  (((Turn.mk session [.log .information "initialized!"]).andThen
    (indexFolders around)).andThen finishIndexing).andThen fun indexed =>
      indexed.send [.watchFiles indexed.watchedPatterns]

end CatalogServer.Session
