import CatalogServer.Session.Basic

/-!
# Indexing the workspace in a session

The folders that the editor names are indexed one after the other, with
reports of progress.  Indexing again forgets all tracked files first and
puts the texts of open documents back over what the disk holds.
-/

namespace CatalogServer.Session

/-- The reports on candidates, the total number of which is given. -/
def candidateReports (total : Nat) : List ServerMessage :=
  (List.range total).map fun number => .progress (.candidate (number + 1) total)

def indexFolder (around : Surroundings) (path : String) (session : Session) : Turn :=
  match Indexing.indexFolder around.disk session.settings path with
  | .ok found =>
      { session := { session with tracked := Indexing.merge session.tracked found.files }
        sent := .progress .begins :: candidateReports found.candidates ++
          [.progress (.ends "Translation indexing complete")] }
  | .error error =>
      { session := session
        sent := [.progress .begins,
          .log .error ("error indexing workspace: " ++ error.message),
          .progress (.ends ("Indexing failed: " ++ error.message))] }

/-- Indexes the folders that the editor names and that are on this
machine. -/
def indexFolders (around : Surroundings) (session : Session) : Turn :=
  let paths := (around.folders.getD []).filterMap Uri.filePath?
  paths.foldl (fun turn path => turn.andThen (indexFolder around path))
    ⟨session, [.askFolders]⟩

/-- Tracks the text of an open document, if it is a catalog. -/
def restoreDocument (session : Session) (document : OpenDocument) : Session :=
  match document.uri.filePath? with
  | some path => session.trackIfCatalog path document.text
  | none => session

/-- Tracks the texts of all open documents that are catalogs. -/
def restoreDocuments (session : Session) : Session :=
  session.opened.foldl restoreDocument session

def finishIndexing (session : Session) : Turn :=
  { session with indexed := true }.publish

/-- Forgets all tracked files and indexes the workspace again. -/
def reindex (around : Surroundings) (session : Session) : Turn :=
  let emptied := { session with indexed := false, tracked := [] }
  ((Turn.mk emptied [.log .information "Reindexing workspace..."]).andThen
    (indexFolders around)).andThen fun indexed => indexed.restoreDocuments.finishIndexing

end CatalogServer.Session
