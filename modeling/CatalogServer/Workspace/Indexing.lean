import CatalogServer.Workspace.FileMatcher
import CatalogServer.Workspace.Walk

/-!
# Indexing a folder

Indexing searches a folder of the workspace for catalog files and adds them
to the files that are tracked, in place of earlier files at the same paths.
Files that cannot be read, or that do not look like catalogs, are passed
over.
-/

namespace CatalogServer

/-- Why a folder cannot be indexed. -/
inductive IndexingError where
  | invalidFolder (path : String)
  /-- The settings have a text that is no pattern. -/
  | matcher (error : MatcherError)
  deriving DecidableEq, Repr

def IndexingError.message : IndexingError → String
  | .invalidFolder path => "Invalid workspace path: " ++ path
  | .matcher error => error.message

/-- What indexing a folder found. -/
structure IndexedFolder where
  files : List CatalogFile
  /-- How many files had to be looked at. -/
  candidates : Nat
  deriving Repr

namespace Indexing

/-- The paths below a folder that a matcher accepts, in their order. -/
def candidatePaths (disk : Disk) (matcher : FileMatcher) (folder : Place) : List String :=
  let paths := (disk.search folder).map fun place =>
    Path.join matcher.root (Disk.relativePath folder place)
  paths.filter matcher.accepts

/-- The catalog file at a path, if it can be read and looks like one. -/
def loadCandidate? (disk : Disk) (path : String) : Option CatalogFile :=
  match CatalogFile.load disk path with
  | .ok file => file
  | .error _ => none

def indexFolder (disk : Disk) (settings : Settings) (root : String) :
    Except IndexingError IndexedFolder := do
  let folder ←
    match disk.place root with
    | .ok place => if disk.isFolder place then .ok place else .error (.invalidFolder root)
    | .error _ => .error (.invalidFolder root)
  let matcher ← (FileMatcher.ofSettings root settings).mapError .matcher
  let paths := candidatePaths disk matcher folder
  return ⟨paths.filterMap (loadCandidate? disk), paths.length⟩

/-- The tracked files with the files found in a folder, which replace those
at the same paths. -/
def merge (tracked found : List CatalogFile) : List CatalogFile :=
  tracked.filter (fun file => !found.any (·.path == file.path)) ++ found

end Indexing

end CatalogServer
