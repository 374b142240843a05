import CatalogServer.Workspace.Disk
import CatalogServer.Workspace.IgnoreRules

/-!
# Searching a folder

The files below a folder are searched for catalogs, hidden files included.
Ignore files in the folders around a file decide whether it is passed over:
files named `.ignore` anywhere, and in a repository also those of the
repository.  A folder that is passed over is not searched at all.
-/

namespace CatalogServer

namespace Disk

/-- The folders around a place with the root, the nearest first. -/
def ancestors (place : Place) : List Place :=
  ((List.range place.length).map place.take).reverse

def relativePath (folder place : Place) : String :=
  "/".intercalate (place.drop folder.length)

/-- What an ignore file says about a place.  The file is named from the
folder that its rules start in. -/
def verdictOf? (disk : Disk) (name : Place) (place : Place) (isFolder : Bool)
    (folder : Place) : Option Verdict := do
  let bytes ← disk.files.get? (folder ++ name)
  (IgnoreRules.ofBytes bytes).verdict? (relativePath folder place) isFolder

def isRepository (disk : Disk) (folder : Place) : Bool :=
  let mark := folder ++ [".git"]
  disk.isFolder mark || disk.isFile mark

/-- The folders of a repository among folders from the inside out; none when
there is no repository. -/
def repositoryFolders (disk : Disk) (folders : List Place) : List Place :=
  match folders.findIdx? disk.isRepository with
  | some number => folders.take (number + 1)
  | none => []

/-- What the ignore files around a place say about it: in this order, files
named `.ignore`, those of the repository, and its list of exclusions; of
each kind the nearest file that says anything counts. -/
def verdict? (disk : Disk) (place : Place) (isFolder : Bool) : Option Verdict :=
  let around := ancestors place
  let repository := disk.repositoryFolders around
  let ask := fun (name : Place) (folders : List Place) =>
    folders.findSome? (disk.verdictOf? name place isFolder)
  (ask [".ignore"] around).or <|
    (ask [".gitignore"] repository).or (ask [".git", "info", "exclude"] repository)

/-- A place below a folder is searched when neither it nor a folder between
the two is passed over. -/
def isSearched (disk : Disk) (folder place : Place) : Bool :=
  let between := (List.range' (folder.length + 1) (place.length - folder.length)).map place.take
  between.all fun step => disk.verdict? step (step != place) != some .ignored

/-- The files below a folder that are searched, in the order of their
paths. -/
def search (disk : Disk) (folder : Place) : List Place :=
  (disk.files.entries.map (·.1)).filter fun place =>
    folder.isPrefixOf place && disk.isSearched folder place

end Disk

end CatalogServer
