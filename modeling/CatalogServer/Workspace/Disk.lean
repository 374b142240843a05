import CatalogServer.Text.SortedMap
import CatalogServer.Text.Utf8
import CatalogServer.Workspace.Detection

/-!
# The disk

A disk holds files and folders below a root.  A file is found by the names
of the folders around it and its own name, so different spellings of a path
find the same file.  A folder stays when the files in it are removed.
-/

namespace CatalogServer

open Text

/-- The names on the way from the root of a disk to a file or folder. -/
abbrev Place := List String

/-- Why a file cannot be read. -/
inductive DiskError where
  | notFound
  /-- A file stands where the path has a folder. -/
  | notFolder
  | isFolder
  | notText
  deriving DecidableEq, Repr

def DiskError.message : DiskError → String
  | .notFound => "No such file or directory (os error 2)"
  | .notFolder => "Not a directory (os error 20)"
  | .isFolder => "Is a directory (os error 21)"
  | .notText => "stream did not contain valid UTF-8"

structure Disk where
  files : SortedMap Place (List UInt8) := .empty
  folders : List Place := []
  deriving Repr

namespace Disk

def isFile (disk : Disk) (place : Place) : Bool :=
  (disk.files.get? place).isSome

def isFolder (disk : Disk) (place : Place) : Bool :=
  place.isEmpty || disk.folders.contains place

/-- The place that the components of a path lead to from a folder.  Two dots
lead to the folder around. -/
def follow (disk : Disk) : Place → List Path.Component → Except DiskError Place
  | place, [] => .ok place
  | place, component :: rest =>
      if disk.isFolder place then
        match component with
        | .root | .current => follow disk place rest
        | .parent => follow disk place.dropLast rest
        | .name text => follow disk (place ++ [String.ofList text]) rest
      else if disk.isFile place then .error .notFolder
      else .error .notFound

def place (disk : Disk) (path : String) : Except DiskError Place :=
  if Path.isAbsolute path then disk.follow [] (Path.components path) else .error .notFound

/-- There is a file or a folder at a path. -/
def hasPath (disk : Disk) (path : String) : Bool :=
  match disk.place path with
  | .ok place => disk.isFolder place || disk.isFile place
  | .error _ => false

def textAt (disk : Disk) (place : Place) : Except DiskError String :=
  if disk.isFolder place then .error .isFolder
  else
    match disk.files.get? place with
    | none => .error .notFound
    | some bytes =>
        match decode bytes with
        | some text => .ok text
        | none => .error .notText

def readText (disk : Disk) (path : String) : Except DiskError String := do
  disk.textAt (← disk.place path)

def foldersAround (place : Place) : List Place :=
  (List.range' 1 (place.length - 1)).map place.take

def addFolders (disk : Disk) (places : List Place) : Disk :=
  { disk with folders := disk.folders ++ places.filter (!disk.folders.contains ·) }

/-- Writes a file, with the folders around it.  Nothing happens where a
folder stands, or below a file. -/
def write (disk : Disk) (place : Place) (bytes : List UInt8) : Disk :=
  let around := foldersAround place
  if disk.isFolder place || around.any disk.isFile then disk
  else
    let ready := disk.addFolders around
    { ready with files := ready.files.insert place bytes }

def remove (disk : Disk) (place : Place) : Disk :=
  { disk with files := disk.files.erase place }

end Disk

/-- The catalog file at a path, or none when the file there does not look
like a catalog. -/
def CatalogFile.load (disk : Disk) (path : String) :
    Except DiskError (Option CatalogFile) := do
  let text ← disk.readText path
  return if Detection.looksLikeCatalog text then some (.ofText path text) else none

end CatalogServer
