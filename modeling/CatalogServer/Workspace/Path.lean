/-!
# Paths

A path is a text whose pieces are separated by slashes.  Empty pieces and
single dots in its body mean nothing, so paths that differ only in them
have the same components; the path that remains below a folder is kept as it
was written, apart from such pieces at its ends.
-/

namespace CatalogServer.Path

/-- A component of a path. -/
inductive Component where
  | root
  /-- A dot in front of a relative path. -/
  | current
  | parent
  | name (text : List Char)
  deriving DecidableEq, Repr

/-- The pieces of a text between slashes, empty ones included. -/
def pieces : List Char → List (List Char)
  | [] => [[]]
  | c :: rest =>
      if c == '/' then
        [] :: pieces rest
      else
        match pieces rest with
        | [] => [[c]]
        | first :: others => (c :: first) :: others

def joinPieces (parts : List (List Char)) : List Char :=
  ['/'].intercalate parts

/-- A piece that means nothing: empty or a single dot. -/
def isVoid (piece : List Char) : Bool :=
  piece == [] || piece == ['.']

/-- What a path starts with. -/
inductive Head where
  | rooted
  | dotted
  | plain
  deriving DecidableEq, Repr

/-- The head of a path and the pieces behind it. -/
def split (path : List Char) : Head × List (List Char) :=
  match path with
  | '/' :: rest => (.rooted, pieces rest)
  | _ =>
      match pieces path with
      | ['.'] :: rest => (.dotted, rest)
      | parts => (.plain, parts)

def Component.ofPiece (piece : List Char) : Component :=
  if piece == ['.', '.'] then .parent else .name piece

def Head.components : Head → List Component
  | .rooted => [.root]
  | .dotted => [.current]
  | .plain => []

def components (path : String) : List Component :=
  let (head, parts) := split path.toList
  head.components ++ (parts.filter (!isVoid ·)).map .ofPiece

/-- True of a path that starts at the root. -/
def isAbsolute (path : String) : Bool :=
  path.toList.head? == some '/'

def fileName? (path : String) : Option String :=
  match (components path).getLast? with
  | some (.name text) => some (String.ofList text)
  | _ => none

/-- The name of the folder that a path lies in. -/
def parentName? (path : String) : Option String :=
  match (components path).reverse with
  | .root :: _ => none
  | _ :: .name text :: _ => some (String.ofList text)
  | _ => none

/-- A name cut at its last dot; a dot in front belongs to the name. -/
def splitExtension (name : List Char) : List Char × Option (List Char) :=
  let behind := name.reverse.takeWhile (· != '.')
  match name.reverse.dropWhile (· != '.') with
  | [] | [_] => (name, none)
  | _ :: before => (before.reverse, some behind.reverse)

/-- The name at the end of a path without its extension. -/
def stem? (path : String) : Option String :=
  (fileName? path).map fun name => String.ofList (splitExtension name.toList).1

/-- The extension of the name at the end of a path. -/
def extension? (path : String) : Option String := do
  let name ← fileName? path
  let extension ← (splitExtension name.toList).2
  some (String.ofList extension)

/-- The folder that a path lies in, as written. -/
def parent? (path : String) : Option String :=
  let (head, parts) := split path.toList
  let start :=
    match head with
    | .rooted => ['/']
    | .dotted => ['.']
    | .plain => []
  match parts.reverse.dropWhile isVoid with
  | [] => if head == .dotted then some "" else none
  | _ :: before =>
      let kept := (before.dropWhile isVoid).reverse
      match head with
      | .dotted => some (String.ofList (joinPieces (start :: kept)))
      | _ => some (String.ofList (start ++ joinPieces kept))

/-- Pieces without the ones at both ends that mean nothing. -/
def trimPieces (parts : List (List Char)) : List (List Char) :=
  ((parts.dropWhile isVoid).reverse.dropWhile isVoid).reverse

/-- The pieces behind the names of a folder, if the path lies in it. -/
def dropFolder : (folder : List (List Char)) → List (List Char) → Option (List (List Char))
  | [], parts => some parts
  | _ :: _, [] => none
  | name :: names, piece :: rest =>
      if isVoid piece then dropFolder (name :: names) rest
      else if piece == name then dropFolder names rest
      else none

/-- The part of a path below a folder, or none when it does not lie there. -/
def relativeTo? (folder path : String) : Option String :=
  let (folderHead, folderParts) := split folder.toList
  let (head, parts) := split path.toList
  let names := folderParts.filter (!isVoid ·)
  if folderHead == .plain && names.isEmpty then
    let body := (parts.reverse.dropWhile isVoid).reverse
    match head with
    | .rooted => some (String.ofList ('/' :: joinPieces body))
    | .dotted => some (String.ofList (joinPieces (['.'] :: body)))
    | .plain => some (String.ofList (joinPieces body))
  else if folderHead == head then
    (dropFolder names parts).map fun rest => String.ofList (joinPieces (trimPieces rest))
  else
    none

def join (folder name : String) : String :=
  if folder == "" || folder.toList.getLast? == some '/' then folder ++ name
  else folder ++ "/" ++ name

end CatalogServer.Path
