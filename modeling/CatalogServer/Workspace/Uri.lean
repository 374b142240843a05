import CatalogServer.Text.Percent
import CatalogServer.Workspace.Path

/-!
# Addresses of documents

Editors name documents by addresses.  An address is read into its parts and
has one spelling for each value: dot segments are resolved, and characters
that must not stand in an address are percent-encoded.  The address of a
file names the machine, which must be this one, and the path.
-/

namespace CatalogServer

open Text

/-- The address of a document. -/
structure Uri where
  scheme : String
  /-- The machine with what belongs to it, if one is named. -/
  host : Option String
  path : String
  query : Option String
  fragment : Option String
  deriving DecidableEq, Repr, Inhabited

/-- Why a text is no address. -/
inductive UriError where
  | relative
  /-- It lacks the machine that its scheme needs. -/
  | emptyHost
  deriving DecidableEq, Repr

def UriError.message : UriError → String
  | .relative => "relative URL without a base"
  | .emptyHost => "empty host"

namespace Uri

def render (uri : Uri) : String :=
  uri.scheme ++ ":" ++ (uri.host.map ("//" ++ ·)).getD "" ++ uri.path ++
    (uri.query.map ("?" ++ ·)).getD "" ++ (uri.fragment.map ("#" ++ ·)).getD ""

def isReservedInFragment (c : Char) : Bool :=
  " \"<>`".toList.contains c

def isReservedInQuery (c : Char) : Bool :=
  " \"#<>".toList.contains c

def isReservedInPath (c : Char) : Bool :=
  isReservedInFragment c || "#?\x7b\x7d^".toList.contains c

/-- Characters that are encoded in a name between slashes. -/
def isReservedInName (c : Char) : Bool :=
  isReservedInPath c || "/%\\|".toList.contains c

/-- Schemes whose addresses always name a machine; each slash may also be
written as a backslash. -/
def isSpecial (scheme : String) : Bool :=
  ["file", "http", "https", "ws", "wss", "ftp"].contains scheme

/-- The scheme in front of a text, in lower case, and the text behind its
colon. -/
def splitScheme (text : List Char) : Option (String × List Char) :=
  let isSchemeChar := fun (c : Char) => c.isAlphanum || c == '+' || c == '-' || c == '.'
  match text.takeWhile isSchemeChar, text.dropWhile isSchemeChar with
  | first :: others, ':' :: rest =>
      if first.isAlpha then
        some (String.ofList ((first :: others).map Char.toLower), rest)
      else none
  | _, _ => none

def isSlash (special : Bool) (c : Char) : Bool :=
  c == '/' || (special && c == '\\')

def splitNames (special : Bool) : List Char → List (List Char)
  | [] => [[]]
  | c :: rest =>
      if isSlash special c then
        [] :: splitNames special rest
      else
        match splitNames special rest with
        | [] => [[c]]
        | first :: others => (c :: first) :: others

def isDot (name : List Char) : Bool :=
  [".", "%2e", "%2E"].contains (String.ofList name)

def isTwoDots (name : List Char) : Bool :=
  ["..", ".%2e", ".%2E", "%2e.", "%2E.", "%2e%2e", "%2e%2E", "%2E%2e", "%2E%2E"].contains
    (String.ofList name)

/-- Resolves dot segments; `done` are the names before, the last one
first. -/
def resolveDots (done : List (List Char)) : List (List Char) → List (List Char)
  | [] => done.reverse
  | name :: rest =>
      let before :=
        if isTwoDots name then done.tail else done
      if isTwoDots name || isDot name then
        resolveDots (if rest.isEmpty then [] :: before else before) rest
      else
        resolveDots (percentEncode isReservedInPath name :: done) rest

def joinNames (names : List (List Char)) : String :=
  String.ofList (names.flatMap ('/' :: ·))

/-- Names without empty ones in front, unless nothing else is left. -/
def dropEmptyNames : List (List Char) → List (List Char)
  | [] :: next :: rest => dropEmptyNames (next :: rest)
  | names => names

def normalizePath (scheme : String) (text : List Char) : String :=
  let names := resolveDots [] (splitNames (isSpecial scheme) text)
  joinNames (if scheme == "file" then dropEmptyNames names else names)

/-- A text without the first of its characters, if that is a slash. -/
def dropSlash (special : Bool) : List Char → List Char
  | [] => []
  | c :: rest => if isSlash special c then rest else c :: rest

/-- The parts of a text behind the scheme: what comes before the query, the
query and the fragment. -/
def splitTail (text : List Char) : List Char × Option (List Char) × Option (List Char) :=
  let beforeFragment := text.takeWhile (· != '#')
  let fragment :=
    match text.dropWhile (· != '#') with
    | [] => none
    | _ :: rest => some rest
  let query :=
    match beforeFragment.dropWhile (· != '?') with
    | [] => none
    | _ :: rest => some rest
  (beforeFragment.takeWhile (· != '?'), query, fragment)

/-- The machine of an address as it is written; this machine needs no
name. -/
def hostOf (scheme : String) (text : List Char) : String :=
  let name := if isSpecial scheme then String.ofList (text.map Char.toLower)
    else String.ofList text
  if scheme == "file" && name == "localhost" then "" else name

/-- A name of a drive, which is no machine. -/
def isDrive : List Char → Bool
  | [letter, mark] => letter.isAlpha && (mark == ':' || mark == '|')
  | _ => false

/-- The machine and the path of a text behind the scheme. -/
def splitHost (scheme : String) (text : List Char) :
    Except UriError (Option String × String) :=
  let special := isSpecial scheme
  let isMark := isSlash special
  match text with
  | first :: second :: rest =>
      if isMark first && isMark second then
        let behind := if special && scheme != "file" then rest.dropWhile isMark else rest
        let host := behind.takeWhile (!isMark ·)
        let path := behind.dropWhile (!isMark ·)
        if scheme == "file" && isDrive host then
          .ok (some "", normalizePath scheme behind)
        else if special && scheme != "file" && host.isEmpty then .error .emptyHost
        else if path.isEmpty && !special then .ok (some (hostOf scheme host), "")
        else .ok (some (hostOf scheme host), normalizePath scheme (dropSlash special path))
      else withoutHost special text
  | _ => withoutHost special text
where
  /-- The path of a text that names no machine. -/
  withoutHost (special : Bool) (text : List Char) :
      Except UriError (Option String × String) :=
    if scheme == "file" then .ok (some "", normalizePath scheme (dropSlash true text))
    else if special then
      if text.isEmpty then .error .emptyHost
      else
        let host := (dropSlash true text).takeWhile (!isSlash true ·)
        let path := (dropSlash true text).dropWhile (!isSlash true ·)
        .ok (some (hostOf scheme host), normalizePath scheme (dropSlash true path))
    else if text.head? == some '/' then .ok (none, normalizePath scheme text.tail)
    else .ok (none, String.ofList (percentEncode (fun _ => false) text))

def read (text : String) : Except UriError Uri :=
  let isEnd := fun (c : Char) => decide (c.toNat ≤ 0x20)
  let isLineEnd := fun (c : Char) => c == '\t' || c == '\n' || c == '\r'
  let inner := ((text.toList.dropWhile isEnd).reverse.dropWhile isEnd).reverse
  match splitScheme (inner.filter (!isLineEnd ·)) with
  | none => .error .relative
  | some (scheme, rest) => do
      let (body, query, fragment) := splitTail rest
      let (host, path) ← splitHost scheme body
      return {
        scheme := scheme
        host := host
        path := path
        query := query.map fun text => String.ofList (percentEncode isReservedInQuery text)
        fragment := fragment.map fun text =>
          String.ofList (percentEncode isReservedInFragment text) }

/-- The path of the file that an address names, if the file is on this
machine. -/
def filePath? (uri : Uri) : Option String :=
  let isHere := uri.host.all fun host => host == "" || host == "localhost"
  match uri.path.toList with
  | '/' :: _ =>
      if isHere then some (String.ofList (decodeLenient (percentDecode uri.path.toList)))
      else none
  | _ => none

/-- The address of the file at an absolute path. -/
def ofFilePath? (path : String) : Option Uri :=
  if Path.isAbsolute path then
    let names := (Path.components path).filterMap fun component =>
      match component with
      | .name text => some (percentEncode isReservedInName text)
      | .parent => some ['.', '.']
      | .root | .current => none
    some ⟨"file", some "", if names.isEmpty then "/" else joinNames names, none, none⟩
  else
    none

end Uri

end CatalogServer
