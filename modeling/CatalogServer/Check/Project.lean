import CatalogServer.Check.Message
import CatalogServer.Check.Progress
import CatalogServer.Text.Ascending
import CatalogServer.Workspace.Detection

/-!
# Checking the catalogs of a project

The catalogs of one project should have the same messages in every locale.
A message in use that other catalogs lack is reported once, with the
languages of the catalogs that lack it.
-/

namespace CatalogServer

open Text

namespace Check

/-- What another catalog of the project holds. -/
structure Sibling where
  language : String
  keys : List MessageKey
  deriving DecidableEq, Repr

/-- The other catalogs that must have every message of a project. -/
def siblings (project : String) (options : CheckOptions) (others : List CatalogFile) :
    List Sibling :=
  others.filterMap fun other =>
    if other.project == project && options.requires other.language then
      other.document?.map fun document =>
        ⟨other.language, document.catalog.entries.map (·.key)⟩
    else
      none

/-- The languages of the catalogs that lack a message, in increasing order. -/
def lackingLanguages (siblings : List Sibling) (key : MessageKey) : List String :=
  ascending ((siblings.filter (!·.keys.contains key)).map (·.language))

/-- The issue of a message in use that other catalogs lack. -/
def missingIssue? (spans : CatalogSpans) (siblings : List Sibling) (entry : MessageEntry) :
    Option Issue :=
  if entry.message.target.status.isActive then
    match lackingLanguages siblings entry.key, spans.message? entry.index with
    | [], _ => none
    | _, none => none
    | languages, some place =>
        some {
          kind := .missingInLocale
          span := place.source
          message := "'" ++ entry.message.source ++ "' is missing in: " ++
            ", ".intercalate languages
          index := some entry.index
          languages := languages }
  else
    none

/-- The messages of a file that other catalogs of its project lack; `others`
are the other files of the workspace. -/
def missingInLocale (file : CatalogFile) (others : List CatalogFile) (options : CheckOptions) :
    List Issue :=
  match file.document? with
  | none => []
  | some document =>
      document.catalog.entries.filterMap
        (missingIssue? document.spans (siblings file.project options others))

def ownIssues (file : CatalogFile) (options : CheckOptions) : List Issue :=
  match file.read with
  | .ok document => documentIssues document options
  | .error error => [malformedIssue error]

/-- All issues of a file; `others` are the other files of the workspace. -/
def fileIssues (file : CatalogFile) (others : List CatalogFile) (options : CheckOptions) :
    List Issue :=
  ownIssues file options ++ missingInLocale file others options

/-- The progress of a file, if it is a catalog. -/
def fileProgress? (file : CatalogFile) : Option Progress :=
  file.document?.map fun document => Progress.ofCatalog document.catalog

end Check

end CatalogServer
