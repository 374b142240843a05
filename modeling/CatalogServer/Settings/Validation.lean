import CatalogServer.Glob.Reader
import CatalogServer.Settings.Basic
import CatalogServer.Text.Blank

/-!
# Valid settings

Settings that can be read may still make no sense.  Every problem names the
member it is about; settings without problems can be put into effect.
-/

namespace CatalogServer

/-- A problem of settings. -/
structure SettingsProblem where
  field : String
  message : String
  deriving DecidableEq, Repr

namespace Settings

/-- The largest number of plural forms of any language. -/
def maxFormCount : Nat := 6

def problemIf (condition : Bool) (field message : String) : List SettingsProblem :=
  if condition then [⟨field, message⟩] else []

/-- The problem of a pattern, numbered in the list of a member. -/
def patternProblems (field : String) (pattern : String) (number : Nat) :
    List SettingsProblem :=
  match Glob.Pattern.read pattern false with
  | .ok _ => []
  | .error error =>
      [⟨field ++ "[" ++ toString number ++ "]",
        "Invalid glob pattern '" ++ pattern ++ "': " ++ error.describe pattern⟩]

def patternListProblems (field : String) (patterns : List String) : List SettingsProblem :=
  (patterns.mapIdx fun number pattern => patternProblems field pattern number).flatten

def formCountProblems (locale : String) (count : Nat) : List SettingsProblem :=
  problemIf (Text.isBlankText locale.toList) "pluralForms" "Language tags cannot be empty" ++
  problemIf (count < 1 || maxFormCount < count) ("pluralForms." ++ locale)
    ("Form count must be between 1 and " ++ toString maxFormCount ++ ", got " ++
      toString count)

def problems (settings : Settings) : List SettingsProblem :=
  problemIf settings.catalogFiles.includePatterns.isEmpty "translationFiles.includePatterns"
    "At least one pattern is required. Example: [\"**/*.ts\"]" ++
  patternListProblems "translationFiles.includePatterns"
    settings.catalogFiles.includePatterns ++
  patternListProblems "translationFiles.excludePatterns"
    settings.catalogFiles.excludePatterns ++
  patternListProblems "excludePatterns" settings.excludePatterns ++
  problemIf (settings.indexing.threads == some 0) "indexing.numThreads"
    "Must be at least 1, or removed to use 80% of the CPU cores" ++
  problemIf (settings.requiredLanguages.isSome && settings.optionalLanguages.isSome)
    "requiredLanguages/optionalLanguages"
    ("Cannot specify both 'requiredLanguages' and 'optionalLanguages'. " ++
      "Please use only one") ++
  settings.formCounts.entries.flatMap fun (locale, count) => formCountProblems locale count

def isValid (settings : Settings) : Bool :=
  settings.problems.isEmpty

end Settings

end CatalogServer
