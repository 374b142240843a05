import CatalogServer.Glob.Matching
import CatalogServer.Settings.Basic
import CatalogServer.Workspace.Path

/-!
# Which files are catalogs

A file is a catalog file of a workspace when its path below the root folder
matches one of the patterns to include and none of the patterns to exclude.
-/

namespace CatalogServer

/-- Why there is no matcher. -/
inductive MatcherError where
  | includePattern (text : String) (error : Glob.PatternError)
  | excludePattern (text : String) (error : Glob.PatternError)
  deriving DecidableEq, Repr

def MatcherError.message : MatcherError → String
  | .includePattern text error =>
      "Invalid translation file pattern '" ++ text ++ "': " ++ error.describe text
  | .excludePattern text error =>
      "Invalid exclude pattern '" ++ text ++ "': " ++ error.describe text

/-- Tells catalog files by their paths. -/
structure FileMatcher where
  root : String
  included : List Glob.Pattern
  excluded : List Glob.Pattern
  deriving Repr

namespace FileMatcher

def readPatterns (fault : String → Glob.PatternError → MatcherError) (texts : List String) :
    Except MatcherError (List Glob.Pattern) :=
  texts.mapM fun text => (Glob.Pattern.read text false).mapError (fault text)

/-- The matcher of a root folder under given settings. -/
def ofSettings (root : String) (settings : Settings) : Except MatcherError FileMatcher := do
  let included ← readPatterns .includePattern settings.catalogFiles.includePatterns
  let excluded ← readPatterns .excludePattern settings.allExcludePatterns
  return ⟨root, included, excluded⟩

def anyMatches (patterns : List Glob.Pattern) (path : String) : Bool :=
  patterns.any fun pattern => pattern.matchesPath .wild path

/-- A path below the root folder is that of a catalog file. -/
def acceptsRelative (matcher : FileMatcher) (path : String) : Bool :=
  anyMatches matcher.included path && !anyMatches matcher.excluded path

def accepts (matcher : FileMatcher) (path : String) : Bool :=
  match Path.relativeTo? matcher.root path with
  | some relative => matcher.acceptsRelative relative
  | none => false

end FileMatcher

end CatalogServer
