import CatalogServer.Check.Issue

/-!
# Settings

The settings say which files are catalogs, which issues are reported and
how serious they are, and what is known about the languages of a project.
-/

namespace CatalogServer

open Text

/-- What the settings say about one kind of issue. -/
structure RuleSettings where
  enabled : Bool := true
  /-- The severity in place of the usual one. -/
  severity : Option Severity := none
  deriving DecidableEq, Repr, Inhabited

/-- Which files are catalogs. -/
structure CatalogFileSettings where
  includePatterns : List String := ["**/*.ts"]
  /-- Patterns of paths that are not, all the same. -/
  excludePatterns : List String := []
  deriving DecidableEq, Repr, Inhabited

/-- How the workspace is searched. -/
structure IndexingSettings where
  /-- How many files are read at the same time. -/
  threads : Option Nat := none
  deriving DecidableEq, Repr, Inhabited

structure Settings where
  catalogFiles : CatalogFileSettings := {}
  /-- Patterns of paths that are never looked at. -/
  excludePatterns : List String := ["node_modules/**", "target/**"]
  indexing : IndexingSettings := {}
  rules : SortedMap IssueKind RuleSettings := .empty
  requiredLanguages : Option (List String) := none
  optionalLanguages : Option (List String) := none
  primaryLanguages : Option (List String) := none
  /-- Numbers of plural forms set by the user. -/
  formCounts : FormCounts := .empty
  deriving DecidableEq, Repr, Inhabited

namespace Settings

def isEnabled (settings : Settings) (kind : IssueKind) : Bool :=
  match settings.rules.get? kind with
  | some rule => rule.enabled
  | none => true

def severity (settings : Settings) (kind : IssueKind) : Severity :=
  ((settings.rules.get? kind).bind (·.severity)).getD kind.defaultSeverity

def checkOptions (settings : Settings) : CheckOptions :=
  ⟨settings.formCounts, settings.requiredLanguages, settings.optionalLanguages⟩

def allExcludePatterns (settings : Settings) : List String :=
  settings.excludePatterns ++ settings.catalogFiles.excludePatterns

end Settings

end CatalogServer
