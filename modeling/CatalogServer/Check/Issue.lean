import CatalogServer.Catalog.Basic
import CatalogServer.Locale.Plural
import CatalogServer.Text.Span

/-!
# Issues

The checks of a catalog report issues.  Every kind of issue has a code, by
which settings refer to it, and a severity that holds unless the settings
give another one.
-/

namespace CatalogServer

open Text

/-- How serious an issue is. -/
inductive Severity where
  /-- The catalog cannot be used as it is. -/
  | error
  | warning
  | information
  | hint
  deriving DecidableEq, Repr

namespace Severity

def all : List Severity := [.error, .warning, .information, .hint]

def name : Severity → String
  | .error => "error"
  | .warning => "warning"
  | .information => "information"
  | .hint => "hint"

def ofName? (name : String) : Option Severity :=
  all.find? (·.name == name)

/-- The number that stands for a severity in the editor protocol. -/
def code : Severity → Nat
  | .error => 1
  | .warning => 2
  | .information => 3
  | .hint => 4

end Severity

/-- A kind of issue. -/
inductive IssueKind where
  | malformed
  | emptySource
  | emptyContextName
  /-- A message that occurs twice in its context. -/
  | duplicateMessage
  | missingTarget
  | unfinished
  /-- A wrong number of plural forms, or forms where none belong. -/
  | pluralForms
  /-- A catalog whose language is absent or has no known plural rule. -/
  | unknownLanguage
  | placeholderMismatch
  /-- Only one of source and target has a keyboard accelerator. -/
  | acceleratorMismatch
  | punctuationMismatch
  /-- A message that the application no longer uses. -/
  | obsolete
  /-- A message that other catalogs of the project lack. -/
  | missingInLocale
  deriving DecidableEq, Repr

namespace IssueKind

def all : List IssueKind := [
  .malformed, .emptySource, .emptyContextName, .duplicateMessage, .missingTarget,
  .unfinished, .pluralForms, .unknownLanguage, .placeholderMismatch,
  .acceleratorMismatch, .punctuationMismatch, .obsolete, .missingInLocale]

def code : IssueKind → String
  | .malformed => "malformed"
  | .emptySource => "empty-source"
  | .emptyContextName => "empty-context-name"
  | .duplicateMessage => "duplicate-message"
  | .missingTarget => "missing-translation"
  | .unfinished => "unfinished"
  | .pluralForms => "plural-forms"
  | .unknownLanguage => "unknown-language"
  | .placeholderMismatch => "placeholder-mismatch"
  | .acceleratorMismatch => "accelerator-mismatch"
  | .punctuationMismatch => "punctuation-mismatch"
  | .obsolete => "obsolete"
  | .missingInLocale => "missing-in-locale"

def ofCode? (code : String) : Option IssueKind :=
  all.find? (·.code == code)

def defaultSeverity : IssueKind → Severity
  | .malformed | .emptySource | .emptyContextName | .pluralForms => .error
  | .duplicateMessage | .missingTarget | .placeholderMismatch => .warning
  | .unfinished | .unknownLanguage | .missingInLocale => .information
  | .acceleratorMismatch | .punctuationMismatch | .obsolete => .hint

/-- Editors show what such an issue covers as unnecessary. -/
def isUnnecessary (kind : IssueKind) : Bool :=
  kind == .obsolete

/-- Place of a kind in the order of kinds. -/
def rank (kind : IssueKind) : Nat :=
  kind.ctorIdx

instance : Ord IssueKind := ⟨fun first second => compare first.rank second.rank⟩

theorem compare_eq_rank (first second : IssueKind) :
    compare first second = compare first.rank second.rank :=
  rfl

instance : Std.TransOrd IssueKind where
  eq_swap {first second} := by
    rw [compare_eq_rank, compare_eq_rank]
    exact Std.OrientedOrd.eq_swap
  isLE_trans {first second third} := by
    rw [compare_eq_rank, compare_eq_rank, compare_eq_rank]
    exact Std.TransOrd.isLE_trans

instance : Std.LawfulEqOrd IssueKind where
  compare_self {kind} := by
    rw [compare_eq_rank]
    exact Std.ReflOrd.compare_self
  eq_of_compare {first second} same := by
    have rankEq : first.rank = second.rank := Std.LawfulEqOrd.eq_of_compare same
    cases first <;> cases second <;> first | rfl | exact absurd rankEq (by decide)

end IssueKind

/-- Something worth reporting about a catalog. -/
structure Issue where
  kind : IssueKind
  span : ByteSpan
  message : String
  /-- The message it is about, if it is about one. -/
  index : Option MessageIndex := none
  languages : List String := []
  deriving DecidableEq, Repr

/-- What the settings say about the checks. -/
structure CheckOptions where
  /-- Numbers of plural forms set by the user. -/
  formCounts : FormCounts := .empty
  requiredLanguages : Option (List String) := none
  optionalLanguages : Option (List String) := none
  deriving DecidableEq, Repr

namespace CheckOptions

def expectedFormCount? (options : CheckOptions) (locale : String) : Option Nat :=
  CatalogServer.expectedFormCount? options.formCounts locale

/-- A catalog of the language must have every message of its project. -/
def requires (options : CheckOptions) (language : String) : Bool :=
  match options.requiredLanguages, options.optionalLanguages with
  | some required, _ => required.contains language
  | none, some optional => !optional.contains language
  | none, none => true

end CheckOptions

end CatalogServer
