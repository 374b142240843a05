import CatalogServer.Check.Project
import CatalogServer.Editor.Geometry
import CatalogServer.Settings.Basic

/-!
# Diagnostics

Editors show the issues of a document as diagnostics.  The diagnostics of a
file are the issues of the kinds that the settings enable, in the order of
the checks.
-/

namespace CatalogServer

open Json

/-- The code of a diagnostic. -/
inductive DiagnosticCode where
  | name (text : String)
  | number (value : Int)
  deriving DecidableEq, Repr

/-- What an editor shows about a stretch of a document. -/
structure Diagnostic where
  range : Text.Range
  severity : Option Int := none
  code : Option DiagnosticCode := none
  codeDescription : Option Json := none
  source : Option String := none
  message : String
  relatedInformation : Option Json := none
  tags : Option (List Int) := none
  data : Option Json := none
  deriving Repr

namespace DiagnosticCode

def encode : DiagnosticCode → Json
  | .name text => .string text
  | .number value => ofInt value

def decode : Decoder DiagnosticCode
  | .string text => .ok (.name text)
  | .number (.integer value) => .ok (.number value)
  | _ => .error (.unreadable "data did not match any variant of untagged enum NumberOrString")

end DiagnosticCode

namespace Diagnostic

def reporter : String := "linguist"

def unnecessaryTag : Int := 1

def ofIssue (text : List Char) (settings : Settings) (issue : Issue) : Diagnostic where
  range := Text.LineIndex.range text issue.span
  severity := some (settings.severity issue.kind).code
  code := some (.name issue.kind.code)
  source := some reporter
  message := issue.message
  tags := if issue.kind.isUnnecessary then some [unnecessaryTag] else none
  data :=
    if issue.languages.isEmpty then none
    else some (ofMembers [("languages", ofList .string issue.languages)])

/-- The diagnostics of a file; `others` are the other files of the
workspace. -/
def ofFile (file : CatalogFile) (others : List CatalogFile) (settings : Settings) :
    List Diagnostic :=
  let issues := Check.fileIssues file others settings.checkOptions
  (issues.filter fun issue => settings.isEnabled issue.kind).map
    (ofIssue file.text.toList settings)

def encode (diagnostic : Diagnostic) : Json :=
  ofPresentMembers [
    ("range", some diagnostic.range.encode),
    ("severity", diagnostic.severity.map ofInt),
    ("code", diagnostic.code.map DiagnosticCode.encode),
    ("codeDescription", diagnostic.codeDescription),
    ("source", diagnostic.source.map .string),
    ("message", some (.string diagnostic.message)),
    ("relatedInformation", diagnostic.relatedInformation),
    ("tags", diagnostic.tags.map (ofList ofInt)),
    ("data", diagnostic.data)]

def decode : Decoder Diagnostic := fun value => do
  let members ← asMembers "Diagnostic" ["range", "severity", "code", "codeDescription",
    "source", "message", "relatedInformation", "tags", "data"] value
  let code ← givenOptional members "code" DiagnosticCode.decode
  let codeDescription ← givenOptional members "codeDescription" .ok
  let data ← givenOptional members "data" .ok
  let message ← given members "message" asText
  let range ← given members "range" Text.Range.decode
  let relatedInformation ← givenOptional members "relatedInformation" .ok
  let severity ← givenOptional members "severity" (asInteger .signed32)
  let source ← givenOptional members "source" asText
  let tags ← givenOptional members "tags" (asList (asInteger .signed32))
  return {
    range := ← require "range" range
    severity := severity
    code := code
    codeDescription := codeDescription
    source := source
    message := ← require "message" message
    relatedInformation := relatedInformation
    tags := tags
    data := data }

end Diagnostic

end CatalogServer
