import CatalogServer.Json.Decode
import CatalogServer.Settings.Basic

/-!
# Settings as JSON values

Settings are exchanged as JSON values.  Every member may be left out and
then has its default; writing settings gives every member.
-/

namespace CatalogServer

open Json

def Severity.decode : Decoder Severity :=
  asChoice Severity.ofName? (Severity.all.map Severity.name)

namespace RuleSettings

def members : List (Member RuleSettings) := [
  ⟨"enabled", fun rule value => do return { rule with enabled := ← asTruth value }⟩,
  ⟨"severity", fun rule value => do
    return { rule with severity := ← asOptional Severity.decode value }⟩]

def decode : Decoder RuleSettings :=
  asRecord "RuleConfig" members {}

def encode (rule : RuleSettings) : Json :=
  ofMembers [("enabled", .bool rule.enabled),
    ("severity", ofOption (fun severity => .string severity.name) rule.severity)]

end RuleSettings

namespace CatalogFileSettings

def members : List (Member CatalogFileSettings) := [
  ⟨"includePatterns", fun files value => do
    return { files with includePatterns := ← asList asText value }⟩,
  ⟨"excludePatterns", fun files value => do
    return { files with excludePatterns := ← asList asText value }⟩]

def decode : Decoder CatalogFileSettings :=
  asRecord "TranslationFilesConfig" members {}

def encode (files : CatalogFileSettings) : Json :=
  ofMembers [("includePatterns", ofList .string files.includePatterns),
    ("excludePatterns", ofList .string files.excludePatterns)]

end CatalogFileSettings

namespace IndexingSettings

def members : List (Member IndexingSettings) := [
  ⟨"numThreads", fun indexing value => do
    return { indexing with threads := ← asOptional asSize value }⟩]

def decode : Decoder IndexingSettings :=
  asRecord "IndexingConfig" members {}

def encode (indexing : IndexingSettings) : Json :=
  ofMembers [("numThreads", ofOption ofNat indexing.threads)]

end IndexingSettings

namespace Settings

/-- The settings of kinds of issues, by the code of the kind. -/
def decodeRules (value : Json) :
    Except DecodeError (Text.SortedMap IssueKind RuleSettings) := do
  let entries ← asEntries (choiceOf IssueKind.ofCode? (IssueKind.all.map IssueKind.code))
    RuleSettings.decode value
  return Text.SortedMap.ofList entries

def decodeFormCounts (value : Json) : Except DecodeError FormCounts := do
  let entries ← asEntries .ok asSize value
  return Text.SortedMap.ofList entries

def decodeLanguages : Decoder (Option (List String)) :=
  asOptional (asList asText)

def members : List (Member Settings) := [
  ⟨"translationFiles", fun settings value => do
    return { settings with catalogFiles := ← CatalogFileSettings.decode value }⟩,
  ⟨"excludePatterns", fun settings value => do
    return { settings with excludePatterns := ← asList asText value }⟩,
  ⟨"indexing", fun settings value => do
    return { settings with indexing := ← IndexingSettings.decode value }⟩,
  ⟨"diagnostics", fun settings value => do
    return { settings with rules := ← decodeRules value }⟩,
  ⟨"requiredLanguages", fun settings value => do
    return { settings with requiredLanguages := ← decodeLanguages value }⟩,
  ⟨"optionalLanguages", fun settings value => do
    return { settings with optionalLanguages := ← decodeLanguages value }⟩,
  ⟨"primaryLanguages", fun settings value => do
    return { settings with primaryLanguages := ← decodeLanguages value }⟩,
  ⟨"pluralForms", fun settings value => do
    return { settings with formCounts := ← decodeFormCounts value }⟩]

def decode : Decoder Settings :=
  asRecord "LinguistSettings" members {}

/-- Settings of a value that may hold them in a section of their own. -/
def decodeSection (value : Json) : Except DecodeError Settings :=
  decode ((value.member? "linguist").getD value)

def encodeLanguages (languages : Option (List String)) : Json :=
  ofOption (ofList .string) languages

def encode (settings : Settings) : Json :=
  ofMembers [
    ("translationFiles", settings.catalogFiles.encode),
    ("excludePatterns", ofList .string settings.excludePatterns),
    ("indexing", settings.indexing.encode),
    ("diagnostics", ofMembers
      (settings.rules.entries.map fun (kind, rule) => (kind.code, rule.encode))),
    ("requiredLanguages", encodeLanguages settings.requiredLanguages),
    ("optionalLanguages", encodeLanguages settings.optionalLanguages),
    ("primaryLanguages", encodeLanguages settings.primaryLanguages),
    ("pluralForms", ofMembers
      (settings.formCounts.entries.map fun (locale, count) => (locale, ofNat count)))]

end Settings

end CatalogServer
