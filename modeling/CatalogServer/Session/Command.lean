import CatalogServer.Session.Features

/-!
# Commands

Editors run commands by name with a list of arguments.  A command whose
arguments do not fit does nothing.
-/

namespace CatalogServer

open Json

inductive Command where
  /-- The progress of all files, or of the one that an address names. -/
  | statistics (uri : Option Uri)
  /-- Marks every target of a file as finished that can be. -/
  | finishAll (uri : Uri)
  | normalize (uri : Uri)
  | currentLanguage
  | chooseLanguage (language : Option String)
  deriving DecidableEq, Repr

namespace Command

def names : List String := [
  "linguist.getStatistics", "linguist.markAllFinished", "linguist.normalizeFile",
  "linguist.getCurrentLanguage", "linguist.setCurrentLanguage"]

def decodeFile? (arguments : List Json) : Option Uri := do
  let first ← arguments.head?
  let members ← (asMembers "FileArgs" ["uri"] first).toOption
  (given members "uri" Uri.decode).toOption.join

def decodeLanguage? (arguments : List Json) : Option (Option String) := do
  match arguments.head? with
  | none => some none
  | some first =>
      let members ← (asMembers "SetCurrentLanguageArgs" ["language"] first).toOption
      (givenOptional members "language" asText).toOption

def decode? (name : String) (arguments : List Json) : Option Command :=
  match name with
  | "linguist.getStatistics" => some (.statistics (decodeFile? arguments))
  | "linguist.markAllFinished" => (decodeFile? arguments).map .finishAll
  | "linguist.normalizeFile" => (decodeFile? arguments).map .normalize
  | "linguist.getCurrentLanguage" => some .currentLanguage
  | "linguist.setCurrentLanguage" => (decodeLanguage? arguments).map .chooseLanguage
  | _ => none

end Command

def Progress.encode (progress : Progress) : Json :=
  ofMembers [("total", ofNat progress.total), ("finished", ofNat progress.finished),
    ("unfinished", ofNat progress.unfinished), ("missing", ofNat progress.missing),
    ("obsolete", ofNat progress.obsolete), ("numerus", ofNat progress.numerus)]

/-- The progress of a tracked file as a value. -/
def FileStatistics.encode (statistics : FileStatistics) : Json :=
  ofMembers [("uri", statistics.uri.encode), ("language", .string statistics.language),
    ("project", .string statistics.project),
    ("stats", ofOption Progress.encode statistics.progress)]

namespace Session

/-- The edits of a document as messages; no edits are no message. -/
def editMessages (uri : Uri) (edits : List TextEdit) : List ServerMessage :=
  if edits.isEmpty then [] else [.applyEdits uri edits]

def runCommand (command : Command) (session : Session) : Turn × Json :=
  match command with
  | .statistics uri =>
      let found := session.statistics (uri.bind Uri.filePath?)
      (⟨session, []⟩, ofList FileStatistics.encode found)
  | .finishAll uri =>
      match session.finishAll? uri with
      | none => (⟨session, []⟩, .null)
      | some edits => (⟨session, editMessages uri edits⟩, ofNat edits.length)
  | .normalize uri =>
      match (session.fileOf? uri).map normalizationOf with
      | none => (⟨session, []⟩, .null)
      | some .malformed =>
          (⟨session, [.notice .warning "Cannot normalize a malformed translation file"]⟩,
            .bool false)
      | some .unchanged => (⟨session, []⟩, .bool false)
      | some (.edit edit) => (⟨session, editMessages uri [edit]⟩, .bool true)
  | .currentLanguage => (⟨session, []⟩, ofOption .string session.language)
  | .chooseLanguage language => (session.chooseLanguage language, .null)

end Session

end CatalogServer
