import CatalogServer.Catalog.Document
import CatalogServer.Catalog.ReadError
import CatalogServer.Check.Issue
import CatalogServer.Check.Marker

/-!
# Checking one catalog

A catalog is checked by itself: its language, the names of its contexts, and
every message for the state of its target, the number of its plural forms
and the markers that source and target share.  Issues come in document
order.
-/

namespace CatalogServer

open Text

/-- Language of a catalog that does not name one. -/
def unknownLanguage : String := "unknown"

namespace Check

/-- What the checks of a message depend on. -/
structure Setting where
  language : String
  /-- Number of plural forms of the language, if it is known. -/
  expectedForms : Option Nat
  deriving DecidableEq, Repr

/-- The language that a catalog names, unless it is blank. -/
def namedLanguage? (catalog : Catalog) : Option String :=
  match catalog.language with
  | none => none
  | some language =>
      let name := trimmed language
      if name == "" then none else some name

def settingOf (catalog : Catalog) (options : CheckOptions) : Setting :=
  match namedLanguage? catalog with
  | none => ⟨unknownLanguage, none⟩
  | some language => ⟨language, options.expectedFormCount? language⟩

def languageIssues (document : Document) (options : CheckOptions) : List Issue :=
  match namedLanguage? document.catalog with
  | none =>
      [{ kind := .unknownLanguage
         span := document.spans.root
         message := "The TS element has no language attribute" }]
  | some language =>
      if (options.expectedFormCount? language).isNone then
        [{ kind := .unknownLanguage
           span := document.spans.root
           message := "No plural rule is known for language '" ++ language ++ "'" }]
      else
        []

/-- What is wrong with the plural forms of a message. -/
inductive PluralProblem where
  /-- The message depends on a count, its target does not. -/
  | noForms
  /-- The target depends on a count, the message does not. -/
  | strayForms
  /-- The number of forms is not the one of the language. -/
  | wrongCount (expected found : Nat)
  deriving DecidableEq, Repr

def PluralProblem.message (language : String) : PluralProblem → String
  | .noForms => "Message is numerus but the translation has no numerusform elements"
  | .strayForms => "Translation has numerusform elements but the message is not numerus"
  | .wrongCount expected found =>
      "Expected " ++ toString expected ++ " plural form" ++
        (if expected == 1 then "" else "s") ++ " for '" ++ language ++ "', found " ++
        toString found

/-- What is wrong with the plural forms of a message, if anything.  A target
without any forms yet is not complete, but not wrong. -/
def pluralProblem? (expectedForms : Option Nat) (message : Message) : Option PluralProblem :=
  match message.target.text, message.numerus with
  | .single _, true => some .noForms
  | .plural _, false => some .strayForms
  | .plural forms, true =>
      match expectedForms with
      | none => none
      | some expected =>
          if !forms.isEmpty && forms.length != expected then
            some (.wrongCount expected forms.length)
          else
            none
  | .single _, false => none

def describePlaceholders (numbers : List Nat) : String :=
  if numbers.isEmpty then "none"
  else ", ".intercalate (numbers.map fun number => "%" ++ toString number)

/-- The texts of a target that are compared with the source. -/
def comparedTexts (target : Target) : List String :=
  (target.forms.flatMap (·.texts)).filter (· != "")

/-- Compares the placeholders of the source with those of every text; the
first text that differs is reported. -/
def placeholderIssue? (source : String) (texts : List String) : Option String :=
  let expected := Marker.placeholders source.toList
  (texts.find? fun text => Marker.placeholders text.toList != expected).map fun text =>
    "Placeholders differ: source has " ++ describePlaceholders expected ++
      ", translation '" ++ text ++ "' has " ++
      describePlaceholders (Marker.placeholders text.toList)

def acceleratorIssue? (source : String) (texts : List String) : Option String :=
  let expected := (Marker.accelerator? source.toList).isSome
  if texts.any fun text => (Marker.accelerator? text.toList).isSome != expected then
    some (if expected then
      "Source has a keyboard accelerator but the translation does not"
    else
      "Translation has a keyboard accelerator but the source does not")
  else
    none

/-- Compares the punctuation at the end; source texts are English. -/
def punctuationIssue? (language source : String) (texts : List String) : Option String :=
  let expected := Marker.ending? "en" source.toList
  if texts.any fun text => Marker.ending? language text.toList != expected then
    let described :=
      match expected with
      | none => "none"
      | some mark => "'" ++ String.singleton mark ++ "'"
    some ("Ending punctuation differs from the source (" ++ described ++ ")")
  else
    none

/-- Where the target of a message is reported: its element, or the whole
message when there is none. -/
def targetSpan (spans : MessageSpans) : ByteSpan :=
  match spans.target with
  | some target => target.element
  | none => spans.element

def markSpan (spans : MessageSpans) : ByteSpan :=
  match spans.target with
  | some target => target.startTag
  | none => spans.element

def sourceIssues (message : Message) (spans : MessageSpans) (index : MessageIndex) :
    List Issue :=
  if message.source == "" then
    [{ kind := .emptySource, span := spans.source, message := "Source text is empty"
       index := some index }]
  else
    []

/-- Checks the state of the target of a message in use. -/
def stateIssues (message : Message) (spans : MessageSpans) (index : MessageIndex) :
    List Issue :=
  if message.target.isEmpty then
    [{ kind := .missingTarget, span := targetSpan spans
       message := "'" ++ message.source ++ "' has no translation"
       index := some index }]
  else if message.target.status == .unfinished then
    [{ kind := .unfinished, span := markSpan spans
       message := "Translation of '" ++ message.source ++ "' is unfinished"
       index := some index }]
  else
    []

/-- Checks the plural forms of a message in use. -/
def pluralIssues (setting : Setting) (message : Message) (spans : MessageSpans)
    (index : MessageIndex) : List Issue :=
  match pluralProblem? setting.expectedForms message with
  | none => []
  | some problem =>
      [{ kind := .pluralForms, span := targetSpan spans
         message := problem.message setting.language
         index := some index }]

/-- The issue with a wording about the target of a message, if there is a
wording. -/
def targetIssue (kind : IssueKind) (spans : MessageSpans) (index : MessageIndex) :
    Option String → List Issue
  | none => []
  | some wording =>
      [{ kind := kind, span := targetSpan spans, message := wording, index := some index }]

/-- Checks what source and target of a message in use share. -/
def markerIssues (setting : Setting) (message : Message) (spans : MessageSpans)
    (index : MessageIndex) : List Issue :=
  let texts := comparedTexts message.target
  if texts.isEmpty then
    []
  else
    targetIssue .placeholderMismatch spans index (placeholderIssue? message.source texts) ++
      targetIssue .acceleratorMismatch spans index (acceleratorIssue? message.source texts) ++
      targetIssue .punctuationMismatch spans index
        (punctuationIssue? setting.language message.source texts)

/-- Checks a message.  Of a message that is no longer in use only that is
reported, besides an empty source. -/
def messageIssues (setting : Setting) (message : Message) (spans : MessageSpans)
    (index : MessageIndex) : List Issue :=
  sourceIssues message spans index ++
    if message.target.status.isActive then
      stateIssues message spans index ++ pluralIssues setting message spans index ++
        markerIssues setting message spans index
    else
      [{ kind := .obsolete, span := spans.element
         message := "'" ++ message.source ++ "' is no longer used by the application"
         index := some index }]

/-- Source and disambiguation, which tell the messages of a context apart. -/
abbrev LocalKey := String × Option String

/-- Reports a message whose source and disambiguation were seen before. -/
def duplicateIssues (context : Context) (seen : List LocalKey) (message : Message)
    (spans : MessageSpans) (index : MessageIndex) : List Issue :=
  if seen.contains (message.source, message.comment) then
    [{ kind := .duplicateMessage, span := spans.source
       message := "Message '" ++ message.source ++ "' appears more than once in context '" ++
         context.name ++ "'"
       index := some index }]
  else
    []

/-- Checks the messages of a context, numbered from `message`. -/
def messagesIssues (setting : Setting) (context : Context) (number : Nat) :
    (seen : List LocalKey) → (message : Nat) → List (Message × MessageSpans) → List Issue
  | _, _, [] => []
  | seen, message, (first, spans) :: rest =>
      duplicateIssues context seen first spans ⟨number, message⟩ ++
        messageIssues setting first spans ⟨number, message⟩ ++
        messagesIssues setting context number ((first.source, first.comment) :: seen)
          (message + 1) rest

def contextNameIssues (context : Context) (spans : ContextSpans) : List Issue :=
  if isBlankText context.name.toList then
    [{ kind := .emptyContextName, span := spans.name, message := "Context name is empty" }]
  else
    []

def contextsIssues (setting : Setting) :
    (number : Nat) → List (Context × ContextSpans) → List Issue
  | _, [] => []
  | number, (context, spans) :: rest =>
      contextNameIssues context spans ++
        messagesIssues setting context number [] 0 (context.messages.zip spans.messages) ++
        contextsIssues setting (number + 1) rest

def documentIssues (document : Document) (options : CheckOptions) : List Issue :=
  languageIssues document options ++
    contextsIssues (settingOf document.catalog options) 0
      (document.catalog.contexts.zip document.spans.contexts)

/-- The issue of a text that is no catalog. -/
def malformedIssue (error : ReadError) : Issue :=
  { kind := .malformed, span := .point error.offset, message := error.message }

end Check

end CatalogServer
