import CatalogServer.Catalog.Basic
import CatalogServer.Catalog.Escape

/-!
# Writing catalogs

A catalog is written in one canonical layout: contexts at the margin, their
names and messages indented by four columns, the parts of a message by
eight, the forms of a target by twelve.  Absent parts are left out.
-/

namespace CatalogServer.Writer

def messageIndent : String := "        "

def formIndent : String := "            "

/-- An attribute with its leading blank, or nothing when it is absent. -/
def attributeText (name : String) : Option String → String
  | none => ""
  | some value => " " ++ name ++ "=\"" ++ Escape.attributeValue value ++ "\""

/-- A text element on a line of its own. -/
def textElement (indent name text : String) : String :=
  indent ++ "<" ++ name ++ ">" ++ Escape.content text ++ "</" ++ name ++ ">\n"

/-- A text element on a line of its own, or nothing when it is absent. -/
def optionalElement (indent name : String) : Option String → String
  | none => ""
  | some text => textElement indent name text

/-- A length variant on a line of its own. -/
def variantElement (indent text : String) : String :=
  "\n    " ++ indent ++ "<lengthvariant>" ++ Escape.content text ++ "</lengthvariant>"

/-- The rest of a start tag and the content of an element with a form. -/
def formContent (indent : String) : FormText → String
  | .plain text => ">" ++ Escape.content text
  | .lengthVariants texts =>
      " variants=\"yes\">" ++ String.join (texts.map (variantElement indent)) ++ "\n" ++
        indent

/-- A plural form on a line of its own. -/
def pluralFormElement (form : FormText) : String :=
  "\n" ++ formIndent ++ "<numerusform" ++ formContent formIndent form ++ "</numerusform>"

/-- The rest of the start tag and the content of a target element. -/
def targetContent : TargetText → String
  | .single form => formContent messageIndent form
  | .plural forms =>
      ">" ++ String.join (forms.map pluralFormElement) ++ "\n" ++ messageIndent

def statusAttribute (status : Status) : String :=
  match status.typeAttribute? with
  | none => ""
  | some value => " type=\"" ++ value ++ "\""

def bareTargetElement (target : Target) : String :=
  "<translation" ++ statusAttribute target.status ++ targetContent target.text ++
    "</translation>"

/-- A target element with its indentation, without a line end. -/
def targetElement (target : Target) : String :=
  messageIndent ++ bareTargetElement target

/-- A location element on a line of its own. -/
def locationElement (location : CodeLocation) : String :=
  messageIndent ++ "<location" ++ attributeText "filename" location.filename ++
    attributeText "line" location.line ++ "/>\n"

def extraElement (extra : Extra) : String :=
  textElement messageIndent ("extra-" ++ extra.name) extra.value

/-- The attribute of a message whose target depends on a count. -/
def numerusAttribute (numerus : Bool) : String :=
  if numerus then " numerus=\"yes\"" else ""

/-- A message with its parts in their fixed order. -/
def messageElement (message : Message) : String :=
  "    <message" ++ attributeText "id" message.id ++ numerusAttribute message.numerus ++
    ">\n" ++
  String.join (message.locations.map locationElement) ++
  textElement messageIndent "source" message.source ++
  optionalElement messageIndent "oldsource" message.oldSource ++
  optionalElement messageIndent "comment" message.comment ++
  optionalElement messageIndent "oldcomment" message.oldComment ++
  optionalElement messageIndent "extracomment" message.extraComment ++
  optionalElement messageIndent "translatorcomment" message.translatorComment ++
  targetElement message.target ++ "\n" ++
  optionalElement messageIndent "userdata" message.userData ++
  String.join (message.extras.map extraElement) ++
  "    </message>\n"

def contextElement (context : Context) : String :=
  "<context>\n" ++ textElement "    " "name" context.name ++
  optionalElement "    " "comment" context.comment ++
  String.join (context.messages.map messageElement) ++
  "</context>\n"

def rootAttributes (catalog : Catalog) : String :=
  attributeText "version" catalog.version ++ attributeText "language" catalog.language ++
    attributeText "sourcelanguage" catalog.sourceLanguage

def prolog : String :=
  "<?xml version=\"1.0\" encoding=\"utf-8\"?>\n<!DOCTYPE TS>\n"

def write (catalog : Catalog) : String :=
  prolog ++ "<TS" ++ rootAttributes catalog ++ ">\n" ++
  String.join (catalog.contexts.map contextElement) ++
  "</TS>\n"

end CatalogServer.Writer
