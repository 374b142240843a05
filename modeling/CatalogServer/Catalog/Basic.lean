/-!
# Message catalogs

A catalog holds the messages of an application for one locale.  Messages
are grouped in contexts, one for each part of the user interface.  Every
message has a source text, taken from the application, and a target: its
text in the locale of the catalog, with a status that tells how far the
work on it has come.
-/

namespace CatalogServer

/-- How far the work on the target of a message has come. -/
inductive Status where
  | finished
  /-- Carried over from an earlier source text, or not reviewed. -/
  | unfinished
  /-- The source text no longer exists in the application. -/
  | vanished
  | obsolete
  deriving DecidableEq, Repr, Inhabited

namespace Status

/-- The value of the `type` attribute; finished targets have none. -/
def typeAttribute? : Status → Option String
  | .finished => none
  | .unfinished => some "unfinished"
  | .vanished => some "vanished"
  | .obsolete => some "obsolete"

/-- The status with a value of the `type` attribute. -/
def ofTypeAttribute? (value : String) : Option Status :=
  if value == "unfinished" then some .unfinished
  else if value == "vanished" then some .vanished
  else if value == "obsolete" then some .obsolete
  else none

/-- Finished and unfinished messages still exist in the application. -/
def isActive : Status → Bool
  | .finished | .unfinished => true
  | .vanished | .obsolete => false

@[simp]
theorem ofTypeAttribute_typeAttribute {status : Status} {value : String}
    (written : status.typeAttribute? = some value) :
    ofTypeAttribute? value = some status := by
  cases status <;> simp only [typeAttribute?, Option.some.injEq, reduceCtorEq] at written <;>
    subst written <;> decide

end Status

/-- One form of a target text. -/
inductive FormText where
  | plain (text : String)
  | lengthVariants (texts : List String)
  deriving DecidableEq, Repr

instance : Inhabited FormText := ⟨.plain ""⟩

namespace FormText

def texts : FormText → List String
  | .plain text => [text]
  | .lengthVariants texts => texts

/-- The alternative shown by default, which is the first one. -/
def primary (form : FormText) : String :=
  form.texts.head?.getD ""

def isEmpty (form : FormText) : Bool :=
  form.texts.all (· == "")

end FormText

/-- The text of a target. -/
inductive TargetText where
  | single (form : FormText)
  /-- One form for each plural category of the locale. -/
  | plural (forms : List FormText)
  deriving DecidableEq, Repr

instance : Inhabited TargetText := ⟨.single default⟩

/-- The target side of a message. -/
structure Target where
  status : Status := .finished
  text : TargetText := .single (.plain "")
  deriving DecidableEq, Repr, Inhabited

namespace Target

/-- All forms: one of a single text, one for each category of a plural. -/
def forms (target : Target) : List FormText :=
  match target.text with
  | .single form => [form]
  | .plural forms => forms

def isEmpty (target : Target) : Bool :=
  target.forms.all (·.isEmpty)

def isPlural (target : Target) : Bool :=
  match target.text with
  | .single _ => false
  | .plural _ => true

/-- The text shown in a list: the primary text of the first form. -/
def display (target : Target) : String :=
  (target.forms.head?.map (·.primary)).getD ""

end Target

/-- Where a message occurs in the code of the application. -/
structure CodeLocation where
  filename : Option String := none
  /-- The line as written, which may be relative to the one before. -/
  line : Option String := none
  deriving DecidableEq, Repr, Inhabited

/-- Additional data of a tool, kept as it is. -/
structure Extra where
  name : String
  value : String
  deriving DecidableEq, Repr, Inhabited

/-- A message of a catalog. -/
structure Message where
  id : Option String := none
  numerus : Bool := false
  locations : List CodeLocation := []
  source : String := ""
  oldSource : Option String := none
  /-- Disambiguation, part of the key of the message. -/
  comment : Option String := none
  oldComment : Option String := none
  extraComment : Option String := none
  /-- Note of the person who wrote the target. -/
  translatorComment : Option String := none
  target : Target := {}
  userData : Option String := none
  extras : List Extra := []
  deriving DecidableEq, Repr, Inhabited

/-- A group of messages. -/
structure Context where
  name : String := ""
  comment : Option String := none
  messages : List Message := []
  deriving DecidableEq, Repr, Inhabited

structure Catalog where
  version : Option String := none
  language : Option String := none
  sourceLanguage : Option String := none
  contexts : List Context := []
  deriving DecidableEq, Repr, Inhabited

/-- Key of a message across catalogs: the same message in another locale has
the same key. -/
structure MessageKey where
  context : String
  source : String
  comment : Option String
  deriving DecidableEq, Repr, Inhabited, Ord

/-- Place of a message in a catalog. -/
structure MessageIndex where
  context : Nat
  message : Nat
  deriving DecidableEq, Repr, Inhabited

def Message.keyIn (message : Message) (context : Context) : MessageKey :=
  ⟨context.name, message.source, message.comment⟩

end CatalogServer
