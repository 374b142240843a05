import CatalogServer.Json.Reader
import CatalogServer.Settings.Encoding
import CatalogServer.Settings.Validation
import CatalogServer.Workspace.Disk

/-!
# Settings in effect

Settings come from a file in the root folder of the workspace or from the
editor.  Only settings without problems are put into effect; whatever is
refused leaves the settings in effect as they are.
-/

namespace CatalogServer

open Text

/-- Why settings are refused. -/
inductive SettingsError where
  | invalid (problems : List SettingsProblem)
  | unreadable (cause : DiskError)
  | notJson (error : Json.SyntaxError)
  | unfitting (error : Json.DecodeError)
  deriving Repr

/-- One problem on a line of its own, numbered from one. -/
def SettingsProblem.line (number : Nat) (problem : SettingsProblem) : String :=
  "  " ++ toString (number + 1) ++ ". " ++ problem.field ++ " - " ++ problem.message

def SettingsError.message : SettingsError → String
  | .invalid problems =>
      "Configuration validation failed:\n" ++
        "\n".intercalate (problems.mapIdx SettingsProblem.line)
  | .unreadable cause => "Failed to load configuration file: " ++ cause.message
  | .notJson error => "Failed to parse configuration: " ++ error.message
  | .unfitting error => "Failed to parse configuration: " ++ error.message

/-- Name of the settings file in the root folder. -/
def settingsFileName : String := ".linguist-ls.json"

namespace Settings

/-- Settings of a text; a text without a value has the defaults. -/
def ofText (text : String) : Except SettingsError Settings :=
  match Json.read text with
  | .error error => .error (.notJson error)
  | .ok none => .ok {}
  | .ok (some value) => (decode value).mapError .unfitting

/-- Settings of the settings file in a folder, or the defaults when there is
no such file. -/
def ofFolder (disk : Disk) (root : String) : Except SettingsError Settings :=
  let path := Path.join root settingsFileName
  if disk.hasPath path then
    match disk.readText path with
    | .error cause => .error (.unreadable cause)
    | .ok text => ofText text
  else
    .ok {}

def checked (settings : Settings) : Except SettingsError Settings :=
  match settings.problems with
  | [] => .ok settings
  | problems => .error (.invalid problems)

end Settings

/-- The settings in effect and the root folder they belong to. -/
structure SettingsStore where
  settings : Settings := {}
  root : Option String := none
  deriving Repr, Inhabited

/-- A change of the settings in effect.  It is made or refused, and leaves a
store either way. -/
abbrev SettingsChange := ExceptT SettingsError (StateM SettingsStore) Unit

namespace SettingsChange

/-- Puts the settings of a root folder into effect, or the defaults when
there is none. -/
def load (disk : Disk) (root : Option String) : SettingsChange := do
  let read ← MonadExcept.ofExcept <|
    match root with
    | some folder => Settings.ofFolder disk folder
    | none => .ok {}
  let settings ← MonadExcept.ofExcept read.checked
  set { settings, root : SettingsStore }

def replace (settings : Settings) : SettingsChange := do
  let settings ← MonadExcept.ofExcept settings.checked
  modify fun store => { store with settings := settings }

def update (value : Json) : SettingsChange := do
  let settings ← MonadExcept.ofExcept ((Settings.decodeSection value).mapError .unfitting)
  replace settings

end SettingsChange

namespace SettingsStore

/-- How a change ends, and the store that it leaves. -/
def apply (store : SettingsStore) (change : SettingsChange) :
    Except SettingsError Unit × SettingsStore :=
  change.run store

/-- The store that a change leaves when it is made, or why it is refused. -/
def changed (store : SettingsStore) (change : SettingsChange) :
    Except SettingsError SettingsStore :=
  match store.apply change with
  | (.ok (), after) => .ok after
  | (.error error, _) => .error error

def load (store : SettingsStore) (disk : Disk) (root : Option String) :
    Except SettingsError SettingsStore :=
  store.changed (.load disk root)

def replace (store : SettingsStore) (settings : Settings) : Except SettingsError SettingsStore :=
  store.changed (.replace settings)

def update (store : SettingsStore) (value : Json) : Except SettingsError SettingsStore :=
  store.changed (.update value)

end SettingsStore

end CatalogServer
