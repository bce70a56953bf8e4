import AccessRules.Files.ReadError
import AccessRules.Source.OptionBlock
import AccessRules.Table.Format

/-!
# Settings
-/

namespace AccessRules

/-- The name of the HTTP binding extension where none is configured. -/
def defaultBindingExtension : String := "google.api.http"

/-- How rules are extracted. -/
structure ExtractionSettings where
  /-- The full name of the access option, as it is written in source texts. -/
  accessOption : String := Source.defaultOption
  /-- The full name of the HTTP binding extension in descriptors. -/
  bindingExtension : String := defaultBindingExtension
  /-- The directories in which source files are looked for, in this order. -/
  roots : List String := ["."]
  /-- Whether a hard failure of any method fails the run. -/
  strict : Bool := false
deriving DecidableEq, Repr, Inhabited

/-- What is generated. -/
structure OutputSettings where
  format : Table.Format := .json
  /-- Whether a definition file without rules yields a table as well. -/
  emitEmpty : Bool := false
deriving DecidableEq, Repr, Inhabited

/-- All settings. -/
structure Settings where
  extraction : ExtractionSettings := {}
  output : OutputSettings := {}
deriving DecidableEq, Repr, Inhabited

/-- What is wrong with a parameter. -/
inductive ParameterError where
  /-- There is no equals sign. -/
  | noValue (pair : String)
  | unknownKey (key : String)
  | notBoolean (key value : String)
  | unknownFormat (name : String)
deriving DecidableEq, Repr

/-- What is wrong, in words. -/
def ParameterError.message : ParameterError → String
  | noValue pair => s!"Invalid plugin parameter: expected key=value, got `{pair}`"
  | unknownKey key => s!"Invalid plugin parameter: unknown parameter `{key}`"
  | notBoolean key value =>
    s!"Invalid plugin parameter: `{key}` expects a boolean, got `{value}`"
  | unknownFormat name => s!"Invalid plugin parameter: unknown output format `{name}`"

/-- Why settings cannot be loaded. -/
inductive SettingsError where
  | unreadable (path : String) (cause : Files.ReadError)
  /-- The file is no document of settings. -/
  | malformed
deriving DecidableEq, Repr

/-- The reason in words. -/
def SettingsError.message : SettingsError → String
  | unreadable path cause => s!"Failed to read config file {path}: {cause.message}"
  | malformed => "Failed to parse config"

/-- The table format called `name`. -/
def Table.Format.read (name : String) : Except ParameterError Table.Format :=
  match ofName? name with
  | some format => .ok format
  | none => .error (.unknownFormat name)

end AccessRules
