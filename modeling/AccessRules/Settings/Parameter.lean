import AccessRules.Settings.Basic

/-!
# Parameters

Settings can be changed by a text such as `format=rust,strict=true,source_root=proto`. The pairs
are applied from left to right up to the first that is wrong.
-/

namespace AccessRules

open Text

/-- A change to the settings. -/
inductive Parameter where
  | accessOption (name : String)
  | bindingExtension (name : String)
  /-- One root; the first in a text replaces the configured ones. -/
  | root (path : String)
  | strict (value : Bool)
  | emitEmpty (value : Bool)
  | format (format : Table.Format)
deriving DecidableEq, Repr

namespace Parameter

/-- The pairs of a text of parameters. -/
def pairs (text : String) : List Text :=
  ((splitAt ',' text.toList).map trim).filter (· ≠ [])

/-- A truth value in one of its spellings. -/
def readBool (key value : String) : Except ParameterError Bool :=
  if value ∈ ["true", "1", "yes"] then .ok true
  else if value ∈ ["false", "0", "no"] then .ok false
  else .error (.notBoolean key value)

/-- The parameter that a pair spells. -/
def read (pair : Text) : Except ParameterError Parameter :=
  match splitOnce? '=' pair with
  | none => .error (.noValue (String.ofList pair))
  | some (key, value) =>
    let key := String.ofList (trim key)
    let value := String.ofList (trim value)
    match key with
    | "authz_option" => .ok (accessOption value)
    | "http_extension" => .ok (bindingExtension value)
    | "source_root" => .ok (root value)
    | "strict" => (readBool key value).map strict
    | "emit_empty" => (readBool key value).map emitEmpty
    | "format" => (Table.Format.read value).map format
    | _ => .error (.unknownKey key)

/-- The settings after a parameter, where `replaced` says whether roots were given before it. -/
def apply (replaced : Bool) (settings : Settings) : Parameter → Settings
  | accessOption name => { settings with extraction.accessOption := name }
  | bindingExtension name => { settings with extraction.bindingExtension := name }
  | root path =>
    { settings with
      extraction.roots := (if replaced then settings.extraction.roots else []) ++ [path] }
  | strict value => { settings with extraction.strict := value }
  | emitEmpty value => { settings with output.emitEmpty := value }
  | format value => { settings with output.format := value }

/-- Whether the parameter gives a root. -/
def isRoot : Parameter → Bool
  | root _ => true
  | _ => false

/-- Applies pairs up to the first that is wrong; gives the settings then, and what is wrong. -/
def applyPairs (replaced : Bool) (settings : Settings) :
    List Text → Settings × Option ParameterError
  | [] => (settings, none)
  | pair :: pairs =>
    match read pair with
    | .error error => (settings, some error)
    | .ok parameter =>
      applyPairs (replaced || parameter.isRoot) (parameter.apply replaced settings) pairs

end Parameter

/-- Applies a text of parameters. The changes made before a wrong pair stay. -/
def Settings.applyParameters (settings : Settings) (text : String) :
    Settings × Option ParameterError :=
  Parameter.applyPairs false settings (Parameter.pairs text)

end AccessRules
