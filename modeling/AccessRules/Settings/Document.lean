import AccessRules.Files.Disk
import AccessRules.Settings.Basic
import AccessRules.Toml.Document

/-!
# Settings files

Settings are read from a TOML document. Whatever it does not set keeps its default, and keys that
mean nothing here are passed over.
-/

namespace AccessRules

open Toml

/-- What `read` makes of a field, or its default where it is missing. -/
def fieldOr {α : Type} (read : Value → Option α) (default : α) : Option Value → Option α
  | none => some default
  | some value => read value

/-- A table format in a document; it has no short name there. -/
def Table.Format.ofToml? (value : Value) : Option Table.Format :=
  value.asName?.bind fun name => [Table.Format.json, .rust].find? (·.name = name)

namespace Settings

/-- The extraction settings in a document. -/
def extractionOfToml? (value : Value) : Option ExtractionSettings := do
  let defaults : ExtractionSettings := {}
  let [accessOption, bindingExtension, roots, strict] ←
    value.asRecord? ["authz_option", "http_extension", "source_roots", "strict"] | none
  return ⟨← fieldOr Value.asString? defaults.accessOption accessOption,
    ← fieldOr Value.asString? defaults.bindingExtension bindingExtension,
    ← fieldOr (Value.asListOf? Value.asString?) defaults.roots roots,
    ← fieldOr Value.asBoolean? defaults.strict strict⟩

/-- The output settings in a document. -/
def outputOfToml? (value : Value) : Option OutputSettings := do
  let defaults : OutputSettings := {}
  let [format, emitEmpty] ← value.asRecord? ["format", "emit_empty"] | none
  return ⟨← fieldOr Table.Format.ofToml? defaults.format format,
    ← fieldOr Value.asBoolean? defaults.emitEmpty emitEmpty⟩

/-- The settings in a document. -/
def ofToml? (value : Value) : Option Settings := do
  let [extraction, output] ← value.asRecord? ["extractor", "output"] | none
  return ⟨← fieldOr extractionOfToml? {} extraction, ← fieldOr outputOfToml? {} output⟩

/-- The settings that a text spells. -/
def read (text : String) : Except SettingsError Settings :=
  match (Toml.read? text.toList).bind ofToml? with
  | some settings => .ok settings
  | none => .error .malformed

/-- The settings in the file at a path. -/
def load (disk : Files.Disk) (path : String) : Except SettingsError Settings :=
  match disk.readText path with
  | .ok text => read text
  | .error cause => .error (.unreadable path cause)

end Settings

end AccessRules
