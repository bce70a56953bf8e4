import AccessRules.Table.Json
import AccessRules.Table.Module

/-!
# Formats of generated tables
-/

namespace AccessRules.Table

/-- The format of a generated table. -/
inductive Format where
  /-- A JSON object by path and verb. -/
  | json
  /-- A Rust module with a static slice of rules. -/
  | rust
deriving DecidableEq, Repr, Inhabited

namespace Format

/-- The name of the format. -/
def name : Format → String
  | json => "json"
  | rust => "rust"

/-- The format called `name`; the second also has a short name. -/
def ofName? : String → Option Format
  | "json" => some json
  | "rust" => some rust
  | "rs" => some rust
  | _ => none

end Format

/-- The name of a definition file without its ending. -/
def stem (protoFile : String) : Text :=
  let ending := ".proto".toList
  let name := protoFile.toList
  if ending.isSuffixOf name then name.take (name.length - ending.length) else name

/-- The name of the file generated for a definition file. -/
def fileName (format : Format) (protoFile : String) : String :=
  match format with
  | .json => String.ofList (stem protoFile ++ ".authz.json".toList)
  | .rust => String.ofList (stem protoFile ++ "_authz.rs".toList)

/-- The text of the table for the rules of a definition file. -/
def render : Format → (protoFile : String) → List Rule → Text
  | .json => renderJson
  | .rust => renderModule

end AccessRules.Table
