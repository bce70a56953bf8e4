import AccessRules.Json.Printer
import AccessRules.Rule

/-!
# Rules as a JSON table

The table maps the key of each rule to what the rule asks for. Its keys are sorted by code point;
of several rules with one key the last counts.
-/

namespace AccessRules.Table

/-- Sets the value of `key` in a list that is sorted by key. -/
def insertSorted {α : Type} (key : String) (value : α) : List (String × α) → List (String × α)
  | [] => [(key, value)]
  | (k, v) :: entries =>
    if key < k then (key, value) :: (k, v) :: entries
    else if key = k then (key, value) :: entries
    else (k, v) :: insertSorted key value entries

/-- The requirement of the last rule for each key, sorted by key. -/
def entries (rules : List Rule) : List (String × Requirement) :=
  rules.foldl
    (fun table rule => insertSorted rule.key ⟨rule.permissions, rule.noAuthRequired⟩ table)
    []

/-- A requirement as a value of the table. -/
def entryJson (requirement : Requirement) : Json :=
  .object [("permissions", .ofStrings requirement.permissions),
    ("no_auth_required", .bool requirement.noAuthRequired)]

/-- The table of the rules of one definition file. -/
def json (protoFile : String) (rules : List Rule) : Json :=
  .object [("source", .string protoFile),
    ("rules", .object ((entries rules).map fun (key, requirement) => (key, entryJson requirement)))]

/-- The text of the table. -/
def renderJson (protoFile : String) (rules : List Rule) : Text :=
  (json protoFile rules).print ++ ['\n']

end AccessRules.Table
