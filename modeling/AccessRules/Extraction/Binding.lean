import AccessRules.Failure
import AccessRules.Rule
import AccessRules.Schema.Value

/-!
# Bindings of methods

The HTTP binding of a method is an extension of its options: a message with one field for each
verb.
-/

namespace AccessRules

open Schema

namespace Binding

/-- The fields that stand for verbs, in the order in which they are tried. -/
def verbFields : List (String × Verb) :=
  [("get", .get), ("put", .put), ("post", .post), ("delete", .delete), ("patch", .patch)]

/-- The path that a message has in the field called `name`. -/
def path? (types : Types) (message : Message) (name : String) : Option String := do
  let type ← types.message? message.type
  let field ← type.fieldNamed? name
  let value ← message.get? field.number
  value.asText?

/-- The binding that a message states: its first verb that is set. -/
def ofMessage? (types : Types) (message : Message) : Option Binding :=
  verbFields.findSome? fun (name, verb) => (path? types message name).map fun path => ⟨verb, path⟩

/-- The binding of `method` that its options state through `extension`. -/
def read (types : Types) (extension : Extension) (method : String) (options : Message) :
    Except Failure Binding :=
  match (options.get? extension.field.number).bind Value.asMessage? with
  | none => .error (.noBinding method)
  | some message =>
    match ofMessage? types message with
    | none => .error (.noVerb method)
    | some binding => .ok binding

end Binding

end AccessRules
