import AccessRules.Schema.Options
import AccessRules.Schema.Value

/-!
# Assigning written options

A written option has a name with several parts. All but the last lead to a message inside the
options, and the last names the field that the option sets. A field can be set once, and a repeated
field any number of times.
-/

namespace AccessRules.Schema

namespace WrittenOption

/-- The integer that the option gives. -/
def integer? (option : WrittenOption) : Option Int :=
  (option.positive?.map Int.ofNat).orElse fun _ => option.negative?

/-- The real that the option gives: with a point, as an integer, or by its name. -/
def realValue? (option : WrittenOption) : Option Float :=
  match option.real?, option.integer?, option.identifier? with
  | some value, _, _ => some value
  | none, some value, _ => some (Float.ofInt value)
  | none, none, some "inf" => some (1 / 0)
  | none, none, some "nan" => some (0 / 0)
  | _, _, _ => none

/-- The value of a scalar that the option gives. -/
def datum? (option : WrittenOption) : Scalar → Option Datum
  | .text => (option.text?.bind Text.decode?).map .text
  | .bytes => option.text?.map .bytes
  | .bool =>
    match option.identifier? with
    | some "true" => some (.truth true)
    | some "false" => some (.truth false)
    | _ => none
  | .double => option.realValue?.map .real
  | .float => option.realValue?.map fun value => .real value.toFloat32.toFloat
  | type => option.integer?.bind type.integer?

/-- The value of the given type that the option gives. The text of a message is not read: it makes
an empty message. -/
def value? (types : Types) (option : WrittenOption) : FieldType → Option Value
  | .scalar type => (option.datum? type).map .datum
  | .enum name => do
    let value ← (← types.enum? name).values.lookup (← option.identifier?)
    return .datum (.integer value)
  | .message name | .group name => option.aggregate?.map fun _ => .message name []

end WrittenOption

namespace Types

/-- The field that a part of a name stands for in messages of a type. Extensions are found by
`extension?`. -/
def fieldOfPart? (extension? : String → Option Extension) (type : MessageType) (part : NamePart) :
    Option Field :=
  if part.isExtension then
    ((extension? part.name).filter (·.extendee = type.name)).map (·.field)
  else type.fieldNamed? part.name

/-- The message with a written option assigned, of whose name the parts `path` are left. An option
without a name sets nothing. -/
def assign (types : Types) (extension? : String → Option Extension) (option : WrittenOption) :
    (path : List NamePart) → Message → Option Message
  | [], message => some message
  | part :: path, message => do
    let type ← types.message? message.type
    let field ← fieldOfPart? extension? type part
    let old := message.get? field.number
    if path.isEmpty then
      guard (field.isRepeated || old.isNone)
      return type.put message field (← field.add old [← option.value? types field.type])
    else
      let name ← field.type.messageName?
      guard (!field.isRepeated)
      let inner := (old.bind Value.asMessage?).getD ⟨name, []⟩
      return type.put message field (← types.assign extension? option path inner).toValue

/-- The message that declared options make up. -/
def optionsMessage (types : Types) (extension? : String → Option Extension) (kind : OptionKind)
    (options : Options) : Option Message := do
  let types := types.forOptions kind
  let message ← types.decode (← types.message? kind.typeName) options.encoded
  options.written.foldlM
    (fun message option => types.assign extension? option option.path message) message

end Types

end AccessRules.Schema
