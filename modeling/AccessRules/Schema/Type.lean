import AccessRules.Schema.Scalar

/-!
# Types

The types of messages and enumerations, and the extensions of messages. Names are resolved: types
refer to each other by full names.
-/

namespace AccessRules.Schema

/-- The type of a field. -/
inductive FieldType where
  | scalar (type : Scalar)
  | enum (name : String)
  | message (name : String)
  /-- A message that is encoded as a group. -/
  | group (name : String)
deriving DecidableEq, Repr

/-- The name of the type of messages that a field holds. -/
def FieldType.messageName? : FieldType → Option String
  | message name | group name => some name
  | scalar _ | enum _ => none

/-- A field of a message. -/
structure Field where
  name : String
  number : Nat
  type : FieldType
  isRepeated : Bool
  /-- Whether a field that was set to its default differs from one that was not set. -/
  hasPresence : Bool
  /-- The value of a field that is not set; messages have none. -/
  default? : Option Datum
  /-- The choice that the field belongs to. -/
  choice? : Option Nat
deriving DecidableEq, Repr

/-- The type of a message. -/
structure MessageType where
  /-- The full name. -/
  name : String
  fields : List Field
  /-- Whether the messages are the entries of a map, with a key and a value. -/
  isEntry : Bool
deriving DecidableEq, Repr

/-- The type of an enumeration. -/
structure EnumType where
  /-- The full name. -/
  name : String
  /-- The values by their names. -/
  values : List (String × Int)
deriving DecidableEq, Repr

/-- A field that is declared outside of the message it belongs to. -/
structure Extension where
  /-- The full name. -/
  name : String
  /-- The full name of the message that is extended. -/
  extendee : String
  field : Field
deriving DecidableEq, Repr

/-- Types that may refer to each other. -/
structure Types where
  messages : List MessageType := []
  enums : List EnumType := []
  extensions : List Extension := []
deriving DecidableEq, Repr, Inhabited

/-- The field of the type that is called `name`. -/
def MessageType.fieldNamed? (type : MessageType) (name : String) : Option Field :=
  type.fields.find? (·.name = name)

/-- Whether the fields with these numbers exclude each other. -/
def MessageType.excludes (type : MessageType) (field : Field) (number : Nat) : Bool :=
  field.choice?.isSome && number != field.number
    && type.fields.any fun other => other.number == number && other.choice? == field.choice?

namespace Types

/-- Some types beside others. -/
def append (first second : Types) : Types where
  messages := first.messages ++ second.messages
  enums := first.enums ++ second.enums
  extensions := first.extensions ++ second.extensions

instance : Append Types := ⟨append⟩

/-- The type of messages with the full name `name`. -/
def message? (types : Types) (name : String) : Option MessageType :=
  types.messages.find? (·.name = name)

/-- The enumeration with the full name `name`. -/
def enum? (types : Types) (name : String) : Option EnumType :=
  types.enums.find? (·.name = name)

/-- The extension with the full name `name`. -/
def extension? (types : Types) (name : String) : Option Extension :=
  types.extensions.find? (·.name = name)

/-- The field with the given number in messages of a type: a declared one, else an extension. -/
def field? (types : Types) (type : MessageType) (number : Nat) : Option Field :=
  match type.fields.find? (·.number = number) with
  | some field => some field
  | none =>
    (types.extensions.find? fun e => e.extendee = type.name ∧ e.field.number = number).map (·.field)

/-- The type of the entries of a map, where the field is one: repeated entries. -/
def entry? (types : Types) (field : Field) : Option MessageType :=
  if field.isRepeated then (field.type.messageName?.bind types.message?).filter (·.isEntry)
  else none

end Types

end AccessRules.Schema
