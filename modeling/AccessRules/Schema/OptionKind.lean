import AccessRules.Schema.Type

/-!
# Kinds of options

Each kind of declaration has options of its own. Their types are declared in a definition file like
any other, and may be extended there; where no file declares them they have their standard fields.
-/

namespace AccessRules.Schema

/-- The kinds of options, by the declarations that have them. -/
inductive OptionKind where
  | file
  | message
  | field
  | choice
  | extensionRange
  | enum
  | enumValue
  | service
  | method
deriving DecidableEq, Repr

/-- The full name of a type in the package of the standard types. -/
def standardName (name : String) : String :=
  "google.protobuf." ++ name

/-- The full name of the type of the options. -/
def OptionKind.typeName : OptionKind → String
  | file => standardName "FileOptions"
  | message => standardName "MessageOptions"
  | field => standardName "FieldOptions"
  | choice => standardName "OneofOptions"
  | extensionRange => standardName "ExtensionRangeOptions"
  | enum => standardName "EnumOptions"
  | enumValue => standardName "EnumValueOptions"
  | service => standardName "ServiceOptions"
  | method => standardName "MethodOptions"

/-! ## Standard fields -/

namespace Standard

/-- A field that appears at most once. -/
def single (number : Nat) (name : String) (type : FieldType) : Field where
  name := name
  number := number
  type := type
  isRepeated := false
  hasPresence := true
  default? := none
  choice? := none

/-- A field that may be repeated. -/
def repeated (number : Nat) (name : String) (type : FieldType) : Field :=
  { single number name type with isRepeated := true, hasPresence := false }

/-- A single text. -/
def text (number : Nat) (name : String) : Field :=
  single number name (.scalar .text)

/-- A single truth value. -/
def truth (number : Nat) (name : String) : Field :=
  single number name (.scalar .bool)

/-- A single value of an enumeration. -/
def enumeration (number : Nat) (name type : String) : Field :=
  single number name (.enum (standardName type))

/-- The number of the field that holds options whose names are not resolved. -/
def writtenNumber : Nat := 999

/-- The field that holds options whose names are not resolved. -/
def writtenField : Field :=
  repeated writtenNumber "uninterpreted_option" (.message (standardName "UninterpretedOption"))

/-- The standard fields of options, but for the one that all kinds have. -/
def ownFields : OptionKind → List Field
  | .file => [
    text 1 "java_package", text 8 "java_outer_classname",
    enumeration 9 "optimize_for" "FileOptions.OptimizeMode", truth 10 "java_multiple_files",
    text 11 "go_package", truth 16 "cc_generic_services", truth 17 "java_generic_services",
    truth 18 "py_generic_services", truth 20 "java_generate_equals_and_hash",
    truth 23 "deprecated", truth 27 "java_string_check_utf8", truth 31 "cc_enable_arenas",
    text 36 "objc_class_prefix", text 37 "csharp_namespace", text 39 "swift_prefix",
    text 40 "php_class_prefix", text 41 "php_namespace", truth 42 "php_generic_services",
    text 44 "php_metadata_namespace", text 45 "ruby_package"]
  | .message => [
    truth 1 "message_set_wire_format", truth 2 "no_standard_descriptor_accessor",
    truth 3 "deprecated", truth 7 "map_entry"]
  | .field => [
    enumeration 1 "ctype" "FieldOptions.CType", truth 2 "packed", truth 3 "deprecated",
    truth 5 "lazy", enumeration 6 "jstype" "FieldOptions.JSType", truth 10 "weak"]
  | .choice | .extensionRange => []
  | .enum => [truth 2 "allow_alias", truth 3 "deprecated"]
  | .enumValue => [truth 1 "deprecated"]
  | .service => [truth 33 "deprecated"]
  | .method => [
    truth 33 "deprecated",
    enumeration 34 "idempotency_level" "MethodOptions.IdempotencyLevel"]

/-- The standard type of options. -/
def options (kind : OptionKind) : MessageType where
  name := kind.typeName
  fields := ownFields kind ++ [writtenField]
  isEntry := false

/-- The type of options whose names are not resolved. -/
def written : MessageType where
  name := standardName "UninterpretedOption"
  fields := [
    repeated 2 "name" (.message (standardName "UninterpretedOption.NamePart")),
    text 3 "identifier_value", single 4 "positive_int_value" (.scalar .uint64),
    single 5 "negative_int_value" (.scalar .int64), single 6 "double_value" (.scalar .double),
    single 7 "string_value" (.scalar .bytes), text 8 "aggregate_value"]
  isEntry := false

/-- The type of the parts of their names. -/
def namePart : MessageType where
  name := standardName "UninterpretedOption.NamePart"
  fields := [text 1 "name_part", truth 2 "is_extension"]
  isEntry := false

/-- The types that options have where no file declares them. -/
def types : Types where
  messages :=
    [.file, .message, .field, .choice, .extensionRange, .enum, .enumValue, .service, .method].map
      options ++ [written, namePart]
  enums := [
    ⟨standardName "FileOptions.OptimizeMode",
      [("SPEED", 1), ("CODE_SIZE", 2), ("LITE_RUNTIME", 3)]⟩,
    ⟨standardName "FieldOptions.CType", [("STRING", 0), ("CORD", 1), ("STRING_PIECE", 2)]⟩,
    ⟨standardName "FieldOptions.JSType", [("JS_NORMAL", 0), ("JS_STRING", 1), ("JS_NUMBER", 2)]⟩,
    ⟨standardName "MethodOptions.IdempotencyLevel",
      [("IDEMPOTENCY_UNKNOWN", 0), ("NO_SIDE_EFFECTS", 1), ("IDEMPOTENT", 2)]⟩]

end Standard

/-- The types in which options of a kind are read: those given, if their type is among them. -/
def Types.forOptions (types : Types) (kind : OptionKind) : Types :=
  if (types.message? kind.typeName).isSome then types else Standard.types

end AccessRules.Schema
