import AccessRules.Schema.Assignment
import AccessRules.Schema.Check
import AccessRules.Schema.Default
import AccessRules.Schema.Pool
import AccessRules.Schema.Scope

/-!
# Linking

Linking turns the declarations of some definition files into a pool. It fails unless all
declarations are in order, the names of all types can be resolved, all full names are distinct, and
all options can be read. Types are linked first, as options are messages of types from the files.
-/

namespace AccessRules.Schema

/-- The surroundings in which a file is linked. -/
structure Context where
  /-- The declared messages of all files. -/
  messages : List MessageDecl
  /-- The enumerations of all files. -/
  enums : List EnumType
  /-- What the names in the file stand for. -/
  view : View
  dialect : Dialect

namespace Context

/-! ## Types -/

/-- The full name of the message that `name` stands for in `scope`. -/
def message? (context : Context) (scope name : String) : Option String :=
  (context.view.resolve (· = .message) scope name).map Symbol.name

/-- The type that a declaration in `scope` gives a field. -/
def fieldType? (context : Context) (scope : String) : TypeDecl → Option FieldType
  | .scalar type => some (.scalar type)
  | .named name asGroup => do
    let symbol ←
      context.view.resolve (fun kind => kind = .message ∨ kind = .enum) scope name
    if symbol.kind = .enum then return .enum symbol.name
    else if asGroup then return .group symbol.name
    else return .message symbol.name
  | .unnamed => none

/-- The value of a field that is not set, where `text?` is the declared default. A default of a
message cannot be declared. -/
def default? (context : Context) (type : FieldType) (text? : Option String) :
    Option (Option Datum) :=
  match type, text? with
  | .scalar type, none => some (some type.zero)
  | .scalar type, some text => (type.ofText? text).map some
  | .enum name, none => do
    let declared ← context.enums.find? (·.name = name)
    return declared.values.head?.map fun value => .integer value.2
  | .enum name, some text => do
    let declared ← context.enums.find? (·.name = name)
    return some (.integer (← declared.values.lookup text))
  | .message _, none | .group _, none => some none
  | .message _, some _ | .group _, some _ => none

/-- The field that is declared in `scope`. -/
def field? (context : Context) (scope : String) (declared : FieldDecl) : Option Field := do
  let type ← context.fieldType? (qualify scope declared.name) declared.type
  return {
    name := declared.name
    number := declared.number.toNat
    type
    isRepeated := declared.isRepeated
    hasPresence := declared.markedOptional || declared.choice?.isSome
      || (!declared.isRepeated && (type.messageName?.isSome || context.dialect = .proto2))
    default? := ← context.default? type declared.default?
    choice? := declared.choice?.map Int.toNat }

/-- The type of a declared message. -/
def messageType? (context : Context) (declared : MessageDecl) : Option MessageType := do
  guard (declared.isConsistent context.dialect)
  return ⟨declared.name, ← declared.fields.mapM (context.field? declared.name), declared.isEntry⟩

/-- The extension that is declared in `scope`. -/
def extension? (context : Context) (scope : String) (declared : FieldDecl) :
    Option Extension := do
  let name := qualify scope declared.name
  let extendee ← context.message? name (declared.extendee?.getD "")
  let extended ← context.messages.find? (·.name = extendee)
  guard (extended.allows declared)
  let field ← context.field? scope { declared with choice? := none }
  return ⟨name, extendee, field⟩

/-! ## Options and services -/

/-- The message that options make up which are declared in `scope`. -/
def options? (context : Context) (types : Types) (kind : OptionKind) (scope : String)
    (options : Options) : Option Message :=
  types.optionsMessage
    (fun name => do types.extension? (← context.view.resolve (· = .extension) scope name).name)
    kind options

/-- The method that is declared in `scope`. Its input and output must be messages. -/
def method? (context : Context) (types : Types) (scope : String) (declared : MethodDecl) :
    Option Method := do
  let name := qualify scope declared.name
  let _ ← context.message? name declared.input
  let _ ← context.message? name declared.output
  return ⟨declared.name, ← context.options? types .method name declared.options⟩

/-- The service that is declared in `scope`. -/
def service? (context : Context) (types : Types) (scope : String) (declared : ServiceDecl) :
    Option Service := do
  let name := qualify scope declared.name
  let _ ← context.options? types .service name declared.options
  return ⟨declared.name, ← declared.methods.mapM (context.method? types name)⟩

end Context

/-! ## Options that are only checked -/

/-- Options of a declaration, with their kind and the scope in which their names are resolved. -/
structure OptionsPlace where
  kind : OptionKind
  scope : String
  options : Options

/-- The options of fields in `scope`. -/
def fieldPlaces (scope : String) (fields : List FieldDecl) : List OptionsPlace :=
  fields.map fun field => ⟨.field, qualify scope field.name, field.options⟩

/-- The options of an enumeration in `scope` and of its values. -/
def EnumDecl.places (scope : String) (declared : EnumDecl) : List OptionsPlace :=
  ⟨.enum, qualify scope declared.name, declared.options⟩
    :: declared.values.map fun value => ⟨.enumValue, qualify scope value.name, value.options⟩

/-- The options of a message and of what is declared in it. -/
def MessageDecl.places (declared : MessageDecl) : List OptionsPlace :=
  ⟨.message, declared.name, declared.options⟩
    :: fieldPlaces declared.name (declared.fields ++ declared.extensions)
    ++ declared.choices.map
      (fun choice => ⟨.choice, qualify declared.name choice.name, choice.options⟩)
    ++ declared.enums.flatMap (EnumDecl.places declared.name)
    ++ declared.extensionRanges.map (fun range => ⟨.extensionRange, declared.name, range.options⟩)

/-- The options in a file, but for those of services. -/
def FileDecl.places (file : FileDecl) : List OptionsPlace :=
  ⟨.file, file.package, file.options⟩
    :: file.messages.flatMap MessageDecl.places
    ++ file.enums.flatMap (EnumDecl.places file.package)
    ++ fieldPlaces file.package file.extensions

/-! ## Files -/

/-- The types that a file declares. -/
def Context.types? (context : Context) (file : FileDecl) : Option Types := do
  guard (file.allEnums.all fun (_, declared) => declared.isConsistent context.dialect)
  return {
    messages := ← file.messages.mapM context.messageType?
    extensions := ← file.allExtensions.mapM fun (scope, declared) =>
      context.extension? scope declared }

/-- The file with its services. -/
def Context.file? (context : Context) (types : Types) (file : FileDecl) : Option File := do
  guard (file.places.all fun place =>
    (context.options? types place.kind place.scope place.options).isSome)
  return {
    name := file.name
    services := ← file.services.mapM (context.service? types file.package)
    extensions := file.extensions.map fun declared => qualify file.package declared.name }

/-- The enumerations of a file. -/
def FileDecl.enumTypes (file : FileDecl) : List EnumType :=
  file.allEnums.map fun (scope, declared) =>
    ⟨qualify scope declared.name, declared.values.map fun value => (value.name, value.number)⟩

/-- The surroundings of each of the files. -/
def contexts (files : List FileDecl) : Option (List (Context × FileDecl)) := do
  let symbols := files.flatMap FileDecl.symbols
  guard ((files.map FileDecl.name).Nodup ∧ symbols.Pairwise Symbol.agree)
  files.mapM fun file => do
    guard (file.importsExist files)
    let context : Context := {
      messages := files.flatMap FileDecl.messages
      enums := files.flatMap FileDecl.enumTypes
      view := ⟨symbols, file.visible files⟩
      dialect := ← Dialect.ofName? file.dialect? }
    return (context, file)

/-- The pool of the given files. -/
def link (files : List FileDecl) : Option Pool := do
  let contexts ← contexts files
  let parts ← contexts.mapM fun (context, file) => context.types? file
  let types := parts.foldl (· ++ ·) { enums := files.flatMap FileDecl.enumTypes }
  return { types with files := ← contexts.mapM fun (context, file) => context.file? types file }

end AccessRules.Schema
