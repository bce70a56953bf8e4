import AccessRules.Schema.Options

/-!
# Declarations

A compiled definition file declares messages, enumerations, extensions and services. Here they are
as the file has them: types are still names.
-/

namespace AccessRules.Schema

open Wire

/-! ## Declarations -/

/-- The dialect of a definition file. -/
inductive Dialect where
  | proto2
  | proto3
deriving DecidableEq, Repr, Inhabited

/-- What a field declares about its type. -/
inductive TypeDecl where
  | scalar (type : Scalar)
  /-- A message or an enumeration; only its name says which. A message may be encoded as a group. -/
  | named (name : String) (asGroup : Bool)
  /-- A message or an enumeration whose name is missing. -/
  | unnamed
deriving DecidableEq, Repr, Inhabited

/-- A declared field of a message, or an extension. -/
structure FieldDecl where
  name : String
  /-- The message that an extension extends. -/
  extendee? : Option String
  number : Int
  isRepeated : Bool
  type : TypeDecl
  /-- The default as it is written. -/
  default? : Option String
  /-- The name of the field in JSON, if it is given. -/
  jsonName? : Option String
  /-- The choice that the field belongs to, by its place in the message. -/
  choice? : Option Int
  /-- Whether the field is marked as optional in the newer dialect. -/
  markedOptional : Bool
  options : Options
deriving DecidableEq, Repr, Inhabited

/-- A range of numbers, from its start to before its stop. -/
structure NumberRange where
  start : Int
  stop : Int
deriving DecidableEq, Repr, Inhabited

/-- Whether the number lies in the range. -/
def NumberRange.contains (range : NumberRange) (number : Int) : Bool :=
  range.start ≤ number && number < range.stop

/-- A range of numbers that a message leaves to its extensions. -/
structure ExtensionRangeDecl where
  range : NumberRange
  options : Options
deriving DecidableEq, Repr, Inhabited

/-- A declared value of an enumeration. -/
structure EnumValueDecl where
  name : String
  number : Int
  options : Options
deriving DecidableEq, Repr, Inhabited

/-- A declared enumeration. -/
structure EnumDecl where
  name : String
  values : List EnumValueDecl
  reservedRanges : List NumberRange
  options : Options
deriving DecidableEq, Repr, Inhabited

/-- A declared choice: of its fields at most one is set. -/
structure ChoiceDecl where
  name : String
  options : Options
deriving DecidableEq, Repr, Inhabited

/-- A declared message. -/
structure MessageDecl where
  /-- The full name. -/
  name : String
  fields : List FieldDecl
  enums : List EnumDecl
  /-- The extensions that are declared inside the message. -/
  extensions : List FieldDecl
  choices : List ChoiceDecl
  extensionRanges : List ExtensionRangeDecl
  reservedRanges : List NumberRange
  options : Options
deriving DecidableEq, Repr, Inhabited

/-- A declared method of a service. -/
structure MethodDecl where
  name : String
  input : String
  output : String
  options : Options
deriving DecidableEq, Repr, Inhabited

/-- A declared service. -/
structure ServiceDecl where
  name : String
  methods : List MethodDecl
  options : Options
deriving DecidableEq, Repr, Inhabited

/-- The declarations of a definition file. -/
structure FileDecl where
  name : String
  package : String
  /-- The imported files. -/
  imports : List String
  /-- The imports that are passed on, by their places. -/
  publicImports : List Int
  /-- The imports that are marked as weak, by their places. -/
  weakImports : List Int
  /-- All messages; those inside a message come before it. -/
  messages : List MessageDecl
  enums : List EnumDecl
  services : List ServiceDecl
  /-- The extensions that are declared outside of messages. -/
  extensions : List FieldDecl
  options : Options
  /-- The name of the dialect, if it is given. -/
  dialect? : Option String
deriving DecidableEq, Repr, Inhabited

/-- The full name of `name` inside `scope`. -/
def qualify (scope name : String) : String :=
  if scope = "" then name else scope ++ "." ++ name

/-! ## Reading -/

/-- A text that may be missing. -/
def textOf (number : Nat) (fields : List Wire.Field) : Option String :=
  (last Payload.asText? number fields).map (·.getD "")

/-- A number that may be missing. -/
def numberOf (number : Nat) (fields : List Wire.Field) : Option Int :=
  (last Payload.asInt32? number fields).map (·.getD 0)

/-- The type that a type number and a type name declare. A name decides, whatever the number. -/
def TypeDecl.of (code? : Option Int) (name? : Option String) : TypeDecl :=
  match name?, code? with
  | some name, _ => .named name (code? = some 10)
  | none, some 10 | none, some 11 | none, some 14 => .unnamed
  | none, _ => .scalar ((code?.bind Scalar.ofCode?).getD .double)

/-- The label of a repeated field. -/
def repeatedLabel : Int := 3

def FieldDecl.record : Record FieldDecl where
  numbers := [1, 2, 3, 4, 5, 6, 7, 8, 9, 10, 17]
  read := fun depth fields => do
    return {
      name := ← textOf 1 fields
      extendee? := ← last Payload.asText? 2 fields
      number := ← numberOf 3 fields
      isRepeated := (← last Payload.asInt32? 4 fields) = some repeatedLabel
      type := .of (← last Payload.asInt32? 5 fields) (← last Payload.asText? 6 fields)
      default? := ← last Payload.asText? 7 fields
      jsonName? := ← last Payload.asText? 10 fields
      choice? := ← last Payload.asInt32? 9 fields
      markedOptional := (← last Payload.asBool? 17 fields).getD false
      options := ← Options.ofFields? .field depth 8 fields }

/-- A range that is encoded with the number at which it stops. -/
def NumberRange.record : Record NumberRange where
  numbers := [1, 2]
  read := fun _ fields => return ⟨← numberOf 1 fields, ← numberOf 2 fields⟩

/-- A range that is encoded with its last number. -/
def NumberRange.closedRecord : Record NumberRange where
  numbers := [1, 2]
  read := fun _ fields => return ⟨← numberOf 1 fields, (← numberOf 2 fields) + 1⟩

def ExtensionRangeDecl.record : Record ExtensionRangeDecl where
  numbers := [1, 2, 3]
  read := fun depth fields =>
    return ⟨← NumberRange.record.read depth fields,
      ← Options.ofFields? .extensionRange depth 3 fields⟩

def EnumValueDecl.record : Record EnumValueDecl where
  numbers := [1, 2, 3]
  read := fun depth fields =>
    return ⟨← textOf 1 fields, ← numberOf 2 fields, ← Options.ofFields? .enumValue depth 3 fields⟩

def EnumDecl.record : Record EnumDecl where
  numbers := [1, 2, 3, 4, 5]
  read := fun depth fields => do
    let _ ← all Payload.asText? 5 fields
    return {
      name := ← textOf 1 fields
      values := ← all (EnumValueDecl.record.ofPayload? depth) 2 fields
      reservedRanges := ← all (NumberRange.closedRecord.ofPayload? depth) 4 fields
      options := ← Options.ofFields? .enum depth 3 fields }

def ChoiceDecl.record : Record ChoiceDecl where
  numbers := [1, 2]
  read := fun depth fields =>
    return ⟨← textOf 1 fields, ← Options.ofFields? .choice depth 2 fields⟩

/-- The numbers of the fields of an encoded message declaration. -/
def MessageDecl.numbers : List Nat := [1, 2, 3, 4, 5, 6, 7, 8, 9, 10]

/-- A message declared in `scope` from its encoding, behind those inside it. -/
def MessageDecl.ofFields? (scope : String) (depth : Nat) (fields : List Wire.Field) :
    Option (List MessageDecl) := do
  let _ ← all Payload.asText? 10 fields
  let name := qualify scope (← textOf 1 fields)
  let inner ← match depth with
    | 0 => all (fun _ => none) 3 fields
    | depth + 1 =>
      all (fun payload => do
        MessageDecl.ofFields? name depth (← embedded numbers depth payload)) 3 fields
  let outer : MessageDecl := {
    name
    fields := ← all (FieldDecl.record.ofPayload? depth) 2 fields
    enums := ← all (EnumDecl.record.ofPayload? depth) 4 fields
    extensions := ← all (FieldDecl.record.ofPayload? depth) 6 fields
    choices := ← all (ChoiceDecl.record.ofPayload? depth) 8 fields
    extensionRanges := ← all (ExtensionRangeDecl.record.ofPayload? depth) 5 fields
    reservedRanges := ← all (NumberRange.record.ofPayload? depth) 9 fields
    options := ← Options.ofFields? .message depth 7 fields }
  return inner.flatten ++ [outer]

/-- The messages of a declaration in `scope`. -/
def MessageDecl.record (scope : String) : Record (List MessageDecl) where
  numbers := MessageDecl.numbers
  read := MessageDecl.ofFields? scope

def MethodDecl.record : Record MethodDecl where
  numbers := [1, 2, 3, 4, 5, 6]
  read := fun depth fields => do
    let _ ← last Payload.asBool? 5 fields
    let _ ← last Payload.asBool? 6 fields
    return ⟨← textOf 1 fields, ← textOf 2 fields, ← textOf 3 fields,
      ← Options.ofFields? .method depth 4 fields⟩

def ServiceDecl.record : Record ServiceDecl where
  numbers := [1, 2, 3]
  read := fun depth fields =>
    return ⟨← textOf 1 fields, ← all (MethodDecl.record.ofPayload? depth) 2 fields,
      ← Options.ofFields? .service depth 3 fields⟩

/-- A place in the source text. Only its form matters. -/
def locationRecord : Record Unit where
  numbers := [1, 2, 3, 4, 6]
  read := fun _ fields => do
    let _ ← all Payload.asInt32s? 1 fields
    let _ ← all Payload.asInt32s? 2 fields
    let _ ← all Payload.asText? 3 fields
    let _ ← all Payload.asText? 4 fields
    let _ ← all Payload.asText? 6 fields
    return ()

/-- Places in the source text. -/
def sourceRecord : Record Unit where
  numbers := [1]
  read := fun depth fields => do
    let _ ← all (locationRecord.ofPayload? depth) 1 fields
    return ()

def FileDecl.record : Record FileDecl where
  numbers := [1, 2, 3, 4, 5, 6, 7, 8, 9, 10, 11, 12]
  read := fun depth fields => do
    let _ ← all (sourceRecord.ofPayload? depth) 9 fields
    let package ← textOf 2 fields
    return {
      name := ← textOf 1 fields
      package
      imports := ← all Payload.asText? 3 fields
      publicImports := (← all Payload.asInt32s? 10 fields).flatten
      weakImports := (← all Payload.asInt32s? 11 fields).flatten
      messages := (← all ((MessageDecl.record package).ofPayload? depth) 4 fields).flatten
      enums := ← all (EnumDecl.record.ofPayload? depth) 5 fields
      services := ← all (ServiceDecl.record.ofPayload? depth) 6 fields
      extensions := ← all (FieldDecl.record.ofPayload? depth) 7 fields
      options := ← Options.ofFields? .file depth 8 fields
      dialect? := ← last Payload.asText? 12 fields }

/-- A file from its bytes, which are themselves part of a message. -/
def FileDecl.ofBytes? (bytes : Bytes) : Option FileDecl :=
  FileDecl.record.ofPayload? maxDepth (.bytes bytes)

end AccessRules.Schema
