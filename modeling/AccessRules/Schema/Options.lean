import AccessRules.Schema.OptionKind

/-!
# Declared options

The options of a declaration are encoded like any message. Besides, a file may hold options as they
were written, before their names were resolved.
-/

namespace AccessRules.Schema

open Wire

/-- A part of the name of an option. -/
structure NamePart where
  name : String
  /-- Whether the part names an extension and not a field. -/
  isExtension : Bool
deriving DecidableEq, Repr

/-- An option as it was written: a name that leads through messages to a field, and a value. -/
structure WrittenOption where
  path : List NamePart
  identifier? : Option String
  /-- An integer without a minus sign. -/
  positive? : Option Nat
  negative? : Option Int
  real? : Option Float
  text? : Option Bytes
  /-- The text of a message. -/
  aggregate? : Option String
deriving DecidableEq, Repr

/-- The options that a declaration has. -/
structure Options where
  encoded : Bytes := []
  /-- The fields that are encoded. -/
  fields : List Wire.Field := []
  written : List WrittenOption := []
deriving DecidableEq, Repr, Inhabited

/-- Whether the truth value with the given number is set and true. -/
def Options.isOn (options : Options) (number : Nat) : Bool :=
  last Payload.asBool? number options.fields = some (some true)

/-! ## Reading -/

/-- A real of 64 bits. -/
def asReal? (payload : Payload) : Option Float :=
  match Scalar.double.read payload with
  | some (.real value) => some value
  | _ => none

/-- An integer of 64 bits, with or without a sign. -/
def asInteger? (type : Scalar) (payload : Payload) : Option Int :=
  match type.read payload with
  | some (.integer value) => some value
  | _ => none

def NamePart.record : Record NamePart where
  numbers := [1, 2]
  read := fun _ fields => do
    return ⟨(← last Payload.asText? 1 fields).getD "", (← last Payload.asBool? 2 fields).getD false⟩

def WrittenOption.record : Record WrittenOption where
  numbers := [2, 3, 4, 5, 6, 7, 8]
  read := fun depth fields => do
    return {
      path := ← all (NamePart.record.ofPayload? depth) 2 fields
      identifier? := ← last Payload.asText? 3 fields
      positive? := (← last (asInteger? .uint64) 4 fields).map Int.toNat
      negative? := ← last (asInteger? .int64) 5 fields
      real? := ← last asReal? 6 fields
      text? := ← last Payload.asBytes? 7 fields
      aggregate? := ← last Payload.asText? 8 fields }

/-- Whether a payload can be read as a scalar or as a value of an enumeration. -/
def FieldType.reads (type : FieldType) (payload : Payload) : Bool :=
  match type with
  | .scalar type => (type.read payload).isSome
  | .enum _ => (Scalar.int32.read payload).isSome
  | .message _ | .group _ => false

/-- A piece of encoded options. Its standard fields must be readable. -/
def Options.record (kind : OptionKind) : Record (List Wire.Field × List WrittenOption) where
  numbers := (Standard.options kind).fields.map Field.number
  read := fun depth fields => do
    guard (fields.all fun field =>
      (Standard.ownFields kind).all fun known =>
        known.number ≠ field.number || known.type.reads field.payload)
    return (fields, ← all (WrittenOption.record.ofPayload? depth) Standard.writtenNumber fields)

/-- The options in the fields with the given number. Options in several pieces are put together. -/
def Options.ofFields? (kind : OptionKind) (depth number : Nat) (fields : List Wire.Field) :
    Option Options := do
  let pieces ← all ((Options.record kind).ofPayload? depth) number fields
  return {
    encoded := (← all Payload.asBytes? number fields).flatten
    fields := pieces.flatMap Prod.fst
    written := pieces.flatMap Prod.snd }

end AccessRules.Schema
