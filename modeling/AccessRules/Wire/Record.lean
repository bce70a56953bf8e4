import AccessRules.Wire.Field

/-!
# Records

A record is read from the fields of an encoded message by their numbers. Every field with a known
number must have a payload of the right form; fields with other numbers are passed over.
-/

namespace AccessRules.Wire

/-- What `read` makes of each field with the given number, in their order. -/
def all {α : Type} (read : Payload → Option α) (number : Nat) (fields : List Field) :
    Option (List α) :=
  (fields.filter (·.number = number)).mapM (read ·.payload)

/-- What `read` makes of the last field with the given number, if there is one. All of them must be
readable. -/
def last {α : Type} (read : Payload → Option α) (number : Nat) (fields : List Field) :
    Option (Option α) :=
  (all read number fields).map List.getLast?

/-- The fields of an embedded message in which messages may nest `depth` deep. Fields with unknown
numbers are passed over only where a message may still nest. -/
def embedded (numbers : List Nat) (depth : Nat) (payload : Payload) : Option (List Field) := do
  let fields ← readFields depth (← payload.asBytes?)
  if depth = 0 && !fields.all (numbers.contains ·.number) then none else return fields

/-- A kind of record. -/
structure Record (α : Type) where
  /-- The numbers of its fields. -/
  numbers : List Nat
  /-- What fields make up, where messages may nest `depth` deep inside the record. -/
  read : (depth : Nat) → List Field → Option α

/-- The record that an embedded message holds, where messages may nest `depth` deep. -/
def Record.ofPayload? {α : Type} (record : Record α) (depth : Nat) (payload : Payload) : Option α :=
  match depth with
  | 0 => none
  | depth + 1 => do record.read depth (← embedded record.numbers depth payload)

end AccessRules.Wire
