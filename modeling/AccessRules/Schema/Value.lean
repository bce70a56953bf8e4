import AccessRules.Schema.Type

/-!
# Values

A message holds values for the fields that are set. It is read field by field in the order of its
encoding, and each field is merged into what was read before: a later scalar replaces the earlier
one, a later message is merged into it, and repeated fields grow.
-/

namespace AccessRules.Schema

open Wire (Bytes Form Payload)

/-- The value of a field. -/
inductive Value where
  | datum (value : Datum)
  /-- A message of the type with the given full name, with the fields that are set. -/
  | message (type : String) (fields : List (Nat × Value))
  | list (items : List Value)
deriving Repr

/-- A message: the fields that are set, by their numbers. -/
structure Message where
  /-- The full name of the type. -/
  type : String
  fields : List (Nat × Value) := []
deriving Repr, Inhabited

/-! ## Messages -/

namespace Message

/-- The value of a field that is set. -/
def get? (message : Message) (number : Nat) : Option Value :=
  message.fields.lookup number

/-- The message without the fields whose numbers satisfy `p`. -/
def eraseAll (message : Message) (p : Nat → Bool) : Message :=
  { message with fields := message.fields.filter fun field => !p field.1 }

/-- The message with a field set. -/
def set (message : Message) (number : Nat) (value : Value) : Message :=
  { message with fields := (number, value) :: (message.eraseAll (· == number)).fields }

@[simp] theorem get?_eraseAll (message : Message) (p : Nat → Bool) (number : Nat) :
    (message.eraseAll p).get? number = if p number then none else message.get? number := by
  simp only [get?, eraseAll]
  induction message.fields with
  | nil => simp
  | cons field fields ih =>
      obtain ⟨key, value⟩ := field
      rw [List.filter_cons, List.lookup_cons]
      cases hp : p key with
      | true =>
          simp only [Bool.not_true, Bool.false_eq_true, if_false, ih]
          by_cases hk : number = key
          · simp [hk, hp]
          · simp [beq_false_of_ne hk]
      | false =>
          simp only [Bool.not_false, if_true, List.lookup_cons, ih]
          by_cases hk : number = key
          · simp [hk, hp]
          · simp [beq_false_of_ne hk]

@[simp] theorem get?_set_self (message : Message) (number : Nat) (value : Value) :
    (message.set number value).get? number = some value := by
  simp [get?, set]

theorem get?_set_of_ne (message : Message) {number other : Nat} (value : Value)
    (h : other ≠ number) : (message.set number value).get? other = message.get? other := by
  have := get?_eraseAll message (· == number) other
  simp_all [get?, set, List.lookup_cons, beq_false_of_ne h]

end Message

namespace Value

def asText? : Value → Option String
  | datum (.text value) => some value
  | _ => none

def asMessage? : Value → Option Message
  | message type fields => some ⟨type, fields⟩
  | _ => none

/-- The items of a list. -/
def items : Value → List Value
  | list items => items
  | _ => []

end Value

/-- A message as a value. -/
def Message.toValue (message : Message) : Value :=
  .message message.type message.fields

/-! ## Setting fields -/

namespace Field

/-- Whether the value is the one of a field that is not set. -/
def isDefault (field : Field) : Value → Bool
  | .datum value => (field.default?.map value.same).getD false
  | .message _ _ => false
  | .list items => items.isEmpty

/-- Whether the field is set when it has this value. -/
def isSet (field : Field) (value : Value) : Bool :=
  field.hasPresence || !field.isDefault value

/-- The value of the field after more values, where `old` was there before. -/
def add (field : Field) (old : Option Value) (values : List Value) : Option Value :=
  if field.isRepeated then some (.list ((old.map Value.items).getD [] ++ values))
  else values.head?

end Field

/-- The message with a field set to the value. Other fields of its choice are unset, and a field is
unset itself where its default says the same. -/
def MessageType.put (type : MessageType) (message : Message) (field : Field) (value : Value) :
    Message :=
  let message := message.eraseAll (type.excludes field)
  if field.isSet value then message.set field.number value
  else message.eraseAll (· == field.number)

/-! ## Merging -/

/-- Reads encoded fields into a message that was read before: all that the bytes hold, or those in
front of the end mark of a group. Without a type no field is known, and the message stays as it is.
Gives the bytes that are left. -/
abbrev Merge := Option MessageType → (ending : Option Nat) → Message → Bytes →
  Option (Message × Bytes)

namespace Types

/-- The values that a payload stands for, where `old` was read before, and the bytes behind it.
Messages inside it are read by `nested`. -/
def readValues (types : Types) (nested : Merge) (field : Field) (old : Option Value) (form : Form)
    (bytes : Bytes) : Option (List Value × Bytes) :=
  let before (name : String) : Message :=
    if field.isRepeated then ⟨name, []⟩ else (old.bind Value.asMessage?).getD ⟨name, []⟩
  let scalars (type : Scalar) : Option (List Value × Bytes) := do
    let (payload, rest) ← Wire.readPlain form bytes
    let data ← if field.isRepeated then type.readAll payload else (type.read payload).map ([·])
    return (data.map .datum, rest)
  match field.type, form with
  | .scalar type, _ => scalars type
  | .enum _, _ => scalars .int32
  | .message name, .bytes => do
    let (payload, rest) ← Wire.readPlain .bytes bytes
    let (message, _) ← nested (some (← types.message? name)) none (before name) (← payload.asBytes?)
    return ([message.toValue], rest)
  | .group name, .groupStart => do
    let (message, rest) ←
      nested (some (← types.message? name)) (some field.number) (before name) bytes
    return ([message.toValue], rest)
  | _, _ => none

/-- The message after one more payload of a field that its type has. -/
def mergeKnown (types : Types) (nested : Merge) (type : MessageType) (field : Field) (form : Form)
    (message : Message) (bytes : Bytes) : Option (Message × Bytes) := do
  let old := message.get? field.number
  let (values, rest) ← types.readValues nested field old form bytes
  return (type.put message field (← field.add old values), rest)

/-- The entry of a map that the bytes encode: a key and a value. An entry does not count as a nested
message. -/
def readEntry (types : Types) (depth : Nat) (nested : Merge) (entry : MessageType)
    (bytes : Bytes) : Option Message := do
  let (message, _) ← Wire.foldFields
    (fun number form message bytes =>
      if number = 1 ∨ number = 2 then do
        types.mergeKnown nested entry (← types.field? entry number) form message bytes
      else (Wire.skipPayload depth number form bytes).map fun rest => (message, rest))
    none (⟨entry.name, []⟩ : Message) bytes
  return message

/-- The message after one more field. Messages nest `depth` deep at most. The payload of a map is an
entry behind its length, whatever form the key gives. -/
def mergeField (types : Types) (depth : Nat) (nested : Merge) (type? : Option MessageType)
    (number : Nat) (form : Form) (message : Message) (bytes : Bytes) : Option (Message × Bytes) :=
  match type?.bind fun type => (types.field? type number).map fun field => (type, field) with
  | none =>
    match form with
    | .groupStart => nested none (some number) message bytes
    | form => (Wire.readPlain form bytes).map fun (_, rest) => (message, rest)
  | some (type, field) =>
    match types.entry? field with
    | none => types.mergeKnown nested type field form message bytes
    | some entry => do
      let (payload, rest) ← Wire.readPlain .bytes bytes
      let value := (← types.readEntry depth nested entry (← payload.asBytes?)).toValue
      return (type.put message field (← field.add (message.get? number) [value]), rest)

/-- Reads encoded fields into a message in which messages nest `depth` deep at most. -/
def merge (types : Types) : (depth : Nat) → Merge
  | 0 => fun type? ending =>
    Wire.foldFields (types.mergeField 0 (fun _ _ _ _ => none) type?) ending
  | depth + 1 => fun type? ending =>
    Wire.foldFields (types.mergeField (depth + 1) (types.merge depth) type?) ending

/-- The message of the given type that the bytes encode. -/
def decode (types : Types) (type : MessageType) (bytes : Bytes) : Option Message := do
  let (message, _) ← types.merge Wire.maxDepth (some type) none ⟨type.name, []⟩ bytes
  return message

end Types

end AccessRules.Schema
