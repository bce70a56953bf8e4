import AccessRules.Text.Utf8
import AccessRules.Wire.Varint

/-!
# Fields of an encoded message

A message is a sequence of fields. Each starts with a key, which holds the number of the field and
the form of its payload.
-/

namespace AccessRules.Wire

/-- The payload of a field, by its form. -/
inductive Payload where
  | varint (value : Nat)
  | fixed64 (bytes : Bytes)
  | bytes (bytes : Bytes)
  /-- The fields between a start and an end mark, still encoded. -/
  | group (bytes : Bytes)
  | fixed32 (bytes : Bytes)
deriving DecidableEq, Repr

/-- A field of a message. -/
structure Field where
  number : Nat
  payload : Payload
deriving DecidableEq, Repr

/-- The form of a payload as it is given in a key. -/
inductive Form where
  | varint
  | fixed64
  | bytes
  | groupStart
  | groupEnd
  | fixed32
deriving DecidableEq, Repr

namespace Form

/-- The code of the form. -/
def code : Form → Nat
  | varint => 0
  | fixed64 => 1
  | bytes => 2
  | groupStart => 3
  | groupEnd => 4
  | fixed32 => 5

/-- The form with the given code. -/
def ofCode? (code : Nat) : Option Form :=
  [varint, fixed64, bytes, groupStart, groupEnd, fixed32].find? (·.code = code)

end Form

/-! ## Reading -/

/-- The key at the front of the bytes: the number of a field, which is not zero, and its form. -/
def readKey (bytes : Bytes) : Option ((Nat × Form) × Bytes) := do
  let (key, rest) ← readVarint bytes
  if 1 <<< 32 ≤ key || key / 8 = 0 then none
  else
    let form ← Form.ofCode? (key % 8)
    return ((key / 8, form), rest)

theorem length_of_readKey {bytes rest : Bytes} {key : Nat × Form}
    (h : readKey bytes = some (key, rest)) : rest.length < bytes.length := by
  simp only [readKey, Option.bind_eq_bind, Option.bind_eq_some_iff, Prod.exists] at h
  obtain ⟨n, tail, hread, h⟩ := h
  split at h
  · simp at h
  · simp only [Option.bind_eq_some_iff, Option.pure_def, Option.some.injEq, Prod.mk.injEq] at h
    obtain ⟨_, _, _, rfl⟩ := h
    exact length_of_readVarint hread

/-- The first `count` bytes, if there are so many. -/
def takeBytes (count : Nat) (bytes : Bytes) : Option (Bytes × Bytes) :=
  if count ≤ bytes.length then some (bytes.take count, bytes.drop count) else none

/-- The payload of a field that is no group. -/
def readPlain (form : Form) (bytes : Bytes) : Option (Payload × Bytes) :=
  match form with
  | .varint => (readVarint bytes).map fun (value, rest) => (.varint value, rest)
  | .fixed64 => (takeBytes 8 bytes).map fun (taken, rest) => (.fixed64 taken, rest)
  | .fixed32 => (takeBytes 4 bytes).map fun (taken, rest) => (.fixed32 taken, rest)
  | .bytes => do
    let (count, rest) ← readVarint bytes
    let (taken, rest) ← takeBytes count rest
    return (.bytes taken, rest)
  | .groupStart | .groupEnd => none

theorem length_of_takeBytes {count : Nat} {bytes taken rest : Bytes}
    (h : takeBytes count bytes = some (taken, rest)) : rest.length ≤ bytes.length := by
  simp only [takeBytes] at h
  split at h
  · simp only [Option.some.injEq, Prod.mk.injEq] at h
    simp [← h.2]
  · simp at h

theorem length_of_readPlain {form : Form} {bytes rest : Bytes} {payload : Payload}
    (h : readPlain form bytes = some (payload, rest)) : rest.length ≤ bytes.length := by
  cases form <;> simp only [readPlain, Option.map_eq_some_iff, Option.bind_eq_bind,
    Option.bind_eq_some_iff, Option.pure_def, Option.some.injEq, Prod.mk.injEq, Prod.exists,
    reduceCtorEq] at h
  case varint =>
    obtain ⟨_, _, hread, _, rfl⟩ := h
    exact Nat.le_of_lt (length_of_readVarint hread)
  case fixed64 | fixed32 =>
    obtain ⟨_, _, htake, _, rfl⟩ := h
    exact length_of_takeBytes htake
  case bytes =>
    obtain ⟨_, _, hread, _, _, htake, _, rfl⟩ := h
    exact Nat.le_trans (length_of_takeBytes htake) (Nat.le_of_lt (length_of_readVarint hread))

/-- Passes over fields until the last of the `opened` groups ends, the innermost first. Gives the
bytes from its end mark on, and the bytes behind that. At most `limit` groups may be open. -/
def groupEnd (limit : Nat) (opened : List Nat) (bytes : Bytes) : Option (Bytes × Bytes) :=
  match opened with
  | [] => none
  | innermost :: outer =>
    match _ : readKey bytes with
    | none => none
    | some ((number, form), rest) =>
      match form with
      | .groupEnd =>
        if number = innermost then
          match outer with
          | [] => some (bytes, rest)
          | _ :: _ => groupEnd limit outer rest
        else none
      | .groupStart =>
        if (innermost :: outer).length < limit then
          groupEnd limit (number :: innermost :: outer) rest
        else none
      | .varint | .fixed64 | .bytes | .fixed32 =>
        if (innermost :: outer).length < limit then
          match _ : readPlain form rest with
          | none => none
          | some (_, rest) => groupEnd limit (innermost :: outer) rest
        else none
termination_by bytes.length
decreasing_by
  · exact length_of_readKey ‹_›
  · exact length_of_readKey ‹_›
  all_goals exact Nat.lt_of_le_of_lt (length_of_readPlain ‹_›) (length_of_readKey ‹_›)

/-- The payload behind a key. Groups may nest `limit` deep. -/
def readPayload (limit number : Nat) (form : Form) (bytes : Bytes) : Option (Payload × Bytes) :=
  match form with
  | .groupStart => do
    let (ending, behind) ← if limit = 0 then none else groupEnd limit [number] bytes
    return (.group (bytes.take (bytes.length - ending.length)), behind)
  | form => readPlain form bytes

/-- The bytes behind a payload that nobody looks at. Such a payload counts as a nested message. -/
def skipPayload (limit number : Nat) (form : Form) (bytes : Bytes) : Option Bytes :=
  if limit = 0 then none else (readPayload limit number form bytes).map Prod.snd

/-- The field at the front of the bytes. -/
def readField (limit : Nat) (bytes : Bytes) : Option (Field × Bytes) := do
  let ((number, form), rest) ← readKey bytes
  let (payload, rest) ← readPayload limit number form rest
  return (⟨number, payload⟩, rest)

/-- The fields of a message. Groups may nest `limit` deep. -/
def readFields (limit : Nat) (bytes : Bytes) : Option (List Field) :=
  match bytes with
  | [] => some []
  | byte :: tail =>
    match readField limit (byte :: tail) with
    | none => none
    | some (field, rest) =>
      if rest.length < (byte :: tail).length then
        (readFields limit rest).map (field :: ·)
      else none
termination_by bytes.length
decreasing_by assumption

/-- Goes through the fields that the bytes hold, or those in front of the end mark of the group with
the number `ending`. Each step gets the key of a field and takes its payload off the bytes. Gives
the bytes that are left. -/
def foldFields {α : Type} (step : Nat → Form → α → Bytes → Option (α × Bytes))
    (ending : Option Nat) (state : α) (bytes : Bytes) : Option (α × Bytes) :=
  match bytes with
  | [] => if ending = none then some (state, []) else none
  | byte :: tail =>
    match readKey (byte :: tail) with
    | none => none
    | some ((number, form), rest) =>
      if form = .groupEnd ∧ ending ≠ none then
        if ending = some number then some (state, rest) else none
      else
        match step number form state rest with
        | none => none
        | some (state, rest) =>
          if rest.length < (byte :: tail).length then foldFields step ending state rest else none
termination_by bytes.length
decreasing_by assumption

/-- The payloads of one form that fill the bytes. -/
def readRun (form : Form) (bytes : Bytes) : Option (List Payload) :=
  match bytes with
  | [] => some []
  | byte :: tail =>
    match readPlain form (byte :: tail) with
    | none => none
    | some (payload, rest) =>
      if rest.length < (byte :: tail).length then (readRun form rest).map (payload :: ·) else none
termination_by bytes.length
decreasing_by assumption

/-- The number with a sign whose two's complement the lowest `size` bits are. -/
def signed (size bits : Nat) : Int :=
  let low : Nat := bits % (1 <<< size)
  if low < 1 <<< (size - 1) then (low : Int) else (low : Int) - (1 <<< size : Nat)

/-! ## Reading payloads -/

namespace Payload

def asBytes? : Payload → Option Bytes
  | bytes value => some value
  | _ => none

/-- A string, which must be UTF-8. -/
def asText? : Payload → Option String
  | bytes value => Text.decode? value
  | _ => none

def asInt32? : Payload → Option Int
  | varint value => some (signed 32 value)
  | _ => none

/-- A truth value: any number but zero is true. -/
def asBool? : Payload → Option Bool
  | varint value => some (value ≠ 0)
  | _ => none

end Payload

/-- Numbers of a repeated field: one by itself, or any number of them packed together. -/
def Payload.asInt32s? : Payload → Option (List Int)
  | varint value => some [signed 32 value]
  | bytes value => do (← readRun .varint value).mapM asInt32?
  | _ => none

/-! ## Writing -/

/-- A field that holds a number. -/
def writeNumber (number value : Nat) : Bytes :=
  writeVarint (number * 8 + Form.varint.code) ++ writeVarint value

/-- A field that holds bytes. -/
def writeBytes (number : Nat) (bytes : Bytes) : Bytes :=
  writeVarint (number * 8 + Form.bytes.code) ++ writeVarint bytes.length ++ bytes

/-- A field that holds a string. -/
def writeText (number : Nat) (text : String) : Bytes :=
  writeBytes number (Text.encode text)

/-- How deep messages and groups may nest. -/
def maxDepth : Nat := 100

end AccessRules.Wire
