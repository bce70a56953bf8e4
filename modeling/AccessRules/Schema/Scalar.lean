import AccessRules.Text.Utf8
import AccessRules.Wire.Record

/-!
# Scalars

The types of fields that hold a single number, truth value or string, and their values.
-/

namespace AccessRules.Schema

open Wire

/-- A type that needs no name. -/
inductive Scalar where
  | double
  | float
  | int64
  | uint64
  | int32
  | fixed64
  | fixed32
  | bool
  | text
  | bytes
  | uint32
  | sfixed32
  | sfixed64
  /-- A number whose sign is its lowest bit. -/
  | sint32
  | sint64
deriving DecidableEq, Repr, Inhabited

/-- The value of a scalar. -/
inductive Datum where
  | integer (value : Int)
  | real (value : Float)
  | truth (value : Bool)
  | text (value : String)
  | bytes (value : Bytes)
deriving DecidableEq, Repr

/-- Whether two values are equal. Reals are compared as numbers: one that is no number differs from
itself, and there is one zero. -/
def Datum.same : Datum → Datum → Bool
  | real first, real second => first == second
  | first, second => first = second

namespace Scalar

/-- The scalar with the given number in compiled files. -/
def ofCode? : Int → Option Scalar
  | 1 => some double
  | 2 => some float
  | 3 => some int64
  | 4 => some uint64
  | 5 => some int32
  | 6 => some fixed64
  | 7 => some fixed32
  | 8 => some bool
  | 9 => some text
  | 12 => some bytes
  | 13 => some uint32
  | 15 => some sfixed32
  | 16 => some sfixed64
  | 17 => some sint32
  | 18 => some sint64
  | _ => none

/-- The form in which values are encoded. -/
def form : Scalar → Form
  | double | fixed64 | sfixed64 => .fixed64
  | float | fixed32 | sfixed32 => .fixed32
  | text | bytes => .bytes
  | int64 | uint64 | int32 | bool | uint32 | sint32 | sint64 => .varint

/-- The value of a field that is not set. -/
def zero : Scalar → Datum
  | double | float => .real 0
  | bool => .truth false
  | text => .text ""
  | bytes => .bytes []
  | _ => .integer 0

/-- The least integer of the type and the first beyond its largest. -/
def range? : Scalar → Option (Int × Int)
  | int32 | sint32 | sfixed32 => some (-(1 <<< 31 : Nat), (1 <<< 31 : Nat))
  | int64 | sint64 | sfixed64 => some (-(1 <<< 63 : Nat), (1 <<< 63 : Nat))
  | uint32 | fixed32 => some (0, (1 <<< 32 : Nat))
  | uint64 | fixed64 => some (0, (1 <<< 64 : Nat))
  | _ => none

/-- The integer as a value of the type. -/
def integer? (type : Scalar) (value : Int) : Option Datum := do
  let (low, high) ← type.range?
  if low ≤ value ∧ value < high then return .integer value else none

/-! ## Reading -/

/-- The number whose bytes are given, the lowest first. -/
def littleEndian (bytes : Bytes) : Nat :=
  bytes.foldr (fun byte high => byte.toNat + 256 * high) 0

/-- The number whose sign is the lowest bit of `bits`. -/
def signedLow (bits : Nat) : Int :=
  if bits % 2 = 0 then (bits / 2 : Nat) else -((bits / 2 : Nat) : Int) - 1

/-- The value in a payload. -/
def read : Scalar → Payload → Option Datum
  | double, .fixed64 raw => some (.real (Float.ofBits (littleEndian raw).toUInt64))
  | float, .fixed32 raw => some (.real (Float32.ofBits (littleEndian raw).toUInt32).toFloat)
  | int64, .varint bits => some (.integer (signed 64 bits))
  | uint64, .varint bits => some (.integer bits)
  | int32, .varint bits => some (.integer (signed 32 bits))
  | fixed64, .fixed64 raw => some (.integer (littleEndian raw))
  | fixed32, .fixed32 raw => some (.integer (littleEndian raw))
  | bool, .varint bits => some (.truth (bits ≠ 0))
  | text, .bytes raw => (Text.decode? raw).map .text
  | bytes, .bytes raw => some (.bytes raw)
  | uint32, .varint bits => some (.integer ((bits % (1 <<< 32) : Nat) : Int))
  | sfixed32, .fixed32 raw => some (.integer (signed 32 (littleEndian raw)))
  | sfixed64, .fixed64 raw => some (.integer (signed 64 (littleEndian raw)))
  | sint32, .varint bits => some (.integer (signedLow (bits % (1 <<< 32))))
  | sint64, .varint bits => some (.integer (signedLow bits))
  | _, _ => none

/-- The values that a payload adds to a repeated field: one, or any number of them packed together.
Text and bytes cannot be packed. -/
def readAll (type : Scalar) (payload : Payload) : Option (List Datum) :=
  match payload with
  | .bytes packed =>
    if type.form = .bytes then (type.read payload).map ([·])
    else do (← readRun type.form packed).mapM type.read
  | payload => (type.read payload).map ([·])

end Scalar

end AccessRules.Schema
