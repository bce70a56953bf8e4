import AccessRules.Text.Reader

/-!
# Decimal numbers

Numbers as they are written in decimal: integers, and reals with a point and an exponent.
-/

namespace AccessRules.Text

/-- A sign that may stand in front of a number: whether it is a minus. -/
def readSign : Text → Bool × Text
  | '-' :: rest => (true, rest)
  | '+' :: rest => (false, rest)
  | text => (false, text)

/-- The integer that the text spells: digits behind a sign or none. -/
def integer? (text : Text) : Option Int :=
  let (isNegative, digits) := readSign text
  if digits ≠ [] && digits.all Char.isDigit then
    let n := digitsValue 10 digits
    some (if isNegative then -n else n)
  else none

/-- A real that is written in decimal. -/
inductive Decimal where
  /-- The number `mantissa * 10 ^ exponent`. -/
  | finite (mantissa : Nat) (exponent : Int)
  | infinity
  /-- What is written where there is no number. -/
  | nan
deriving DecidableEq, Repr

namespace Decimal

/-- The exponent at the end of a number: zero where there is none. -/
def exponent? : Text → Option Int
  | [] => some 0
  | c :: rest => if c = 'e' || c = 'E' then integer? rest else none

/-- A number without a sign: digits, among which a point may stand, and an exponent or none. -/
def ofDigits? (text : Text) : Option Decimal := do
  let (whole, rest) := Reader.span Char.isDigit text
  let (fraction, rest) :=
    match rest with
    | '.' :: rest => Reader.span Char.isDigit rest
    | rest => ([], rest)
  if whole = [] && fraction = [] then none
  else return .finite (digitsValue 10 (whole ++ fraction)) ((← exponent? rest) - fraction.length)

/-- The number that a text without a sign spells. The names of what is no finite number may be
written in either case. -/
def ofText? (text : Text) : Option Decimal :=
  match String.ofList (text.map Char.toLower) with
  | "inf" | "infinity" => some infinity
  | "nan" => some nan
  | _ => ofDigits? text

/-- The number as a float. `ofScientific` gives the nearest float for a mantissa and the distance of
its point, and is asked only where the number is neither far too large nor far too small. -/
def toReal {α : Type} (ofScientific : Nat → Bool → Nat → α) (infinite none : α) : Decimal → α
  | finite mantissa exponent =>
    let magnitude : Int := (Nat.toDigits 10 mantissa).length + exponent
    if mantissa = 0 || magnitude < -400 then ofScientific 0 false 0
    else if magnitude > 400 then infinite
    else ofScientific mantissa (exponent < 0) exponent.natAbs
  | infinity => infinite
  | nan => none

end Decimal

/-- The real of 64 bits that the text spells. -/
def real64? (text : Text) : Option Float := do
  let (isNegative, rest) := readSign text
  let value := (← Decimal.ofText? rest).toReal Float.ofScientific (1 / 0) (0 / 0)
  return if isNegative then -value else value

/-- The real of 32 bits that the text spells. -/
def real32? (text : Text) : Option Float32 := do
  let (isNegative, rest) := readSign text
  let value := (← Decimal.ofText? rest).toReal Float32.ofScientific (1 / 0) (0 / 0)
  return if isNegative then -value else value

end AccessRules.Text
