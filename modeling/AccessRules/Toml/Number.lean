import AccessRules.Text.Digit
import AccessRules.Text.Reader
import AccessRules.Toml.Basic

/-!
# TOML numbers and dates

Digits may be grouped by single underscores. Integers must fit into 64 bits. A float must not be so
large that it rounds to positive infinity. Dates and times are checked against the calendar.
-/

namespace AccessRules.Toml

open AccessRules.Text

/-- The text where `c` stands in front of it. -/
def readIf (p : Char → Bool) : Reader Char
  | c :: rest => if p c then some (c, rest) else none
  | [] => none

/-- One reader, or else the other. -/
def readEither {α : Type} (first second : Reader α) : Reader α := fun text =>
  (first text).orElse fun _ => second text

/-- What `reader` reads, or nothing. -/
def readOptional {α : Type} (reader : Reader α) : Reader (Option α) := fun text =>
  match reader text with
  | some (a, rest) => some (some a, rest)
  | none => some (none, text)

/-! ## Integers -/

/-- A digit, or a digit behind an underscore. -/
def readNextDigit (isDigit : Char → Bool) : Reader Char
  | '_' :: rest => readIf isDigit rest
  | text => readIf isDigit text

/-- Digits, grouped by underscores, without the underscores. -/
def readDigits (isDigit : Char → Bool) : Reader Text := fun text => do
  let (first, rest) ← readIf isDigit text
  let (others, rest) := Reader.many (readNextDigit isDigit) rest
  return (first :: others, rest)

/-- A sign, or nothing. -/
def readSign : Reader Text
  | '+' :: rest => some (['+'], rest)
  | '-' :: rest => some (['-'], rest)
  | text => some ([], text)

/-- A decimal integer: a sign and digits that start with a zero only if it stands alone. -/
def readDecimal : Reader (Text × Text) := fun text => do
  let (sign, rest) ← readSign text
  match rest with
  | '0' :: rest => some ((sign, ['0']), rest)
  | rest => do
    let (digits, rest) ← readDigits Char.isDigit rest
    return ((sign, digits), rest)

/-- The integer with the given sign and digits, if it fits into 64 bits. -/
def integerOf? (base : Nat) (sign digits : Text) : Option Value :=
  let n := digitsValue base digits
  if sign = ['-'] then if n ≤ 1 <<< 63 then some (.integer (-n)) else none
  else if n < 1 <<< 63 then some (.integer n) else none

/-- Digits in another base behind its mark. -/
def readBased (mark : Char) (base : Nat) (isDigit : Char → Bool) : Reader Value := fun text => do
  let (_, rest) ← Reader.literal ['0', mark] text
  let (digits, rest) ← readDigits isDigit rest
  return (← integerOf? base [] digits, rest)

/-- An integer. -/
def readInteger : Reader Value := fun text =>
  match text with
  | '0' :: 'x' :: _ => readBased 'x' 16 isHexDigit text
  | '0' :: 'o' :: _ => readBased 'o' 8 (fun c => '0' ≤ c && c ≤ '7') text
  | '0' :: 'b' :: _ => readBased 'b' 2 (fun c => c == '0' || c == '1') text
  | _ => do
    let ((sign, digits), rest) ← readDecimal text
    return (← integerOf? 10 sign digits, rest)

/-! ## Floats -/

/-- Whether `mantissa * 10 ^ exponent` rounds to infinity in 64-bit floating point. It does from
half a step beyond the largest finite number on. -/
def overflows (mantissa : Nat) (exponent : Int) : Bool :=
  let limit := 1 <<< 1024 - 1 <<< 970
  let magnitude : Int := (Nat.toDigits 10 mantissa).length + exponent
  if mantissa = 0 || magnitude < 300 then false
  else if magnitude > 320 then true
  else if 0 ≤ exponent then limit ≤ mantissa * Nat.pow 10 exponent.toNat
  else limit * Nat.pow 10 (-exponent).toNat ≤ mantissa

/-- The fraction of a float: a point and digits. -/
def readFraction : Reader Text
  | '.' :: rest => readDigits Char.isDigit rest
  | _ => none

/-- The exponent of a float. -/
def readExponent : Reader (Text × Text) := fun text => do
  let (_, rest) ← readIf (fun c => c == 'e' || c == 'E') text
  let (sign, rest) ← readSign rest
  let (digits, rest) ← readDigits Char.isDigit rest
  return ((sign, digits), rest)

/-- A float that is written with digits. -/
def readDigitFloat : Reader Value := fun text => do
  let ((sign, whole), rest) ← readDecimal text
  let (fraction, rest) ← readOptional readFraction rest
  let (exponent, rest) ← readOptional readExponent rest
  if fraction.isNone && exponent.isNone then none
  else
    let fraction := fraction.getD []
    let (exponentSign, exponentDigits) := exponent.getD ([], ['0'])
    let size : Int := digitsValue 10 exponentDigits
    let shift := (if exponentSign = ['-'] then -size else size) - fraction.length
    if sign ≠ ['-'] && overflows (digitsValue 10 (whole ++ fraction)) shift then none
    else
      let spelling := sign ++ whole ++ '.' :: fraction ++ 'e' :: exponentSign ++ exponentDigits
      some (.float (String.ofList spelling), rest)

/-- Infinity or the float that is no number, with or without a sign. -/
def readSpecialFloat : Reader Value := fun text => do
  let (sign, rest) ← readSign text
  let (word, rest) ← readEither
    (fun text => (Reader.literal "inf".toList text).map fun (_, rest) => ("inf", rest))
    (fun text => (Reader.literal "nan".toList text).map fun (_, rest) => ("nan", rest)) rest
  return (.float (String.ofList sign ++ word), rest)

/-! ## Dates and times -/

/-- Exactly `count` digits, as their value, which must lie between `low` and `high`. -/
def readField (count low high : Nat) : Reader Nat := fun text =>
  let digits := text.take count
  let n := digitsValue 10 digits
  if digits.length = count && digits.all Char.isDigit && low ≤ n && n ≤ high then
    some (n, text.drop count)
  else none

/-- Whether the year has a leap day. -/
def isLeapYear (year : Nat) : Bool :=
  year % 4 = 0 && (year % 100 ≠ 0 || year % 400 = 0)

/-- How many days the month has. -/
def daysInMonth (year month : Nat) : Nat :=
  if month = 2 then if isLeapYear year then 29 else 28
  else if month = 4 || month = 6 || month = 9 || month = 11 then 30
  else 31

/-- A date. -/
def readDate : Reader Unit := fun text => do
  let (year, rest) ← readField 4 0 9999 text
  let (_, rest) ← Reader.literal ['-'] rest
  let (month, rest) ← readField 2 1 12 rest
  let (_, rest) ← Reader.literal ['-'] rest
  let (_, rest) ← readField 2 1 (daysInMonth year month) rest
  return ((), rest)

/-- A time of day, to the second or finer. -/
def readTime : Reader Unit := fun text => do
  let (_, rest) ← readField 2 0 23 text
  let (_, rest) ← Reader.literal [':'] rest
  let (_, rest) ← readField 2 0 59 rest
  let (_, rest) ← Reader.literal [':'] rest
  let (_, rest) ← readField 2 0 60 rest
  match rest with
  | '.' :: rest =>
    match Reader.span Char.isDigit rest with
    | ([], _) => none
    | (_, rest) => some ((), rest)
  | rest => some ((), rest)

/-- The distance of a time from universal time. -/
def readOffset : Reader Unit := fun text =>
  match text with
  | [] => none
  | c :: rest =>
    if c = 'Z' || c = 'z' then some ((), rest)
    else if c = '+' || c = '-' then do
      let (_, rest) ← readField 2 0 23 rest
      let (_, rest) ← Reader.literal [':'] rest
      let (_, rest) ← readField 2 0 59 rest
      return ((), rest)
    else none

/-- What may follow a date: a time with or without an offset. -/
def readDayTime : Reader Unit := fun text => do
  let (_, rest) ← readIf (fun c => c == 'T' || c == 't' || c == ' ') text
  let (_, rest) ← readTime rest
  let (_, rest) ← readOptional readOffset rest
  return ((), rest)

/-- A date with or without a time, or a time alone. -/
def readDateTime : Reader Value := fun text => do
  let (_, rest) ← readEither
    (fun text => do
      let (_, rest) ← readDate text
      let (_, rest) ← readOptional readDayTime rest
      return ((), rest))
    readTime text
  return (.dateTime (String.ofList (text.take (text.length - rest.length))), rest)

/-- A value that starts like a number. -/
def readNumber : Reader Value :=
  readEither readDateTime (readEither readDigitFloat (readEither readSpecialFloat readInteger))

end AccessRules.Toml
