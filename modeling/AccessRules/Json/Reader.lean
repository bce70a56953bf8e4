import AccessRules.Json.Basic
import AccessRules.Text.Reader

/-!
# Reading JSON

`Json.read?` accepts one JSON value with blanks around it, nested at most `maxDepth` deep.
-/

namespace AccessRules.Json

open AccessRules.Text

/-- The blanks of JSON. -/
def isJsonBlank (c : Char) : Bool :=
  c == ' ' || c == '\t' || c == '\n' || c == '\r'

/-- The text after its leading blanks. -/
def skipBlanks (text : Text) : Text :=
  text.dropWhile isJsonBlank

/-! ## Strings -/

/-- A character written as `\u` and four digits, or as two of those where the first alone is half a
character. -/
def readUnicode : Reader Char := fun text => do
  let (high, rest) ← Reader.hex 4 text
  if 0xd800 ≤ high && high < 0xdc00 then
    let (_, rest) ← Reader.literal ['\\', 'u'] rest
    let (low, rest) ← Reader.hex 4 rest
    if 0xdc00 ≤ low && low < 0xe000 then
      some (Char.ofNat (0x10000 + (high - 0xd800) * 0x400 + (low - 0xdc00)), rest)
    else none
  else if 0xdc00 ≤ high && high < 0xe000 then none
  else some (Char.ofNat high, rest)

/-- What stands behind a backslash. -/
def readEscape : Reader Char
  | '"' :: rest => some ('"', rest)
  | '\\' :: rest => some ('\\', rest)
  | '/' :: rest => some ('/', rest)
  | 'b' :: rest => some ('\x08', rest)
  | 'f' :: rest => some ('\x0c', rest)
  | 'n' :: rest => some ('\n', rest)
  | 'r' :: rest => some ('\r', rest)
  | 't' :: rest => some ('\t', rest)
  | 'u' :: rest => readUnicode rest
  | _ => none

/-- One character of a string; none at its closing quote. -/
def readChar : Reader Char
  | '\\' :: rest => readEscape rest
  | c :: rest => if c = '"' || c.toNat < 32 then none else some (c, rest)
  | [] => none

/-- A string with its quotes. -/
def readString : Reader String
  | '"' :: rest =>
    match Reader.many readChar rest with
    | (value, '"' :: rest) => some (String.ofList value, rest)
    | _ => none
  | _ => none

/-! ## Numbers -/

/-- One digit or more. -/
def readDigits : Reader Text := fun text =>
  match Reader.span Char.isDigit text with
  | ([], _) => none
  | (digits, rest) => some (digits, rest)

/-- The integer part: a lone zero, or digits that do not start with one. -/
def readInteger : Reader Text
  | '0' :: rest => some (['0'], rest)
  | text => readDigits text

/-- A point and digits, or nothing. -/
def readFraction : Reader Text
  | '.' :: rest => (readDigits rest).map fun (digits, rest) => ('.' :: digits, rest)
  | text => some ([], text)

/-- An exponent, or nothing. -/
def readExponent : Reader Text
  | c :: rest =>
    if c = 'e' || c = 'E' then
      let (sign, rest) := match rest with
        | '+' :: rest => (['+'], rest)
        | '-' :: rest => (['-'], rest)
        | rest => ([], rest)
      (readDigits rest).map fun (digits, rest) => (c :: sign ++ digits, rest)
    else some ([], c :: rest)
  | [] => some ([], [])

/-- A number, as it is spelled. -/
def readNumber : Reader String := fun text => do
  let (sign, rest) := match text with
    | '-' :: rest => (['-'], rest)
    | rest => ([], rest)
  let (whole, rest) ← readInteger rest
  let (fraction, rest) ← readFraction rest
  let (exponent, rest) ← readExponent rest
  return (String.ofList (sign ++ whole ++ fraction ++ exponent), rest)

/-! ## Values -/

/-- A comma, then what `entry` reads. -/
def readNext {α : Type} (entry : Reader α) : Reader α := fun text =>
  match skipBlanks text with
  | ',' :: rest => entry (skipBlanks rest)
  | _ => none

/-- Entries with commas between them up to the character `close`; the opening one is already
read. -/
def readEntries {α : Type} (entry : Reader α) (close : Char) : Reader (List α) := fun text =>
  match skipBlanks text with
  | [] => none
  | c :: rest =>
    if c = close then some ([], rest)
    else do
      let (first, rest) ← entry (c :: rest)
      let (others, rest) := Reader.many (readNext entry) rest
      let (_, rest) ← Reader.literal [close] (skipBlanks rest)
      return (first :: others, rest)

/-- A key, a colon, and what `value` reads. -/
def readMember {α : Type} (value : Reader α) : Reader (String × α) := fun text => do
  let (key, rest) ← readString text
  let (_, rest) ← Reader.literal [':'] (skipBlanks rest)
  let (a, rest) ← value (skipBlanks rest)
  return ((key, a), rest)

/-- A value that is nested at most `depth` deep. -/
def readValue : (depth : Nat) → Reader Json
  | 0, _ => none
  | depth + 1, text =>
    match text with
    | 'n' :: _ => (Reader.literal "null".toList text).map fun (_, rest) => (null, rest)
    | 't' :: _ => (Reader.literal "true".toList text).map fun (_, rest) => (bool true, rest)
    | 'f' :: _ => (Reader.literal "false".toList text).map fun (_, rest) => (bool false, rest)
    | '"' :: _ => (readString text).map fun (value, rest) => (string value, rest)
    | '[' :: rest =>
      (readEntries (readValue depth) ']' rest).map fun (items, rest) => (array items, rest)
    | '{' :: rest =>
      (readEntries (readMember (readValue depth)) '}' rest).map fun (members, rest) =>
        (object members, rest)
    | _ => (readNumber text).map fun (spelling, rest) => (number spelling, rest)

/-- How deep values may nest. -/
def maxDepth : Nat := 128

/-- The value that `text` spells. -/
def read? (text : Text) : Option Json := do
  let (json, rest) ← readValue maxDepth (skipBlanks text)
  match skipBlanks rest with
  | [] => some json
  | _ :: _ => none

end AccessRules.Json
