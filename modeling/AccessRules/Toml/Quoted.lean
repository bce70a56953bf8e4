import AccessRules.Text.Blank
import AccessRules.Text.Digit
import AccessRules.Text.Reader

/-!
# TOML strings

A string stands between double quotes, where a backslash starts an escape, or between single
quotes, where nothing does. Three quotes on each side let it run over several lines.
-/

namespace AccessRules.Toml

open AccessRules.Text

/-- The character with the code point `n`, if there is one. -/
def charOf? (n : Nat) : Option Char :=
  if n.isValidChar then some (Char.ofNat n) else none

/-- Whether `c` may stand in a string or a comment as it is: no control but the tab. -/
def isPlain (c : Char) : Bool :=
  c == '\t' || (32 ≤ c.toNat && c.toNat ≠ 127)

/-- A line feed, with or without a carriage return. -/
def readNewLine : Reader Unit
  | '\n' :: rest => some ((), rest)
  | '\r' :: '\n' :: rest => some ((), rest)
  | _ => none

/-- A code point of `count` hexadecimal digits. -/
def readCodePoint (count : Nat) : Reader Char := fun text => do
  let (n, rest) ← Reader.hex count text
  return (← charOf? n, rest)

/-- What stands behind a backslash. -/
def readEscape : Reader Char
  | 'b' :: rest => some ('\x08', rest)
  | 't' :: rest => some ('\t', rest)
  | 'n' :: rest => some ('\n', rest)
  | 'f' :: rest => some ('\x0c', rest)
  | 'r' :: rest => some ('\r', rest)
  | '"' :: rest => some ('"', rest)
  | '\\' :: rest => some ('\\', rest)
  | 'u' :: rest => readCodePoint 4 rest
  | 'U' :: rest => readCodePoint 8 rest
  | _ => none

/-! ## On one line -/

/-- One character between double quotes. -/
def readEscapedChar : Reader Char
  | '\\' :: rest => readEscape rest
  | c :: rest => if c ≠ '"' && isPlain c then some (c, rest) else none
  | [] => none

/-- One character between single quotes. -/
def readRawChar : Reader Char
  | c :: rest => if c ≠ '\'' && isPlain c then some (c, rest) else none
  | [] => none

/-- Characters up to the closing quote; the opening one is already read. -/
def readLine (quote : Char) (item : Reader Char) : Reader Text := fun text =>
  let (value, rest) := Reader.many item text
  (Reader.literal [quote] rest).map fun (_, rest) => (value, rest)

/-! ## On several lines -/

/-- Fewer than three quotes, which belong to the string. -/
def readInnerQuotes (quote : Char) : Reader Text := fun text =>
  let (quotes, rest) := Reader.span (· == quote) text
  if 0 < quotes.length && quotes.length < 3 then some (quotes, rest) else none

/-- A piece of a string that runs over several lines, where `item` reads one character. -/
def readPiece (quote : Char) (item : Reader Char) : Reader Text := fun text =>
  match text with
  | '\n' :: rest => some (['\n'], rest)
  | '\r' :: '\n' :: rest => some (['\n'], rest)
  | _ =>
    match item text with
    | some (c, rest) => some ([c], rest)
    | none => readInnerQuotes quote text

/-- A backslash at the end of a line, with the blanks and line feeds behind it; they are left
out. -/
def readContinuation : Reader Text
  | '\\' :: rest => do
    let (_, rest) ← readNewLine (rest.dropWhile isIndent)
    let (_, rest) := Reader.many
      (fun text => (readNewLine text).orElse fun _ =>
        match text with
        | c :: rest => if isIndent c then some ((), rest) else none
        | [] => none) rest
    return ([], rest)
  | _ => none

/-- Pieces up to three closing quotes; up to two more quotes before those belong to the string. A
line feed right behind the opening quotes does not. -/
def readLines (quote : Char) (piece : Reader Text) : Reader Text := fun text =>
  let text := match readNewLine text with
    | some (_, rest) => rest
    | none => text
  let (pieces, rest) := Reader.many piece text
  let (quotes, _) := Reader.span (· == quote) rest
  let count := min quotes.length 5
  if 3 ≤ count then some (pieces.flatten ++ List.replicate (count - 3) quote, rest.drop count)
  else none

/-- A string of any kind. -/
def readString : Reader Text
  | '"' :: '"' :: '"' :: rest =>
    readLines '"' (fun text =>
      (readContinuation text).orElse fun _ => readPiece '"' readEscapedChar text) rest
  | '"' :: rest => readLine '"' readEscapedChar rest
  | '\'' :: '\'' :: '\'' :: rest => readLines '\'' (readPiece '\'' readRawChar) rest
  | '\'' :: rest => readLine '\'' readRawChar rest
  | _ => none

end AccessRules.Toml
