import AccessRules.Json.Basic
import AccessRules.Text.Cursor
import AccessRules.Text.Digit

/-!
# Printing JSON

Values are printed over several lines, two spaces per level. An empty array or object stays on its
line. Strings keep every character but quotes, backslashes and controls.
-/

namespace AccessRules.Json

open AccessRules.Text

/-- A character inside a string. -/
def escapeChar (c : Char) : Text :=
  if c = '"' then ['\\', '"']
  else if c = '\\' then ['\\', '\\']
  else if c = '\n' then ['\\', 'n']
  else if c = '\r' then ['\\', 'r']
  else if c = '\t' then ['\\', 't']
  else if c = '\x08' then ['\\', 'b']
  else if c = '\x0c' then ['\\', 'f']
  else if c.toNat < 16 then ['\\', 'u', '0', '0', '0'] ++ hexDigits c.toNat
  else if c.toNat < 32 then ['\\', 'u', '0', '0'] ++ hexDigits c.toNat
  else [c]

/-- A string with its quotes. -/
def quote (text : Text) : Text :=
  '"' :: text.flatMap escapeChar ++ ['"']

/-- The line break before an entry at `depth`. -/
def newLine (depth : Nat) : Text :=
  '\n' :: List.replicate (2 * depth) ' '

mutual

/-- The value, where its own line is indented to `depth`. -/
def printAt (depth : Nat) : Json → Text
  | null => "null".toList
  | bool true => "true".toList
  | bool false => "false".toList
  | number spelling => spelling.toList
  | string value => quote value.toList
  | array [] => ['[', ']']
  | array (item :: items) =>
    '[' :: newLine (depth + 1) ++ printAt (depth + 1) item ++ printItems depth items
      ++ newLine depth ++ [']']
  | object [] => ['{', '}']
  | object ((key, value) :: members) =>
    '{' :: newLine (depth + 1) ++ quote key.toList ++ [':', ' '] ++ printAt (depth + 1) value
      ++ printMembers depth members ++ newLine depth ++ ['}']

/-- The items after the first, each behind a comma. -/
def printItems (depth : Nat) : List Json → Text
  | [] => []
  | item :: items =>
    ',' :: newLine (depth + 1) ++ printAt (depth + 1) item ++ printItems depth items

/-- The members after the first, each behind a comma. -/
def printMembers (depth : Nat) : List (String × Json) → Text
  | [] => []
  | (key, value) :: members =>
    ',' :: newLine (depth + 1) ++ quote key.toList ++ [':', ' '] ++ printAt (depth + 1) value
      ++ printMembers depth members

end

/-- The value over several lines, without a final line feed. -/
def print (json : Json) : Text :=
  json.printAt 0

end AccessRules.Json
