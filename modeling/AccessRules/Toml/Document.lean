import AccessRules.Toml.Number
import AccessRules.Toml.Quoted
import AccessRules.Toml.Table

/-!
# Reading TOML documents

A document is a sequence of lines: headers, keys with their values, comments and empty lines.
-/

namespace AccessRules.Toml

open AccessRules.Text

/-! ## Blanks and comments -/

/-- The text after its leading spaces and tabs. -/
def skipIndent (text : Text) : Text :=
  text.dropWhile isIndent

/-- A comment, up to the end of its line. -/
def readComment : Reader Unit
  | '#' :: rest => some ((), rest.dropWhile isPlain)
  | _ => none

/-- The end of a line: blanks, perhaps a comment, and a line feed or the end of the text. -/
def readLineEnd : Reader Unit := fun text =>
  let text := skipIndent text
  let text := match readComment text with
    | some (_, rest) => rest
    | none => text
  match text with
  | [] => some ((), [])
  | _ :: _ => readNewLine text

/-- One blank, line feed, or comment with its line feed, between the items of an array. -/
def readGap : Reader Unit := fun text =>
  match text with
  | '#' :: _ => do
    let (_, rest) ← readComment text
    readNewLine rest
  | c :: rest => if isIndent c then some ((), rest) else readNewLine text
  | [] => none

/-- The text after the gaps in front of it. -/
def skipGaps (text : Text) : Text :=
  (Reader.many readGap text).2

/-! ## Keys -/

/-- Whether `c` may stand in a key without quotes. -/
def isBare (c : Char) : Bool :=
  c.isAlphanum || c == '_' || c == '-'

/-- A key without dots. -/
def readSimpleKey : Reader String := fun text =>
  match text with
  | '"' :: rest =>
    (readLine '"' readEscapedChar rest).map fun (key, rest) => (String.ofList key, rest)
  | '\'' :: rest =>
    (readLine '\'' readRawChar rest).map fun (key, rest) => (String.ofList key, rest)
  | _ =>
    match Reader.span isBare text with
    | ([], _) => none
    | (key, rest) => some (String.ofList key, rest)

/-- A simple key with blanks around it. -/
def readKeyPart : Reader String := fun text =>
  (readSimpleKey (skipIndent text)).map fun (key, rest) => (key, skipIndent rest)

/-- Keys must have fewer parts than this, and values must nest less deep. -/
def maxDepth : Nat := 80

/-- A key with its parts. -/
def readKey : Reader KeyPath := fun text => do
  let (first, rest) ← readKeyPart text
  let (others, rest) := Reader.many
    (fun text => do
      let (_, rest) ← Reader.literal ['.'] text
      readKeyPart rest) rest
  let parts := first :: others
  if parts.length < maxDepth then
    return (⟨parts.dropLast, parts.getLastD first⟩, rest)
  else none

/-! ## Values -/

/-- The items of an array up to its closing bracket; the opening one is already read. A comma may
follow the last. -/
def readItems (item : Reader Value) : Reader (List Value) := fun text => do
  let gapped : Reader Value := fun text =>
    (item (skipGaps text)).map fun (value, rest) => (value, skipGaps rest)
  let (items, rest) ← readOptional
    (fun text => do
      let (first, rest) ← gapped text
      let (others, rest) := Reader.many
        (fun text => do
          let (_, rest) ← Reader.literal [','] text
          gapped rest) rest
      let (_, rest) ← readOptional (Reader.literal [',']) rest
      return (first :: others, rest)) text
  let (_, rest) ← Reader.literal [']'] (skipGaps rest)
  return (items.getD [], rest)

/-- A key, an equals sign and a value, with blanks around the value. -/
def readPair (item : Reader Value) : Reader (KeyPath × Value) := fun text => do
  let (path, rest) ← readKey text
  let (_, rest) ← Reader.literal ['='] rest
  let (value, rest) ← item (skipIndent rest)
  return ((path, value), skipIndent rest)

/-- The pairs of a table between braces up to the closing one; the opening one is already read. -/
def readPairs (item : Reader Value) : Reader (List (KeyPath × Value)) := fun text => do
  let (pairs, rest) ← readOptional
    (fun text => do
      let (first, rest) ← readPair item text
      let (others, rest) := Reader.many
        (fun text => do
          let (_, rest) ← Reader.literal [','] text
          readPair item rest) rest
      return (first :: others, rest)) text
  let (_, rest) ← Reader.literal ['}'] (skipIndent rest)
  return (pairs.getD [], rest)

/-- A value in which arrays and tables nest at most `depth` deep. -/
def readValue (depth : Nat) : Reader Value := fun text =>
  match text with
  | '"' :: _ | '\'' :: _ =>
    (readString text).map fun (value, rest) => (.string (String.ofList value), rest)
  | 't' :: _ => (Reader.literal "true".toList text).map fun (_, rest) => (.boolean true, rest)
  | 'f' :: _ => (Reader.literal "false".toList text).map fun (_, rest) => (.boolean false, rest)
  | 'i' :: _ | 'n' :: _ => readSpecialFloat text
  | '[' :: rest =>
    match depth with
    | 0 => none
    | depth + 1 => (readItems (readValue depth) rest).map fun (items, rest) => (.array items, rest)
  | '{' :: rest =>
    match depth with
    | 0 => none
    | depth + 1 => do
      let (pairs, rest) ← readPairs (readValue depth) rest
      return (← inlineTable? pairs, rest)
  | _ => readNumber text

/-! ## Lines -/

/-- A line of a document. -/
inductive Line where
  | empty
  | table (path : KeyPath)
  | tables (path : KeyPath)
  | pair (path : KeyPath) (value : Value)

/-- A line with its end. -/
def readLineOf : Reader Line := fun text => do
  let (line, rest) ←
    match text with
    | '[' :: '[' :: rest => do
      let (path, rest) ← readKey rest
      let (_, rest) ← Reader.literal [']', ']'] rest
      pure (Line.tables path, rest)
    | '[' :: rest => do
      let (path, rest) ← readKey rest
      let (_, rest) ← Reader.literal [']'] rest
      pure (Line.table path, rest)
    | '#' :: _ | '\n' :: _ | '\r' :: _ | [] => pure (Line.empty, text)
    | _ => do
      let ((path, value), rest) ← readPair (readValue (maxDepth - 1)) text
      pure (Line.pair path value, rest)
  let (_, rest) ← readLineEnd rest
  return (line, rest)

/-- A document that is partly read: its tables, and the header of the current one. -/
structure Draft where
  root : Entries := []
  current : List String := []

/-- Adds a line to a document. -/
def Draft.addLine? (draft : Draft) : Line → Option Draft
  | .empty => some draft
  | .table path => do
    return ⟨← draft.root.openTable? path, path.parents ++ [path.key]⟩
  | .tables path => do
    return ⟨← draft.root.openTables? path, path.parents ++ [path.key]⟩
  | .pair path value => do
    let root ← Entries.changeAt false (fun origin entries => entries.assign? origin path value)
      draft.current .header draft.root
    return { draft with root }

/-- The document that `text` spells, as a table. A byte order mark in front is passed over. -/
def read? (text : Text) : Option Value := do
  let text := match text with
    | '\uFEFF' :: rest => rest
    | text => text
  let (lines, rest) := Reader.many (fun text => readLineOf (skipIndent text)) text
  match skipIndent rest with
  | [] => do
    let draft ← lines.foldlM Draft.addLine? {}
    return .table .header draft.root
  | _ :: _ => none

end AccessRules.Toml
