import AccessRules.Toml.Basic

/-!
# Building TOML tables

Lines add to tables in the order of the text. No key is set twice, no header opens a table twice,
and nothing is added to a value that is complete.
-/

namespace AccessRules.Toml

namespace Entries

/-- The entries with the value of `key` replaced. -/
def replace (entries : Entries) (key : String) (value : Value) : Entries :=
  entries.map fun entry => if entry.1 = key then (key, value) else entry

/-- Adds a key that must be new. -/
def add? (entries : Entries) (key : String) (value : Value) : Option Entries :=
  match entries.lookup key with
  | some _ => none
  | none => some (entries ++ [(key, value)])

/-- Changes the table that `path` leads to; tables that are missing on the way come about. A dotted
key passes only through tables that have no header, a header through those as well, and into the
last of an array of tables. -/
def changeAt (dotted : Bool) (change : Origin → Entries → Option Entries) :
    (path : List String) → Origin → Entries → Option Entries
  | [], origin, entries => change origin entries
  | key :: path, _, entries =>
    match entries.lookup key with
    | none => do
      let origin := if dotted then Origin.dotted else .implied
      let inner ← changeAt dotted change path origin []
      return entries ++ [(key, .table origin inner)]
    | some (.table origin inner) =>
      if origin = .inline || (dotted && origin = .header) then none
      else do
        let inner ← changeAt dotted change path origin inner
        return entries.replace key (.table origin inner)
    | some (.tables items) =>
      match items.getLast? with
      | none => none
      | some last => do
        let last ← changeAt dotted change path .header last
        return entries.replace key (.tables (items.dropLast ++ [last]))
    | some _ => none

/-- Sets a key, dotted or not. -/
def assign? (origin : Origin) (entries : Entries) (path : KeyPath) (value : Value) :
    Option Entries :=
  changeAt true
    (fun origin inner =>
      if (origin = .dotted) = (path.parents = []) then none else inner.add? path.key value)
    path.parents origin entries

/-- Opens the table with the header `path`. -/
def openTable? (entries : Entries) (path : KeyPath) : Option Entries :=
  changeAt false
    (fun _ inner =>
      match inner.lookup path.key with
      | none => some (inner ++ [(path.key, .table .header [])])
      | some (.table .implied own) =>
        some (inner.filter (·.1 ≠ path.key) ++ [(path.key, .table .header own)])
      | some _ => none)
    path.parents .header entries

/-- Opens one more table of the array with the header `path`. -/
def openTables? (entries : Entries) (path : KeyPath) : Option Entries :=
  changeAt false
    (fun _ inner =>
      match inner.lookup path.key with
      | none => some (inner ++ [(path.key, .tables [[]])])
      | some (.tables items) => some (inner.replace path.key (.tables (items ++ [[]])))
      | some _ => none)
    path.parents .header entries

end Entries

/-- The table between braces with the given keys. -/
def inlineTable? (pairs : List (KeyPath × Value)) : Option Value := do
  let entries ← pairs.foldlM
    (fun (entries : Entries) (path, value) => entries.assign? .inline path value) []
  return .table .inline entries

end AccessRules.Toml
