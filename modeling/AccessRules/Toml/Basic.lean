/-!
# TOML values

A table remembers how it came about, because that decides which later lines may add to it.
-/

namespace AccessRules.Toml

/-- How a table came about. -/
inductive Origin where
  /-- On the way to a table with a header of its own. -/
  | implied
  /-- By a dotted key. -/
  | dotted
  /-- By its own header. -/
  | header
  /-- Between braces; nothing can be added to it. -/
  | inline
deriving DecidableEq, Repr

/-- A TOML value. -/
inductive Value where
  | string (value : String)
  | integer (value : Int)
  | float (spelling : String)
  | boolean (value : Bool)
  | dateTime (spelling : String)
  | array (items : List Value)
  | table (origin : Origin) (entries : List (String × Value))
  /-- An array of tables, each with a header of its own. -/
  | tables (items : List (List (String × Value)))
deriving Repr, Inhabited

/-- The entries of a table, in the order in which they came about. -/
abbrev Entries := List (String × Value)

/-- A dotted key: the tables on the way, and the key in the last of them. -/
structure KeyPath where
  parents : List String
  key : String
deriving DecidableEq, Repr

namespace Value

def asString? : Value → Option String
  | string value => some value
  | _ => none

def asBoolean? : Value → Option Bool
  | boolean value => some value
  | _ => none

/-- An array of values that can all be read by `item`. -/
def asListOf? {α : Type} (item : Value → Option α) : Value → Option (List α)
  | array items => items.mapM item
  | tables items => (items.map (table .header)).mapM item
  | _ => none

/-- Whether the value is an array or a table that holds nothing. -/
def isEmpty : Value → Bool
  | array items => items.isEmpty
  | tables items => items.isEmpty
  | table _ entries => entries.isEmpty
  | _ => false

/-- One of finitely many names: a string, or the only key of a table, with an empty value. -/
def asName? : Value → Option String
  | string name => some name
  | table _ [(name, value)] => if value.isEmpty then some name else none
  | _ => none

/-- The fields of a record in the order of `names`, each of which may be missing. A record is a
table, or an array of the values of its first fields. A date is a record too, with none of them. -/
def asRecord? (names : List String) : Value → Option (List (Option Value))
  | table _ entries => some (names.map fun name => entries.lookup name)
  | array items => some ((List.range names.length).map (items[·]?))
  | tables items => some ((List.range names.length).map fun i => items[i]?.map (table .header))
  | dateTime _ => some (names.map fun _ => none)
  | _ => none

end Value

end AccessRules.Toml
