import AccessRules.Text.Digit

/-!
# JSON values

An object keeps its members in the order they are written, and a number keeps its spelling.
-/

namespace AccessRules

/-- A JSON value. -/
inductive Json where
  | null
  | bool (value : Bool)
  | number (spelling : String)
  | string (value : String)
  | array (items : List Json)
  | object (members : List (String × Json))
deriving Inhabited, Repr

namespace Json

/-- The value of the last member called `key`. -/
def get? (json : Json) (key : String) : Option Json :=
  match json with
  | object members => (members.filter (·.1 = key)).getLast?.map (·.2)
  | _ => none

/-- The number `n`. -/
def ofNat (n : Nat) : Json :=
  number (toString n)

/-- An array of strings. -/
def ofStrings (items : List String) : Json :=
  array (items.map string)

/-! ## Reading a value as something else -/

def asString? : Json → Option String
  | string value => some value
  | _ => none

def asBool? : Json → Option Bool
  | bool value => some value
  | _ => none

def asArray? : Json → Option (List Json)
  | array items => some items
  | _ => none

/-- A count: digits alone, below 2 ^ 64. -/
def asCount? : Json → Option UInt64
  | number spelling =>
    let digits := spelling.toList
    let n := Text.digitsValue 10 digits
    if digits ≠ [] && digits.all Char.isDigit && n < 1 <<< 64 then some n.toUInt64
    else none
  | _ => none

/-- An array of values that can all be read by `item`. -/
def asListOf? {α : Type} (item : Json → Option α) : Json → Option (List α)
  | array items => items.mapM item
  | _ => none

/-- One of finitely many names: written as a string, or as the only key of an object whose value is
`null`. -/
def asName? : Json → Option String
  | string name => some name
  | object [(name, null)] => some name
  | _ => none

/-- The fields of a record in the order of `names`. A record is an object that has them all, and
may have others, or an array of exactly their values. -/
def asRecord? (names : List String) : Json → Option (List Json)
  | array items => if items.length = names.length then some items else none
  | object members => names.mapM (object members).get?
  | _ => none

end Json

end AccessRules
