import AccessRules.Schema.Scalar
import AccessRules.Text.Decimal
import AccessRules.Text.Escape

/-!
# Declared defaults

A field may declare the value that it has where it is not set. The value is written as text.
-/

namespace AccessRules.Schema

namespace Scalar

/-- The integer that the text spells. There is no minus sign where the type has no negative
numbers. -/
def integerOfText? (type : Scalar) (text : String) : Option Datum := do
  let (low, _) ← type.range?
  if low = 0 ∧ text.toList.head? = some '-' then none
  else type.integer? (← Text.integer? text.toList)

/-- The value that the text spells. -/
def ofText? (type : Scalar) (text : String) : Option Datum :=
  match type with
  | double => (Text.real64? text.toList).map .real
  | float => (Text.real32? text.toList).map fun value => .real value.toFloat
  | bool =>
    match text with
    | "true" => some (.truth true)
    | "false" => some (.truth false)
    | _ => none
  | .text => some (.text text)
  | bytes => (Text.unescape? text.toList).map .bytes
  | type => type.integerOfText? text

end Scalar

end AccessRules.Schema
