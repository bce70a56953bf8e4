import AccessRules.Text.Cursor
import AccessRules.Text.Digit

/-!
# Readers

A reader takes something off the front of a text and gives what it read and the text that is left.
-/

namespace AccessRules.Text

/-- What stands at the front of a text, and the text behind it. -/
abbrev Reader (α : Type) := Text → Option (α × Text)

namespace Reader

/-- Exactly the characters of `word`. -/
def literal : Text → Reader Unit
  | [], text => some ((), text)
  | _ :: _, [] => none
  | x :: word, y :: text => if y = x then literal word text else none

/-- The longest run of characters that satisfy `p`. -/
def span (p : Char → Bool) : Text → Text × Text :=
  List.span p

/-- One thing after another as long as `item` reads one and takes something off the text. -/
def many {α : Type} (item : Reader α) (text : Text) : List α × Text :=
  match item text with
  | none => ([], text)
  | some (a, rest) =>
    if rest.length < text.length then
      let (as, rest) := many item rest
      (a :: as, rest)
    else ([], text)
termination_by text.length

/-- Exactly `count` hexadecimal digits, as their value. -/
def hex (count : Nat) : Reader Nat := fun text =>
  let digits := text.take count
  if digits.length = count && digits.all isHexDigit then
    some (digitsValue 16 digits, text.drop count)
  else none

end Reader

end AccessRules.Text
