import AccessRules.Failure
import AccessRules.Requirement.Basic
import AccessRules.Text.Pattern

/-!
# Reading requirements

Reads a requirement from the contents of an option block, from which comments have been taken out.
The permissions and the flag are looked for independently, each at its first place in the block.
-/

namespace AccessRules.Requirement

open AccessRules.Text

/-- The key of the permissions list, up to and with its opening bracket. -/
def permissionsKey : Pattern := fun c => do
  guard c.atWordStart
  let c ← Pattern.literal "permissions".toList c
  let c ← Pattern.literal [':'] c.skipBlanks
  Pattern.literal ['['] c.skipBlanks

/-- A list element without the blanks around it and the quotes at its ends. -/
def unquote (item : Text) : Text :=
  trimWhile (· == '\'') (trimWhile (· == '"') (trim item))

/-- The permissions between the brackets: the elements that are not empty. -/
def splitPermissions (list : Text) : List Text :=
  ((splitAt ',' list).map unquote).filter (· ≠ [])

/-- The permissions that a block lists; none if it has no list. -/
def readPermissions (block : Text) : Except Failure (List String) :=
  match Pattern.find? permissionsKey block with
  | none => .ok []
  | some (_, opening) =>
    match splitOnce? ']' opening.rest with
    | none => .error (.badPermissions "permissions list has no closing `]`")
    | some (list, _) => .ok ((splitPermissions list).map String.ofList)

/-- The flag at a place, if it stands there. -/
def flagAt (c : Cursor) : Option Bool := do
  guard c.atWordStart
  let c ← Pattern.literal "no_auth_required".toList c
  let c ← Pattern.literal [':'] c.skipBlanks
  let c := c.skipBlanks
  match Pattern.literal "true".toList c, Pattern.literal "false".toList c with
  | some stop, _ => if stop.atWordEnd then some true else none
  | none, some stop => if stop.atWordEnd then some false else none
  | none, none => none

/-- The flag that a block sets; `false` if it sets none. -/
def readNoAuthRequired (block : Text) : Bool :=
  match (Cursor.start block).findFirst flagAt with
  | some (_, flag) => flag
  | none => false

/-- The requirement that a block states. -/
def read (block : Text) : Except Failure Requirement := do
  let permissions ← readPermissions block
  return ⟨permissions, readNoAuthRequired block⟩

end AccessRules.Requirement
