import AccessRules.Failure
import AccessRules.Source.Comment

/-!
# Option blocks

Cuts the contents of `option (<name>) = { ... }` out of the body of a method.
-/

namespace AccessRules.Source

open AccessRules.Text

/-- The name of the access option where none is configured. -/
def defaultOption : String := "proto.v1.authz"

/-- The head of the option called `name`, up to and with its opening brace. -/
def optionHead (name : Text) : Pattern := fun c => do
  let c ← Pattern.literal "option".toList c
  let c ← Pattern.literal ['('] c.skipBlanks
  let c ← Pattern.afterBlanks
    (fun c => do
      let c ← Pattern.literal name c
      Pattern.literal [')'] c.skipBlanks)
    c
  let c ← Pattern.literal ['='] c.skipBlanks
  Pattern.literal ['{'] c.skipBlanks

/-- The contents of the option called `name` in the body of `method`, without comments. The head of
the option must be live: a commented-out option is never used. -/
def optionBlock (name : String) (method : String) (body : Text) : Except Failure Text :=
  match (CommentMap.ofText body).findLive (optionHead name.toList) (.start body) with
  | none => .error (.optionNotFound method)
  | some (_, opening) =>
    match closingIndex? 0 opening.rest with
    | none => .error (.unmatchedBraces s!"authz block of method {method}")
    | some n => .ok (stripComments (opening.rest.take n))

end AccessRules.Source
