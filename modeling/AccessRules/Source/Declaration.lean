import AccessRules.Source.Comment

/-!
# Method declarations

Finds the body of `rpc <method>(...) returns (...) { ... }` in the text of a service definition.
The types between the parentheses are taken as they are.
-/

namespace AccessRules.Source

open AccessRules.Text

/-- The signature of `method`, from `rpc` to the last blank before the body. -/
def signature (method : Text) : Pattern := fun c => do
  guard c.atWordStart
  let c ← Pattern.literal "rpc".toList c
  let c ← Pattern.blank c
  let c ← Pattern.afterBlanks
    (fun c => do
      let c ← Pattern.literal method c
      Pattern.literal ['('] c.skipBlanks)
    c
  let c ← Pattern.through [')'] c
  let c ← Pattern.literal "returns".toList c.skipBlanks
  let c ← Pattern.literal ['('] c.skipBlanks
  let c ← Pattern.through [')'] c
  return c.skipBlanks

/-- A declaration of `method` up to and with the character that follows its signature: `{` where it
has a body, `;` where it has none. -/
def declaration (method : Text) (ending : Char) : Pattern := fun c =>
  (signature method c).bind (Pattern.literal [ending])

/-- What a text says about a method. -/
inductive Located where
  /-- The text between the braces of the declaration. -/
  | block (body : Text)
  /-- The method is declared, but never with a body. -/
  | bodiless
  /-- The method is not declared. -/
  | notFound
  /-- The opening brace of the declaration is never closed. -/
  | unmatched
deriving DecidableEq, Repr

/-- Finds the first live declaration of `method` with a body. A declaration without one counts only
if there is no other, so that a stub hides no body. The case that no pattern can be made of the
name, because it would be too large, is left out; no method would be found then. -/
def locate (text : Text) (method : Text) : Located :=
  let comments := CommentMap.ofText text
  match comments.findLive (declaration method '{') (.start text) with
  | some (_, opening) =>
    match closingIndex? 0 opening.rest with
    | some n => .block (opening.rest.take n)
    | none => .unmatched
  | none =>
    match comments.findLive (declaration method ';') (.start text) with
    | some _ => .bodiless
    | none => .notFound

end AccessRules.Source
