import AccessRules.Source.Brace
import AccessRules.Text.Pattern

/-!
# Comments

A comment is a line whose first visible characters are `//`, or anything from `/*` to the next
`*/`. Text after live text on the same line is no line comment.

`stripComments` takes the comments out of a text. A `CommentMap` keeps the text and says which of
its bytes are commented out, so that a search can pass over them.
-/

namespace AccessRules.Source

open AccessRules.Text

/-- A line whose first characters after spaces and tabs are `//`, without the line feed. -/
def lineComment : Pattern := fun c =>
  if c.atLineStart then
    (Pattern.literal ['/', '/'] (c.skipWhile isIndent)).map (·.skipWhile (· != '\n'))
  else none

/-- From `/*` to the next `*/`. -/
def blockComment : Pattern := fun c =>
  (Pattern.literal ['/', '*'] c).bind (Pattern.through ['*', '/'])

/-- The text without its comments: first the line comments are taken out, then the block comments
of what is left. -/
def stripComments (text : Text) : Text :=
  Pattern.erase blockComment (.start (Pattern.erase lineComment (.start text)))

/-- The commented-out parts of a text. -/
structure CommentMap where
  spans : List Span
deriving DecidableEq, Repr

namespace CommentMap

/-- The line comments and the block comments of `text`, both found in the text as it stands. -/
def ofText (text : Text) : CommentMap where
  spans :=
    (Pattern.findAll lineComment (.start text) ++ Pattern.findAll blockComment (.start text)).map
      fun (start, stop) => ⟨start.offset, stop.offset⟩

/-- Whether the byte at `offset` is commented out. -/
def contains (comments : CommentMap) (offset : Nat) : Bool :=
  comments.spans.any (·.contains offset)

/-- The first match of `p`, from `c` on, that starts outside the comments. After a match that
starts inside one the search goes on one character later, so that such a match cannot swallow the
live text behind the comment. -/
def findLive (comments : CommentMap) (p : Pattern) (c : Cursor) : Option (Cursor × Cursor) :=
  match _ : c.findFirst p with
  | none => none
  | some (start, stop) =>
    if comments.contains start.offset then
      match _ : start.next? with
      | none => none
      | some d => findLive comments p d
    else some (start, stop)
termination_by c.rest.length
decreasing_by
  exact Nat.lt_of_lt_of_le (Cursor.length_of_next? ‹_›)
    (Cursor.findFirst_eq_some ‹_›).2

end CommentMap

end AccessRules.Source
