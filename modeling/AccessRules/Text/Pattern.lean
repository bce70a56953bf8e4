import AccessRules.Text.Cursor

/-!
# Patterns

A pattern says, for a place in a text, where the match that starts there ends, if one does. The
patterns of this library leave no choice: at each place there is at most one match.
-/

namespace AccessRules.Text

/-- The end of the match that starts at a place. -/
abbrev Pattern := Cursor → Option Cursor

namespace Pattern

/-- Exactly the characters of `word`. -/
def literal : Text → Pattern
  | [], c => some c
  | x :: word, c =>
    match c.rest with
    | [] => none
    | y :: rest => if y = x then literal word (c.past y rest) else none

/-- One blank. -/
def blank : Pattern := fun c =>
  match c.rest with
  | [] => none
  | x :: rest => if isBlank x then some (c.past x rest) else none

/-- Everything up to the first `word`, and `word`. -/
def through (word : Text) : Pattern := fun c =>
  (c.findFirst (literal word)).map (·.2)

/-- A match of `p` after any number of blanks, as few as will do. -/
def afterBlanks (p : Pattern) (c : Cursor) : Option Cursor :=
  match p c with
  | some e => some e
  | none =>
    match _ : c.rest with
    | [] => none
    | x :: rest => if isBlank x then afterBlanks p (c.past x rest) else none
termination_by c.rest.length
decreasing_by simp [Cursor.past, *]

/-! ## Matches in a text -/

/-- The first match of `p` in `text`. -/
def find? (p : Pattern) (text : Text) : Option (Cursor × Cursor) :=
  (Cursor.start text).findFirst p

/-- The matches of `p` from `c` on, leftmost first; a match begins where the one before it ended or
later. -/
def findAll (p : Pattern) (c : Cursor) : List (Cursor × Cursor) :=
  match p c with
  | some e =>
    if e.rest.length < c.rest.length then (c, e) :: findAll p e
    else
      match _ : c.next? with
      | none => [(c, e)]
      | some d => (c, e) :: findAll p d
  | none =>
    match _ : c.next? with
    | none => []
    | some d => findAll p d
termination_by c.rest.length
decreasing_by
  · assumption
  · exact Cursor.length_of_next? ‹_›
  · exact Cursor.length_of_next? ‹_›

/-- The text from `c` on without the matches of `p`. -/
def erase (p : Pattern) (c : Cursor) : Text :=
  match _ : c.rest with
  | [] => []
  | x :: rest =>
    match p c with
    | some e =>
      if e.rest.length < c.rest.length then erase p e else x :: erase p (c.past x rest)
    | none => x :: erase p (c.past x rest)
termination_by c.rest.length
decreasing_by
  · assumption
  · simp [Cursor.past, *]
  · simp [Cursor.past, *]

end Pattern

end AccessRules.Text
