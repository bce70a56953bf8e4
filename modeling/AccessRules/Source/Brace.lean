/-!
# Nested braces

Finds the brace that closes an open one. Braces count wherever they stand, inside quotes as well.
The scan works on any units that say which of them are braces: on the bytes of a text, where places
are byte offsets, and on its characters.
-/

namespace AccessRules.Source

/-- What a unit of text does to the nesting of braces. -/
inductive Nesting where
  | opens
  | closes
  | keeps
deriving DecidableEq, Repr

/-- Units of text among which there are braces. -/
class HasBraces (α : Type) where
  /-- What the unit does to the nesting. -/
  nesting : α → Nesting

instance : HasBraces Char where
  nesting c := if c = '{' then .opens else if c = '}' then .closes else .keeps

instance : HasBraces UInt8 where
  nesting b := if b = 0x7b then .opens else if b = 0x7d then .closes else .keeps

/-- How many units stand before the closing brace, where `inner` further braces are open. -/
def closingIndex? {α : Type} [HasBraces α] : (inner : Nat) → List α → Option Nat
  | _, [] => none
  | inner, unit :: units =>
    match HasBraces.nesting unit with
    | .opens => (closingIndex? (inner + 1) units).map (· + 1)
    | .keeps => (closingIndex? inner units).map (· + 1)
    | .closes =>
      match inner with
      | 0 => some 0
      | inner + 1 => (closingIndex? inner units).map (· + 1)

/-- A part of a text: the byte offsets from `start` up to `stop`, without `stop`. -/
structure Span where
  start : Nat
  stop : Nat
deriving DecidableEq, Repr

namespace Span

/-- Whether the byte at `offset` lies in the span. -/
def contains (span : Span) (offset : Nat) : Bool :=
  span.start ≤ offset && offset < span.stop

/-- The bytes of the span. -/
def slice (span : Span) (bytes : List UInt8) : List UInt8 :=
  (bytes.drop span.start).take (span.stop - span.start)

/-- The offset just past the closing brace of a braced span. -/
def after (span : Span) : Nat :=
  span.stop + 1

end Span

/-- What stands between an opening brace and its closing one, where `start` is the offset just
after the opening brace. -/
def bracedSpan? (bytes : List UInt8) (start : Nat) : Option Span :=
  if start ≤ bytes.length then
    (closingIndex? 0 (bytes.drop start)).map fun n => ⟨start, start + n⟩
  else none

end AccessRules.Source
