import AccessRules.Text.Blank
import AccessRules.Text.Word

/-!
# Places in a text

A cursor is a place between two characters of a text. It knows the byte offset of the place, the
character before it and the text from there on. Searching moves a cursor towards the end.
-/

namespace AccessRules

/-- The text of a file, character by character. -/
abbrev Text := List Char

namespace Text

/-- How many bytes the text takes in UTF-8. -/
def byteLength (text : Text) : Nat :=
  text.foldr (fun c n => c.utf8Size + n) 0

/-- A place between two characters of a text. -/
structure Cursor where
  /-- How many bytes stand before the place. -/
  offset : Nat
  /-- The character just before the place, if it is not the beginning. -/
  before : Option Char
  /-- The text from the place on. -/
  rest : Text
deriving DecidableEq, Repr

namespace Cursor

/-- The beginning of `text`. -/
def start (text : Text) : Cursor :=
  ⟨0, none, text⟩

/-- The place after the character `x`, which `c` stands before; `rest` follows it. -/
def past (c : Cursor) (x : Char) (rest : Text) : Cursor :=
  ⟨c.offset + x.utf8Size, some x, rest⟩

/-- The place one character further on, if there is one. -/
def next? (c : Cursor) : Option Cursor :=
  match c.rest with
  | [] => none
  | x :: rest => some (c.past x rest)

theorem length_of_next? {c d : Cursor} (h : c.next? = some d) :
    d.rest.length < c.rest.length := by
  rcases c with ⟨offset, before, _ | ⟨x, rest⟩⟩
  · simp [next?] at h
  · simp only [next?, Option.some.injEq] at h
    simp [← h, past]

/-- Whether a word may begin here: the character before, if any, is no word character. -/
def atWordStart (c : Cursor) : Bool :=
  !c.before.any isWord

/-- Whether a word may end here: the character that follows, if any, is no word character. -/
def atWordEnd (c : Cursor) : Bool :=
  !c.rest.head?.any isWord

/-- Whether a line begins here. -/
def atLineStart (c : Cursor) : Bool :=
  c.before.all (· == '\n')

/-! ## Moving on -/

/-- Moves past every character that satisfies `p`, up to the first that does not. -/
def skipWhile (p : Char → Bool) (c : Cursor) : Cursor :=
  go c.offset c.before c.rest
where
  go (offset : Nat) (before : Option Char) : Text → Cursor
    | [] => ⟨offset, before, []⟩
    | x :: rest =>
      if p x then go (offset + x.utf8Size) (some x) rest else ⟨offset, before, x :: rest⟩

/-- Moves past the blanks. -/
def skipBlanks (c : Cursor) : Cursor :=
  c.skipWhile isBlank

/-! ## Looking for something -/

/-- The first place from `c` on where `scan` finds something, and what it finds. -/
def findFirst {α : Type} (scan : Cursor → Option α) (c : Cursor) : Option (Cursor × α) :=
  match scan c with
  | some a => some (c, a)
  | none =>
    match _ : c.next? with
    | none => none
    | some d => d.findFirst scan
termination_by c.rest.length
decreasing_by exact length_of_next? ‹_›

/-- What is found stands where the search says, and not before the place it began. -/
theorem findFirst_eq_some {α : Type} {scan : Cursor → Option α} {c d : Cursor} {a : α}
    (h : c.findFirst scan = some (d, a)) :
    scan d = some a ∧ d.rest.length ≤ c.rest.length := by
  fun_induction findFirst scan c with
  | case1 c b hb =>
      simp only [Option.some.injEq, Prod.mk.injEq] at h
      obtain ⟨rfl, rfl⟩ := h
      exact ⟨hb, Nat.le_refl _⟩
  | case2 => simp at h
  | case3 c _ e he ih =>
      obtain ⟨hd, hle⟩ := ih h
      exact ⟨hd, Nat.le_of_lt (Nat.lt_of_le_of_lt hle (length_of_next? he))⟩

end Cursor

end Text

end AccessRules
