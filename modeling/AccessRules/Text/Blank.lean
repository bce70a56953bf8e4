import AccessRules.Text.CodeRange

/-!
# Blank characters

The characters with the Unicode property White_Space. They separate tokens and are trimmed from
list elements.
-/

namespace AccessRules.Text

/-- The ranges of the property White_Space. -/
def blankRanges : List (Nat × Nat) := [
  (0x9, 0xd), (0x20, 0x20), (0x85, 0x85), (0xa0, 0xa0), (0x1680, 0x1680), (0x2000, 0x200a),
  (0x2028, 0x2029), (0x202f, 0x202f), (0x205f, 0x205f), (0x3000, 0x3000)]

/-- Whether `c` is white space. -/
def isBlank (c : Char) : Bool :=
  inRanges blankRanges c

/-- Whether `c` is a space or a tab, the blanks that do not end a line. -/
def isIndent (c : Char) : Bool :=
  c == ' ' || c == '\t'

theorem isBlank_of_isIndent {c : Char} (h : isIndent c = true) : isBlank c = true := by
  simp only [isIndent, Bool.or_eq_true, beq_iff_eq] at h
  rcases h with h | h <;> subst h <;> decide

end AccessRules.Text
