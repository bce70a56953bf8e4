import AccessRules.Text.Cursor

/-!
# Splitting and trimming
-/

namespace AccessRules.Text

/-- The parts of the text between the separators; the text itself where there is none. -/
def splitAt (separator : Char) : Text → List Text
  | [] => [[]]
  | c :: text =>
    if c = separator then [] :: splitAt separator text
    else
      match splitAt separator text with
      | [] => [[c]]
      | part :: parts => (c :: part) :: parts

/-- The text before the first separator and the text behind it. -/
def splitOnce? (separator : Char) (text : Text) : Option (Text × Text) :=
  match text.span (· != separator) with
  | (before, _ :: after) => some (before, after)
  | (_, []) => none

/-- The text without the characters that satisfy `p` at both ends. -/
def trimWhile (p : Char → Bool) (text : Text) : Text :=
  ((text.dropWhile p).reverse.dropWhile p).reverse

/-- The text without the blanks at both ends. -/
def trim (text : Text) : Text :=
  trimWhile isBlank text

/-- The texts with `separator` between them. -/
def join (separator : Text) : List Text → Text
  | [] => []
  | [text] => text
  | text :: texts => text ++ separator ++ join separator texts

theorem splitAt_ne_nil (separator : Char) (text : Text) : splitAt separator text ≠ [] := by
  cases text with
  | nil => simp [splitAt]
  | cons c text =>
      rw [splitAt]
      split
      · simp
      · split <;> simp

/-- No part of a split text holds the separator. -/
theorem not_mem_of_mem_splitAt {separator : Char} {text part : Text}
    (h : part ∈ splitAt separator text) : separator ∉ part := by
  induction text generalizing part with
  | nil => simp_all [splitAt]
  | cons c text ih =>
      rw [splitAt] at h
      split at h
      · rcases List.mem_cons.1 h with rfl | h
        · simp
        · exact ih h
      · rename_i hc
        split at h
        · rename_i hparts
          exact absurd hparts (splitAt_ne_nil _ _)
        · rename_i first parts hparts
          rcases List.mem_cons.1 h with rfl | h
          · have hfirst : separator ∉ first := ih (by simp [hparts])
            simp only [List.mem_cons, not_or]
            exact ⟨fun he => hc he.symm, hfirst⟩
          · exact ih (by simp [hparts, h])

end AccessRules.Text
