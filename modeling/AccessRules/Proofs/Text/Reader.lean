import AccessRules.Text.Reader
import Mathlib.Data.List.TakeDrop

/-!
# What readers read back

Readers applied to a text that was written for them: words, runs of items, and numbers in
hexadecimal digits.
-/

namespace AccessRules.Text

namespace Reader

theorem literal_append (word text : Text) : literal word (word ++ text) = some ((), text) := by
  induction word with
  | nil => rfl
  | cons x word ih => rw [List.cons_append, literal, if_pos rfl, ih]

theorem span_append {p : Char → Bool} {word text : Text} (hword : ∀ c ∈ word, p c = true)
    (htext : ∀ c ∈ text.head?, p c = false) : span p (word ++ text) = (word, text) := by
  rw [span, List.span_eq_takeWhile_dropWhile, List.takeWhile_append_of_pos hword,
    List.dropWhile_append_of_pos hword]
  cases text with
  | nil => simp
  | cons c text => simp [htext c rfl]

section

variable {α β : Type} {item : Reader α}

theorem many_of_none {text : Text} (h : item text = none) : many item text = ([], text) := by
  rw [many, h]

theorem many_of_some {text rest : Text} {a : α} (h : item text = some (a, rest))
    (hlength : rest.length < text.length) :
    many item text = (a :: (many item rest).1, (many item rest).2) := by
  rw [many, h]
  simp only [if_pos hlength]

/-- Items that were written one after the other are read up to where no further one begins. -/
theorem many_flatMap {write : β → Text} (read : β → α) {text : Text} (bs : List β)
    (hitem : ∀ b ∈ bs, ∀ rest, item (write b ++ rest) = some (read b, rest))
    (hwrite : ∀ b ∈ bs, write b ≠ []) (hend : item text = none) :
    many item (bs.flatMap write ++ text) = (bs.map read, text) := by
  induction bs with
  | nil => exact many_of_none hend
  | cons b bs ih =>
      rw [List.forall_mem_cons] at hitem hwrite
      have hlength : (bs.flatMap write ++ text).length <
          (write b ++ (bs.flatMap write ++ text)).length := by
        have := List.length_pos_iff.2 hwrite.1
        simp only [List.length_append]
        omega
      rw [List.flatMap_cons, List.append_assoc, many_of_some (hitem.1 _) hlength,
        ih hitem.2 hwrite.2, List.map_cons]

end

end Reader

/-! ## Hexadecimal digits -/

theorem digitValue_digitChar {n : Nat} (h : n < 16) : digitValue n.digitChar = n := by
  have hall : ∀ n < 16, digitValue (Nat.digitChar n) = n := by decide
  exact hall n h

theorem isHexDigit_digitChar {n : Nat} (h : n < 16) : isHexDigit n.digitChar = true := by
  have hall : ∀ n < 16, isHexDigit (Nat.digitChar n) = true := by decide
  exact hall n h

theorem digitsValue_concat (base : Nat) (digits : List Char) (c : Char) :
    digitsValue base (digits ++ [c]) = digitsValue base digits * base + digitValue c := by
  simp [digitsValue]

theorem hexDigits_of_lt {n : Nat} (h : n < 16) : hexDigits n = [n.digitChar] :=
  Nat.toDigits_of_lt_base h

theorem hexDigits_of_le {n : Nat} (h : 16 ≤ n) :
    hexDigits n = hexDigits (n / 16) ++ [(n % 16).digitChar] :=
  Nat.toDigits_of_base_le (by decide) h

theorem digitsValue_hexDigits (n : Nat) : digitsValue 16 (hexDigits n) = n := by
  induction n using Nat.strongRecOn with
  | ind n ih =>
      by_cases h : n < 16
      · rw [hexDigits_of_lt h, ← List.nil_append [n.digitChar], digitsValue_concat,
          digitValue_digitChar h]
        simp [digitsValue]
      · rw [hexDigits_of_le (by omega), digitsValue_concat, ih (n / 16) (by omega),
          digitValue_digitChar (Nat.mod_lt n (by decide))]
        omega

theorem length_hexDigits_le (c : Char) : (hexDigits c.toNat).length ≤ 6 := by
  have hvalid : c.toNat < 1114112 := by
    rcases c.valid with h | h <;> simp only [Char.toNat] at * <;> omega
  exact (Nat.length_toDigits_le_iff (by decide) (by decide)).2 (Nat.lt_trans hvalid (by decide))

theorem hexDigits_ne_nil (n : Nat) : hexDigits n ≠ [] :=
  Nat.toDigits_ne_nil

theorem isHexDigit_of_mem_hexDigits {n : Nat} {c : Char} (h : c ∈ hexDigits n) :
    isHexDigit c = true := by
  induction n using Nat.strongRecOn with
  | ind n ih =>
      by_cases hn : n < 16
      · rw [hexDigits_of_lt hn, List.mem_singleton] at h
        rw [h, isHexDigit_digitChar hn]
      · rw [hexDigits_of_le (by omega), List.mem_append, List.mem_singleton] at h
        rcases h with h | rfl
        · exact ih (n / 16) (by omega) h
        · exact isHexDigit_digitChar (Nat.mod_lt n (by decide))

end AccessRules.Text
