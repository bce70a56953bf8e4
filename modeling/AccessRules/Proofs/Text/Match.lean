import AccessRules.Proofs.Text.Place
import AccessRules.Text.Pattern
import Mathlib.Data.Option.Basic

/-!
# Matches at places

What each pattern matches at a place between two parts of a text, and where the place behind the
match lies.
-/

namespace AccessRules.Text.Pattern

open Cursor

/-- A guarded search goes on exactly if the guard holds. -/
theorem guard_bind {p : Prop} [Decidable p] {α : Type} (next : Unit → Option α) :
    (guard p : Option Unit).bind next = if p then next () else none := by
  by_cases h : p
  · rw [if_pos h, show (guard p : Option Unit) = some () from if_pos h, Option.bind_some]
  · rw [if_neg h, show (guard p : Option Unit) = none from if_neg h, Option.bind_none]

/-! ## Words and blanks -/

theorem literal_eq_some_iff {w u r : Text} {d : Cursor} :
    literal w (between u r) = some d ↔ ∃ s, r = w ++ s ∧ d = between (u ++ w) s := by
  induction w generalizing u r with
  | nil =>
      simp only [literal, Option.some.injEq, List.nil_append, List.append_nil]
      exact ⟨fun h => ⟨r, rfl, h.symm⟩, fun ⟨s, hs, hd⟩ => by rw [hd, hs]⟩
  | cons x w ih =>
      cases r with
      | nil => simp [literal]
      | cons y r =>
          by_cases hy : y = x
          · subst hy
            simp [literal, ih]
          · simp only [literal, rest_between, if_neg hy, reduceCtorEq, List.cons_append,
              List.cons.injEq, false_iff, not_exists, not_and, and_imp]
            intro s h
            exact absurd h hy

theorem literal_append (w u r : Text) :
    literal w (between u (w ++ r)) = some (between (u ++ w) r) :=
  literal_eq_some_iff.2 ⟨r, rfl, rfl⟩

theorem literal_eq_none {w u r : Text} (h : ∀ s, r ≠ w ++ s) : literal w (between u r) = none := by
  cases hl : literal w (between u r) with
  | none => rfl
  | some d =>
      obtain ⟨s, hs, _⟩ := literal_eq_some_iff.1 hl
      exact absurd hs (h s)

theorem literal_eq_none_iff {w u r : Text} :
    literal w (between u r) = none ↔ ∀ s, r ≠ w ++ s := by
  refine ⟨fun h s hs => ?_, literal_eq_none⟩
  rw [hs, literal_append] at h
  cases h

theorem blank_cons {b : Char} (hb : isBlank b = true) (u r : Text) :
    blank (between u (b :: r)) = some (between (u ++ [b]) r) := by
  simp [blank, hb]

theorem exists_of_blank {u r : Text} {d : Cursor} (h : blank (between u r) = some d) :
    ∃ b s, isBlank b = true ∧ r = b :: s ∧ d = between (u ++ [b]) s := by
  cases r with
  | nil => simp [blank] at h
  | cons b s =>
      by_cases hb : isBlank b = true
      · rw [blank_cons hb, Option.some.injEq] at h
        exact ⟨b, s, hb, rfl, h.symm⟩
      · simp [blank, hb] at h

/-- Blanks before something that begins with no blank are passed. -/
theorem skipBlanks_append {u g r : Text} (hg : ∀ c ∈ g, isBlank c = true)
    (hr : ∀ c ∈ r.head?, isBlank c = false) :
    (between u (g ++ r)).skipBlanks = between (u ++ g) r :=
  skipWhile_append hg hr

theorem exists_of_skipBlanks (u r : Text) :
    ∃ g s, r = g ++ s ∧ (∀ c ∈ g, isBlank c = true) ∧ (∀ c ∈ s.head?, isBlank c = false) ∧
      (between u r).skipBlanks = between (u ++ g) s :=
  exists_of_skipWhile isBlank u r

/-! ## Everything up to a word -/

theorem through_append {w u m r : Text} (h : Misses (literal w) u m (w ++ r)) :
    through w (between u (m ++ (w ++ r))) = some (between (u ++ (m ++ w)) r) := by
  rw [through, findFirst_of_misses h, findFirst_of_eq_some (literal_append w (u ++ m) r)]
  simp

theorem exists_of_through {w u r : Text} {d : Cursor} (h : through w (between u r) = some d) :
    ∃ m s, r = m ++ (w ++ s) ∧ Misses (literal w) u m (w ++ s) ∧
      d = between (u ++ (m ++ w)) s := by
  obtain ⟨⟨c, e⟩, hf, rfl⟩ := Option.map_eq_some_iff.1 h
  obtain ⟨m, t, rfl, hm, rfl, hl⟩ := exists_of_findFirst hf
  obtain ⟨s, rfl, rfl⟩ := literal_eq_some_iff.1 hl
  exact ⟨m, s, rfl, hm, by simp⟩

theorem exists_through_of_infix {w u r : Text} (hw : w ≠ []) (h : w <:+: r) :
    ∃ d, through w (between u r) = some d := by
  cases hf : (between u r).findFirst (literal w) with
  | none =>
      obtain ⟨a, b, rfl⟩ := h
      have hmiss := (misses_of_findFirst hf).1.eq_none (v := a) (s := w ++ b) (by simp)
        (by simp [hw])
      rw [List.append_nil, literal_append] at hmiss
      cases hmiss
  | some e => exact ⟨e.2, by rw [through, hf, Option.map_some]⟩

/-- A search for a word misses a text in which its first character does not occur. -/
theorem misses_literal_of_not_mem {x : Char} {w u v r : Text} (h : x ∉ v) :
    Misses (literal (x :: w)) u v r := by
  refine misses_of_forall fun a y s hv => literal_eq_none fun t ht => h ?_
  simp only [List.cons_append, List.cons.injEq] at ht
  simp [hv, ht.1]

/-! ## A match behind blanks -/

theorem afterBlanks_of_eq_some {p : Pattern} {c d : Cursor} (h : p c = some d) :
    afterBlanks p c = some d := by
  rw [afterBlanks, h]

theorem afterBlanks_append {p : Pattern} {u g r : Text} (hg : ∀ c ∈ g, isBlank c = true)
    (h : Misses p u g r) :
    afterBlanks p (between u (g ++ r)) = afterBlanks p (between (u ++ g) r) := by
  induction g generalizing u with
  | nil => simp
  | cons b g ih =>
      have hb : isBlank b = true := hg b (by simp)
      rw [List.cons_append, afterBlanks, h.1]
      simp only [rest_between, hb, if_true, past_between]
      rw [ih (fun c hc => hg c (by simp [hc])) h.2, List.append_assoc, List.singleton_append]

theorem exists_of_afterBlanks {p : Pattern} {u r : Text} {d : Cursor}
    (h : afterBlanks p (between u r) = some d) :
    ∃ g s, r = g ++ s ∧ (∀ c ∈ g, isBlank c = true) ∧ p (between (u ++ g) s) = some d := by
  induction r generalizing u with
  | nil =>
      rw [afterBlanks] at h
      cases hp : p (between u []) with
      | none => simp [hp] at h
      | some e => exact ⟨[], [], rfl, by simp, by simpa [hp] using h⟩
  | cons b r ih =>
      rw [afterBlanks] at h
      cases hp : p (between u (b :: r)) with
      | none =>
          by_cases hb : isBlank b = true
          · simp only [hp, rest_between, hb, if_true, past_between] at h
            obtain ⟨g, s, rfl, hg, hd⟩ := ih h
            refine ⟨b :: g, s, rfl, ?_, by simpa using hd⟩
            simpa [hb] using hg
          · simp [hp, hb] at h
      | some e => exact ⟨[], b :: r, rfl, by simp, by simpa [hp] using h⟩

end AccessRules.Text.Pattern
