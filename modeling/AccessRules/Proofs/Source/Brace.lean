import AccessRules.Proofs.Text.Token
import AccessRules.Source.Brace

/-!
# Balanced braces

A text whose braces are balanced is passed over by the search for a closing brace
(`Balanced.closingIndex?_append`), so that a braced text is cut out whole. Whatever is cut out ends
before a closing brace (`exists_of_closingIndex?`).
-/

namespace AccessRules.Source

open AccessRules.Text

/-- Whether every brace of a text is closed or opened within it, in order. -/
inductive Balanced : Text → Prop where
  | nil : Balanced []
  | plain {c : Char} {w : Text} : c ≠ '{' → c ≠ '}' → Balanced w → Balanced (c :: w)
  | braces {v w : Text} : Balanced v → Balanced w → Balanced ('{' :: (v ++ '}' :: w))

section

variable {inner : Nat} {c : Char} {v w r : Text}

theorem closingIndex?_opens (inner : Nat) (r : Text) :
    closingIndex? inner ('{' :: r) = (closingIndex? (inner + 1) r).map (· + 1) := rfl

theorem closingIndex?_closes (inner : Nat) (r : Text) :
    closingIndex? (inner + 1) ('}' :: r) = (closingIndex? inner r).map (· + 1) := rfl

theorem closingIndex?_keeps (ho : c ≠ '{') (hc : c ≠ '}') (inner : Nat) (r : Text) :
    closingIndex? inner (c :: r) = (closingIndex? inner r).map (· + 1) := by
  simp [closingIndex?, HasBraces.nesting, ho, hc]

/-- Balanced braces leave the nesting as it is. -/
theorem Balanced.closingIndex?_append (h : Balanced w) (inner : Nat) (r : Text) :
    closingIndex? inner (w ++ r) = (closingIndex? inner r).map (· + w.length) := by
  induction h generalizing inner r with
  | nil => simp
  | plain ho hc _ ih =>
      rw [List.cons_append, closingIndex?_keeps ho hc, ih, Option.map_map]
      rfl
  | braces _ _ ihv ihw =>
      rw [List.cons_append, List.append_assoc, closingIndex?_opens, ihv, List.cons_append,
        closingIndex?_closes, ihw]
      simp only [Option.map_map, List.length_cons, List.length_append]
      congr 1
      funext n
      simp only [Function.comp_apply]
      omega

theorem Balanced.closingIndex?_eq (h : Balanced w) (r : Text) :
    closingIndex? 0 (w ++ '}' :: r) = some w.length := by
  rw [h.closingIndex?_append]
  simp [closingIndex?, HasBraces.nesting]

/-- A closing brace behind balanced braces stays the same one. -/
theorem Balanced.closingIndex?_insert (h : Balanced w) {n : Nat} (hv : v.length ≤ n)
    (hn : closingIndex? inner (v ++ r) = some n) :
    closingIndex? inner (v ++ (w ++ r)) = some (n + w.length) := by
  induction v generalizing inner n with
  | nil =>
      rw [List.nil_append] at hn ⊢
      rw [h.closingIndex?_append, hn, Option.map_some]
  | cons c v ih =>
      rw [List.length_cons] at hv
      have hstep : ∀ {inner'}, (closingIndex? inner' (v ++ r)).map (· + 1) = some n →
          (closingIndex? inner' (v ++ (w ++ r))).map (· + 1) = some (n + w.length) := by
        intro inner' hmap
        obtain ⟨m, hm, rfl⟩ := Option.map_eq_some_iff.1 hmap
        rw [ih (by omega) hm, Option.map_some, Nat.add_right_comm]
      rw [List.cons_append] at hn ⊢
      by_cases ho : c = '{'
      · subst ho
        exact hstep hn
      · by_cases hc : c = '}'
        · subst hc
          cases inner with
          | zero =>
              obtain rfl : 0 = n := by simpa [closingIndex?, HasBraces.nesting] using hn
              cases hv
          | succ inner => exact hstep hn
        · rw [closingIndex?_keeps ho hc] at hn ⊢
          exact hstep hn

theorem Balanced.append (hv : Balanced v) (hw : Balanced w) : Balanced (v ++ w) := by
  induction hv with
  | nil => exact hw
  | plain ho hc _ ih => exact .plain ho hc ih
  | braces hv _ _ ih =>
      rw [List.cons_append, List.append_assoc]
      exact .braces hv ih

theorem balanced_of_not_mem (ho : '{' ∉ w) (hc : '}' ∉ w) : Balanced w := by
  induction w with
  | nil => exact .nil
  | cons c w ih =>
      simp only [List.mem_cons, not_or] at ho hc
      exact .plain (Ne.symm ho.1) (Ne.symm hc.1) (ih ho.2 hc.2)

theorem balanced_gap (g : Gap) : Balanced g.text :=
  balanced_of_not_mem (g.not_mem (by decide)) (g.not_mem (by decide))

/-- A brace that is opened in a balanced text is closed in it, whatever follows. -/
theorem Balanced.exists_closing {u : Text} (h : Balanced (u ++ '{' :: v)) :
    ∃ n ≤ v.length, ∀ r, closingIndex? 0 (v ++ r) = some n := by
  generalize ht : u ++ '{' :: v = t at h
  induction h generalizing u v with
  | nil => simp at ht
  | plain ho _ _ ih =>
      rcases List.append_eq_cons_iff.1 ht with ⟨-, hv⟩ | ⟨u, -, hu⟩
      · exact absurd (List.cons.inj hv).1.symm ho
      · exact ih hu.symm
  | @braces v₁ w₁ hv _ ihv ihw =>
      rcases List.append_eq_cons_iff.1 ht with ⟨-, hv'⟩ | ⟨u, -, hu⟩
      · obtain rfl := (List.cons.inj hv').2
        exact ⟨v₁.length, by simp, fun r => by simpa using hv.closingIndex?_eq (w₁ ++ r)⟩
      · -- The brace stands within the inner text, or behind it.
        rcases List.append_eq_append_iff.1 hu with ⟨z, rfl, hz⟩ | ⟨z, rfl, hz⟩
        · cases z with
          | nil => exact absurd (List.cons.inj hz).1 (by decide)
          | cons c z => exact ihw (List.cons.inj hz).2.symm
        · cases z with
          | nil => exact absurd (List.cons.inj hz).1 (by decide)
          | cons c z =>
              rw [List.cons_append] at hz
              obtain ⟨rfl, rfl⟩ := List.cons.inj hz
              obtain ⟨n, hn, hclose⟩ := ihv rfl
              refine ⟨n, ?_, fun r => by simpa using hclose ('}' :: (w₁ ++ r))⟩
              rw [List.length_append]
              omega

/-- What a closing brace cuts off ends before a closing brace. -/
theorem exists_of_closingIndex? {n : Nat} (h : closingIndex? inner r = some n) :
    ∃ s, r = r.take n ++ '}' :: s := by
  induction r generalizing inner n with
  | nil => cases h
  | cons c r ih =>
      by_cases ho : c = '{'
      · subst ho
        rw [closingIndex?_opens, Option.map_eq_some_iff] at h
        obtain ⟨m, hm, rfl⟩ := h
        obtain ⟨s, hs⟩ := ih hm
        exact ⟨s, by rw [List.take_succ_cons, List.cons_append, ← hs]⟩
      · by_cases hc : c = '}'
        · subst hc
          cases inner with
          | zero =>
              obtain rfl : 0 = n := by simpa [closingIndex?, HasBraces.nesting] using h
              exact ⟨r, rfl⟩
          | succ inner =>
              rw [closingIndex?_closes, Option.map_eq_some_iff] at h
              obtain ⟨m, hm, rfl⟩ := h
              obtain ⟨s, hs⟩ := ih hm
              exact ⟨s, by rw [List.take_succ_cons, List.cons_append, ← hs]⟩
        · rw [closingIndex?_keeps ho hc, Option.map_eq_some_iff] at h
          obtain ⟨m, hm, rfl⟩ := h
          obtain ⟨s, hs⟩ := ih hm
          exact ⟨s, by rw [List.take_succ_cons, List.cons_append, ← hs]⟩

theorem exists_append_of_closingIndex? {n : Nat} (h : closingIndex? inner r = some n) :
    ∃ w s, r = w ++ '}' :: s ∧ r.take n = w ∧ w.length = n := by
  obtain ⟨s, hs⟩ := exists_of_closingIndex? h
  refine ⟨r.take n, s, hs, rfl, ?_⟩
  have hlength := congrArg List.length hs
  simp only [List.length_append, List.length_take, List.length_cons] at hlength ⊢
  omega

end

end AccessRules.Source
