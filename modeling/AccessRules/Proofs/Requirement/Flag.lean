import AccessRules.Proofs.Text.Token
import AccessRules.Requirement.Reader

/-!
# Written flags

What the reader takes for the flag of an option block (`flagAt_eq_some_iff`): a flag that stands
between word boundaries.
-/

namespace AccessRules.Requirement

open AccessRules.Text Cursor

/-- The key of the flag. -/
@[irreducible]
def flagName : Text :=
  "no_auth_required".toList

/-- The value of a flag as it is written. -/
def flagValue (flag : Bool) : Text :=
  (if flag then "true" else "false").toList

/-- A flag as it is written. -/
structure FlagText where
  afterKey : Gap
  afterColon : Gap
  value : Bool

/-- The text of a flag. -/
def FlagText.text (f : FlagText) : Text :=
  flagName ++ (f.afterKey.text ++ ':' :: (f.afterColon.text ++ flagValue f.value))

theorem flagValue_eq_cons (flag : Bool) :
    ∃ x t, flagValue flag = x :: t ∧ isBlank x = false := by
  cases flag
  · exact ⟨'f', "alse".toList, rfl, by decide⟩
  · exact ⟨'t', "rue".toList, rfl, by decide⟩

theorem isWord_of_mem_flagValue {flag : Bool} {c : Char} (h : c ∈ flagValue flag) :
    isWord c = true := by
  have hall : ∀ flag, ∀ x ∈ flagValue flag, isWord x = true := by decide
  exact hall flag c h

section

variable {u r : Text} {flag : Bool}

/-- From the key of the flag to its value. -/
def flagKey : Pattern := fun c => do
  let c ← Pattern.literal flagName c
  let c ← Pattern.literal [':'] c.skipBlanks
  return c.skipBlanks

/-- The value of the flag at a place. -/
def flagValueAt (c : Cursor) : Option Bool :=
  match Pattern.literal "true".toList c, Pattern.literal "false".toList c with
  | some stop, _ => if stop.atWordEnd then some true else none
  | none, some stop => if stop.atWordEnd then some false else none
  | none, none => none

theorem flagAt_eq (c : Cursor) :
    flagAt c = if c.atWordStart then (flagKey c).bind flagValueAt else none := by
  simp only [flagAt, flagKey, flagName, Option.bind_eq_bind, Option.bind_assoc,
    Pattern.guard_bind]
  rfl

theorem flagValueAt_append (u s : Text) (flag : Bool) :
    flagValueAt (between u (flagValue flag ++ s)) =
      if (between (u ++ flagValue flag) s).atWordEnd then some flag else none := by
  cases flag with
  | true =>
      have h := Pattern.literal_append "true".toList u s
      rw [flagValueAt, flagValue, if_pos rfl, h]
  | false =>
      have h := Pattern.literal_append "false".toList u s
      have hnone : Pattern.literal "true".toList (between u ("false".toList ++ s)) = none :=
        Pattern.literal_eq_none fun t ht => by simp at ht
      rw [flagValueAt, flagValue, if_neg (by decide), h, hnone]

theorem flagValueAt_eq_some_iff :
    flagValueAt (between u r) = some flag ↔
      ∃ s, r = flagValue flag ++ s ∧ ∀ c ∈ s.head?, isWord c = false := by
  constructor
  · intro h
    have hvalue : ∃ flag' s, r = flagValue flag' ++ s := by
      cases htrue : Pattern.literal "true".toList (between u r) with
      | some d =>
          obtain ⟨s, hs, -⟩ := Pattern.literal_eq_some_iff.1 htrue
          exact ⟨true, s, hs⟩
      | none =>
          cases hfalse : Pattern.literal "false".toList (between u r) with
          | some d =>
              obtain ⟨s, hs, -⟩ := Pattern.literal_eq_some_iff.1 hfalse
              exact ⟨false, s, hs⟩
          | none =>
              rw [flagValueAt, htrue, hfalse] at h
              cases h
    obtain ⟨flag', s, rfl⟩ := hvalue
    rw [flagValueAt_append] at h
    split at h
    · rename_i hend
      obtain rfl : flag' = flag := Option.some.inj h
      exact ⟨s, rfl, atWordEnd_between.1 hend⟩
    · cases h
  · rintro ⟨s, rfl, hs⟩
    rw [flagValueAt_append, if_pos (atWordEnd_between.2 hs)]

theorem flagKey_eq_some_iff {d : Cursor} :
    flagKey (between u r) = some d ↔ ∃ (g g' : Gap) (s : Text),
      r = flagName ++ (g.text ++ ':' :: (g'.text ++ s)) ∧
      (∀ c ∈ s.head?, isBlank c = false) ∧
      d = between (u ++ (flagName ++ (g.text ++ ':' :: g'.text))) s := by
  constructor
  · intro h
    obtain ⟨c₁, h₁, h⟩ := Option.bind_eq_some_iff.1 h
    obtain ⟨c₂, h₂, h⟩ := Option.bind_eq_some_iff.1 h
    obtain ⟨t, rfl, rfl⟩ := Pattern.literal_eq_some_iff.1 h₁
    obtain ⟨g, t, rfl, rfl⟩ := Pattern.exists_of_skipBlanks_literal h₂
    obtain ⟨g', s, rfl, hg', hs, hskip⟩ := Pattern.exists_of_skipBlanks
      ((u ++ flagName) ++ (g.text ++ [':'])) t
    rw [Option.pure_def, Option.some.injEq, hskip] at h
    exact ⟨g, ⟨g', hg'⟩, s, rfl, hs, by simp [← h]⟩
  · rintro ⟨g, g', s, rfl, hs, rfl⟩
    simp only [flagKey, Pattern.literal_append, g.skipBlanks_cons (x := ':') (by decide),
      Pattern.literal_cons, g'.skipBlanks_append hs, Option.bind_eq_bind, Option.bind_some,
      Option.pure_def, List.append_assoc, List.cons_append, List.nil_append]

/-- The reader finds a flag where one is written between word boundaries, and only there. -/
theorem flagAt_eq_some_iff :
    flagAt (between u r) = some flag ↔ Boundary u ∧ ∃ (f : FlagText) (s : Text),
      f.value = flag ∧ r = f.text ++ s ∧ ∀ c ∈ s.head?, isWord c = false := by
  rw [flagAt_eq]
  by_cases hu : Boundary u
  · rw [if_pos (atWordStart_between.2 hu), Option.bind_eq_some_iff, and_iff_right hu]
    constructor
    · rintro ⟨d, hkey, hvalue⟩
      obtain ⟨g, g', t, rfl, -, rfl⟩ := flagKey_eq_some_iff.1 hkey
      obtain ⟨s, rfl, hs⟩ := flagValueAt_eq_some_iff.1 hvalue
      refine ⟨⟨g, g', flag⟩, s, rfl, ?_, hs⟩
      simp only [FlagText.text, List.append_assoc, List.cons_append]
    · rintro ⟨f, s, hflag, hr, hs⟩
      subst hflag hr
      obtain ⟨x, t, hvalue, hx⟩ := flagValue_eq_cons f.value
      have hhead : ∀ c ∈ (flagValue f.value ++ s).head?, isBlank c = false := by
        simpa [hvalue] using hx
      have htext : f.text ++ s = flagName ++
          (f.afterKey.text ++ ':' :: (f.afterColon.text ++ (flagValue f.value ++ s))) := by
        simp only [FlagText.text, List.append_assoc, List.cons_append]
      exact ⟨between (u ++ (flagName ++ (f.afterKey.text ++
          ':' :: f.afterColon.text))) (flagValue f.value ++ s),
        flagKey_eq_some_iff.2 ⟨f.afterKey, f.afterColon, _, htext, hhead, rfl⟩,
        flagValueAt_eq_some_iff.2 ⟨s, rfl, hs⟩⟩
  · rw [if_neg fun h => hu (atWordStart_between.1 h)]
    exact iff_of_false (by simp) fun h => hu h.1

end

end AccessRules.Requirement
