import AccessRules.Proofs.Source.Brace
import Mathlib.Data.List.Infix

/-!
# Braces counted

The search for a closing brace keeps count: it stops at the first brace that closes more than was
opened (`closingIndex?_eq_some_iff`), and finds none exactly if no part of the units from their
beginning on closes more than it opens (`closingIndex?_eq_none_iff`). So the texts with balanced
braces are those in which as many braces are closed as opened, and never more so far
(`balanced_iff`), and a closing brace cuts off such a text (`closingIndex?_eq_some_iff_balanced`).
-/

namespace AccessRules.Source

open AccessRules.Text

section

variable {α : Type} [HasBraces α]

def opened (units : List α) : Nat :=
  units.countP (HasBraces.nesting · = .opens)

def closed (units : List α) : Nat :=
  units.countP (HasBraces.nesting · = .closes)

/-- No part of the units from their beginning on closes more braces than it opens and `inner`
further ones. -/
def Within (inner : Nat) (units : List α) : Prop :=
  ∀ p, p <+: units → closed p ≤ opened p + inner

variable {unit : α} {units : List α} {inner : Nat}

@[simp] theorem opened_nil : opened ([] : List α) = 0 := rfl

@[simp] theorem closed_nil : closed ([] : List α) = 0 := rfl

theorem counts_opens (h : HasBraces.nesting unit = .opens) (units : List α) :
    opened (unit :: units) = opened units + 1 ∧ closed (unit :: units) = closed units := by
  simp [opened, closed, h]

theorem counts_keeps (h : HasBraces.nesting unit = .keeps) (units : List α) :
    opened (unit :: units) = opened units ∧ closed (unit :: units) = closed units := by
  simp [opened, closed, h]

theorem counts_closes (h : HasBraces.nesting unit = .closes) (units : List α) :
    opened (unit :: units) = opened units ∧ closed (unit :: units) = closed units + 1 := by
  simp [opened, closed, h]

theorem opened_append (v w : List α) : opened (v ++ w) = opened v + opened w :=
  List.countP_append

theorem closed_append (v w : List α) : closed (v ++ w) = closed v + closed w :=
  List.countP_append

/-! ## One unit more -/

theorem within_nil (inner : Nat) : Within inner ([] : List α) := by
  intro p hp
  rw [List.prefix_nil.1 hp]
  exact Nat.zero_le _

theorem within_cons : Within inner (unit :: units) ↔
    ∀ p, p <+: units → closed (unit :: p) ≤ opened (unit :: p) + inner := by
  constructor
  · intro h p hp
    exact h _ (List.prefix_cons_inj unit |>.2 hp)
  · intro h p hp
    rcases List.prefix_cons_iff.1 hp with rfl | ⟨t, rfl, ht⟩
    · exact Nat.zero_le _
    · exact h t ht

theorem within_opens (h : HasBraces.nesting unit = .opens) :
    Within inner (unit :: units) ↔ Within (inner + 1) units := by
  rw [within_cons]
  refine forall₂_congr fun p _ => ?_
  rw [(counts_opens h p).1, (counts_opens h p).2]
  omega

theorem within_keeps (h : HasBraces.nesting unit = .keeps) :
    Within inner (unit :: units) ↔ Within inner units := by
  rw [within_cons]
  refine forall₂_congr fun p _ => ?_
  rw [(counts_keeps h p).1, (counts_keeps h p).2]

theorem within_closes (h : HasBraces.nesting unit = .closes) :
    Within (inner + 1) (unit :: units) ↔ Within inner units := by
  rw [within_cons]
  refine forall₂_congr fun p _ => ?_
  rw [(counts_closes h p).1, (counts_closes h p).2]
  omega

theorem not_within_closes (h : HasBraces.nesting unit = .closes) : ¬ Within 0 (unit :: units) := by
  intro hw
  have := within_cons.1 hw [] List.nil_prefix
  rw [(counts_closes h []).1, (counts_closes h []).2] at this
  simp at this

/-! ## What the search finds -/

theorem closingIndex?_eq_none_iff : closingIndex? inner units = none ↔ Within inner units := by
  induction units generalizing inner with
  | nil => exact iff_of_true rfl (within_nil inner)
  | cons unit units ih =>
      cases h : HasBraces.nesting unit with
      | opens => simp only [closingIndex?, h, Option.map_eq_none_iff, ih, within_opens h]
      | keeps => simp only [closingIndex?, h, Option.map_eq_none_iff, ih, within_keeps h]
      | closes =>
          cases inner with
          | zero => simp only [closingIndex?, h, reduceCtorEq, not_within_closes h]
          | succ inner =>
              simp only [closingIndex?, h, Option.map_eq_none_iff, ih, within_closes h]

/-- The brace behind the first `n` units closes one more than was opened before it and `inner`
further ones, and it is the first one to do so. -/
def ClosesAt (inner : Nat) (units : List α) (n : Nat) : Prop :=
  ∃ p brace rest, units = p ++ brace :: rest ∧ p.length = n ∧
    HasBraces.nesting brace = .closes ∧ closed p = opened p + inner ∧ Within inner p

/-- Behind a unit that is not the closing brace itself the search goes on with another count. -/
theorem closesAt_cons {next n : Nat} (hinner : HasBraces.nesting unit = .closes → inner ≠ 0)
    (hcount : ∀ p, closed (unit :: p) = opened (unit :: p) + inner ↔ closed p = opened p + next)
    (hwithin : ∀ p, Within inner (unit :: p) ↔ Within next p) :
    ClosesAt inner (unit :: units) n ↔ ∃ m, ClosesAt next units m ∧ m + 1 = n := by
  constructor
  · rintro ⟨p, brace, rest, hunits, rfl, hbrace, hp, hw⟩
    cases p with
    | nil =>
        obtain ⟨rfl, rfl⟩ := List.cons.inj hunits
        exact absurd (by simpa using hp.symm) (hinner hbrace)
    | cons x p =>
        obtain ⟨rfl, rfl⟩ := List.cons.inj hunits
        exact ⟨p.length, ⟨p, brace, rest, rfl, rfl, hbrace, (hcount p).1 hp, (hwithin p).1 hw⟩, rfl⟩
  · rintro ⟨m, ⟨p, brace, rest, rfl, rfl, hbrace, hp, hw⟩, rfl⟩
    exact ⟨unit :: p, brace, rest, rfl, rfl, hbrace, (hcount p).2 hp, (hwithin p).2 hw⟩

theorem closesAt_closes {n : Nat} (h : HasBraces.nesting unit = .closes) :
    ClosesAt 0 (unit :: units) n ↔ 0 = n := by
  constructor
  · rintro ⟨p, brace, rest, hunits, rfl, -, -, hw⟩
    cases p with
    | nil => rfl
    | cons x p =>
        obtain ⟨rfl, -⟩ := List.cons.inj hunits
        exact absurd hw (not_within_closes h)
  · rintro rfl
    exact ⟨[], unit, units, rfl, rfl, h, rfl, within_nil 0⟩

theorem closingIndex?_eq_some_iff {n : Nat} :
    closingIndex? inner units = some n ↔ ClosesAt inner units n := by
  induction units generalizing inner n with
  | nil => simp [closingIndex?, ClosesAt]
  | cons unit units ih =>
      cases h : HasBraces.nesting unit with
      | opens =>
          have hcount : ∀ p, closed (unit :: p) = opened (unit :: p) + inner ↔
              closed p = opened p + (inner + 1) := fun p => by
            rw [(counts_opens h p).1, (counts_opens h p).2]
            omega
          rw [closesAt_cons (by simp [h]) hcount fun p => within_opens h]
          simp only [closingIndex?, h, Option.map_eq_some_iff, ih]
      | keeps =>
          have hcount : ∀ p, closed (unit :: p) = opened (unit :: p) + inner ↔
              closed p = opened p + inner := fun p => by
            rw [(counts_keeps h p).1, (counts_keeps h p).2]
          rw [closesAt_cons (by simp [h]) hcount fun p => within_keeps h]
          simp only [closingIndex?, h, Option.map_eq_some_iff, ih]
      | closes =>
          cases inner with
          | zero =>
              rw [closesAt_closes h]
              simp only [closingIndex?, h, Option.some.injEq]
          | succ inner =>
              have hcount : ∀ p, closed (unit :: p) = opened (unit :: p) + (inner + 1) ↔
                  closed p = opened p + inner := fun p => by
                rw [(counts_closes h p).1, (counts_closes h p).2]
                omega
              rw [closesAt_cons (by simp) hcount fun p => within_closes h]
              simp only [closingIndex?, h, Option.map_eq_some_iff, ih]

end

/-! ## Which units are braces -/

section

variable {α : Type} [DecidableEq α] {unit opening closing : α}

theorem ite_eq_opens_iff :
    (if unit = opening then Nesting.opens else if unit = closing then .closes else .keeps) =
      .opens ↔ unit = opening := by
  split
  · simp_all
  · split <;> simp_all

theorem ite_eq_closes_iff (h : opening ≠ closing) :
    (if unit = opening then Nesting.opens else if unit = closing then .closes else .keeps) =
      .closes ↔ unit = closing := by
  split
  · simp_all
  · split <;> simp_all

end

/-! ## Balanced texts -/

section

variable {w : Text}

theorem nesting_eq_opens_iff {c : Char} : HasBraces.nesting c = .opens ↔ c = '{' :=
  ite_eq_opens_iff

theorem nesting_eq_closes_iff {c : Char} : HasBraces.nesting c = .closes ↔ c = '}' :=
  ite_eq_closes_iff (by decide)

theorem opened_eq_count (w : Text) : opened w = w.count '{' := by
  simp only [opened, nesting_eq_opens_iff]
  rfl

theorem closed_eq_count (w : Text) : closed w = w.count '}' := by
  simp only [closed, nesting_eq_closes_iff]
  rfl

theorem Balanced.counts (h : Balanced w) : closed w = opened w ∧ Within 0 w := by
  have hclose := closingIndex?_eq_some_iff.1 (h.closingIndex?_eq [])
  obtain ⟨p, brace, rest, hw, hlen, -, hp, hwithin⟩ := hclose
  obtain ⟨rfl, -⟩ := List.append_inj hw hlen.symm
  exact ⟨hp, hwithin⟩

/-- Behind an opening brace that is closed, the first brace that closes it parts the text into two
that are balanced themselves. -/
theorem exists_closing_of_counts (h : closed w = opened w + 1) (hw : Within 1 w) :
    ∃ p rest, w = p ++ '}' :: rest ∧ (closed p = opened p ∧ Within 0 p) ∧
      closed rest = opened rest ∧ Within 0 rest := by
  obtain ⟨m, hm⟩ : ∃ m, closingIndex? 0 w = some m := by
    refine Option.ne_none_iff_exists'.1 fun hnone => ?_
    have := closingIndex?_eq_none_iff.1 hnone w (List.prefix_refl w)
    omega
  obtain ⟨p, brace, rest, rfl, -, hbrace, hp, hinner⟩ := closingIndex?_eq_some_iff.1 hm
  obtain rfl := nesting_eq_closes_iff.1 hbrace
  simp only [opened_append, closed_append, (counts_closes hbrace rest).1,
    (counts_closes hbrace rest).2] at h
  refine ⟨p, rest, rfl, ⟨hp, hinner⟩, by omega, fun q hq => ?_⟩
  have := hw (p ++ '}' :: q) (by simpa using hq)
  simp only [opened_append, closed_append, (counts_closes hbrace q).1,
    (counts_closes hbrace q).2] at this
  omega

theorem balanced_of_counts (h : closed w = opened w) (hw : Within 0 w) : Balanced w := by
  -- A text that begins with a brace is cut behind the brace that closes it.
  generalize hn : w.length = n
  induction n using Nat.strongRecOn generalizing w with
  | ind n ih =>
      cases w with
      | nil => exact .nil
      | cons c w =>
          rw [List.length_cons] at hn
          cases hc : HasBraces.nesting c with
          | closes => exact absurd hw (not_within_closes hc)
          | keeps =>
              rw [(counts_keeps hc w).1, (counts_keeps hc w).2] at h
              refine .plain (fun ho => ?_) (fun hcl => ?_)
                (ih w.length (by omega) h ((within_keeps hc).1 hw) rfl)
              · rw [nesting_eq_opens_iff.2 ho] at hc
                cases hc
              · rw [nesting_eq_closes_iff.2 hcl] at hc
                cases hc
          | opens =>
              obtain rfl := nesting_eq_opens_iff.1 hc
              rw [(counts_opens hc w).1, (counts_opens hc w).2] at h
              obtain ⟨p, rest, rfl, hp, hrest⟩ :=
                exists_closing_of_counts h ((within_opens hc).1 hw)
              rw [List.length_append, List.length_cons] at hn
              exact .braces (ih p.length (by omega) hp.1 hp.2 rfl)
                (ih rest.length (by omega) hrest.1 hrest.2 rfl)

/-- The braces of a text are balanced exactly if as many are closed as opened, and nowhere more
before that. -/
theorem balanced_iff : Balanced w ↔
    w.count '{' = w.count '}' ∧ ∀ p, p <+: w → p.count '}' ≤ p.count '{' := by
  simp only [← opened_eq_count, ← closed_eq_count]
  constructor
  · intro h
    exact ⟨h.counts.1.symm, h.counts.2⟩
  · rintro ⟨heq, hw⟩
    exact balanced_of_counts heq.symm hw

/-- A closing brace is found exactly behind a balanced text. -/
theorem closingIndex?_eq_some_iff_balanced {r : Text} {n : Nat} : closingIndex? 0 r = some n ↔
    ∃ b s, r = b ++ '}' :: s ∧ b.length = n ∧ Balanced b := by
  constructor
  · intro h
    obtain ⟨b, brace, s, rfl, hlen, hbrace, hb, hw⟩ := closingIndex?_eq_some_iff.1 h
    obtain rfl := nesting_eq_closes_iff.1 hbrace
    exact ⟨b, s, rfl, hlen, balanced_of_counts hb hw⟩
  · rintro ⟨b, s, rfl, rfl, hb⟩
    exact hb.closingIndex?_eq s

end

end AccessRules.Source
