import AccessRules.Proofs.Source.OptionHead
import AccessRules.Proofs.Source.Parts

/-!
# Complete statements

What stands between declarations ends where a statement or a block ends. No head of a method or of
an option goes over such an end, so none begins in a text of this kind unless it stands there as a
whole (`Complete.headless`, `Complete.misses_optionHead`).
-/

namespace AccessRules.Source

open AccessRules.Text Cursor

/-- Whether a text ends, up to blanks, with a statement, or where a block opens or closes. -/
inductive Complete : Text → Prop where
  | gap (g : Gap) : Complete g.text
  | ended (w : Text) {c : Char} (g : Gap) : c = ';' ∨ c = '{' ∨ c = '}' →
      Complete (w ++ c :: g.text)

/-- Text that may stand between declarations. -/
structure Statements where
  text : Text
  complete : Complete text

/-- Whether the head of a method called `name` stands in a text. -/
def Mentions (name w : Text) : Prop :=
  ∃ a b, w = a ++ b ∧ Heads name b

/-- Whether a head of the option stands in a text. -/
def OptionName.StandsIn (name : OptionName) (w : Text) : Prop :=
  ∃ (a b : Text) (o : OptionHead), o.name = name ∧ w = a ++ (o.text ++ b)

theorem Complete.of_append_cons {c : Char} {w : Text} (v : Text)
    (hc : c = ';' ∨ c = '{' ∨ c = '}') (h : Complete w) : Complete (v ++ c :: w) := by
  cases h with
  | gap g => exact .ended v g hc
  | ended u g hd => simpa using Complete.ended (v ++ c :: u) g hd

theorem Complete.boundary {w : Text} (h : Complete w) : Boundary w := by
  cases h with
  | gap g => exact g.boundary
  | @ended v c g hc =>
      have hword : isWord c = false := by rcases hc with rfl | rfl | rfl <;> decide
      simpa using (boundary_concat v hword).append g.boundary

/-! ## Heads of methods -/

section

variable {name : Word} {c : Char} {w r : Text}

theorem Heads.append {name : Text} (h : Heads name w) (r : Text) : Heads name (w ++ r) := by
  obtain ⟨g, g', s, hne, hg, hg', rfl⟩ := h
  exact ⟨g, g', s ++ r, hne, hg, hg', by simp⟩

/-- A head that begins in front of the end of a statement ends there too. -/
theorem Heads.of_append_cons (hc : c = ';' ∨ c = '{' ∨ c = '}')
    (h : Heads name.text (w ++ c :: r)) : Heads name.text w := by
  obtain ⟨g, g', s, hne, hg, hg', heq⟩ := h
  have hplain : isWord c = false ∧ isBlank c = false ∧ c ≠ '(' := by
    rcases hc with rfl | rfl | rfl <;> decide
  have hfront : c ∉ "rpc".toList ++ (g ++ (name.text ++ g')) := by
    have hrpc : ∀ x ∈ "rpc".toList, isWord x = true := by decide
    simp only [List.mem_append, not_or]
    exact ⟨fun h => by simp [hrpc c h] at hplain, fun h => by simp [hg c h] at hplain,
      fun h => by simp [name.word c h] at hplain, fun h => by simp [hg' c h] at hplain⟩
  have hsplit : ("rpc".toList ++ (g ++ (name.text ++ g'))) ++ '(' :: s = w ++ c :: r := by
    simpa using heq.symm
  obtain ⟨d, rfl, hd⟩ := exists_append_of_not_mem hfront hsplit
  cases d with
  | nil => exact absurd (List.cons.inj hd).1.symm hplain.2.2
  | cons x d =>
      obtain rfl : '(' = x := (List.cons.inj hd).1
      exact ⟨g, g', d, hne, hg, hg', by simp⟩

theorem headless_of_forall {name : Text} (h : ∀ a b, w = a ++ b → ¬ Heads name (b ++ r)) :
    Headless name w r := by
  induction w with
  | nil => trivial
  | cons x w ih =>
      refine ⟨h [] (x :: w) rfl, ih fun a b hw => h (x :: a) b (by rw [hw, List.cons_append])⟩

theorem Mentions.append {name : Text} (h : Mentions name w) (r : Text) :
    Mentions name (w ++ r) := by
  obtain ⟨a, b, rfl, hb⟩ := h
  exact ⟨a, b ++ r, List.append_assoc .., hb.append r⟩

theorem not_mentions_of_headless {name : Text} (h : Headless name w []) : ¬ Mentions name w := by
  rintro ⟨a, b, rfl, hb⟩
  cases b with
  | nil => exact not_heads_nil name hb
  | cons x b => exact (headless_append.1 h).2.1 (by simpa using hb)

theorem not_mentions_of_not_mem (h : '(' ∉ w) : ¬ Mentions name.text w := by
  rintro ⟨a, b, rfl, g, g', s, -, -, -, rfl⟩
  simp at h

theorem not_mentions_of_not_infix {name : Text} (h : ¬ "rpc".toList <:+: w) :
    ¬ Mentions name w := by
  rintro ⟨a, b, rfl, g, g', s, -, -, -, rfl⟩
  exact h ⟨a, g ++ (name ++ (g' ++ '(' :: s)), List.append_assoc ..⟩

/-- No head begins in complete statements that hold none. -/
theorem Complete.headless (h : Complete w) (hw : ¬ Mentions name.text w) (r : Text) :
    Headless name.text w r := by
  cases h with
  | gap g => exact headless_gap g _ _
  | @ended v c g hc =>
      have hv : ¬ Mentions name.text v := fun hm => hw (hm.append _)
      have hlast : Headless name.text [c] (g.text ++ r) :=
        headless_of_not_mem (by rcases hc with rfl | rfl | rfl <;> decide)
      have hfront : Headless name.text v (c :: g.text ++ r) :=
        headless_of_forall fun a b hab hb => hv ⟨a, b, hab, Heads.of_append_cons hc hb⟩
      exact headless_append.2 ⟨hfront, headless_append.2 ⟨hlast, headless_gap g _ _⟩⟩

end

/-! ## Heads of options -/

theorem OptionName.not_standsIn_of_not_mem {name : OptionName} {w : Text} (h : '{' ∉ w) :
    ¬ name.StandsIn w := by
  rintro ⟨a, b, o, -, rfl⟩
  simp [OptionHead.text] at h

/-- The head of an option that begins in front of the end of a statement ends with it or before. -/
theorem OptionHead.exists_of_append_cons {o : OptionHead} {c : Char} {b r s : Text}
    (hc : c = ';' ∨ c = '{' ∨ c = '}') (h : b ++ c :: r = o.text ++ s) :
    ∃ t, b ++ [c] = o.text ++ t := by
  rw [OptionHead.text, List.append_assoc] at h
  obtain ⟨d, rfl, hd⟩ := exists_append_of_not_mem (o.not_mem_stem hc) h.symm
  cases d with
  | nil =>
      obtain rfl : '{' = c := (List.cons.inj hd).1
      exact ⟨[], by simp [OptionHead.text]⟩
  | cons x d =>
      obtain rfl : '{' = x := (List.cons.inj hd).1
      exact ⟨d ++ [c], by simp [OptionHead.text]⟩

/-- A search for an option misses complete statements that hold no head of it. -/
theorem Complete.misses_optionHead {name : OptionName} {w : Text} (h : Complete w)
    (hw : ¬ name.StandsIn w) (u r : Text) : Misses (optionHead name.text) u w r := by
  have hgap : ∀ (g : Gap) (u : Text), Misses (optionHead name.text) u g.text r := fun g u =>
    misses_optionHead_of_not_mem (g.not_mem (by decide))
  cases h with
  | gap g => exact hgap g u
  | @ended v c g hc =>
      have hv : Misses (optionHead name.text) u (v ++ [c]) (g.text ++ r) := by
        refine Source.misses_optionHead fun a b s hab hb o ho heq => hw ?_
        obtain ⟨b, x, rfl⟩ := (List.eq_nil_or_concat b).resolve_left hb
        rw [List.concat_eq_append, ← List.append_assoc] at hab
        rw [List.concat_eq_append, List.append_assoc] at heq
        obtain ⟨rfl, hx⟩ := List.append_inj' hab rfl
        obtain rfl : c = x := (List.cons.inj hx).1
        obtain ⟨t, ht⟩ := o.exists_of_append_cons hc heq
        refine ⟨a, t ++ g.text, o, ho, ?_⟩
        rw [← List.append_assoc o.text, ← ht]
        simp
      have htext : v ++ c :: g.text = (v ++ [c]) ++ g.text := by simp
      rw [htext]
      exact misses_append.2 ⟨hv, hgap g _⟩

/-! ## Parts -/

namespace Part

variable {name : Word} {part : Part}

/-- What stands between methods, or between the braces of one. -/
def inner : Part → Text
  | between text => text
  | method _ body => body

/-- Whether the part is a method called `name`. -/
def declares (name : Text) : Part → Bool
  | between _ => false
  | method signature _ => signature.name.text = name

@[simp] theorem declares_between (name text : Text) : (between text).declares name = false := rfl

theorem silent_of_complete (hinner : Complete part.inner) (hother : part.declares name.text = false)
    (hname : ¬ Mentions name.text part.inner) : part.Silent name := by
  cases part with
  | between text => exact hinner.headless hname
  | method signature body => exact ⟨by simpa [declares] using hother, hinner.headless hname⟩

theorem boundary_of_complete (hinner : Complete part.inner) : Boundary part.text := by
  cases part with
  | between text => exact hinner.boundary
  | method signature body => exact boundary_method signature body

end Part

end AccessRules.Source
