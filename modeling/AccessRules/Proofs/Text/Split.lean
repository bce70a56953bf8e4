import AccessRules.Text.Cursor
import AccessRules.Text.Split
import Mathlib.Data.List.TakeDrop
import Mathlib.Data.List.TakeWhile

/-!
# Splitting what was joined, trimming what was put around
-/

namespace AccessRules.Text

section

variable {separator : Char} {a b : Text}

theorem splitAt_of_not_mem (h : separator ∉ a) : splitAt separator a = [a] := by
  induction a with
  | nil => rfl
  | cons c a ih =>
      simp only [List.mem_cons, not_or] at h
      rw [splitAt, if_neg (Ne.symm h.1), ih h.2]

theorem splitAt_append_separator (separator : Char) (a b : Text) :
    splitAt separator (a ++ separator :: b) = splitAt separator a ++ splitAt separator b := by
  induction a with
  | nil => simp [splitAt]
  | cons c a ih =>
      rw [List.cons_append, splitAt, splitAt, ih]
      split
      · rfl
      · cases hparts : splitAt separator a with
        | nil => exact absurd hparts (splitAt_ne_nil _ _)
        | cons part parts => rfl

theorem splitAt_append_cons (h : separator ∉ a) (b : Text) :
    splitAt separator (a ++ separator :: b) = a :: splitAt separator b := by
  rw [splitAt_append_separator, splitAt_of_not_mem h, List.singleton_append]

/-- A text without separators goes into the first part of what it is put in front of. -/
theorem splitAt_append_of_not_mem (h : separator ∉ a) (b : Text) :
    ∃ first, splitAt separator (a ++ b) = first :: (splitAt separator b).tail ∧ a <+: first := by
  induction a with
  | nil =>
      obtain ⟨part, parts, hparts⟩ := List.exists_cons_of_ne_nil (splitAt_ne_nil separator b)
      exact ⟨part, by simp [hparts], List.nil_prefix⟩
  | cons c a ih =>
      simp only [List.mem_cons, not_or] at h
      obtain ⟨first, hparts, hfirst⟩ := ih h.2
      refine ⟨c :: first, ?_, List.cons_prefix_cons.2 ⟨rfl, hfirst⟩⟩
      rw [List.cons_append, splitAt, if_neg (Ne.symm h.1), hparts]

theorem takeWhile_append_cons (a b : Text) :
    (a ++ separator :: b).takeWhile (· != separator) = a.takeWhile (· != separator) := by
  induction a with
  | nil => simp
  | cons c a ih => by_cases hc : c = separator <;> simp [hc, ih]

theorem splitOnce?_eq_some_iff {text : Text} :
    splitOnce? separator text = some (a, b) ↔ text = a ++ separator :: b ∧ separator ∉ a := by
  rw [splitOnce?, List.span_eq_takeWhile_dropWhile]
  constructor
  · intro h
    split at h
    · rename_i before c after hparts
      obtain ⟨rfl, rfl⟩ := Prod.mk.inj (Option.some.inj h)
      obtain ⟨hbefore, hafter⟩ := Prod.mk.inj hparts
      have hc : c = separator := by
        have hhead := List.head?_dropWhile_not (· != separator) text
        rw [hafter] at hhead
        simpa using hhead
      refine ⟨?_, fun hmem => ?_⟩
      · rw [← hc, ← hbefore, ← hafter, List.takeWhile_append_dropWhile]
      · rw [← hbefore] at hmem
        simpa using List.mem_takeWhile_imp hmem
    · cases h
  · rintro ⟨rfl, hmem⟩
    have hall : ∀ c ∈ a, (c != separator) = true := fun c hc =>
      bne_iff_ne.2 (ne_of_mem_of_not_mem hc hmem)
    rw [List.takeWhile_append_of_pos hall, List.dropWhile_append_of_pos hall]
    simp

theorem splitOnce?_append_cons (a b : Text) :
    ∃ after, splitOnce? separator (a ++ separator :: b) =
      some (a.takeWhile (· != separator), after) := by
  cases hd : (a ++ separator :: b).dropWhile (· != separator) with
  | nil => simpa using List.dropWhile_eq_nil_iff.1 hd separator (by simp)
  | cons d after =>
      exact ⟨after, by
        rw [splitOnce?, List.span_eq_takeWhile_dropWhile, hd, takeWhile_append_cons]⟩

theorem splitOnce?_eq_none (h : separator ∉ a) : splitOnce? separator a = none := by
  have hall : ∀ c ∈ a, (c != separator) = true := fun c hc =>
    bne_iff_ne.2 (ne_of_mem_of_not_mem hc h)
  rw [splitOnce?, List.span_eq_takeWhile_dropWhile, List.dropWhile_eq_nil_iff.2 hall]

/-- What is put into a text without a separator goes into one of its parts. -/
theorem exists_splitAt_append (separator : Char) (a b : Text) :
    ∃ front first last back, ∀ m, separator ∉ m →
      splitAt separator (a ++ (m ++ b)) = front ++ (first ++ (m ++ last)) :: back := by
  induction a with
  | nil =>
      by_cases hb : separator ∈ b
      · obtain ⟨last, b, rfl, hlast⟩ := List.eq_append_cons_of_mem hb
        refine ⟨[], [], last, splitAt separator b, fun m hm => ?_⟩
        have hpart : separator ∉ m ++ last := by simp [hm, hlast]
        rw [List.nil_append, ← List.append_assoc, splitAt_append_cons hpart]
        rfl
      · refine ⟨[], [], b, [], fun m hm => ?_⟩
        have hpart : separator ∉ m ++ b := by simp [hm, hb]
        rw [List.nil_append, splitAt_of_not_mem hpart]
        rfl
  | cons c a ih =>
      obtain ⟨front, first, last, back, h⟩ := ih
      by_cases hc : c = separator
      · refine ⟨[] :: front, first, last, back, fun m hm => ?_⟩
        rw [List.cons_append, splitAt, if_pos hc, h m hm, List.cons_append]
      · cases front with
        | nil =>
            refine ⟨[], c :: first, last, back, fun m hm => ?_⟩
            rw [List.cons_append, splitAt, if_neg hc, h m hm]
            rfl
        | cons part front =>
            refine ⟨(c :: part) :: front, first, last, back, fun m hm => ?_⟩
            rw [List.cons_append, splitAt, if_neg hc, h m hm]
            rfl

end

theorem subset_of_mem_splitAt {separator : Char} {text part : Text}
    (h : part ∈ splitAt separator text) : part ⊆ text := by
  induction text generalizing part with
  | nil => simp_all [splitAt]
  | cons c text ih =>
      rw [splitAt] at h
      split at h
      · rcases List.mem_cons.1 h with rfl | h
        · simp
        · exact fun x hx => List.mem_cons_of_mem c (ih h hx)
      · split at h
        · rename_i hparts
          exact absurd hparts (splitAt_ne_nil _ _)
        · rename_i first parts hparts
          rcases List.mem_cons.1 h with rfl | h
          · exact List.cons_subset_cons c (ih (by simp [hparts]))
          · exact fun x hx => List.mem_cons_of_mem c (ih (by simp [hparts, h]) hx)

theorem trimWhile_sublist_dropWhile (p : Char → Bool) (text : Text) :
    (trimWhile p text).Sublist (text.dropWhile p) := by
  rw [← List.reverse_sublist, trimWhile, List.reverse_reverse]
  exact List.dropWhile_sublist p

theorem trimWhile_sublist (p : Char → Bool) (text : Text) : (trimWhile p text).Sublist text :=
  (trimWhile_sublist_dropWhile p text).trans (List.dropWhile_sublist p)

theorem trimWhile_subset (p : Char → Bool) (text : Text) : trimWhile p text ⊆ text :=
  (trimWhile_sublist p text).subset

theorem dropWhile_eq_self_iff_head? {p : Char → Bool} {text : Text} :
    text.dropWhile p = text ↔ ∀ c ∈ text.head?, p c = false := by
  cases text with
  | nil => simp
  | cons x text => simp [List.dropWhile_eq_self_iff]

/-- A text needs no trimming exactly if neither of its ends would be trimmed. -/
theorem trimWhile_eq_self_iff {p : Char → Bool} {text : Text} :
    trimWhile p text = text ↔
      (∀ c ∈ text.head?, p c = false) ∧ ∀ c ∈ text.getLast?, p c = false := by
  rw [← List.head?_reverse, ← dropWhile_eq_self_iff_head?, ← dropWhile_eq_self_iff_head?]
  constructor
  · intro h
    have hfront : text.dropWhile p = text := by
      have hback : (trimWhile p text).Sublist (text.dropWhile p) :=
        trimWhile_sublist_dropWhile p text
      exact (List.dropWhile_sublist p).eq_of_length_le (h ▸ hback).length_le
    refine ⟨hfront, ?_⟩
    rw [trimWhile, hfront] at h
    rw [← List.reverse_inj, h, List.reverse_reverse]
  · rintro ⟨hfront, hback⟩
    rw [trimWhile, hfront, hback, List.reverse_reverse]

theorem trimWhile_eq_self_of_not_mem {c : Char} {text : Text} (h : c ∉ text) :
    trimWhile (· == c) text = text := by
  have hne : ∀ x ∈ text, (x == c) = false := fun x hx => beq_false_of_ne fun hxc => h (hxc ▸ hx)
  exact trimWhile_eq_self_iff.2 ⟨fun x hx => hne x (List.mem_of_mem_head? hx),
    fun x hx => hne x (List.mem_of_getLast? hx)⟩

/-- A text is left by two trimmings exactly if it is left by each. -/
theorem trimWhile_trimWhile_eq_self_iff {p q : Char → Bool} {text : Text} :
    trimWhile q (trimWhile p text) = text ↔ trimWhile p text = text ∧ trimWhile q text = text := by
  constructor
  · intro h
    have hp : trimWhile p text = text :=
      (trimWhile_sublist p text).eq_of_length_le (by
        have := (trimWhile_sublist q (trimWhile p text)).length_le
        rwa [h] at this)
    exact ⟨hp, by rwa [hp] at h⟩
  · rintro ⟨hp, hq⟩
    rw [hp, hq]

/-- Trimming keeps the characters that are not trimmed. -/
theorem mem_trimWhile {p : Char → Bool} {text : Text} {c : Char} (hc : p c = false)
    (h : c ∈ text) : c ∈ trimWhile p text := by
  have hdrop : ∀ {text : Text}, c ∈ text → c ∈ text.dropWhile p := by
    intro text h
    rw [← List.takeWhile_append_dropWhile (p := p) (l := text), List.mem_append] at h
    refine h.resolve_left fun htake => ?_
    rw [List.mem_takeWhile_imp htake] at hc
    cases hc
  rw [trimWhile, List.mem_reverse]
  exact hdrop (List.mem_reverse.2 (hdrop h))

/-- A trimmed character is taken away at any length, unless it stays within the text. -/
theorem trimWhile_double {p : Char → Bool} {c : Char} (hc : p c = true) (a b : Text) :
    trimWhile p (a ++ c :: c :: b) = trimWhile p (a ++ c :: b) ∨
      c ∈ trimWhile p (a ++ c :: b) := by
  have hdrop : ∀ r, (c :: r).dropWhile p = r.dropWhile p := fun r => List.dropWhile_cons_of_pos hc
  have hfront : ∀ r, (a ++ c :: r).dropWhile p =
      if (a.dropWhile p).isEmpty then r.dropWhile p else a.dropWhile p ++ c :: r := by
    intro r
    rw [List.dropWhile_append, hdrop]
  rw [trimWhile, trimWhile, hfront, hfront]
  split
  · left
    rw [hdrop]
  · have hback : ∀ r, (b.reverse ++ c :: r).dropWhile p =
        if (b.reverse.dropWhile p).isEmpty then r.dropWhile p
          else b.reverse.dropWhile p ++ c :: r := by
      intro r
      rw [List.dropWhile_append, hdrop]
    simp only [List.reverse_append, List.reverse_cons, List.append_assoc, List.cons_append,
      List.nil_append]
    rw [hback, hback]
    split
    · left
      rw [hdrop]
    · right
      simp

/-- Trimming takes away what was put around a text. -/
theorem trimWhile_append {p : Char → Bool} {a b : Text} (ha : ∀ c ∈ a, p c = true)
    (hb : ∀ c ∈ b, p c = true) (t : Text) : trimWhile p (a ++ (t ++ b)) = trimWhile p t := by
  rw [trimWhile, trimWhile, List.dropWhile_append_of_pos ha, List.dropWhile_append]
  split
  · rename_i ht
    rw [List.isEmpty_iff.1 ht, List.dropWhile_eq_nil_iff.2 hb]
  · rw [List.reverse_append, List.dropWhile_append_of_pos (by simpa using hb)]

/-! ## Joining -/

theorem join_cons (separator first : Text) (texts : List Text) :
    join separator (first :: texts) = first ++ texts.flatMap (separator ++ ·) := by
  induction texts generalizing first with
  | nil => simp [join]
  | cons next texts ih => simp [join, ih]

/-- Texts without separators are found again where they were joined. -/
theorem splitAt_join {separator : Char} {texts : List Text} (hne : texts ≠ [])
    (h : ∀ text ∈ texts, separator ∉ text) :
    splitAt separator (join [separator] texts) = texts := by
  induction texts with
  | nil => exact absurd rfl hne
  | cons text texts ih =>
      rw [List.forall_mem_cons] at h
      cases texts with
      | nil => exact splitAt_of_not_mem h.1
      | cons next texts =>
          have hjoin : join [separator] (text :: next :: texts) =
              text ++ separator :: join [separator] (next :: texts) := by
            simp [join]
          rw [hjoin, splitAt_append_cons h.1, ih (List.cons_ne_nil _ _) h.2]

end AccessRules.Text
