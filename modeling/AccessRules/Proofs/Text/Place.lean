import AccessRules.Text.Cursor

/-!
# Places between two parts of a text

Every place that a search visits lies between the part of the text that is done and the rest. The
lemmas here move such a place and split the text that a search passes over. A search passes over a
part of the text exactly if it finds nothing at each place in it (`Misses`).
-/

namespace AccessRules.Text

/-- What is said of every character of a text is decided along the text. -/
instance (priority := high) decidableForallMem (P : Char → Prop) [DecidablePred P]
    (text : List Char) : Decidable (∀ x ∈ text, P x) :=
  List.decidableBAll P text

@[simp] theorem byteLength_nil : byteLength [] = 0 := rfl

@[simp] theorem byteLength_cons (x : Char) (v : Text) :
    byteLength (x :: v) = x.utf8Size + byteLength v := rfl

@[simp] theorem byteLength_append (u v : Text) :
    byteLength (u ++ v) = byteLength u + byteLength v := by
  induction u with
  | nil => simp
  | cons x u ih => simp [ih, Nat.add_assoc]

theorem byteLength_concat (v : Text) (x : Char) :
    byteLength (v ++ [x]) = byteLength v + x.utf8Size := by
  simp

theorem byteLength_pos {v : Text} (h : v ≠ []) : 0 < byteLength v := by
  cases v with
  | nil => exact absurd rfl h
  | cons x v =>
      have := x.utf8Size_pos
      rw [byteLength_cons]
      omega

/-- Of two places in one text, the one with fewer characters before it has the lesser offset. -/
theorem byteLength_lt_of_length_lt {u r v s : Text} (h : u ++ r = v ++ s)
    (hlt : u.length < v.length) : byteLength u < byteLength v := by
  obtain ⟨a, rfl⟩ : u <+: v :=
    List.prefix_of_prefix_length_le ⟨r, h⟩ ⟨s, rfl⟩ (Nat.le_of_lt hlt)
  have ha : a ≠ [] := by
    rintro rfl
    simp at hlt
  have := byteLength_pos ha
  rw [byteLength_append]
  omega

/-- A place between the ends of a part of a text, told by its byte offset, cuts that part. -/
theorem exists_append_of_byteLength {u v x b y : Text} (h : u ++ v = x ++ (b ++ y))
    (hlo : byteLength x ≤ byteLength u) (hhi : byteLength u ≤ byteLength x + byteLength b) :
    ∃ b₁ b₂, b = b₁ ++ b₂ ∧ u = x ++ b₁ ∧ v = b₂ ++ y := by
  have hnil : ∀ {w : Text}, byteLength w = 0 → w = [] := by
    intro w hw
    cases w with
    | nil => rfl
    | cons c w => exact absurd hw (Nat.ne_of_gt (byteLength_pos (by simp)))
  rcases List.append_eq_append_iff.1 h with ⟨a, rfl, rfl⟩ | ⟨a, rfl, ha⟩
  · rw [byteLength_append] at hlo
    obtain rfl := hnil (w := a) (by omega)
    exact ⟨[], b, rfl, by simp, rfl⟩
  · rcases List.append_eq_append_iff.1 ha with ⟨e, rfl, rfl⟩ | ⟨e, rfl, rfl⟩
    · rw [byteLength_append, byteLength_append] at hhi
      obtain rfl := hnil (w := e) (by omega)
      exact ⟨b, [], by simp, by simp, rfl⟩
    · exact ⟨a, e, rfl, rfl, rfl⟩

namespace Cursor

/-- The place between two parts of a text. -/
def between (done rest : Text) : Cursor :=
  ⟨byteLength done, done.getLast?, rest⟩

theorem start_eq_between (text : Text) : start text = between [] text := rfl

@[simp] theorem rest_between (u r : Text) : (between u r).rest = r := rfl

@[simp] theorem offset_between (u r : Text) : (between u r).offset = byteLength u := rfl

@[simp] theorem before_between (u r : Text) : (between u r).before = u.getLast? := rfl

@[simp] theorem past_between (u r s : Text) (x : Char) :
    (between u r).past x s = between (u ++ [x]) s := by
  simp [past, between]

theorem next?_between_cons (u r : Text) (x : Char) :
    (between u (x :: r)).next? = some (between (u ++ [x]) r) := by
  simp [next?]

theorem skipWhile_between (p : Char → Bool) (u r : Text) :
    (between u r).skipWhile p = between (u ++ r.takeWhile p) (r.dropWhile p) := by
  suffices h : ∀ u, skipWhile.go p (byteLength u) u.getLast? r
      = between (u ++ r.takeWhile p) (r.dropWhile p) from h u
  induction r with
  | nil => intro u; simp [skipWhile.go, between]
  | cons x r ih =>
      intro u
      by_cases hx : p x = true
      · have := ih (u ++ [x])
        simp only [byteLength_append, List.getLast?_concat] at this
        simpa [skipWhile.go, hx] using this
      · simp [skipWhile.go, hx, between]

/-- Exactly the characters that satisfy `p` are passed. -/
theorem skipWhile_append {p : Char → Bool} {u w r : Text} (hw : ∀ c ∈ w, p c = true)
    (hr : ∀ c ∈ r.head?, p c = false) :
    (between u (w ++ r)).skipWhile p = between (u ++ w) r := by
  have hnil : r.takeWhile p = [] ∧ r.dropWhile p = r := by
    cases r with
    | nil => simp
    | cons x r => simp [hr x (by simp)]
  rw [skipWhile_between, List.takeWhile_append_of_pos hw, List.dropWhile_append_of_pos hw,
    hnil.1, hnil.2, List.append_nil]

theorem exists_of_skipWhile (p : Char → Bool) (u r : Text) :
    ∃ w s, r = w ++ s ∧ (∀ c ∈ w, p c = true) ∧ (∀ c ∈ s.head?, p c = false) ∧
      (between u r).skipWhile p = between (u ++ w) s := by
  refine ⟨r.takeWhile p, r.dropWhile p, List.takeWhile_append_dropWhile.symm,
    List.all_eq_true.1 List.all_takeWhile, ?_, skipWhile_between p u r⟩
  intro c hc
  cases h : r.dropWhile p with
  | nil => simp [h] at hc
  | cons x s =>
      simp only [h, List.head?_cons, Option.mem_some_iff] at hc
      subst hc
      simpa [h] using List.head_dropWhile_not p (l := r) (by simp [h])

/-! ## Searching -/

variable {α : Type} {scan : Cursor → Option α}

/-- `scan` finds nothing at the places in `word`, which stands behind `done` and before `rest`. -/
def Misses (scan : Cursor → Option α) : (done word rest : Text) → Prop
  | _, [], _ => True
  | done, x :: word, rest =>
    scan (between done (x :: (word ++ rest))) = none ∧ Misses scan (done ++ [x]) word rest

instance decidableMisses : (done word rest : Text) → Decidable (Misses scan done word rest)
  | _, [], _ => .isTrue trivial
  | done, x :: word, rest =>
    have := decidableMisses (done ++ [x]) word rest
    inferInstanceAs (Decidable (scan (between done (x :: (word ++ rest))) = none ∧
      Misses scan (done ++ [x]) word rest))

theorem misses_append {u v w r : Text} :
    Misses scan u (v ++ w) r ↔ Misses scan u v (w ++ r) ∧ Misses scan (u ++ v) w r := by
  induction v generalizing u with
  | nil => simp [Misses]
  | cons x v ih => simp [Misses, ih, and_assoc]

/-- A search misses a part of a text if it misses every part of it that is not empty. -/
theorem misses_of_forall {u w r : Text}
    (h : ∀ v x s, w = v ++ x :: s → scan (between (u ++ v) (x :: s ++ r)) = none) :
    Misses scan u w r := by
  induction w generalizing u with
  | nil => trivial
  | cons x w ih =>
      refine ⟨by simpa using h [] x w rfl, ih fun v y s hw => ?_⟩
      simpa using h (x :: v) y s (by simp [hw])

theorem Misses.eq_none {u w r v s : Text} (h : Misses scan u w r) (hw : w = v ++ s)
    (hs : s ≠ []) : scan (between (u ++ v) (s ++ r)) = none := by
  subst hw
  cases s with
  | nil => exact absurd rfl hs
  | cons x s => exact (misses_append.1 h).2.1

/-- A search that misses whatever another one misses. -/
theorem Misses.mono {β : Type} {scan' : Cursor → Option β} {u w r : Text}
    (h : Misses scan u w r) (himp : ∀ c, scan c = none → scan' c = none) :
    Misses scan' u w r := by
  induction w generalizing u with
  | nil => trivial
  | cons x w ih => exact ⟨himp _ h.1, ih h.2⟩

theorem findFirst_of_eq_some {c : Cursor} {a : α} (h : scan c = some a) :
    c.findFirst scan = some (c, a) := by
  rw [findFirst, h]

theorem findFirst_of_next? {c d : Cursor} (h : scan c = none) (hnext : c.next? = some d) :
    c.findFirst scan = d.findFirst scan := by
  rw [findFirst, h]
  dsimp only
  split
  · rename_i hn
    rw [hn] at hnext
    cases hnext
  · rename_i e he
    rw [he, Option.some.injEq] at hnext
    rw [hnext]

theorem findFirst_of_end {c : Cursor} (h : scan c = none) (hend : c.next? = none) :
    c.findFirst scan = none := by
  rw [findFirst, h]
  dsimp only
  split
  · rfl
  · rename_i e he
    rw [he] at hend
    cases hend

theorem findFirst_cons {u r : Text} {x : Char} (h : scan (between u (x :: r)) = none) :
    (between u (x :: r)).findFirst scan = (between (u ++ [x]) r).findFirst scan :=
  findFirst_of_next? h (next?_between_cons u r x)

theorem findFirst_nil {u : Text} (h : scan (between u []) = none) :
    (between u []).findFirst scan = none :=
  findFirst_of_end h rfl

theorem findFirst_of_misses {u w r : Text} (h : Misses scan u w r) :
    (between u (w ++ r)).findFirst scan = (between (u ++ w) r).findFirst scan := by
  induction w generalizing u with
  | nil => simp
  | cons x w ih =>
      rw [List.cons_append, findFirst_cons h.1, ih h.2, List.append_assoc, List.singleton_append]

theorem findFirst_eq_none {u w : Text} (h : Misses scan u w [])
    (hend : scan (between (u ++ w) []) = none) : (between u w).findFirst scan = none := by
  have := findFirst_of_misses h
  rw [List.append_nil] at this
  rw [this, findFirst_nil hend]

/-- A search gives the first place at which something is found. -/
theorem exists_of_findFirst {u r : Text} {c : Cursor} {a : α}
    (h : (between u r).findFirst scan = some (c, a)) :
    ∃ w s, r = w ++ s ∧ Misses scan u w s ∧ c = between (u ++ w) s ∧ scan c = some a := by
  induction r generalizing u with
  | nil =>
      cases hs : scan (between u []) with
      | none => simp [findFirst_nil hs] at h
      | some b =>
          rw [findFirst_of_eq_some hs, Option.some.injEq, Prod.mk.injEq] at h
          obtain ⟨rfl, rfl⟩ := h
          exact ⟨[], [], rfl, trivial, by simp, hs⟩
  | cons x r ih =>
      cases hs : scan (between u (x :: r)) with
      | none =>
          rw [findFirst_cons hs] at h
          obtain ⟨w, s, rfl, hw, rfl, ha⟩ := ih h
          refine ⟨x :: w, s, rfl, ⟨by simpa using hs, hw⟩, by simp, ha⟩
      | some b =>
          rw [findFirst_of_eq_some hs, Option.some.injEq, Prod.mk.injEq] at h
          obtain ⟨rfl, rfl⟩ := h
          exact ⟨[], x :: r, rfl, trivial, by simp, hs⟩

theorem findFirst_map {β : Type} (f : α → β) (c : Cursor) :
    (c.findFirst fun d => (scan d).map f) = (c.findFirst scan).map fun found =>
      (found.1, f found.2) := by
  fun_induction findFirst scan c with
  | case1 c a ha => rw [findFirst_of_eq_some (a := f a) (by rw [ha]; rfl)]; rfl
  | case2 c ha hend => rw [findFirst_of_end (by rw [ha]; rfl) hend]; rfl
  | case3 c ha d hd ih => rw [findFirst_of_next? (by rw [ha]; rfl) hd, ih]

/-- Two searches that find the same at every place of a text and behind it find the same. -/
theorem findFirst_congr {scan' : Cursor → Option α} {u u' w z z' : Text}
    (hw : ∀ a b, w = a ++ b → b ≠ [] →
      scan (between (u ++ a) (b ++ z)) = scan' (between (u' ++ a) (b ++ z')))
    (hz : ((between (u ++ w) z).findFirst scan).map (·.2) =
      ((between (u' ++ w) z').findFirst scan').map (·.2)) :
    ((between u (w ++ z)).findFirst scan).map (·.2) =
      ((between u' (w ++ z')).findFirst scan').map (·.2) := by
  induction w generalizing u u' with
  | nil => simpa using hz
  | cons x w ih =>
      have hx := hw [] (x :: w) rfl (by simp)
      rw [List.append_nil, List.append_nil, List.cons_append, List.cons_append] at hx
      rw [List.cons_append, List.cons_append]
      cases hs : scan (between u (x :: (w ++ z))) with
      | some a =>
          rw [findFirst_of_eq_some hs, findFirst_of_eq_some (hx ▸ hs)]
          rfl
      | none =>
          rw [findFirst_cons hs, findFirst_cons (hx ▸ hs)]
          refine ih (fun a b hab hb => ?_) (by simpa using hz)
          simpa using hw (x :: a) b (by simp [hab]) hb

/-- A search through a text and what follows it finds the first in the text, if there is one, or
else the first behind it. -/
theorem findFirst_append {scan' : Cursor → Option α} {u u' w z : Text}
    (h : ∀ a b, w = a ++ b → b ≠ [] →
      scan (between (u ++ a) (b ++ z)) = scan' (between (u' ++ a) b))
    (hend : scan' (between (u' ++ w) []) = none) :
    ((between u (w ++ z)).findFirst scan).map (·.2) =
      (((between u' w).findFirst scan').map (·.2)).or
        (((between (u ++ w) z).findFirst scan).map (·.2)) := by
  induction w generalizing u u' with
  | nil =>
      rw [List.append_nil] at hend
      rw [List.nil_append, List.append_nil, findFirst_nil hend, Option.map_none, Option.none_or]
  | cons x w ih =>
      have hx := h [] (x :: w) rfl (by simp)
      rw [List.append_nil, List.append_nil, List.cons_append] at hx
      rw [List.cons_append]
      cases hs : scan (between u (x :: (w ++ z))) with
      | some a =>
          rw [findFirst_of_eq_some hs, findFirst_of_eq_some (hx ▸ hs)]
          rfl
      | none =>
          rw [findFirst_cons hs, findFirst_cons (hx ▸ hs),
            @ih (u ++ [x]) (u' ++ [x]) (fun a b hab hb => ?_) (by simpa using hend)]
          · simp
          · simpa using h (x :: a) b (by simp [hab]) hb

/-- A search that finds nothing misses the whole text. -/
theorem misses_of_findFirst {u r : Text} (h : (between u r).findFirst scan = none) :
    Misses scan u r [] ∧ scan (between (u ++ r) []) = none := by
  induction r generalizing u with
  | nil =>
      cases hs : scan (between u []) with
      | none => exact ⟨trivial, by simpa using hs⟩
      | some b => simp [findFirst_of_eq_some hs] at h
  | cons x r ih =>
      cases hs : scan (between u (x :: r)) with
      | none =>
          obtain ⟨hr, hend⟩ := ih (findFirst_cons hs ▸ h)
          exact ⟨⟨by simpa using hs, hr⟩, by simpa using hend⟩
      | some b => simp [findFirst_of_eq_some hs] at h

theorem findFirst_eq_none_iff {u r : Text} : (between u r).findFirst scan = none ↔
    ∀ v s, r = v ++ s → scan (between (u ++ v) s) = none := by
  constructor
  · rintro h v s rfl
    obtain ⟨hmiss, hend⟩ := misses_of_findFirst h
    cases s with
    | nil => simpa using hend
    | cons x s => simpa using hmiss.eq_none (s := x :: s) rfl (by simp)
  · intro h
    refine findFirst_eq_none (misses_of_forall fun v x s hv => ?_) (h r [] (by simp))
    simpa using h v (x :: s) hv

/-- What is found stands at the first place at which something stands. -/
theorem findFirst_eq_some_iff {u r : Text} {c : Cursor} {a : α} :
    (between u r).findFirst scan = some (c, a) ↔ ∃ w s, r = w ++ s ∧ c = between (u ++ w) s ∧
      scan c = some a ∧ ∀ v t, r = v ++ t → v.length < w.length →
        scan (between (u ++ v) t) = none := by
  constructor
  · intro h
    obtain ⟨w, s, rfl, hmiss, rfl, ha⟩ := exists_of_findFirst h
    refine ⟨w, s, rfl, rfl, ha, fun v t hv hlt => ?_⟩
    obtain ⟨d, rfl, rfl⟩ : ∃ d, w = v ++ d ∧ t = d ++ s := by
      rcases List.append_eq_append_iff.1 hv with ⟨d, rfl, -⟩ | ⟨d, hd, ht⟩
      · rw [List.length_append] at hlt
        omega
      · exact ⟨d, hd, ht⟩
    refine hmiss.eq_none rfl ?_
    rintro rfl
    simp at hlt
  · rintro ⟨w, s, rfl, rfl, ha, hfirst⟩
    have hmiss : Misses scan u w s := misses_of_forall fun v x t hv =>
      hfirst v (x :: t ++ s) (by simp [hv]) (by simp [hv])
    rw [findFirst_of_misses hmiss, findFirst_of_eq_some ha]

end Cursor

end AccessRules.Text
