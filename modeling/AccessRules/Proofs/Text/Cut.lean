import AccessRules.Proofs.Text.Match

/-!
# Cutting a text into matches

A pattern that takes something off the text wherever it matches (`Consumes`) cuts a text into its
matches and the characters between them. What is found, what is erased and what is left is read off
that cut by induction (`Consumes.induction`). The characters that are left are those at whose byte
offsets no match is found (`leaves_eq_map_offsets`).
-/

namespace AccessRules.Text

/-! ## Lists that run beside a text -/

/-- The elements beside which a flag is set. -/
def select {α : Type} : List Bool → List α → List α
  | true :: flags, a :: as => a :: select flags as
  | false :: flags, _ :: as => select flags as
  | _, _ => []

/-- The byte offsets of the characters of a text that begins at `offset`. -/
def offsetsFrom (offset : Nat) : Text → List Nat
  | [] => []
  | x :: text => offset :: offsetsFrom (offset + x.utf8Size) text

/-- The byte offsets of the characters of a text. -/
def offsets (text : Text) : List Nat :=
  offsetsFrom 0 text

section

variable {α : Type}

@[simp] theorem select_nil (as : List α) : select [] as = [] := by
  cases as <;> rfl

theorem select_append {flags flags' : List Bool} {as bs : List α}
    (h : flags.length = as.length) :
    select (flags ++ flags') (as ++ bs) = select flags as ++ select flags' bs := by
  induction flags generalizing as with
  | nil => simp [List.length_eq_zero_iff.1 h.symm]
  | cons flag flags ih =>
      cases as with
      | nil => cases h
      | cons a as =>
          have := @ih as (by simpa using h)
          cases flag <;> simp [select, this]

theorem select_replicate_false (as : List α) (n : Nat) :
    select (List.replicate n false) as = [] := by
  induction n generalizing as with
  | zero => simp
  | succ n ih => cases as <;> simp [List.replicate_succ, select, ih]

theorem length_select_congr {β : Type} (flags : List Bool) {as : List α} {bs : List β}
    (h : as.length = bs.length) : (select flags as).length = (select flags bs).length := by
  induction flags generalizing as bs with
  | nil => simp
  | cons flag flags ih =>
      cases as with
      | nil => simp [List.length_eq_zero_iff.1 h.symm, select]
      | cons a as =>
          cases bs with
          | nil => cases h
          | cons b bs =>
              have := @ih as bs (by simpa using h)
              cases flag <;> simp [select, this]

theorem select_map {β : Type} (f : α → β) (flags : List Bool) (as : List α) :
    select flags (as.map f) = (select flags as).map f := by
  induction flags generalizing as with
  | nil => simp
  | cons flag flags ih =>
      cases as with
      | nil => cases flag <;> rfl
      | cons a as => cases flag <;> simp [select, ih]

/-- Selecting twice is selecting what is selected both times. -/
theorem select_select (flags more : List Bool) (as : List α) :
    select (select flags more) (select flags as) =
      select (List.zipWith (· && ·) flags more) as := by
  induction flags generalizing more as with
  | nil => simp
  | cons flag flags ih =>
      cases more with
      | nil => cases flag <;> cases as <;> simp [select]
      | cons m more =>
          cases as with
          | nil => cases flag <;> cases m <;> simp [select]
          | cons a as => cases flag <;> cases m <;> simp [select, ih]

theorem select_sublist (flags : List Bool) (as : List α) : (select flags as).Sublist as := by
  induction flags generalizing as with
  | nil => simp
  | cons flag flags ih =>
      cases as with
      | nil => cases flag <;> simp [select]
      | cons a as =>
          cases flag with
          | true => exact (ih as).cons_cons a
          | false => exact (ih as).cons a

/-- Where no element occurs twice, the selected elements tell the flags. -/
theorem select_inj {flags flags' : List Bool} {as : List α} (has : as.Nodup)
    (h : flags.length = as.length) (h' : flags'.length = as.length) :
    select flags as = select flags' as ↔ flags = flags' := by
  refine ⟨fun heq => ?_, fun heq => by rw [heq]⟩
  induction as generalizing flags flags' with
  | nil => rw [List.length_eq_zero_iff.1 h, List.length_eq_zero_iff.1 h']
  | cons a as ih =>
      obtain ⟨ha, has⟩ := List.nodup_cons.1 has
      cases flags with
      | nil => cases h
      | cons f flags =>
          cases flags' with
          | nil => cases h'
          | cons f' flags' =>
              have hrest := @ih flags flags' has (by simpa using h) (by simpa using h')
              cases f <;> cases f'
              · rw [hrest heq]
              · exact absurd ((select_sublist flags as).subset (heq ▸ List.mem_cons_self)) ha
              · exact absurd ((select_sublist flags' as).subset (heq ▸ List.mem_cons_self)) ha
              · rw [hrest (List.cons.inj heq).2]

end

@[simp] theorem length_offsetsFrom (offset : Nat) (text : Text) :
    (offsetsFrom offset text).length = text.length := by
  induction text generalizing offset with
  | nil => rfl
  | cons x text ih => simp [offsetsFrom, ih]

theorem offsetsFrom_append (offset : Nat) (u v : Text) :
    offsetsFrom offset (u ++ v) =
      offsetsFrom offset u ++ offsetsFrom (offset + byteLength u) v := by
  induction u generalizing offset with
  | nil => rfl
  | cons x u ih => simp [offsetsFrom, ih, Nat.add_assoc]

theorem le_of_mem_offsetsFrom {offset o : Nat} {text : Text} (h : o ∈ offsetsFrom offset text) :
    offset ≤ o ∧ o < offset + byteLength text := by
  induction text generalizing offset with
  | nil => cases h
  | cons x text ih =>
      have hx := x.utf8Size_pos
      have hlen := byteLength_cons x text
      rcases List.mem_cons.1 h with rfl | h
      · omega
      · have := ih h
        omega

theorem nodup_offsetsFrom (offset : Nat) (text : Text) : (offsetsFrom offset text).Nodup := by
  induction text generalizing offset with
  | nil => exact List.nodup_nil
  | cons x text ih =>
      refine List.nodup_cons.2 ⟨fun h => ?_, ih _⟩
      have := x.utf8Size_pos
      have := (le_of_mem_offsetsFrom h).1
      omega

namespace Pattern

open Cursor

/-! ## Matches, and what they leave -/

/-- Whether `p` takes something off the text wherever it matches. -/
def Consumes (p : Pattern) : Prop :=
  ∀ u r d, p (between u r) = some d → ∃ w s, w ≠ [] ∧ r = w ++ s ∧ d = between (u ++ w) s

section

variable {p : Pattern}

/-- A text is its first match and what follows it, or one character and what follows it. -/
theorem Consumes.induction (hp : p.Consumes) {motive : Text → Text → Prop}
    (done : ∀ u, motive u [])
    (skip : ∀ u x r, p (between u (x :: r)) = none → motive (u ++ [x]) r → motive u (x :: r))
    (take : ∀ u w r, w ≠ [] → p (between u (w ++ r)) = some (between (u ++ w) r) →
      motive (u ++ w) r → motive u (w ++ r))
    (u r : Text) : motive u r := by
  generalize hn : r.length = n
  induction n using Nat.strongRecOn generalizing u r with
  | ind n ih =>
      cases r with
      | nil => exact done u
      | cons x r =>
          cases hm : p (between u (x :: r)) with
          | none => exact skip u x r hm (ih r.length (by simp [← hn]) _ _ rfl)
          | some d =>
              obtain ⟨w, s, hw, hr, rfl⟩ := hp u _ d hm
              rw [hr] at hm hn ⊢
              have hpos := List.length_pos_iff.2 hw
              exact take u w s hw hm (ih s.length (by simp [← hn]; omega) _ _ rfl)

theorem Consumes.eq_none (hp : p.Consumes) (u : Text) : p (between u []) = none := by
  cases h : p (between u []) with
  | none => rfl
  | some d =>
      obtain ⟨w, s, hw, hs, _⟩ := hp u [] d h
      exact absurd (List.append_eq_nil_iff.1 hs.symm).1 hw

theorem findAll_nil {u : Text} (h : p (between u []) = none) : findAll p (between u []) = [] := by
  rw [findAll, h]
  simp [next?]

theorem findAll_skip {u r : Text} {x : Char} (h : p (between u (x :: r)) = none) :
    findAll p (between u (x :: r)) = findAll p (between (u ++ [x]) r) := by
  have hnext := next?_between_cons u r x
  rw [findAll, h]
  dsimp only
  split
  · rename_i hn
    rw [hn] at hnext
    cases hnext
  · rename_i d hd
    rw [hd, Option.some.injEq] at hnext
    rw [hnext]

theorem findAll_take {u w r : Text} (hw : w ≠ [])
    (h : p (between u (w ++ r)) = some (between (u ++ w) r)) :
    findAll p (between u (w ++ r)) =
      (between u (w ++ r), between (u ++ w) r) :: findAll p (between (u ++ w) r) := by
  have := List.length_pos_iff.2 hw
  rw [findAll, h]
  simp [show r.length < w.length + r.length by omega]

theorem erase_nil (u : Text) : erase p (between u []) = [] := by
  rw [erase]
  simp

theorem erase_skip {u r : Text} {x : Char} (h : p (between u (x :: r)) = none) :
    erase p (between u (x :: r)) = x :: erase p (between (u ++ [x]) r) := by
  rw [erase]
  split
  · simp_all
  · rename_i y s hs
    simp only [rest_between, List.cons.injEq] at hs
    obtain ⟨rfl, rfl⟩ := hs
    simp [h]

theorem erase_take {u w r : Text} (hw : w ≠ [])
    (h : p (between u (w ++ r)) = some (between (u ++ w) r)) :
    erase p (between u (w ++ r)) = erase p (between (u ++ w) r) := by
  have hpos := List.length_pos_iff.2 hw
  rw [erase]
  split
  · simp_all
  · simp only [h, rest_between, List.length_append]
    rw [if_pos (by omega)]

/-- Which characters from a place on the matches of `p` leave. -/
def leaves (p : Pattern) (c : Cursor) : List Bool :=
  match _ : c.rest with
  | [] => []
  | x :: rest =>
    match p c with
    | some e =>
      if e.rest.length < c.rest.length then
        List.replicate (c.rest.length - e.rest.length) false ++ leaves p e
      else true :: leaves p (c.past x rest)
    | none => true :: leaves p (c.past x rest)
termination_by c.rest.length
decreasing_by
  · assumption
  · simp [Cursor.past, *]
  · simp [Cursor.past, *]

theorem leaves_nil (u : Text) : leaves p (between u []) = [] := by
  rw [leaves]
  simp

theorem leaves_skip {u r : Text} {x : Char} (h : p (between u (x :: r)) = none) :
    leaves p (between u (x :: r)) = true :: leaves p (between (u ++ [x]) r) := by
  rw [leaves]
  split
  · simp_all
  · rename_i y s hs
    simp only [rest_between, List.cons.injEq] at hs
    obtain ⟨rfl, rfl⟩ := hs
    simp [h]

theorem leaves_take {u w r : Text} (hw : w ≠ [])
    (h : p (between u (w ++ r)) = some (between (u ++ w) r)) :
    leaves p (between u (w ++ r)) =
      List.replicate w.length false ++ leaves p (between (u ++ w) r) := by
  have hpos := List.length_pos_iff.2 hw
  rw [leaves]
  split
  · simp_all
  · simp only [h, rest_between, List.length_append]
    rw [if_pos (by omega), Nat.add_sub_cancel]

theorem leaves_of_misses {u w r : Text} (h : Misses p u w r) :
    leaves p (between u (w ++ r)) =
      List.replicate w.length true ++ leaves p (between (u ++ w) r) := by
  induction w generalizing u with
  | nil => simp
  | cons x w ih =>
      rw [List.cons_append, leaves_skip h.1, ih h.2, List.append_assoc]
      rfl

/-- Erasing the matches selects what they leave. -/
theorem Consumes.erase_eq_select (hp : p.Consumes) (u r : Text) :
    erase p (between u r) = select (leaves p (between u r)) r := by
  induction u, r using hp.induction with
  | done u => simp [erase_nil, leaves_nil]
  | skip u x r h ih => rw [erase_skip h, leaves_skip h, ih, select]
  | take u w r hw h ih =>
      rw [erase_take hw h, leaves_take hw h, ih, select_append (by simp), select_replicate_false,
        List.nil_append]

/-- Every match is found at the place where the search begins or behind it. -/
theorem Consumes.le_of_mem_findAll (hp : p.Consumes) {u r : Text} {c d : Cursor}
    (h : (c, d) ∈ findAll p (between u r)) : byteLength u ≤ c.offset := by
  induction u, r using hp.induction with
  | done u => simp [findAll_nil (hp.eq_none u)] at h
  | skip u x r hx ih =>
      have := ih (findAll_skip hx ▸ h)
      rw [byteLength_append] at this
      omega
  | take u w r hw hm ih =>
      rw [findAll_take hw hm, List.mem_cons] at h
      rcases h with h | h
      · rw [Prod.mk.injEq] at h
        exact h.1 ▸ Nat.le_refl _
      · have := ih h
        rw [byteLength_append] at this
        omega

/-- Whatever is found is a match in the text. -/
theorem Consumes.exists_of_mem_findAll (hp : p.Consumes) {u r : Text} {c d : Cursor}
    (h : (c, d) ∈ findAll p (between u r)) :
    ∃ a w s, r = a ++ (w ++ s) ∧ c = between (u ++ a) (w ++ s) ∧
      d = between (u ++ a ++ w) s ∧ p c = some d := by
  induction u, r using hp.induction with
  | done u => simp [findAll_nil (hp.eq_none u)] at h
  | skip u x r hx ih =>
      obtain ⟨a, w, s, rfl, rfl, rfl, hm⟩ := ih (findAll_skip hx ▸ h)
      exact ⟨x :: a, w, s, by simp, by simp, by simp, hm⟩
  | take u w r hw hm ih =>
      rw [findAll_take hw hm, List.mem_cons] at h
      rcases h with h | h
      · obtain ⟨rfl, rfl⟩ := Prod.mk.inj h
        exact ⟨[], w, r, by simp, by simp, by simp, hm⟩
      · obtain ⟨a, w', s, rfl, rfl, rfl, hm'⟩ := ih h
        exact ⟨w ++ a, w', s, by simp, by simp, by simp, hm'⟩

/-- Whatever is found ends within the text. -/
theorem Consumes.stop_le_of_mem_findAll (hp : p.Consumes) {text : Text} {c d : Cursor}
    (h : (c, d) ∈ findAll p (start text)) : d.offset ≤ byteLength text := by
  rw [start_eq_between] at h
  obtain ⟨a, w, s, rfl, rfl, rfl, -⟩ := hp.exists_of_mem_findAll h
  simp only [offset_between, byteLength_append, byteLength_nil]
  omega

/-- What is left stands at the byte offsets that no match covers. -/
theorem Consumes.leaves_eq_map_offsets (hp : p.Consumes) (u r : Text) :
    leaves p (between u r) = (offsetsFrom (byteLength u) r).map fun o =>
      !(findAll p (between u r)).any fun m => m.1.offset ≤ o && o < m.2.offset := by
  induction u, r using hp.induction with
  | done u => simp [leaves_nil, offsetsFrom]
  | skip u x r h ih =>
      rw [leaves_skip h, findAll_skip h, ih, offsetsFrom, List.map_cons]
      congr 1
      · have hx := x.utf8Size_pos
        refine (Bool.not_eq_true' _ ▸ List.any_eq_false.2 fun m hm => ?_ : _ = true).symm
        have := hp.le_of_mem_findAll hm
        rw [byteLength_concat] at this
        simp only [Bool.and_eq_true, decide_eq_true_eq, not_and]
        omega
      · rw [byteLength_concat]
  | take u w r hw h ih =>
      rw [leaves_take hw h, findAll_take hw h, ih, offsetsFrom_append, List.map_append]
      congr 1
      · refine (List.eq_replicate_iff.2 ⟨by simp, fun b hb => ?_⟩).symm
        obtain ⟨o, ho, rfl⟩ := List.mem_map.1 hb
        have := le_of_mem_offsetsFrom ho
        simp only [List.any_cons, offset_between, byteLength_append]
        simp [this.1, this.2]
      · rw [← byteLength_append]
        refine List.map_congr_left fun o ho => ?_
        have hfar : ¬ o < byteLength (u ++ w) := Nat.not_lt.2 (le_of_mem_offsetsFrom ho).1
        simp only [List.any_cons, offset_between, hfar, decide_false, Bool.and_false,
          Bool.false_or]

/-- Where nothing matches, nothing is found and nothing is erased. -/
theorem findAll_eq_nil {u r : Text} (h : Misses p u r []) (hend : p (between (u ++ r) []) = none) :
    findAll p (between u r) = [] := by
  induction r generalizing u with
  | nil => exact findAll_nil (by simpa using hend)
  | cons x r ih =>
      rw [findAll_skip (by simpa using h.1)]
      exact ih h.2 (by simpa using hend)

theorem erase_eq_self {u r : Text} (h : Misses p u r []) : erase p (between u r) = r := by
  induction r generalizing u with
  | nil => exact erase_nil u
  | cons x r ih => rw [erase_skip (by simpa using h.1), ih h.2]

end

end Pattern

end AccessRules.Text
