import AccessRules.Proofs.Source.Live

/-!
# Block comments, character by character

A place in a text is live, or it lies inside a block comment or in the middle of one of its two
marks (`Phase`). One character leads from the phase before it to the phase behind it; a mark only
begins a comment if another one ends it, so the step looks ahead (`Phase.next`). The places that are
not live are exactly those inside the matches of `blockComment`.
-/

namespace AccessRules.Source

open AccessRules.Text Cursor

/-! ## Phases -/

/-- Where a place lies. -/
inductive Phase where
  /-- Outside of block comments. -/
  | live
  /-- Between the characters of `/*`. -/
  | opening
  /-- Between `/*` and `*/`. -/
  | inside
  /-- Between the characters of `*/`. -/
  | closing
deriving DecidableEq, Repr

/-- Whether a block comment that is open ends in the text. -/
def closes : Text → Bool
  | [] => false
  | x :: text => (x == '*' && text.head? == some '/') || closes text

theorem closes_iff {text : Text} : closes text = true ↔ ['*', '/'] <:+: text := by
  induction text with
  | nil => simp [closes]
  | cons x text ih =>
      simp only [closes, Bool.or_eq_true, Bool.and_eq_true, beq_iff_eq, ih, List.infix_cons_iff]
      refine or_congr_left ⟨?_, ?_⟩
      · rintro ⟨rfl, h⟩
        cases text with
        | nil => cases h
        | cons y text =>
            simp only [List.head?_cons, Option.some.injEq] at h
            exact ⟨text, by simp [h]⟩
      · rintro ⟨t, ht⟩
        simp only [List.cons_append, List.nil_append, List.cons.injEq] at ht
        simp [← ht.1, ← ht.2]

theorem closes_eq_false_iff {text : Text} : closes text = false ↔ ¬ ['*', '/'] <:+: text := by
  rw [← closes_iff, Bool.not_eq_true]

theorem closes_append_left {v : Text} (u : Text) (h : closes v = true) :
    closes (u ++ v) = true :=
  closes_iff.2 ((closes_iff.1 h).trans (List.suffix_append u v).isInfix)

/-- A character that is part of no mark parts a text into two. -/
theorem closes_append_cons {x : Char} (hx : x ≠ '*' ∧ x ≠ '/') (u r : Text) :
    closes (u ++ x :: r) = (closes u || closes r) := by
  induction u with
  | nil => simp [closes, hx.1]
  | cons y u ih =>
      have hhead : ((u ++ x :: r).head? == some '/') = (u.head? == some '/') := by
        cases u with
        | nil => simp [hx.2]
        | cons z u => simp
      rw [List.cons_append, closes, closes, ih, hhead, Bool.or_assoc]

theorem closes_append_of_not_mem {u : Text} (h : '*' ∉ u) (v : Text) :
    closes (u ++ v) = closes v := by
  induction u with
  | nil => rfl
  | cons x u ih =>
      simp only [List.mem_cons, not_or] at h
      simp [closes, ih h.2, Ne.symm h.1]

theorem closes_eq_false {text : Text} (h : '*' ∉ text) : closes text = false := by
  have := closes_append_of_not_mem h []
  rwa [List.append_nil] at this

namespace Phase

/-- The phase behind the character `x`, where `rest` follows it. -/
def next (phase : Phase) (x : Char) (rest : Text) : Phase :=
  match phase with
  | live => if x = '/' ∧ rest.head? = some '*' ∧ closes rest.tail then opening else live
  | opening => inside
  | inside => if x = '*' ∧ rest.head? = some '/' then closing else inside
  | closing => live

/-- The phase behind `done`, where `rest` follows it. -/
def after (phase : Phase) : (done rest : Text) → Phase
  | [], _ => phase
  | x :: done, rest => (phase.next x (done ++ rest)).after done rest

@[simp] theorem after_nil (phase : Phase) (r : Text) : phase.after [] r = phase := rfl

theorem after_append (phase : Phase) (u v r : Text) :
    phase.after (u ++ v) r = (phase.after u (v ++ r)).after v r := by
  induction u generalizing phase with
  | nil => rfl
  | cons x u ih => simp only [List.cons_append, after, List.append_assoc, ih]

/-- What a phase promises about the text that follows. -/
def Fits : Phase → Text → Prop
  | live, _ => True
  | opening, rest => rest.head? = some '*' ∧ closes rest.tail = true
  | inside, rest => closes rest = true
  | closing, rest => rest.head? = some '/'

theorem Fits.next {phase : Phase} {x : Char} {rest : Text} (h : phase.Fits (x :: rest)) :
    (phase.next x rest).Fits rest := by
  cases phase with
  | live =>
      rw [Phase.next]
      split
      · rename_i hx
        exact hx.2
      · trivial
  | opening => exact h.2
  | inside =>
      simp only [Fits, closes, Bool.or_eq_true, Bool.and_eq_true, beq_iff_eq] at h
      rw [Phase.next]
      split
      · rename_i hx
        exact hx.2
      · rename_i hx
        exact h.resolve_left hx
  | closing => trivial

theorem Fits.after {phase : Phase} {u r : Text} (h : phase.Fits (u ++ r)) :
    (phase.after u r).Fits r := by
  induction u generalizing phase with
  | nil => exact h
  | cons x u ih => exact ih (Fits.next h)

theorem live_fits (r : Text) : live.Fits r := trivial

/-- Before a text that continues no mark, a place is live or inside a comment. -/
theorem Fits.eq_inside {phase : Phase} {r : Text} (h : phase.Fits r)
    (hr : ∀ c ∈ r.head?, c ≠ '*' ∧ c ≠ '/') (hlive : phase ≠ live) : phase = inside := by
  cases phase with
  | live => exact absurd rfl hlive
  | opening => exact absurd rfl (hr _ h.1).1
  | inside => rfl
  | closing => exact absurd rfl (hr _ h).2

theorem after_eq_live_or_inside {u r : Text} (hr : ∀ c ∈ r.head?, c ≠ '*' ∧ c ≠ '/') :
    live.after u r = live ∨ live.after u r = inside := by
  have hfits : (live.after u r).Fits r := (live_fits (u ++ r)).after
  by_cases hlive : live.after u r = live
  · exact .inl hlive
  · exact .inr (hfits.eq_inside hr hlive)

/-- Which characters lie in a block comment. -/
def marks (phase : Phase) : Text → List Bool
  | [] => []
  | x :: rest => (phase != live || phase.next x rest != live) :: (phase.next x rest).marks rest

@[simp] theorem length_marks (phase : Phase) (r : Text) : (phase.marks r).length = r.length := by
  induction r generalizing phase with
  | nil => rfl
  | cons x r ih => simp [marks, ih]

theorem exists_marks_append (phase : Phase) (w r : Text) :
    ∃ m, m.length = w.length ∧ phase.marks (w ++ r) = m ++ (phase.after w r).marks r := by
  induction w generalizing phase with
  | nil => exact ⟨[], rfl, rfl⟩
  | cons x w ih =>
      obtain ⟨m, hlen, hm⟩ := ih (phase.next x (w ++ r))
      exact ⟨_ :: m, by simp [hlen], by rw [List.cons_append, marks, hm]; rfl⟩

/-- A part of the text none of whose characters is live is marked throughout. -/
theorem marks_append {phase : Phase} {w r : Text}
    (h : ∀ u x v, w = u ++ x :: v →
      phase.after u (x :: v ++ r) ≠ live ∨ phase.after (u ++ [x]) (v ++ r) ≠ live) :
    phase.marks (w ++ r) = List.replicate w.length true ++ (phase.after w r).marks r := by
  induction w generalizing phase with
  | nil => rfl
  | cons x w ih =>
      have hx := h [] x w rfl
      have hw := @ih (phase.next x (w ++ r)) fun u y v hv => by
        simpa [after, hv] using h (x :: u) y v (by simp [hv])
      simp only [List.nil_append, after] at hx
      simp only [List.cons_append, marks, after, hw, List.length_cons, List.replicate_succ,
        List.cons.injEq, and_true, Bool.or_eq_true, bne_iff_ne]
      exact hx

/-! ## Block comments are where the phase is not live -/

/-- An open comment goes on as long as `*/` does not match. -/
theorem after_inside {u m r : Text} (h : Misses (Pattern.literal ['*', '/']) u m r) :
    inside.after m r = inside := by
  induction m generalizing u with
  | nil => rfl
  | cons x m ih =>
      have hx : ¬ (x = '*' ∧ (m ++ r).head? = some '/') := by
        rintro ⟨rfl, hhead⟩
        obtain ⟨t, ht⟩ := List.head?_eq_some_iff.1 hhead
        exact Pattern.literal_eq_none_iff.1 h.1 t (by simp [ht])
      rw [after, next, if_neg hx]
      exact ih h.2

section

variable {u m r : Text}

theorem after_open (m r : Text) :
    live.after ['/', '*'] (m ++ '*' :: '/' :: r) = inside := by
  have hclose : closes (m ++ '*' :: '/' :: r) = true :=
    closes_iff.2 ⟨m, r, by simp⟩
  simp [after, next, hclose]

variable (h : Misses (Pattern.literal ['*', '/']) (u ++ ['/', '*']) m ('*' :: '/' :: r))

include h

/-- Behind a block comment a place is live again. -/
theorem after_block : live.after ('/' :: '*' :: (m ++ ['*', '/'])) r = live := by
  have hopen : live.after ['/', '*'] ((m ++ ['*', '/']) ++ r) = inside := by
    simpa using after_open m r
  rw [show '/' :: '*' :: (m ++ ['*', '/']) = ['/', '*'] ++ (m ++ ['*', '/']) from rfl,
    after_append, hopen, after_append, List.cons_append, List.cons_append, List.nil_append,
    after_inside h]
  simp [after, next]

/-- Inside a block comment no place is live. -/
theorem after_part_of_block {a b : Text} (hab : '/' :: '*' :: (m ++ ['*', '/']) = a ++ b)
    (ha : a ≠ []) (hb : b ≠ []) : live.after a (b ++ r) ≠ live := by
  -- The place lies behind the first character of the opening mark, or behind the whole of it.
  rcases a with _ | ⟨x, _ | ⟨y, a⟩⟩
  · exact absurd rfl ha
  · obtain ⟨rfl, rfl⟩ := List.cons.inj hab
    have hclose : closes (m ++ '*' :: '/' :: r) = true := closes_iff.2 ⟨m, r, by simp⟩
    simp [after, next, hclose]
  · simp only [List.cons_append, List.cons.injEq] at hab
    obtain ⟨rfl, rfl, hab⟩ := hab
    have hrest : a ++ (b ++ r) = m ++ '*' :: '/' :: r := by
      rw [← List.append_assoc, ← hab]
      simp
    rw [show '/' :: '*' :: a = ['/', '*'] ++ a from rfl, after_append, hrest, after_open]
    rcases List.append_eq_append_iff.1 hab with ⟨t, rfl, ht⟩ | ⟨t, rfl, rfl⟩
    · rcases t with _ | ⟨z, _ | ⟨z', t⟩⟩
      · rw [List.nil_append] at ht
        subst ht
        rw [List.append_nil, List.cons_append, List.cons_append, List.nil_append, after_inside h]
        decide
      · obtain ⟨rfl, rfl⟩ := List.cons.inj ht
        rw [after_append, List.cons_append, List.nil_append, List.cons_append, List.nil_append,
          after_inside h]
        simp [after, next]
      · have hlen := congrArg List.length ht
        have := List.length_pos_iff.2 hb
        simp only [List.length_cons, List.length_nil, List.length_append] at hlen
        omega
    · rw [List.append_assoc, List.cons_append, List.cons_append, List.nil_append,
        after_inside (misses_append.1 h).1]
      decide

end

/-- Where no block comment begins, the next place is live as well. -/
theorem next_live {u r : Text} {x : Char} (h : blockComment (between u (x :: r)) = none) :
    live.next x r = live := by
  rw [next, if_neg]
  rintro ⟨rfl, hhead, hclose⟩
  obtain ⟨t, rfl⟩ := List.head?_eq_some_iff.1 hhead
  have hopen := Pattern.literal_append ['/', '*'] u t
  rw [List.cons_append, List.cons_append, List.nil_append] at hopen
  rw [blockComment, hopen, Option.bind_some] at h
  obtain ⟨d, hd⟩ := Pattern.exists_through_of_infix (u := u ++ ['/', '*']) (by simp)
    (closes_iff.1 hclose)
  cases h.symm.trans hd

/-- What block comments leave are the characters that are not marked. -/
theorem leaves_blockComment (u r : Text) :
    Pattern.leaves blockComment (between u r) = (live.marks r).map (!·) := by
  induction u, r using blockComment_consumes.induction with
  | done u => simp [Pattern.leaves_nil, marks]
  | skip u x r h ih => simp [Pattern.leaves_skip h, marks, next_live h, ih]
  | take u w r hw hm ih =>
      obtain ⟨m, rfl, hmiss⟩ := blockComment_text hm
      rw [Pattern.leaves_take hw hm, ih, marks_append, after_block hmiss, List.map_append,
        List.map_replicate, Bool.not_true]
      intro a x b hab
      rcases List.eq_nil_or_concat a with rfl | ⟨a', y, rfl⟩
      · right
        refine after_part_of_block hmiss hab (by simp) ?_
        rintro rfl
        simp at hab
      · left
        exact after_part_of_block hmiss hab (by simp) (by simp)

/-- A place lies strictly inside a block comment exactly if it is not live. -/
theorem inside_blockComment_iff (v a c : Text) :
    (∃ block ∈ Pattern.findAll blockComment (between v (a ++ c)),
      block.1.offset < byteLength (v ++ a) ∧ byteLength (v ++ a) < block.2.offset) ↔
      live.after a c ≠ live := by
  generalize ht : a ++ c = t
  induction v, t using blockComment_consumes.induction generalizing a with
  | done v =>
      obtain ⟨rfl, rfl⟩ := List.append_eq_nil_iff.1 ht
      simp [Pattern.findAll_nil (blockComment_consumes.eq_none v)]
  | skip v x r h ih =>
      rw [Pattern.findAll_skip h]
      rcases List.append_eq_cons_iff.1 ht with ⟨rfl, rfl⟩ | ⟨a, rfl, rfl⟩
      · simp only [List.append_nil, after_nil, ne_eq, not_true_eq_false, iff_false]
        rintro ⟨block, hblock, hlt, -⟩
        have := blockComment_consumes.le_of_mem_findAll hblock
        rw [byteLength_append] at this
        omega
      · rw [after, next_live h, ← ih a rfl, List.append_assoc, List.singleton_append]
  | take v w r hw hm ih =>
      obtain ⟨m, hwm, hmiss⟩ := blockComment_text hm
      simp only [Pattern.findAll_take hw hm, List.mem_cons, exists_eq_or_imp, offset_between]
      rcases List.append_eq_append_iff.1 ht with ⟨q, rfl, rfl⟩ | ⟨a, rfl, rfl⟩
      · -- The place lies in this comment, or at one of its ends; all others lie further on.
        have hfar : ¬ ∃ block ∈ Pattern.findAll blockComment (between (v ++ (a ++ q)) r),
            block.1.offset < byteLength (v ++ a) ∧ byteLength (v ++ a) < block.2.offset := by
          rintro ⟨block, hblock, hlt, -⟩
          have := blockComment_consumes.le_of_mem_findAll hblock
          rw [← List.append_assoc, byteLength_append] at this
          omega
        rw [or_iff_left hfar]
        by_cases ha : a = []
        · simp [ha]
        · by_cases hq : q = []
          · rw [hq, List.append_nil] at hwm
            simp [hwm, hq, after_block hmiss]
          · have := byteLength_pos ha
            have := byteLength_pos hq
            simp only [byteLength_append]
            exact iff_of_true (by omega) (after_part_of_block hmiss hwm.symm ha hq)
      · have hnear : ¬ (byteLength v < byteLength (v ++ (w ++ a)) ∧
            byteLength (v ++ (w ++ a)) < byteLength (v ++ w)) := by
          simp only [byteLength_append]
          omega
        rw [or_iff_right hnear, after_append, hwm, after_block hmiss, ← hwm, ← ih a rfl,
          List.append_assoc]

/-! ## Places in texts -/

theorem next_lineFeed {phase : Phase} (h : phase = live ∨ phase = inside) (r : Text) :
    phase.next '\n' r = phase := by
  rcases h with rfl | rfl <;> simp [next]

/-- A place stays live where no comment begins. -/
theorem after_live_of_not_infix {w : Text} {x : Char} (h : ¬ ['/', '*'] <:+: w ++ [x]) (r : Text) :
    live.after w (x :: r) = live := by
  induction w with
  | nil => rfl
  | cons y w ih =>
      rw [List.cons_append, List.infix_cons_iff, not_or] at h
      rw [after, next, if_neg, ih h.2]
      rintro ⟨rfl, hhead, -⟩
      refine h.1 ?_
      cases w with
      | nil => simpa using hhead.symm
      | cons z w => simpa using hhead.symm

/-- A place stays inside a comment where the comment does not end. -/
theorem after_inside_of_not_infix {w : Text} {x : Char} (h : ¬ ['*', '/'] <:+: w ++ [x])
    (r : Text) : inside.after w (x :: r) = inside := by
  induction w with
  | nil => rfl
  | cons y w ih =>
      rw [List.cons_append, List.infix_cons_iff, not_or] at h
      rw [after, next, if_neg, ih h.2]
      rintro ⟨rfl, hhead⟩
      refine h.1 ?_
      cases w with
      | nil => simpa using hhead.symm
      | cons z w => simpa using hhead.symm

/-- The phase behind a text depends on what follows only in whether a block comment ends there, if
it goes on with no part of a mark. -/
theorem after_congr {r s : Text} (hcloses : ∀ w, closes (w ++ r) = closes (w ++ s))
    (hr : ∀ c ∈ r.head?, c ≠ '*' ∧ c ≠ '/') (hs : ∀ c ∈ s.head?, c ≠ '*' ∧ c ≠ '/')
    (phase : Phase) (u w : Text) : phase.after u (w ++ r) = phase.after u (w ++ s) := by
  have hnext : ∀ (phase : Phase) x z, phase.next x (z ++ r) = phase.next x (z ++ s) := by
    rintro phase x (_ | ⟨y, z⟩)
    · have hnone : ∀ {t : Text}, (∀ c ∈ t.head?, c ≠ '*' ∧ c ≠ '/') →
          t.head? ≠ some '*' ∧ t.head? ≠ some '/' := fun ht =>
        ⟨fun h => (ht _ h).1 rfl, fun h => (ht _ h).2 rfl⟩
      cases phase <;> simp [next, hnone hr, hnone hs]
    · cases phase <;> simp [next, hcloses]
  induction u generalizing phase with
  | nil => rfl
  | cons x u ih => rw [after, after, ← List.append_assoc, ← List.append_assoc, hnext, ih]

theorem after_live_of_not_mem {w : Text} (h : '/' ∉ w) (r : Text) : live.after w r = live := by
  induction w with
  | nil => rfl
  | cons x w ih =>
      simp only [List.mem_cons, not_or] at h
      rw [after, next, if_neg fun hx => h.1 hx.1.symm]
      exact ih h.2

theorem after_inside_of_not_mem {w : Text} (h : '*' ∉ w) (r : Text) :
    inside.after w r = inside := by
  induction w with
  | nil => rfl
  | cons x w ih =>
      simp only [List.mem_cons, not_or] at h
      rw [after, next, if_neg fun hx => h.1 hx.1.symm]
      exact ih h.2

/-- Where no comment can end any more and no mark goes on, a place is live. -/
theorem after_eq_live {u r : Text} (hr : closes r = false)
    (hhead : ∀ c ∈ r.head?, c ≠ '*' ∧ c ≠ '/') : live.after u r = live := by
  refine (after_eq_live_or_inside hhead).resolve_right fun hin => ?_
  have hfits : (live.after u r).Fits r := (live_fits (u ++ r)).after
  rw [hin, Fits, hr] at hfits
  cases hfits

end Phase

/-- A character is taken out by a block comment if the place before it or the place behind it is not
live. -/
theorem any_blockComment_eq (u r : Text) (x : Char) :
    ((Pattern.findAll blockComment (.start (u ++ x :: r))).any fun block =>
        block.1.offset ≤ byteLength u && byteLength u < block.2.offset) =
      (Phase.live.after u (x :: r) != .live || Phase.live.after (u ++ [x]) r != .live) := by
  obtain ⟨m, hlen, hmarks⟩ := Phase.live.exists_marks_append u (x :: r)
  have hleaves := Phase.leaves_blockComment [] (u ++ x :: r)
  rw [blockComment_consumes.leaves_eq_map_offsets, offsetsFrom_append, hmarks, List.map_append,
    List.map_append] at hleaves
  have hhead := (List.append_inj hleaves (by simp [hlen])).2
  rw [offsetsFrom, Phase.marks, List.map_cons, List.map_cons, byteLength_nil, Nat.zero_add] at hhead
  have hany := Bool.not_inj (List.cons.inj hhead).1
  rw [Phase.after_append, List.singleton_append, Phase.after, Phase.after_nil, List.nil_append,
    ← hany, start_eq_between]

/-- In a text without line comments, a character is commented out if the place before it or the
place behind it is not live. -/
theorem CommentMap.contains_eq {u r : Text} {x : Char}
    (hline : Pattern.findAll lineComment (.start (u ++ x :: r)) = []) :
    (CommentMap.ofText (u ++ x :: r)).contains (byteLength u) =
      (Phase.live.after u (x :: r) != .live || Phase.live.after (u ++ [x]) r != .live) := by
  rw [← any_blockComment_eq, CommentMap.contains, CommentMap.ofText, hline, List.nil_append,
    List.any_map]
  rfl

section

variable {u r : Text} {x : Char}
  (hline : Pattern.findAll lineComment (.start (u ++ x :: r)) = [])

include hline

theorem CommentMap.not_contains (hx : x ≠ '/') (h : Phase.live.after u (x :: r) = .live) :
    (CommentMap.ofText (u ++ x :: r)).contains (byteLength u) = false := by
  have hnext : Phase.live.next x r = .live := if_neg fun h => hx h.1
  rw [contains_eq hline, Phase.after_append, List.singleton_append, h, Phase.after,
    List.nil_append, hnext]
  rfl

theorem CommentMap.contains_of_ne_live (h : Phase.live.after u (x :: r) ≠ .live) :
    (CommentMap.ofText (u ++ x :: r)).contains (byteLength u) = true := by
  rw [contains_eq hline, bne_iff_ne.2 h, Bool.true_or]

end

end AccessRules.Source
