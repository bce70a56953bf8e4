import AccessRules.Proofs.Source.CommentLine

/-!
# Which places are commented out

Whether a visible character is commented out is told by the line before it and by the phase of the
block comments (`contains_iff`): either a line comment has begun in its line
(`InLineComment`), or its place lies in a block comment.
-/

namespace AccessRules.Source

open AccessRules.Text Cursor Phase

/-! ## Line comments that have begun -/

/-- A line comment has begun in the last line of the text. -/
def InLineComment (u : Text) : Prop :=
  ∃ p i b, u = p ++ (i ++ '/' :: '/' :: b) ∧ (∀ c ∈ p.getLast?, c = '\n') ∧
    (∀ c ∈ i, isIndent c = true) ∧ '\n' ∉ b

section

variable {u v : Text}

/-- No line comment begins in a line that goes on with something else than `/` behind its
indentation. -/
theorem not_inLineComment {i : Text} {x : Char} (hi : ∀ c ∈ i, isIndent c = true)
    (hx : isIndent x = false ∧ x ≠ '/') (hline : '\n' ∉ i ++ x :: v) :
    ¬ InLineComment (i ++ x :: v) := by
  rintro ⟨p, i', b, h, hp, hi', -⟩
  rcases List.eq_nil_or_concat p with rfl | ⟨p, y, rfl⟩
  · have := append_inj_of_class (p := isIndent) hi hi' (by simpa using hx.1) (by simp; decide) h
    exact hx.2 (List.cons.inj this.2).1
  · obtain rfl : y = '\n' := hp y (by simp)
    exact hline (by simp [h])

/-- A text that has begun a line comment goes on with it up to the line feed. -/
theorem InLineComment.append (h : InLineComment u) (hv : '\n' ∉ v) : InLineComment (u ++ v) := by
  obtain ⟨p, i, b, rfl, hp, hi, hb⟩ := h
  exact ⟨p, i, b ++ v, by simp, hp, hi, by simp [hb, hv]⟩

/-- A line comment is over with its line. -/
theorem inLineComment_append_lineFeed (u v : Text) :
    InLineComment (u ++ '\n' :: v) ↔ InLineComment v := by
  constructor
  · rintro ⟨p, i, b, h, hp, hi, hb⟩
    have hline := not_mem_lineComment hi hb
    rcases List.append_eq_append_iff.1 h with ⟨a, rfl, ha⟩ | ⟨a, rfl, ha⟩
    · cases a with
      | nil =>
          rw [List.nil_append] at ha
          exact absurd (ha ▸ List.mem_cons_self) hline
      | cons x a =>
          obtain ⟨rfl, rfl⟩ := List.cons.inj ha
          refine ⟨a, i, b, rfl, fun c hc => hp c ?_, hi, hb⟩
          rw [List.getLast?_append, List.getLast?_cons, Option.mem_def.1 hc]
          simp
    · exact absurd (by simp [ha]) hline
  · rintro ⟨p, i, b, rfl, hp, hi, hb⟩
    refine ⟨u ++ '\n' :: p, i, b, by simp, fun c hc => ?_, hi, hb⟩
    rcases List.eq_nil_or_concat p with rfl | ⟨p, x, rfl⟩
    · simpa using hc.symm
    · rw [List.concat_eq_append, ← List.cons_append, ← List.append_assoc,
        List.getLast?_concat] at hc
      exact hp c (by simpa using hc)

/-- Whether the slashes behind a blank begin a line comment, or stand in one, is settled by the line
up to them. -/
theorem inLineComment_slashes {a : Text} (ha : '\n' ∉ a) :
    InLineComment (u ++ ' ' :: '/' :: '/' :: a) ↔ InLineComment (u ++ [' ', '/', '/']) := by
  constructor
  · rintro ⟨p, i, b, h, hp, hi, hb⟩
    have hslash : '/' ∉ i := fun hmem => absurd (hi _ hmem) (by decide)
    -- The last line begins within `u`.
    obtain ⟨l, rfl, hl⟩ : ∃ l, u = p ++ l ∧ l ++ ' ' :: '/' :: '/' :: a = i ++ '/' :: '/' :: b := by
      rcases List.append_eq_append_iff.1 h with ⟨z, rfl, hz⟩ | ⟨l, hl, hlb⟩
      · rcases List.eq_nil_or_concat z with rfl | ⟨z, x, rfl⟩
        · exact ⟨[], by simp, by simpa using hz⟩
        · obtain rfl : x = '\n' := hp x (by simp)
          exact absurd (hz ▸ by simp : '\n' ∈ ' ' :: '/' :: '/' :: a) (by simp [ha])
      · exact ⟨l, hl, hlb.symm⟩
    by_cases hmem : '/' ∈ l
    · obtain ⟨m, m', rfl, hm⟩ := List.eq_append_cons_of_mem hmem
      rw [List.append_assoc, List.cons_append] at hl
      obtain ⟨rfl, hb'⟩ := eq_of_first hm hslash hl
      cases m' with
      | nil => exact absurd (List.cons.inj hb').1 (by decide)
      | cons x m' =>
          obtain ⟨rfl, rfl⟩ := List.cons.inj hb'
          exact ⟨p, m, m' ++ [' ', '/', '/'], by simp, hp, hi, by simp_all⟩
    · have hfront : '/' ∉ l ++ [' '] := by simp [hmem]
      rw [← List.singleton_append, ← List.append_assoc] at hl
      obtain ⟨rfl, -⟩ := eq_of_first hfront hslash hl
      exact ⟨p, l ++ [' '], [], by simp, hp, hi, by simp⟩
  · intro h
    have := h.append ha
    simpa using this

end

/-! ## Line comments that are found -/

/-- A line comment is found wherever one begins. -/
theorem mem_findAll_lineComment {v u w r : Text}
    (h : lineComment (between (v ++ u) (w ++ r)) = some (between (v ++ u ++ w) r)) :
    (between (v ++ u) (w ++ r), between (v ++ u ++ w) r) ∈
      Pattern.findAll lineComment (between v (u ++ (w ++ r))) := by
  generalize ht : u ++ (w ++ r) = t
  induction v, t using lineComment_consumes.induction generalizing u with
  | done v =>
      rw [(List.append_eq_nil_iff.1 ht).2, lineComment_consumes.eq_none] at h
      cases h
  | skip v x t hx ih =>
      rw [Pattern.findAll_skip hx]
      rcases List.append_eq_cons_iff.1 ht with ⟨rfl, hw⟩ | ⟨u, rfl, rfl⟩
      · rw [hw, List.append_nil, hx] at h
        cases h
      · have := @ih u (by simpa using h) rfl
        simpa using this
  | take v w' t hw' hm ih =>
      rw [Pattern.findAll_take hw' hm, List.mem_cons]
      obtain ⟨-, -, i, b, rfl, hi, hb⟩ := lineComment_text hm
      rcases List.append_eq_append_iff.1 ht.symm with ⟨a, rfl, rfl⟩ | ⟨a, ha, hwr⟩
      · right
        have := @ih a (by simpa using h) rfl
        simpa using this
      · -- No line begins within a line comment.
        rcases List.eq_nil_or_concat u with rfl | ⟨u, x, rfl⟩
        · left
          rw [List.nil_append] at ht
          rw [List.append_nil, ht] at h
          rw [List.append_nil, ht, ← Option.some.inj (h.symm.trans hm)]
        · obtain rfl : x = '\n' := (lineComment_text h).1 x (by simp)
          exact absurd (by simp [ha]) (not_mem_lineComment hi hb)

/-- A line comment that takes out a visible character has begun before it. -/
theorem inLineComment_of_mem_findAll {u r : Text} {x : Char} {line : Cursor × Cursor}
    (hx : isIndent x = false ∧ x ≠ '/')
    (hmem : line ∈ Pattern.findAll lineComment (.start (u ++ x :: r)))
    (hlo : line.1.offset ≤ byteLength u) (hhi : byteLength u < line.2.offset) :
    InLineComment u := by
  rw [start_eq_between] at hmem
  obtain ⟨a, w, s, htext, hstart, hstop, hm⟩ := lineComment_consumes.exists_of_mem_findAll hmem
  rw [hstart, hstop, List.nil_append] at hm
  obtain ⟨hline, -, i, b, rfl, hi, hb⟩ := lineComment_text hm
  simp only [hstart, hstop, List.nil_append, offset_between, byteLength_append] at hlo hhi
  obtain ⟨b₁, b₂, hw, rfl, hr⟩ := exists_append_of_byteLength htext hlo
    (by simp only [byteLength_append]; omega)
  cases b₂ with
  | nil =>
      have := congrArg byteLength hw
      simp only [byteLength_append, List.append_nil] at this hhi
      omega
  | cons y b₂ =>
      obtain ⟨rfl, rfl⟩ := List.cons.inj hr
      have hfront : x ∉ i ++ ['/', '/'] := by
        simp only [List.mem_append, List.mem_cons, List.not_mem_nil, or_false, or_self, not_or]
        exact ⟨fun h => by simp [hi x h] at hx, hx.2⟩
      rw [← List.singleton_append, ← List.singleton_append (l := b), ← List.append_assoc,
        ← List.append_assoc] at hw
      obtain ⟨e, rfl, rfl⟩ :=
        exists_append_of_not_mem (x := i ++ ['/', '/']) hfront (by simpa using hw)
      exact ⟨a, i, e, by simp, hline, hi, fun h => hb (by simp [h])⟩

/-- A line comment that has begun is found, and it goes on to the end of its line. -/
theorem InLineComment.exists_mem_findAll {u r : Text} {x : Char} (h : InLineComment u)
    (hx : x ≠ '\n') :
    ∃ line ∈ Pattern.findAll lineComment (.start (u ++ x :: r)),
      line.1.offset ≤ byteLength u ∧ byteLength u < line.2.offset := by
  obtain ⟨p, i, b, rfl, hp, hi, hb⟩ := h
  obtain ⟨m, s, hms, hm, hs, -⟩ := exists_of_skipWhile (· != '\n') [] (x :: r)
  have hm' : '\n' ∉ b ++ m := fun h => (List.mem_append.1 h).elim hb fun h => by
    simpa using hm _ h
  have hne : m ≠ [] := by
    rintro rfl
    rw [List.nil_append] at hms
    exact hx (by simpa [← hms] using hs)
  have hmatch :=
    lineComment_append (u := [] ++ p) (r := s) (by simpa using hp) hi hm' (by simpa using hs)
  have hmem := mem_findAll_lineComment (v := []) hmatch
  have htext : p ++ ((i ++ '/' :: '/' :: (b ++ m)) ++ s) =
      (p ++ (i ++ '/' :: '/' :: b)) ++ x :: r := by
    rw [hms]
    simp
  rw [htext] at hmem
  have := byteLength_pos hne
  refine ⟨_, hmem, ?_, ?_⟩
  · simp
  · simp only [offset_between, byteLength_append, byteLength_cons, byteLength_nil]
    omega

/-- A visible character is taken out by a line comment exactly if one has begun before it. -/
theorem any_lineComment_iff {u r : Text} {x : Char}
    (hx : x ≠ '\n' ∧ isIndent x = false ∧ x ≠ '/') :
    ((Pattern.findAll lineComment (.start (u ++ x :: r))).any fun line =>
        line.1.offset ≤ byteLength u && byteLength u < line.2.offset) = true ↔
      InLineComment u := by
  simp only [List.any_eq_true, Bool.and_eq_true, decide_eq_true_eq]
  exact ⟨fun ⟨_, hmem, hlo, hhi⟩ => inLineComment_of_mem_findAll hx.2 hmem hlo hhi,
    fun h => h.exists_mem_findAll hx.1⟩

/-- A visible character is commented out exactly if a line comment has begun in its line or a block
comment is open. -/
theorem contains_iff {u r : Text} {x : Char}
    (hx : x ≠ '\n' ∧ isIndent x = false ∧ x ≠ '/') :
    (CommentMap.ofText (u ++ x :: r)).contains (byteLength u) = true ↔
      InLineComment u ∨ live.after u (x :: r) ≠ live := by
  have hnext : live.next x r = live := if_neg fun h => hx.2.2 h.1
  have hblock : (live.after u (x :: r) != live || live.after (u ++ [x]) r != live) = true ↔
      live.after u (x :: r) ≠ live := by
    rw [Bool.or_eq_true, bne_iff_ne, bne_iff_ne, after_append, List.singleton_append, after,
      after_nil, List.nil_append, or_iff_left_iff_imp]
    intro h hlive
    exact h (by rw [hlive, hnext])
  rw [← any_blockComment_eq] at hblock
  rw [← any_lineComment_iff hx, ← hblock, ← Bool.or_eq_true, ← List.any_append,
    CommentMap.contains, CommentMap.ofText, List.any_map]
  rfl

/-! ## Places behind whole lines -/

/-- A line feed changes nothing about the phase. -/
theorem after_concat_lineFeed (u r : Text) :
    live.after (u ++ ['\n']) r = live.after u ('\n' :: r) := by
  have hphase : live.after u ('\n' :: r) = live ∨ live.after u ('\n' :: r) = inside :=
    after_eq_live_or_inside (by simp)
  rw [after_append, List.singleton_append, after, after_nil, List.nil_append,
    next_lineFeed hphase]

section

variable {p p' r s : Text} (hp : ∀ c ∈ p.getLast?, c = '\n')

include hp

theorem inLineComment_append_of_line (a : Text) : InLineComment (p ++ a) ↔ InLineComment a := by
  rcases List.eq_nil_or_concat p with rfl | ⟨p, x, rfl⟩
  · rw [List.nil_append]
  · obtain rfl : x = '\n' := hp x (by simp)
    rw [List.concat_eq_append, List.append_assoc, List.singleton_append,
      inLineComment_append_lineFeed]

theorem after_line_eq_live_or_inside : live.after p r = live ∨ live.after p r = inside := by
  rcases List.eq_nil_or_concat p with rfl | ⟨p, x, rfl⟩
  · exact .inl rfl
  · obtain rfl : x = '\n' := hp x (by simp)
    rw [List.concat_eq_append, after_concat_lineFeed]
    exact after_eq_live_or_inside (by simp)

theorem after_line_congr (h : closes r = closes s) : live.after p r = live.after p s := by
  rcases List.eq_nil_or_concat p with rfl | ⟨p, x, rfl⟩
  · rfl
  · obtain rfl : x = '\n' := hp x (by simp)
    rw [List.concat_eq_append, after_concat_lineFeed, after_concat_lineFeed]
    exact after_congr (fun w => by rw [closes_line, closes_line, h]) (by simp) (by simp) live p []

/-- Whether a visible character behind whole lines is commented out depends on these lines only in
whether they leave a block comment open. -/
theorem contains_behind_lines (hp' : ∀ c ∈ p'.getLast?, c = '\n') {x : Char} {a b : Text}
    (hx : x ≠ '\n' ∧ isIndent x = false ∧ x ≠ '/')
    (h : live.after p (a ++ x :: b) = live.after p' (a ++ x :: b)) :
    (CommentMap.ofText (p ++ (a ++ x :: b))).contains (byteLength (p ++ a)) =
      (CommentMap.ofText (p' ++ (a ++ x :: b))).contains (byteLength (p' ++ a)) := by
  rw [Bool.eq_iff_iff, ← List.append_assoc, ← List.append_assoc, contains_iff hx, contains_iff hx,
    inLineComment_append_of_line hp, inLineComment_append_of_line hp', after_append, after_append,
    h]

end

end AccessRules.Source
