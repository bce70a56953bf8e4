import AccessRules.Proofs.Text.Cut
import AccessRules.Proofs.Text.Token
import AccessRules.Source.Comment

/-!
# Comments at places, and live searches

What a line comment and a block comment are at a place, what a text without comment marks is to the
comment map, and why a search for live matches is a plain search for a pattern that does not match
inside comments (`findLive_eq_findFirst`).
-/

namespace AccessRules.Source

open AccessRules.Text Cursor

/-! ## The two kinds of comments -/

/-- A line comment begins a line, ends it, and holds no line feed. -/
theorem exists_of_lineComment {u r : Text} {d : Cursor}
    (h : lineComment (between u r) = some d) :
    (∀ c ∈ u.getLast?, c = '\n') ∧ ∃ i b s, r = (i ++ ('/' :: '/' :: b)) ++ s ∧
      (∀ c ∈ i, isIndent c = true) ∧ '\n' ∉ b ∧ (∀ c ∈ s.head?, c = '\n') ∧
      d = between (u ++ (i ++ ('/' :: '/' :: b))) s := by
  rw [lineComment] at h
  split at h
  · rename_i hline
    obtain ⟨i, t, rfl, hi, -, hskip⟩ := exists_of_skipWhile isIndent u r
    rw [hskip, Option.map_eq_some_iff] at h
    obtain ⟨e, hl, rfl⟩ := h
    obtain ⟨t, rfl, rfl⟩ := Pattern.literal_eq_some_iff.1 hl
    obtain ⟨b, s, rfl, hb, hs, hend⟩ :=
      exists_of_skipWhile (· != '\n') (u ++ i ++ ['/', '/']) t
    refine ⟨?_, i, b, s, by simp, hi, fun hn => by simpa using hb _ hn, by simpa using hs, ?_⟩
    · simpa [atLineStart, Option.all_eq_true] using hline
    · rw [hend]
      simp
  · cases h

/-- What a line comment is, and where it stands. -/
theorem lineComment_text {u w r : Text}
    (h : lineComment (between u (w ++ r)) = some (between (u ++ w) r)) :
    (∀ c ∈ u.getLast?, c = '\n') ∧ (∀ c ∈ r.head?, c = '\n') ∧
      ∃ i b, w = i ++ '/' :: '/' :: b ∧ (∀ c ∈ i, isIndent c = true) ∧ '\n' ∉ b := by
  obtain ⟨hu, i, b, s, hw, hi, hb, hs, hd⟩ := exists_of_lineComment h
  obtain rfl : r = s := congrArg Cursor.rest hd
  exact ⟨hu, hs, i, b, List.append_cancel_right hw, hi, hb⟩

theorem lineComment_consumes : lineComment.Consumes := by
  intro u r d h
  obtain ⟨-, i, b, s, hr, -, -, -, hd⟩ := exists_of_lineComment h
  exact ⟨_, s, by simp, hr, hd⟩

theorem lineComment_eq_none_of_before {u r : Text} {x : Char} (hx : x ≠ '\n') :
    lineComment (between (u ++ [x]) r) = none := by
  cases h : lineComment (between (u ++ [x]) r) with
  | none => rfl
  | some d => exact absurd ((exists_of_lineComment h).1 x (by simp)) hx

theorem lineComment_eq_none_of_lineFeed (u r : Text) :
    lineComment (between u ('\n' :: r)) = none := by
  cases h : lineComment (between u ('\n' :: r)) with
  | none => rfl
  | some d =>
      obtain ⟨-, i, b, s, hr, hi, -⟩ := exists_of_lineComment h
      cases i with
      | nil => cases hr
      | cons y i =>
          obtain ⟨rfl, -⟩ := List.cons.inj hr
          exact absurd (hi '\n' (by simp)) (by decide)

/-- No line comment begins in front of something else than indentation, if no slash stands there. -/
theorem lineComment_eq_none_of_slash_not_mem {u w r : Text} {x : Char} (hw : '/' ∉ w) (hx : x ∈ w)
    (hindent : isIndent x = false) : lineComment (between u (w ++ r)) = none := by
  cases h : lineComment (between u (w ++ r)) with
  | none => rfl
  | some d =>
      obtain ⟨-, i, b, s, hr, hi, -⟩ := exists_of_lineComment h
      rw [List.append_assoc, List.cons_append] at hr
      obtain ⟨t, rfl, -⟩ := exists_append_of_not_mem hw hr
      have hx' := hi x (List.mem_append_left t hx)
      simp [hindent] at hx'

theorem misses_lineComment_of_slash_not_mem {u w r : Text} {x : Char} (hw : '/' ∉ w ++ [x])
    (hx : isIndent x = false) : Misses lineComment u (w ++ [x]) r := by
  induction w generalizing u with
  | nil => exact ⟨lineComment_eq_none_of_slash_not_mem (w := [x]) hw (by simp) hx, trivial⟩
  | cons y w ih =>
      have hhere := lineComment_eq_none_of_slash_not_mem (u := u) (r := r) hw (by simp) hx
      exact ⟨by simpa using hhere, ih fun h => hw (List.mem_cons_of_mem y h)⟩

/-- Within a line no line comment begins. -/
theorem misses_lineComment_of_lineFeed_not_mem {u w r : Text} {x : Char} (hw : '\n' ∉ x :: w) :
    Misses lineComment (u ++ [x]) w r := by
  induction w generalizing u x with
  | nil => trivial
  | cons y w ih =>
      have hx : x ≠ '\n' := fun h => hw (by simp [h])
      exact ⟨lineComment_eq_none_of_before hx, ih fun h => hw (List.mem_cons_of_mem x h)⟩

/-- A text holds no line comment if up to some character that is no indentation there is no slash,
and behind it no line feed. -/
theorem misses_lineComment_line {u v w r : Text} {x : Char} (hv : '/' ∉ v)
    (hx : isIndent x = false ∧ x ≠ '/') (hw : '\n' ∉ x :: w) :
    Misses lineComment u (v ++ x :: w) r := by
  have hslash : '/' ∉ v ++ [x] := by
    simp only [List.mem_append, List.mem_singleton, not_or]
    exact ⟨hv, hx.2.symm⟩
  have hbehind : Misses lineComment (u ++ (v ++ [x])) w r := by
    rw [← List.append_assoc]
    exact misses_lineComment_of_lineFeed_not_mem hw
  rw [← List.singleton_append, ← List.append_assoc]
  exact misses_append.2 ⟨misses_lineComment_of_slash_not_mem hslash hx.1, hbehind⟩

/-- A block comment goes from `/*` to the first `*/` behind it. -/
theorem exists_of_blockComment {u r : Text} {d : Cursor}
    (h : blockComment (between u r) = some d) :
    ∃ m s, r = '/' :: '*' :: (m ++ '*' :: '/' :: s) ∧
      Misses (Pattern.literal ['*', '/']) (u ++ ['/', '*']) m ('*' :: '/' :: s) ∧
      d = between (u ++ ('/' :: '*' :: (m ++ ['*', '/']))) s := by
  obtain ⟨e, hopen, hclose⟩ := Option.bind_eq_some_iff.1 h
  obtain ⟨t, rfl, rfl⟩ := Pattern.literal_eq_some_iff.1 hopen
  obtain ⟨m, s, rfl, hm, rfl⟩ := Pattern.exists_of_through hclose
  exact ⟨m, s, by simp, hm, by simp⟩

theorem blockComment_consumes : blockComment.Consumes := by
  intro u r d h
  obtain ⟨m, s, hr, -, hd⟩ := exists_of_blockComment h
  exact ⟨'/' :: '*' :: (m ++ ['*', '/']), s, by simp, by simp [hr], hd⟩

theorem blockComment_text {u w r : Text}
    (h : blockComment (between u (w ++ r)) = some (between (u ++ w) r)) :
    ∃ m, w = '/' :: '*' :: (m ++ ['*', '/']) ∧
      Misses (Pattern.literal ['*', '/']) (u ++ ['/', '*']) m ('*' :: '/' :: r) := by
  obtain ⟨m, s, hw, hm, hd⟩ := exists_of_blockComment h
  obtain rfl : r = s := congrArg Cursor.rest hd
  exact ⟨m, List.append_cancel_right (hw.trans (by simp)), hm⟩

/-! ## Texts without comment marks -/

theorem misses_lineComment {u v r : Text} (h : ¬ ['/', '/'] <:+: v ++ r) :
    Misses lineComment u v r := by
  refine misses_of_forall fun a x s hv => ?_
  cases hm : lineComment (between (u ++ a) (x :: s ++ r)) with
  | none => rfl
  | some d =>
      obtain ⟨-, i, b, t, hr, -⟩ := exists_of_lineComment hm
      refine absurd ⟨a ++ i, b ++ t, ?_⟩ h
      simp only [List.append_assoc, List.cons_append] at hr
      simp [hv, hr]

theorem misses_blockComment {u v r : Text} (h : ¬ ['/', '*'] <:+: v ++ r) :
    Misses blockComment u v r := by
  refine misses_of_forall fun a x s hv => ?_
  cases hm : blockComment (between (u ++ a) (x :: s ++ r)) with
  | none => rfl
  | some d =>
      obtain ⟨m, t, hr, -⟩ := exists_of_blockComment hm
      refine absurd ⟨a, m ++ '*' :: '/' :: t, ?_⟩ h
      simp only [List.cons_append] at hr
      simp [hv, hr]

/-- A text has no comments if it holds neither of the marks that begin one. -/
structure Uncommented (text : Text) : Prop where
  line : ¬ ['/', '/'] <:+: text
  block : ¬ ['/', '*'] <:+: text

theorem Uncommented.part {text part : Text} (h : Uncommented text) (hp : part <:+: text) :
    Uncommented part :=
  ⟨fun hl => h.line (hl.trans hp), fun hb => h.block (hb.trans hp)⟩

theorem uncommented_of_not_mem {text : Text} (h : '/' ∉ text) : Uncommented text :=
  ⟨fun hl => h (hl.subset (by simp)), fun hb => h (hb.subset (by simp))⟩

theorem findAll_lineComment_eq_nil {text : Text} (h : Misses lineComment [] text []) :
    Pattern.findAll lineComment (.start text) = [] :=
  Pattern.findAll_eq_nil h (lineComment_consumes.eq_none _)

theorem Uncommented.ofText {text : Text} (h : Uncommented text) :
    CommentMap.ofText text = ⟨[]⟩ := by
  have hl := findAll_lineComment_eq_nil (misses_lineComment (u := []) (by simpa using h.line))
  have hb := Pattern.findAll_eq_nil (misses_blockComment (u := []) (by simpa using h.block))
    (blockComment_consumes.eq_none _)
  rw [CommentMap.ofText, hl, start_eq_between, hb]
  rfl

theorem Uncommented.stripComments {text : Text} (h : Uncommented text) :
    stripComments text = text := by
  have hl := Pattern.erase_eq_self (misses_lineComment (u := []) (by simpa using h.line))
  have hb := Pattern.erase_eq_self (misses_blockComment (u := []) (by simpa using h.block))
  rw [Source.stripComments, start_eq_between, start_eq_between, hl, hb]

/-! ## Live searches -/

namespace CommentMap

/-- The pattern `p`, which matches nowhere inside a comment. -/
def live (comments : CommentMap) (p : Pattern) : Pattern := fun c =>
  if comments.contains c.offset then none else p c

theorem live_of_contains {comments : CommentMap} {p : Pattern} {c : Cursor}
    (h : comments.contains c.offset = true) : comments.live p c = none := by
  simp [live, h]

theorem live_of_not_contains {comments : CommentMap} {p : Pattern} {c : Cursor}
    (h : comments.contains c.offset = false) : comments.live p c = p c := by
  simp [live, h]

theorem of_live_eq_some {comments : CommentMap} {p : Pattern} {c d : Cursor}
    (h : comments.live p c = some d) : p c = some d := by
  rw [live] at h
  split at h
  · cases h
  · exact h

theorem live_eq_none {comments : CommentMap} {p : Pattern} {c : Cursor} (h : p c = none) :
    comments.live p c = none := by
  simp [live, h]

theorem findFirst_live_of_none {comments : CommentMap} {p : Pattern} {c : Cursor}
    (h : c.findFirst p = none) : c.findFirst (comments.live p) = none := by
  fun_induction findFirst p c with
  | case1 => cases h
  | case2 c hp hn => exact findFirst_of_end (live_eq_none hp) hn
  | case3 c hp d hd ih =>
      rw [findFirst_of_next? (live_eq_none hp) hd]
      exact ih h

theorem findFirst_live_of_some {comments : CommentMap} {p : Pattern} {c d e : Cursor}
    (h : c.findFirst p = some (d, e)) : c.findFirst (comments.live p) =
      d.findFirst (comments.live p) := by
  fun_induction findFirst p c with
  | case1 c e hp =>
      rw [Option.some.injEq, Prod.mk.injEq] at h
      rw [h.1]
  | case2 => cases h
  | case3 c hp f hf ih =>
      rw [findFirst_of_next? (live_eq_none hp) hf]
      exact ih h

/-- A search for live matches finds the first place outside the comments at which the pattern
matches. -/
theorem findLive_eq_findFirst (comments : CommentMap) (p : Pattern) (c : Cursor) :
    comments.findLive p c = c.findFirst (comments.live p) := by
  fun_induction findLive comments p c with
  | case1 c h => exact (findFirst_live_of_none h).symm
  | case2 c d e h hd hend =>
      rw [findFirst_live_of_some h, findFirst_of_end (live_of_contains hd) hend]
  | case3 c d e h hd f hf ih =>
      rw [findFirst_live_of_some h, findFirst_of_next? (live_of_contains hd) hf, ih]
  | case4 c d e h hd =>
      rw [findFirst_live_of_some h]
      refine (findFirst_of_eq_some ?_).symm
      rw [live_of_not_contains (by simpa using hd)]
      exact (findFirst_eq_some h).1

end CommentMap

end AccessRules.Source
