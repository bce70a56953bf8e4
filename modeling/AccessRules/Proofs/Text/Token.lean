import AccessRules.Proofs.Text.Match

/-!
# Words and gaps

The tokens of a written text and the blanks between them. No character is both
(`isWord_of_isBlank`), so a text tells where a word ends and where a gap ends
(`append_inj_of_class`).
-/

namespace AccessRules.Text

/-- A word: at least one word character. -/
structure Word where
  text : Text
  ne_nil : text ≠ []
  word : ∀ c ∈ text, isWord c = true

/-- Blanks between two tokens, or nothing. -/
structure Gap where
  text : Text
  blank : ∀ c ∈ text, isBlank c = true

theorem Word.not_mem (w : Word) {c : Char} (hc : isWord c = false) : c ∉ w.text :=
  fun h => by simp [w.word c h] at hc

theorem Gap.not_mem (g : Gap) {c : Char} (hc : isBlank c = false) : c ∉ g.text :=
  fun h => by simp [g.blank c h] at hc

/-- Nothing between two tokens. -/
def Gap.none : Gap := ⟨[], by simp⟩

/-- One space between two tokens. -/
def Gap.space : Gap := ⟨[' '], by decide⟩

@[simp] theorem Gap.text_none : Gap.none.text = [] := rfl

@[simp] theorem Gap.text_space : Gap.space.text = [' '] := rfl

theorem Gap.space_ne_nil : Gap.space.text ≠ [] := by
  decide

theorem isWord_of_isBlank {c : Char} (h : isBlank c = true) : isWord c = false := by
  have hblank : ∀ range ∈ blankRanges, ∀ n < range.2 + 1 - range.1,
      isWord (Char.ofNat (range.1 + n)) = false := by decide +kernel
  obtain ⟨range, hrange, hlo, hhi⟩ := inRanges_iff.1 h
  have := hblank range hrange (c.toNat - range.1) (by omega)
  rwa [Nat.add_sub_cancel' hlo, Char.ofNat_toNat] at this

theorem isBlank_of_isWord {c : Char} (h : isWord c = true) : isBlank c = false := by
  cases hb : isBlank c with
  | false => rfl
  | true => rw [isWord_of_isBlank hb] at h; cases h

/-- Whether a word may stand next to the text: its last character is no word character. -/
def Boundary (text : Text) : Prop :=
  ∀ c ∈ text.getLast?, isWord c = false

theorem boundary_nil : Boundary [] := by
  simp [Boundary]

theorem Boundary.append {u v : Text} (hu : Boundary u) (hv : Boundary v) : Boundary (u ++ v) := by
  intro c hc
  rw [List.getLast?_append, Option.mem_def, Option.or_eq_some_iff] at hc
  rcases hc with hc | ⟨-, hc⟩
  · exact hv c hc
  · exact hu c hc

theorem boundary_concat (u : Text) {c : Char} (h : isWord c = false) : Boundary (u ++ [c]) := by
  intro d hd
  simp only [List.getLast?_concat, Option.mem_def, Option.some.injEq] at hd
  exact hd ▸ h

theorem boundary_append_iff {u v : Text} (hv : v ≠ []) : Boundary (u ++ v) ↔ Boundary v := by
  obtain ⟨w, x, rfl⟩ := List.eq_nil_or_concat v |>.resolve_left hv
  simp [Boundary]

theorem Gap.boundary (g : Gap) : Boundary g.text :=
  fun c hc => isWord_of_isBlank (g.blank c (List.mem_of_getLast? hc))

theorem Cursor.atWordStart_between {u r : Text} :
    (between u r).atWordStart = true ↔ Boundary u := by
  simp [atWordStart, Boundary, Option.any_eq_false]

theorem Cursor.atWordEnd_between {u r : Text} :
    (between u r).atWordEnd = true ↔ ∀ c ∈ r.head?, isWord c = false := by
  simp [atWordEnd, Option.any_eq_false]

/-! ## Where a token ends -/

/-- Characters of one class go up to the first character that is not of the class. -/
theorem append_inj_of_class {p : Char → Bool} {w w' r r' : Text} (hw : ∀ c ∈ w, p c = true)
    (hw' : ∀ c ∈ w', p c = true) (hr : ∀ c ∈ r.head?, p c = false)
    (hr' : ∀ c ∈ r'.head?, p c = false) (h : w ++ r = w' ++ r') : w = w' ∧ r = r' := by
  have hfirst : ∀ {w r : Text}, (∀ c ∈ w, p c = true) → (∀ c ∈ r.head?, p c = false) →
      (w ++ r).takeWhile p = w := by
    intro w r hw hr
    rw [List.takeWhile_append_of_pos hw]
    cases r with
    | nil => simp
    | cons x r => simp [hr x (by simp)]
  have hww : w = w' := by rw [← hfirst hw hr, h, hfirst hw' hr']
  exact ⟨hww, List.append_cancel_left (hww ▸ h)⟩

theorem Word.exists_cons (w : Word) : ∃ x t, w.text = x :: t ∧ isWord x = true := by
  cases h : w.text with
  | nil => exact absurd h w.ne_nil
  | cons x t => exact ⟨x, t, rfl, w.word x (by simp [h])⟩

theorem Word.isBlank_of_head? (w : Word) (r : Text) :
    ∀ c ∈ (w.text ++ r).head?, isBlank c = false := by
  obtain ⟨x, t, hw, hx⟩ := w.exists_cons
  intro c hc
  simp only [hw, List.cons_append, List.head?_cons, Option.mem_def, Option.some.injEq] at hc
  exact isBlank_of_isWord (hc ▸ hx)

theorem Gap.isWord_of_head? (g : Gap) {r : Text} (hr : ∀ c ∈ r.head?, isWord c = false) :
    ∀ c ∈ (g.text ++ r).head?, isWord c = false := by
  intro c hc
  cases hg : g.text with
  | nil => exact hr c (by simpa [hg] using hc)
  | cons b t =>
      simp only [hg, List.cons_append, List.head?_cons, Option.mem_def, Option.some.injEq] at hc
      exact isWord_of_isBlank (g.blank c (by simp [hg, hc]))

/-! ## Matches of tokens -/

namespace Pattern

open Cursor

theorem literal_cons (x : Char) (u r : Text) :
    literal [x] (between u (x :: r)) = some (between (u ++ [x]) r) :=
  literal_append [x] u r

end Pattern

open Cursor

theorem Gap.skipBlanks_append (g : Gap) {u r : Text} (hr : ∀ c ∈ r.head?, isBlank c = false) :
    (between u (g.text ++ r)).skipBlanks = between (u ++ g.text) r :=
  Pattern.skipBlanks_append g.blank hr

theorem Gap.skipBlanks_cons (g : Gap) {x : Char} (hx : isBlank x = false) (u r : Text) :
    (between u (g.text ++ x :: r)).skipBlanks = between (u ++ g.text) (x :: r) :=
  g.skipBlanks_append (by simpa using hx)

namespace Pattern

/-- What is matched behind blanks stands behind a gap. -/
theorem exists_of_skipBlanks_literal {w u r : Text} {d : Cursor}
    (h : literal w (between u r).skipBlanks = some d) :
    ∃ (g : Gap) (s : Text), r = g.text ++ (w ++ s) ∧ d = between (u ++ (g.text ++ w)) s := by
  obtain ⟨g, t, rfl, hg, -, hskip⟩ := exists_of_skipBlanks u r
  rw [hskip] at h
  obtain ⟨s, rfl, rfl⟩ := literal_eq_some_iff.1 h
  exact ⟨⟨g, hg⟩, s, rfl, by simp⟩

/-- A name, the blanks behind it and the character that closes it. -/
def closedName (name : Text) (x : Char) : Pattern := fun c => do
  let c ← literal name c
  literal [x] c.skipBlanks

theorem closedName_append (name : Text) (g : Gap) {x : Char} (hx : isBlank x = false)
    (u r : Text) : closedName name x (between u (name ++ (g.text ++ x :: r))) =
      some (between (u ++ (name ++ (g.text ++ [x]))) r) := by
  simp only [closedName, literal_append, Option.bind_eq_bind, Option.bind_some,
    g.skipBlanks_cons hx, literal_cons, List.append_assoc]

theorem exists_of_closedName {name u r : Text} {x : Char} {d : Cursor}
    (h : closedName name x (between u r) = some d) :
    ∃ (g : Gap) (s : Text), r = name ++ (g.text ++ x :: s) ∧
      d = between (u ++ (name ++ (g.text ++ [x]))) s := by
  obtain ⟨e, hname, hx⟩ := Option.bind_eq_some_iff.1 h
  obtain ⟨t, rfl, rfl⟩ := literal_eq_some_iff.1 hname
  obtain ⟨g, s, rfl, rfl⟩ := exists_of_skipBlanks_literal hx
  exact ⟨g, s, rfl, by simp⟩

/-- A name that begins with no blank is found behind blanks. -/
theorem afterBlanks_closedName {name g : Text} {x : Char} (hname : name ≠ [])
    (hfirst : ∀ c ∈ name.head?, isBlank c = false) (hg : ∀ c ∈ g, isBlank c = true) (g' : Gap)
    (hx : isBlank x = false) (u r : Text) :
    afterBlanks (closedName name x) (between u (g ++ (name ++ (g'.text ++ x :: r)))) =
      some (between (u ++ (g ++ (name ++ (g'.text ++ [x])))) r) := by
  have hmiss : Misses (closedName name x) u g (name ++ (g'.text ++ x :: r)) := by
    refine misses_of_forall fun a y b hab => ?_
    have hy : isBlank y = true := hg y (by simp [hab])
    cases h : closedName name x (between (u ++ a) (y :: b ++ (name ++ (g'.text ++ x :: r)))) with
    | none => rfl
    | some d =>
        obtain ⟨_, s, hs, -⟩ := exists_of_closedName h
        obtain ⟨z, t, hz⟩ := List.exists_cons_of_ne_nil hname
        simp only [hz, List.cons_append, List.cons.injEq] at hs
        have := hfirst z (by simp [hz])
        rw [← hs.1, hy] at this
        cases this
  rw [afterBlanks_append hg hmiss,
    afterBlanks_of_eq_some (closedName_append name g' hx (u ++ g) r), List.append_assoc]

end Pattern

/-! ## Occurrences -/

/-- A character that does not occur in the first part of a text occurs behind it. -/
theorem exists_append_of_not_mem {x y a b : Text} {c : Char} (hc : c ∉ x)
    (h : x ++ y = a ++ c :: b) : ∃ d, a = x ++ d ∧ y = d ++ c :: b := by
  rcases List.append_eq_append_iff.1 h with ⟨d, ha, hy⟩ | ⟨d, hx, hb⟩
  · exact ⟨d, ha, hy⟩
  · cases d with
    | nil => exact ⟨[], by simpa using hx.symm, by simpa using hb.symm⟩
    | cons e d =>
        obtain rfl : c = e := (List.cons.inj hb).1
        exact absurd (by simp [hx]) hc

/-- A character parts a text at its first place in only one way. -/
theorem eq_of_first {a a' b b' : Text} {c : Char} (ha : c ∉ a) (ha' : c ∉ a')
    (h : a ++ c :: b = a' ++ c :: b') : a = a' ∧ b = b' := by
  obtain ⟨d, rfl, hd⟩ := exists_append_of_not_mem ha h
  cases d with
  | nil => simpa using hd
  | cons x d =>
      obtain ⟨rfl, -⟩ := List.cons.inj hd
      simp at ha'

/-- A character parts a text at its last place in only one way. -/
theorem eq_of_last {a a' b b' : Text} {c : Char} (hb : c ∉ b) (hb' : c ∉ b')
    (h : a ++ c :: b = a' ++ c :: b') : a = a' ∧ b = b' := by
  have hreverse := congrArg List.reverse h
  simp only [List.reverse_append, List.reverse_cons, List.append_assoc, List.singleton_append]
    at hreverse
  obtain ⟨hback, hfront⟩ := eq_of_first (by simpa using hb) (by simpa using hb') hreverse
  exact ⟨List.reverse_inj.1 hfront, List.reverse_inj.1 hback⟩

/-- An occurrence of a text that does not hold the character `c` lies on one side of it. -/
theorem infix_append_cons {w a b : Text} {c : Char} (hc : c ∉ w) (h : w <:+: a ++ c :: b) :
    w <:+: a ∨ w <:+: b := by
  obtain ⟨s, t, hst⟩ := h
  rw [List.append_assoc] at hst
  rcases List.append_eq_append_iff.1 hst with ⟨v, rfl, hv⟩ | ⟨v, rfl, hv⟩
  · rcases List.append_eq_append_iff.1 hv with ⟨z, rfl, _⟩ | ⟨z, rfl, hz⟩
    · exact .inl ⟨s, z, by simp⟩
    · cases z with
      | nil => exact .inl ⟨s, [], by simp⟩
      | cons y z =>
          obtain ⟨rfl, -⟩ := List.cons.inj hz
          exact absurd (by simp) hc
  · cases v with
    | nil =>
        cases w with
        | nil => exact .inl List.nil_infix
        | cons y w =>
            obtain ⟨rfl, -⟩ := List.cons.inj hv
            exact absurd (by simp) hc
    | cons y v =>
        obtain ⟨-, rfl⟩ := List.cons.inj hv
        exact .inr ⟨v, t, by simp⟩

end AccessRules.Text
