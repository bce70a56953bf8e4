import AccessRules.Proofs.Text.Token

/-!
# Matches and the text behind them

Most patterns read no further than their match: whatever follows the matched text, they match the
same (`Reads`). Those that ask for no line or word to begin read nothing in front of it either
(`Unanchored`). If moreover no match goes on behind another one that begins in it (`Unnested`), then
the text behind a match does not make such a pattern match at an earlier place (`Reads.eq_none`).
-/

namespace AccessRules.Text

open Cursor

/-! ## Two readings of one text -/

/-- A name that is closed in front of some text is closed in front of any other, if the character
that closes it does not stand within the name. -/
theorem exists_closed_of_closed {name w k t s : Text} {x : Char} (hlen : name.length ≤ w.length)
    (hk : x ∉ k) (h : w ++ x :: s = name ++ (k ++ x :: t)) (s' : Text) :
    ∃ y, w ++ x :: s' = name ++ (k ++ x :: y) := by
  rcases List.append_eq_append_iff.1 h with ⟨z, rfl, hz⟩ | ⟨z, rfl, hz⟩
  · obtain rfl : z = [] := by
      simp only [List.length_append] at hlen
      exact List.length_eq_zero_iff.1 (by omega)
    cases k with
    | nil => exact ⟨s', by simp⟩
    | cons c k =>
        obtain rfl : x = c := (List.cons.inj (by simpa using hz)).1
        simp at hk
  · obtain ⟨d, rfl, hd⟩ := exists_append_of_not_mem hk hz
    cases d with
    | nil => exact ⟨s', by simp⟩
    | cons c d =>
        obtain rfl : x = c := (List.cons.inj hd).1
        exact ⟨d ++ x :: s', by simp⟩

namespace Pattern

/-! ## Patterns that read no further than their match -/

/-- Whether what `p` matches is told by the matched text, whatever follows it. -/
def Reads (p : Pattern) : Prop :=
  ∀ u r d, p (between u r) = some d → ∃ w s, r = w ++ s ∧
    d = between (u ++ w) s ∧ ∀ s', p (between u (w ++ s')) = some (between (u ++ w) s')

theorem Reads.append {p : Pattern} (hp : p.Reads) {u w r : Text}
    (h : p (between u (w ++ r)) = some (between (u ++ w) r)) (r' : Text) :
    p (between u (w ++ r')) = some (between (u ++ w) r') := by
  obtain ⟨w', s, hw, hd, hany⟩ := hp _ _ _ h
  obtain rfl : r = s := congrArg Cursor.rest hd
  obtain rfl := List.append_cancel_right hw
  exact hany r'

theorem reads_literal (w : Text) : (literal w).Reads := by
  intro u r d h
  obtain ⟨s, rfl, rfl⟩ := literal_eq_some_iff.1 h
  exact ⟨w, s, rfl, rfl, fun s' => literal_append w u s'⟩

theorem reads_blank : blank.Reads := by
  intro u r d h
  obtain ⟨b, s, hb, rfl, rfl⟩ := exists_of_blank h
  exact ⟨[b], s, rfl, rfl, fun s' => blank_cons hb u s'⟩

theorem Reads.bind {p q : Pattern} (hp : p.Reads) (hq : q.Reads) :
    Reads fun c => (p c).bind q := by
  intro u r d h
  obtain ⟨e, he, hd⟩ := Option.bind_eq_some_iff.1 h
  obtain ⟨w, s, rfl, rfl, hw⟩ := hp u r e he
  obtain ⟨v, t, rfl, rfl, hv⟩ := hq (u ++ w) s d hd
  refine ⟨w ++ v, t, by simp, by simp, fun s' => ?_⟩
  have := hw (v ++ s')
  simp only [List.append_assoc, this, Option.bind_some, hv]

theorem Reads.atWordStart {p : Pattern} (hp : p.Reads) :
    Reads fun c => if c.atWordStart then p c else none := by
  intro u r d h
  dsimp only at h
  split at h
  · rename_i hstart
    obtain ⟨w, s, rfl, rfl, hw⟩ := hp u r d h
    refine ⟨w, s, rfl, rfl, fun s' => ?_⟩
    exact (if_pos (atWordStart_between.2 (atWordStart_between.1 hstart))).trans (hw s')
  · cases h

theorem reads_skipBlanks {x : Char} (hx : isBlank x = false) (w : Text) :
    Reads fun c => literal (x :: w) c.skipBlanks := by
  intro u r d h
  obtain ⟨g, s, rfl, rfl⟩ := exists_of_skipBlanks_literal h
  refine ⟨g.text ++ x :: w, s, by simp, by simp, fun s' => ?_⟩
  have hnext := literal_append (x :: w) (u ++ g.text) s'
  dsimp only
  rw [List.append_assoc, g.skipBlanks_append (by simpa using hx), hnext, List.append_assoc]

/-- Everything up to a character goes up to the first place of that character. -/
theorem exists_of_through_char {x : Char} {u r : Text} {d : Cursor}
    (h : through [x] (between u r) = some d) :
    ∃ m s, x ∉ m ∧ r = m ++ x :: s ∧ d = between (u ++ (m ++ [x])) s := by
  obtain ⟨m, s, rfl, hm, rfl⟩ := exists_of_through h
  refine ⟨m, s, fun hx => ?_, rfl, rfl⟩
  obtain ⟨a, b, rfl⟩ := List.append_of_mem hx
  have hhere := hm.eq_none (v := a) (s := x :: b) rfl (by simp)
  exact literal_eq_none_iff.1 hhere (b ++ ([x] ++ s)) (by simp)

theorem reads_through (x : Char) : (through [x]).Reads := by
  intro u r d h
  obtain ⟨m, s, hm, rfl, rfl⟩ := exists_of_through_char h
  refine ⟨m ++ [x], s, by simp, rfl, fun s' => ?_⟩
  rw [List.append_assoc]
  exact through_append (misses_literal_of_not_mem hm)

/-- A name that is not closed at a place of some text is not closed there in any other text that is
the same up to the closing character, if the name ends before that. -/
theorem closedName_eq_none_congr {name u w s : Text} {x : Char} (hx : isBlank x = false)
    (hlen : name.length ≤ w.length) (h : closedName name x (between u (w ++ x :: s)) = none)
    (s' : Text) : closedName name x (between u (w ++ x :: s')) = none := by
  cases hmatch : closedName name x (between u (w ++ x :: s')) with
  | none => rfl
  | some d =>
      obtain ⟨g, t, ht, -⟩ := exists_of_closedName hmatch
      obtain ⟨y, hy⟩ := exists_closed_of_closed hlen (g.not_mem hx) ht s
      rw [hy, closedName_append name g hx] at h
      cases h

/-- A name behind blanks is told by the text up to the character that closes it. -/
theorem exists_of_afterBlanks_closedName {name u r : Text} {x : Char} {d : Cursor}
    (hx : isBlank x = false) (h : afterBlanks (closedName name x) (between u r) = some d) :
    ∃ (g g' : Gap) (s : Text), r = g.text ++ (name ++ (g'.text ++ x :: s)) ∧
      d = between (u ++ (g.text ++ (name ++ (g'.text ++ [x])))) s ∧
      ∀ s', afterBlanks (closedName name x)
          (between u (g.text ++ (name ++ (g'.text ++ x :: s')))) =
        some (between (u ++ (g.text ++ (name ++ (g'.text ++ [x])))) s') := by
  induction r generalizing u with
  | nil =>
      rw [afterBlanks] at h
      cases hp : closedName name x (between u []) with
      | none => simp [hp] at h
      | some e =>
          obtain ⟨g, s, hs, -⟩ := exists_of_closedName hp
          simp at hs
  | cons b r ih =>
      cases hp : closedName name x (between u (b :: r)) with
      | some e =>
          rw [afterBlanks_of_eq_some hp, Option.some.injEq] at h
          obtain ⟨g, s, hr, rfl⟩ := exists_of_closedName hp
          refine ⟨.none, g, s, by simpa using hr, by simp [← h], fun s' => ?_⟩
          exact afterBlanks_of_eq_some (closedName_append name g hx u s')
      | none =>
          rw [afterBlanks, hp] at h
          by_cases hb : isBlank b = true
          · simp only [rest_between, hb, if_true, past_between] at h
            obtain ⟨g, g', s, rfl, rfl, hany⟩ := ih h
            have hgap : ∀ c ∈ b :: g.text, isBlank c = true := by simpa [hb] using g.blank
            refine ⟨⟨b :: g.text, hgap⟩, g', s, rfl, by simp, fun s' => ?_⟩
            -- A name that begins one blank earlier would have been found there before.
            have hnone : closedName name x
                (between u (b :: (g.text ++ (name ++ (g'.text ++ x :: s'))))) = none := by
              have hlen : name.length ≤ (b :: (g.text ++ (name ++ g'.text))).length := by
                simp only [List.length_cons, List.length_append]
                omega
              simpa using closedName_eq_none_congr hx hlen (by simpa using hp) s'
            rw [List.cons_append, afterBlanks, hnone]
            simp only [rest_between, hb, if_true, past_between]
            rw [hany s']
            simp
          · simp [hb] at h

theorem reads_afterBlanks_closedName (name : Text) {x : Char} (hx : isBlank x = false) :
    Reads (afterBlanks (closedName name x)) := by
  intro u r d h
  obtain ⟨g, g', s, rfl, rfl, hany⟩ := exists_of_afterBlanks_closedName hx h
  exact ⟨g.text ++ (name ++ (g'.text ++ [x])), s, by simp, by simp, fun s' => by simpa using hany s'⟩

/-! ## Patterns that read nothing in front of their match -/

/-- Whether what `p` matches is told by the text from the place on, whatever stands before it. -/
def Unanchored (p : Pattern) : Prop :=
  ∀ u u' r d, p (between u r) = some d → ∃ w s, r = w ++ s ∧
    d = between (u ++ w) s ∧ p (between u' r) = some (between (u' ++ w) s)

theorem unanchored_literal (w : Text) : (literal w).Unanchored := by
  intro u u' r d h
  obtain ⟨s, rfl, rfl⟩ := literal_eq_some_iff.1 h
  exact ⟨w, s, rfl, rfl, literal_append w u' s⟩

theorem Unanchored.bind {p q : Pattern} (hp : p.Unanchored) (hq : q.Unanchored) :
    Unanchored fun c => (p c).bind q := by
  intro u u' r d h
  obtain ⟨e, he, hd⟩ := Option.bind_eq_some_iff.1 h
  obtain ⟨w, s, rfl, rfl, hw⟩ := hp u u' r e he
  obtain ⟨v, t, rfl, rfl, hv⟩ := hq (u ++ w) (u' ++ w) s d hd
  exact ⟨w ++ v, t, by simp, by simp, by simp [hw, hv]⟩

theorem Unanchored.skipBlanks {p : Pattern} (hp : p.Unanchored) :
    Unanchored fun c => p c.skipBlanks := by
  intro u u' r d h
  obtain ⟨g, t, rfl, hg, ht, hskip⟩ := exists_of_skipBlanks u r
  dsimp only at h
  rw [hskip] at h
  obtain ⟨w, s, rfl, rfl, hw⟩ := hp (u ++ g) (u' ++ g) t d h
  refine ⟨g ++ w, s, by simp, by simp, ?_⟩
  dsimp only
  rw [skipBlanks_append hg ht, hw, List.append_assoc]

theorem Unanchored.eq_none {p : Pattern} (hp : p.Unanchored) {u r : Text}
    (h : p (between u r) = none) (u' : Text) : p (between u' r) = none := by
  cases hm : p (between u' r) with
  | none => rfl
  | some d =>
      obtain ⟨w, s, -, -, hw⟩ := hp u' u r d hm
      rw [h] at hw
      cases hw

/-- What is told of the end of a match by the text from there on is told by the text that is
matched. -/
theorem Unanchored.map_eq {p : Pattern} (hp : p.Unanchored) {α : Type} {f : Cursor → α}
    (hf : ∀ u u' r, f (between u r) = f (between u' r)) (u u' r : Text) :
    (p (between u r)).map f = (p (between u' r)).map f := by
  cases hm : p (between u r) with
  | none => rw [hp.eq_none hm u']
  | some d =>
      obtain ⟨w, s, -, rfl, hw⟩ := hp u u' r d hm
      rw [hw, Option.map_some, Option.map_some, hf]

theorem Unanchored.afterBlanks {p : Pattern} (hp : p.Unanchored) :
    Unanchored (Pattern.afterBlanks p) := by
  intro u u' r d h
  induction r generalizing u u' with
  | nil =>
      cases hm : p (between u []) with
      | none => simp [Pattern.afterBlanks, hm] at h
      | some e =>
          rw [afterBlanks_of_eq_some hm] at h
          obtain ⟨w, s, hws, hd, hw⟩ := hp u u' [] d (hm.trans h)
          exact ⟨w, s, hws, hd, afterBlanks_of_eq_some hw⟩
  | cons b r ih =>
      cases hm : p (between u (b :: r)) with
      | some e =>
          rw [afterBlanks_of_eq_some hm] at h
          obtain ⟨w, s, hws, hd, hw⟩ := hp u u' (b :: r) d (hm.trans h)
          exact ⟨w, s, hws, hd, afterBlanks_of_eq_some hw⟩
      | none =>
          rw [Pattern.afterBlanks, hm] at h
          rw [Pattern.afterBlanks, hp.eq_none hm u']
          by_cases hb : isBlank b = true
          · simp only [rest_between, hb, if_true, past_between] at h ⊢
            obtain ⟨w, s, rfl, rfl, hw⟩ := ih (u ++ [b]) (u' ++ [b]) h
            exact ⟨b :: w, s, rfl, by simp, by simpa using hw⟩
          · simp [hb] at h

theorem unanchored_closedName (name : Text) (x : Char) : (closedName name x).Unanchored :=
  (unanchored_literal name).bind (unanchored_literal [x]).skipBlanks

/-! ## Matches within matches -/

/-- Whether no match of `p` goes on behind another one that begins in it. -/
def Unnested (p : Pattern) : Prop :=
  ∀ u a w b r, a ≠ [] →
    p (between u (a ++ (w ++ (b ++ r)))) = some (between (u ++ (a ++ (w ++ b))) r) →
    p (between (u ++ a) (w ++ (b ++ r))) = some (between (u ++ a ++ w) (b ++ r)) → b = []

/-- What stands behind the match of such a pattern does not make it match at an earlier place. -/
theorem Reads.eq_none {p : Pattern} (hp : p.Reads) (hn : p.Unnested) {u a w r r' : Text}
    (ha : a ≠ []) (hw : p (between (u ++ a) (w ++ r)) = some (between (u ++ a ++ w) r))
    (h : p (between u (a ++ (w ++ r))) = none) : p (between u (a ++ (w ++ r'))) = none := by
  cases hm : p (between u (a ++ (w ++ r'))) with
  | none => rfl
  | some d =>
      exfalso
      obtain ⟨m, t, hmt, rfl, hany⟩ := hp _ _ _ hm
      rw [← List.append_assoc] at hmt
      obtain ⟨z, hz⟩ : ∃ z, a ++ w = m ++ z := by
        rcases List.append_eq_append_iff.1 hmt with ⟨z, rfl, rfl⟩ | ⟨z, hz, -⟩
        · have hend := hn u a w z t ha (by simpa using hm) (hp.append hw _)
          exact ⟨[], by simp [hend]⟩
        · exact ⟨z, hz⟩
      have hhere := hany (z ++ r)
      rw [← List.append_assoc, ← hz, List.append_assoc, h] at hhere
      cases hhere

end Pattern

end AccessRules.Text
