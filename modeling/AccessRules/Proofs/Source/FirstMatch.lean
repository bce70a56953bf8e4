import AccessRules.Proofs.Source.Declared
import AccessRules.Proofs.Source.OptionHead

/-!
# First matches

Which declaration of a method and which head of an option is found first is settled by the text up
to the end of that match: neither pattern reads further than its match, and none of their matches
goes on behind another one that begins in it (`findLive_congr`).
-/

namespace AccessRules.Source

open AccessRules.Text Cursor

/-! ## Declarations -/

theorem reads_signatureHead (method : Text) : (signatureHead method).Reads :=
  (Pattern.reads_literal _).bind
    (Pattern.reads_blank.bind (Pattern.reads_afterBlanks_closedName method (by decide)))

theorem reads_declaration (method : Text) {e : Char} (he : isBlank e = false) :
    (declaration method e).Reads := by
  have hreturns := Pattern.reads_skipBlanks (x := 'r') (by decide) "eturns".toList
  have hopens := Pattern.reads_skipBlanks (x := '(') (by decide) []
  have hends := Pattern.reads_skipBlanks he []
  have hcloses := Pattern.reads_through ')'
  rw [show declaration method e = _ from funext (declaration_eq method e)]
  exact ((reads_signatureHead method).bind (hcloses.bind (hreturns.bind (hopens.bind
    (hcloses.bind hends))))).atWordStart

/-- A declaration has two closing parentheses, and only blanks between the second one and the
character that ends it. -/
theorem exists_of_declaration {name : Word} {e : Char} (he : isBlank e = false) {u r : Text}
    {d : Cursor} (h : declaration name.text e (between u r) = some d) :
    ∃ (front : Text) (g : Gap) (s : Text), front.count ')' = 1 ∧
      r = front ++ ')' :: (g.text ++ e :: s) ∧
      d = between (u ++ (front ++ ')' :: (g.text ++ [e]))) s := by
  obtain ⟨-, g, s, rfl, rfl⟩ := (declaration_eq_some_iff he).1 h
  refine ⟨"rpc".toList ++ (g.afterRpc.text ++ (name.text ++ (g.afterName.text ++ '(' ::
    (g.request.text ++ ')' :: (g.afterRequest.text ++ ("returns".toList ++ (g.afterReturns.text ++
      '(' :: g.response.text))))))), g.afterResponse, s, ?_, by simp [OpaqueSignature.text],
    by simp [OpaqueSignature.text]⟩
  have hgap : ∀ g : Gap, ')' ∉ g.text := fun g => g.not_mem (by decide)
  have hname : ')' ∉ name.text := name.not_mem (by decide)
  have hwords : ')' ∉ "rpc".toList ∧ ')' ∉ "returns".toList := by decide
  simp only [List.count_append, List.count_cons, List.count_eq_zero_of_not_mem, hgap, hname,
    g.request.not_closes, g.response.not_closes, hwords, not_false_eq_true]
  decide

theorem unnested_declaration (name : Word) {e : Char} (he : isBlank e = false ∧ e ≠ ')') :
    (declaration name.text e).Unnested := by
  intro u a w b r _ houter hinner
  obtain ⟨front, g, s, hcount, hr, hd⟩ := exists_of_declaration he.1 houter
  obtain ⟨front', g', s', hcount', hr', hd'⟩ := exists_of_declaration he.1 hinner
  obtain rfl : r = s := congrArg Cursor.rest hd
  obtain rfl : b ++ r = s' := congrArg Cursor.rest hd'
  have hw : w = front' ++ ')' :: (g'.text ++ [e]) :=
    List.append_cancel_right (hr'.trans (by simp))
  have hwhole : a ++ (w ++ b) = front ++ ')' :: (g.text ++ [e]) :=
    (List.append_left_inj r).1 (by simpa using hr)
  have hgap : ∀ g : Gap, ')' ∉ g.text ++ [e] := fun g => by
    simp only [List.mem_append, List.mem_singleton, not_or]
    exact ⟨g.not_mem (by decide), Ne.symm he.2⟩
  -- Both matches have two closing parentheses, so none is left for what follows the inner one.
  have hb : ')' ∉ b := by
    have := congrArg (List.count ')') hwhole
    rw [hw] at this
    simp only [List.count_append, List.count_cons_self, hcount, hcount',
      List.count_eq_zero_of_not_mem (hgap g), List.count_eq_zero_of_not_mem (hgap g')] at this
    exact List.count_eq_zero.1 (by omega)
  rw [hw, List.append_assoc, List.cons_append, ← List.append_assoc] at hwhole
  have htail := (eq_of_last (fun h => (List.mem_append.1 h).elim (hgap g') hb) (hgap g) hwhole).2
  rw [List.append_assoc] at htail
  have hlast := append_inj_of_class (p := isBlank) g'.blank g.blank (by simpa using he.1)
    (by simpa using he.1) htail
  exact (List.cons.inj hlast.2).2

/-! ## Heads of options -/

theorem reads_optionHead (name : Text) : (optionHead name).Reads := by
  have hopens := Pattern.reads_skipBlanks (x := '(') (by decide) []
  have hequals := Pattern.reads_skipBlanks (x := '=') (by decide) []
  have hbrace := Pattern.reads_skipBlanks (x := '{') (by decide) []
  exact (Pattern.reads_literal "option".toList).bind (hopens.bind
    ((Pattern.reads_afterBlanks_closedName name (by decide)).bind (hequals.bind hbrace)))

theorem unanchored_optionHead (name : Text) : (optionHead name).Unanchored := by
  have hopens := (Pattern.unanchored_literal ['(']).skipBlanks
  have hequals := (Pattern.unanchored_literal ['=']).skipBlanks
  have hbrace := (Pattern.unanchored_literal ['{']).skipBlanks
  exact (Pattern.unanchored_literal "option".toList).bind (hopens.bind
    ((Pattern.unanchored_closedName name ')').afterBlanks.bind (hequals.bind hbrace)))

theorem HeadGaps.exists_closing (g : HeadGaps) : ∃ t, '{' ∉ t ∧ g.closing = t ++ ['{'] := by
  have hgap : ∀ g : Gap, '{' ∉ g.text := fun g => g.not_mem (by decide)
  refine ⟨g.afterName.text ++ ')' :: (g.afterParenthesis.text ++ '=' :: g.afterEquals.text), ?_, ?_⟩
  · simp [hgap]
  · simp [closing]

/-- A head that begins in another one begins behind the parenthesis of that one. -/
theorem HeadGaps.exists_append {g g' : HeadGaps} {name a b : Text} (ha : a ≠ [])
    (h : a ++ (g'.text name ++ b) = g.text name) :
    ∃ z, z ++ (g'.text name ++ b) = g.beforeName.text ++ (name ++ g.closing) := by
  have hoption : ∀ g : Gap, '(' ∉ "option".toList ++ g.text := fun g => by
    rw [List.mem_append, not_or]
    exact ⟨by decide, g.not_mem (by decide)⟩
  by_cases hopens : '(' ∈ a
  · obtain ⟨a, z, rfl, hfront⟩ := List.eq_append_cons_of_mem hopens
    rw [List.append_assoc, List.cons_append] at h
    exact ⟨z, (eq_of_first hfront (hoption _) h).2⟩
  · rw [text_eq, text_eq, List.append_assoc, ← List.append_assoc a] at h
    have hfront : '(' ∉ a ++ ("option".toList ++ g'.afterOption.text) := fun hmem =>
      (List.mem_append.1 hmem).elim hopens (hoption _)
    exact absurd (eq_of_first hfront (hoption _) h).1 (ne_append_option ha _ _)

/-- Behind the name, a head has one brace only, and ends with it. -/
theorem HeadGaps.eq_nil_of_closing (g : HeadGaps) {name t b : Text} (hlen : name.length ≤ t.length)
    (h : t ++ '{' :: b = name ++ g.closing) : b = [] := by
  obtain ⟨s, hs, hend⟩ := g.exists_closing
  obtain ⟨y, rfl⟩ : name <+: t :=
    List.prefix_of_prefix_length_le ⟨g.closing, h.symm⟩ (List.prefix_append t _) hlen
  rw [List.append_assoc, List.append_right_inj, hend] at h
  obtain ⟨d, -, hd⟩ := exists_append_of_not_mem hs h.symm
  have := congrArg List.length hd
  simp only [List.length_append, List.length_cons, List.length_nil] at this
  exact List.length_eq_zero_iff.1 (by omega)

theorem unnested_optionHead (name : Text) : (optionHead name).Unnested := by
  intro u a w b r ha houter hinner
  obtain ⟨g, s, hr, hd⟩ := exists_gaps_of_optionHead houter
  obtain ⟨g', s', hr', hd'⟩ := exists_gaps_of_optionHead hinner
  obtain rfl : r = s := congrArg Cursor.rest hd
  obtain rfl : b ++ r = s' := congrArg Cursor.rest hd'
  obtain rfl : w = g'.text name := List.append_cancel_right hr'
  have hwhole : a ++ (g'.text name ++ b) = g.text name :=
    (List.append_left_inj r).1 (by simpa using hr)
  obtain ⟨z₁, hz₁⟩ := HeadGaps.exists_append ha hwhole
  -- The inner head begins with no blank and is longer than the name.
  obtain ⟨z, hz⟩ : ∃ z, z ++ (g'.text name ++ b) = name ++ g.closing := by
    rcases List.append_eq_append_iff.1 hz₁ with ⟨y, hy, hname⟩ | ⟨y, -, hname⟩
    · cases y with
      | nil => exact ⟨[], hname⟩
      | cons c y =>
          obtain rfl : 'o' = c := (List.cons.inj hname).1
          exact absurd (g.beforeName.blank 'o' (by simp [hy])) (by decide)
    · exact ⟨y, hname.symm⟩
  obtain ⟨t, -, ht⟩ := g'.exists_closing
  have hbrace : z ++ (g'.text name ++ b) = (z ++ (("option".toList ++ g'.afterOption.text) ++
      '(' :: (g'.beforeName.text ++ (name ++ t)))) ++ '{' :: b := by
    rw [HeadGaps.text_eq, ht]
    simp only [List.append_assoc, List.cons_append, List.nil_append]
  rw [hbrace] at hz
  refine g.eq_nil_of_closing ?_ hz
  simp only [List.length_append, List.length_cons]
  omega

/-! ## Live searches -/

theorem exists_of_findLive {p : Pattern} (hreads : p.Reads) {comments : CommentMap} {text : Text}
    {c d : Cursor} (h : comments.findLive p (.start text) = some (c, d)) :
    ∃ a w r, text = a ++ (w ++ r) ∧ p c = some d ∧ c = between a (w ++ r) ∧
      d = between (a ++ w) r := by
  rw [CommentMap.findLive_eq_findFirst, start_eq_between] at h
  obtain ⟨a, s, rfl, -, rfl, hlive⟩ := exists_of_findFirst h
  have hmatch := CommentMap.of_live_eq_some hlive
  rw [List.nil_append] at hmatch ⊢
  obtain ⟨w, r, rfl, rfl, -⟩ := hreads _ _ _ hmatch
  exact ⟨a, w, r, rfl, hmatch, rfl, rfl⟩

/-- A live search that misses what stands before a match misses it whatever follows the match, as
long as the same characters are commented out. -/
theorem misses_live_congr {p : Pattern} (hreads : p.Reads) (hnest : p.Unnested)
    {comments comments' : CommentMap} {a w r r' : Text}
    (hsame : ∀ b x d, a = b ++ x :: d →
      comments'.contains (byteLength b) = comments.contains (byteLength b))
    (hmatch : p (between a (w ++ r)) = some (between (a ++ w) r))
    (hmiss : Misses (comments.live p) [] a (w ++ r)) :
    Misses (comments'.live p) [] a (w ++ r') := by
  refine misses_of_forall fun v x s hv => ?_
  have hcontains := hsame v x s hv
  subst hv
  cases hc : comments'.contains (byteLength v) with
  | true => exact CommentMap.live_of_contains (by simpa using hc)
  | false =>
      refine CommentMap.live_eq_none ?_
      have hnone := hmiss.eq_none (v := v) (s := x :: s) rfl (by simp)
      rw [CommentMap.live_of_not_contains (by simpa [hc] using hcontains.symm)] at hnone
      exact hreads.eq_none hnest (by simp) hmatch hnone

/-- The first live match stays the first one, whatever follows it, as long as the same characters up
to its end are commented out. -/
theorem findLive_congr {p : Pattern} (hreads : p.Reads) (hnest : p.Unnested)
    {comments comments' : CommentMap} {a w r r' : Text} (hw : w ≠ [])
    (hsame : ∀ b x d, a ++ w = b ++ x :: d →
      comments'.contains (byteLength b) = comments.contains (byteLength b))
    (h : comments.findLive p (.start (a ++ (w ++ r))) =
      some (between a (w ++ r), between (a ++ w) r)) :
    comments'.findLive p (.start (a ++ (w ++ r'))) =
      some (between a (w ++ r'), between (a ++ w) r') := by
  rw [CommentMap.findLive_eq_findFirst, start_eq_between] at h ⊢
  obtain ⟨a', s, htext, hmiss, hplace, hlive⟩ := exists_of_findFirst h
  obtain rfl : w ++ r = s := congrArg Cursor.rest hplace
  obtain rfl : a = a' := List.append_cancel_right htext
  have hmatch := CommentMap.of_live_eq_some hlive
  have hmatch' : p (between a (w ++ r')) = some (between (a ++ w) r') := hreads.append hmatch r'
  have hmiss' : Misses (comments'.live p) [] a (w ++ r') :=
    misses_live_congr hreads hnest (fun b x d hb => hsame b x (d ++ w) (by simp [hb])) hmatch hmiss
  obtain ⟨x, w, rfl⟩ := List.exists_cons_of_ne_nil hw
  rw [findFirst_of_misses hmiss', List.nil_append]
  refine findFirst_of_eq_some ?_
  have hcontains := hsame a x w rfl
  rw [CommentMap.live_of_not_contains, hmatch']
  rw [offset_between, hcontains]
  cases hc : comments.contains (byteLength a) with
  | false => rfl
  | true =>
      rw [CommentMap.live_of_contains (by simpa using hc)] at hlive
      cases hlive

end AccessRules.Source
