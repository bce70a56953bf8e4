import AccessRules.Proofs.Source.Brace
import AccessRules.Proofs.Source.Live
import AccessRules.Proofs.Source.Signature
import AccessRules.Source.OptionBlock

/-!
# Written options

The head of an option as it is written, with any gaps between its tokens, is matched where it begins
(`OptionHead.append`), and whatever is matched is such a head (`exists_of_optionHead`). So the
block behind the first head in a body is the one that is read (`optionBlock_append`).
-/

namespace AccessRules.Source

open AccessRules.Text Cursor

/-- The name of an option: words with points between them. -/
structure OptionName where
  text : Text
  ne_nil : text ≠ []
  dotted : ∀ c ∈ text, isWord c = true ∨ c = '.'

/-- The head of an option, from `option` to the opening brace. -/
structure OptionHead where
  afterOption : Gap
  beforeName : Gap
  name : OptionName
  afterName : Gap
  afterParenthesis : Gap
  afterEquals : Gap

namespace OptionHead

/-- The head up to its opening brace. -/
def stem (h : OptionHead) : Text :=
  "option".toList ++ (h.afterOption.text ++ '(' :: (h.beforeName.text ++ (h.name.text ++
    (h.afterName.text ++ ')' :: (h.afterParenthesis.text ++ '=' :: h.afterEquals.text)))))

/-- The head as it is written. -/
def text (h : OptionHead) : Text :=
  h.stem ++ ['{']

/-- The head of an option with single spaces. -/
def spaced (name : OptionName) : OptionHead :=
  ⟨.space, .none, name, .none, .space, .space⟩

end OptionHead

theorem OptionHead.stem_eq (h : OptionHead) :
    h.stem = "option".toList ++ (h.afterOption.text ++ '(' :: (h.beforeName.text ++ (h.name.text ++
      (h.afterName.text ++ ')' :: (h.afterParenthesis.text ++ '=' :: h.afterEquals.text))))) := rfl

/-- The head of the access option where none is configured. -/
def accessHead : OptionHead :=
  .spaced ⟨defaultOption.toList, by decide, by decide +kernel⟩

theorem OptionName.isBlank_of_head? (name : OptionName) :
    ∀ c ∈ name.text.head?, isBlank c = false := by
  intro c hc
  rcases name.dotted c (List.mem_of_mem_head? hc) with h | rfl
  · exact isBlank_of_isWord h
  · decide

theorem optionHead_eq (name : Text) (c : Cursor) :
    optionHead name c = (do
      let c ← Pattern.literal "option".toList c
      let c ← Pattern.literal ['('] c.skipBlanks
      let c ← Pattern.afterBlanks (Pattern.closedName name ')') c
      let c ← Pattern.literal ['='] c.skipBlanks
      Pattern.literal ['{'] c.skipBlanks) :=
  rfl

/-- The head of an option is matched where it begins. -/
theorem OptionHead.append (h : OptionHead) (u r : Text) :
    optionHead h.name.text (between u (h.text ++ r)) = some (between (u ++ h.text) r) := by
  simp only [optionHead_eq, text, stem_eq, List.append_assoc, List.cons_append, List.nil_append,
    Pattern.literal_append, h.afterOption.skipBlanks_cons (x := '(') (by decide),
    Pattern.literal_cons, h.afterParenthesis.skipBlanks_cons (x := '=') (by decide),
    Pattern.afterBlanks_closedName (x := ')') h.name.ne_nil h.name.isBlank_of_head?
      h.beforeName.blank h.afterName (by decide),
    h.afterEquals.skipBlanks_cons (x := '{') (by decide), Option.bind_eq_bind, Option.bind_some]

/-- The gaps between the tokens in the head of an option. -/
structure HeadGaps where
  afterOption : Gap
  beforeName : Gap
  afterName : Gap
  afterParenthesis : Gap
  afterEquals : Gap

/-- What follows the name in the head of an option. -/
def HeadGaps.closing (g : HeadGaps) : Text :=
  g.afterName.text ++ ')' :: (g.afterParenthesis.text ++ '=' :: (g.afterEquals.text ++ ['{']))

/-- The head of the option called `name` with these gaps. -/
def HeadGaps.text (g : HeadGaps) (name : Text) : Text :=
  ("option".toList ++ g.afterOption.text) ++ '(' :: (g.beforeName.text ++ (name ++ g.closing))

theorem HeadGaps.text_eq (g : HeadGaps) (name : Text) :
    g.text name = ("option".toList ++ g.afterOption.text) ++
      '(' :: (g.beforeName.text ++ (name ++ g.closing)) := rfl

theorem HeadGaps.text_append (g : HeadGaps) (name s : Text) :
    g.text name ++ s = "option".toList ++ (g.afterOption.text ++ '(' :: (g.beforeName.text ++
      (name ++ (g.afterName.text ++ ')' :: (g.afterParenthesis.text ++
        '=' :: (g.afterEquals.text ++ '{' :: s)))))) := by
  simp only [text_eq, closing, List.append_assoc, List.cons_append, List.nil_append]

/-- What stands in front of the brace of the head. -/
def HeadGaps.stem (g : HeadGaps) (name : Text) : Text :=
  "option".toList ++ (g.afterOption.text ++ '(' :: (g.beforeName.text ++ (name ++
    (g.afterName.text ++ ')' :: (g.afterParenthesis.text ++ '=' :: g.afterEquals.text)))))

theorem HeadGaps.stem_eq (g : HeadGaps) (name : Text) :
    g.stem name = "option".toList ++ (g.afterOption.text ++ '(' :: (g.beforeName.text ++ (name ++
      (g.afterName.text ++ ')' :: (g.afterParenthesis.text ++ '=' :: g.afterEquals.text))))) := rfl

theorem HeadGaps.stem_append_brace (g : HeadGaps) (name : Text) :
    g.text name = g.stem name ++ ['{'] := by
  simp only [text_eq, closing, stem_eq, List.append_assoc, List.cons_append]

theorem HeadGaps.not_mem_stem (g : HeadGaps) {name : Text} {c : Char}
    (hc : c = ';' ∨ c = '{' ∨ c = '}') (hname : c ∉ name) : c ∉ g.stem name := by
  have hplain : isWord c = false ∧ isBlank c = false ∧ c ≠ '(' ∧ c ≠ ')' ∧ c ≠ '=' := by
    rcases hc with rfl | rfl | rfl <;> decide
  have hgap : ∀ g : Gap, c ∉ g.text := fun g => g.not_mem hplain.2.1
  have hoption : c ∉ "option".toList := fun ho => by
    have : ∀ x ∈ "option".toList, isWord x = true := by decide
    simp [this c ho] at hplain
  simp only [stem_eq, List.mem_append, List.mem_cons, not_or]
  exact ⟨hoption, hgap _, hplain.2.2.1, hgap _, hname, hgap _, hplain.2.2.2.1, hgap _,
    hplain.2.2.2.2, hgap _⟩

/-- Whatever is matched as the head of an option is its tokens with gaps between them. -/
theorem exists_gaps_of_optionHead {name u r : Text} {d : Cursor}
    (h : optionHead name (between u r) = some d) :
    ∃ (g : HeadGaps) (s : Text), r = g.text name ++ s ∧ d = between (u ++ g.text name) s := by
  rw [optionHead_eq] at h
  obtain ⟨c₁, h₁, h⟩ := Option.bind_eq_some_iff.1 h
  obtain ⟨c₂, h₂, h⟩ := Option.bind_eq_some_iff.1 h
  obtain ⟨c₃, h₃, h⟩ := Option.bind_eq_some_iff.1 h
  obtain ⟨c₄, h₄, h₅⟩ := Option.bind_eq_some_iff.1 h
  obtain ⟨t, rfl, rfl⟩ := Pattern.literal_eq_some_iff.1 h₁
  obtain ⟨g₁, t, rfl, rfl⟩ := Pattern.exists_of_skipBlanks_literal h₂
  obtain ⟨g₂, t, rfl, hg₂, h₃⟩ := Pattern.exists_of_afterBlanks h₃
  obtain ⟨g₃, t, rfl, rfl⟩ := Pattern.exists_of_closedName h₃
  obtain ⟨g₄, t, rfl, rfl⟩ := Pattern.exists_of_skipBlanks_literal h₄
  obtain ⟨g₅, s, rfl, rfl⟩ := Pattern.exists_of_skipBlanks_literal h₅
  refine ⟨⟨g₁, ⟨g₂, hg₂⟩, g₃, g₄, g₅⟩, s, ?_, ?_⟩
  · rw [HeadGaps.text_append]
    simp only [List.cons_append, List.nil_append]
  · rw [← List.append_nil (HeadGaps.text _ name), HeadGaps.text_append]
    simp only [List.append_assoc, List.cons_append, List.nil_append]

/-- The parts of a head in front of its parenthesis and behind it. -/
theorem OptionHead.text_eq (h : OptionHead) : h.text = ("option".toList ++ h.afterOption.text) ++
    '(' :: (h.beforeName.text ++ (h.name.text ++ (h.afterName.text ++
      ')' :: (h.afterParenthesis.text ++ '=' :: (h.afterEquals.text ++ ['{']))))) := by
  simp only [text, stem_eq, List.append_assoc, List.cons_append]

/-- Whatever is matched as the head of an option is a written head. -/
theorem exists_of_optionHead {name : OptionName} {u r : Text} {d : Cursor}
    (h : optionHead name.text (between u r) = some d) :
    ∃ (o : OptionHead) (s : Text), o.name = name ∧ r = o.text ++ s ∧
      d = between (u ++ o.text) s := by
  obtain ⟨g, s, rfl, rfl⟩ := exists_gaps_of_optionHead h
  have htext : OptionHead.text ⟨g.afterOption, g.beforeName, name, g.afterName,
      g.afterParenthesis, g.afterEquals⟩ = g.text name.text := OptionHead.text_eq _
  exact ⟨_, s, rfl, by rw [htext], by rw [htext]⟩

/-- A search for an option misses a text in which no head of it begins. -/
theorem misses_optionHead {name : OptionName} {u w r : Text}
    (h : ∀ a b s, w = a ++ b → b ≠ [] → ∀ o : OptionHead, o.name = name → b ++ r ≠ o.text ++ s) :
    Misses (optionHead name.text) u w r := by
  refine misses_of_forall fun a x b hw => ?_
  cases hd : optionHead name.text (between (u ++ a) (x :: b ++ r)) with
  | none => rfl
  | some d =>
      obtain ⟨o, s, ho, hs, -⟩ := exists_of_optionHead hd
      exact absurd hs (h a (x :: b) s hw (by simp) o ho)

theorem misses_optionHead_of_not_mem {name : OptionName} {u w r : Text} (h : 'o' ∉ w) :
    Misses (optionHead name.text) u w r := by
  refine misses_optionHead fun a b s hw hb o _ heq => ?_
  obtain ⟨x, b, rfl⟩ := List.exists_cons_of_ne_nil hb
  obtain rfl : x = 'o' := (List.cons.inj heq).1
  exact h (by simp [hw])

theorem OptionName.not_mem (name : OptionName) {c : Char} (hc : isWord c = false ∧ c ≠ '.') :
    c ∉ name.text := by
  intro h
  rcases name.dotted c h with hw | rfl
  · simp [hw] at hc
  · exact hc.2 rfl

/-- No statement ends before the brace of an option. -/
theorem OptionHead.not_mem_stem (h : OptionHead) {c : Char}
    (hc : c = ';' ∨ c = '{' ∨ c = '}') : c ∉ h.stem := by
  have hname : c ∉ h.name.text := h.name.not_mem (by rcases hc with rfl | rfl | rfl <;> decide)
  exact HeadGaps.not_mem_stem ⟨h.afterOption, h.beforeName, h.afterName, h.afterParenthesis,
    h.afterEquals⟩ hc hname

theorem OptionHead.balanced_stem (h : OptionHead) : Balanced h.stem :=
  balanced_of_not_mem (h.not_mem_stem (by simp)) (h.not_mem_stem (by simp))

/-- No signature begins in the head of an option. -/
theorem OptionHead.headless (h : OptionHead) (name : Word) (r : Text) :
    Headless name.text h.text r := by
  have hgap : ∀ g : Gap, '(' ∉ g.text := fun g => g.not_mem (by decide)
  have hclosed : '(' ∉ h.beforeName.text ++ (h.name.text ++ h.afterName.text) := by
    simp [hgap, h.name.not_mem (c := '(') (by decide)]
  have hequals : '(' ∉ h.afterParenthesis.text ++ '=' :: h.afterEquals.text := by
    simp [hgap]
  have htext : h.text = ("option".toList ++ (h.afterOption.text ++ ['('])) ++
      (((h.beforeName.text ++ (h.name.text ++ h.afterName.text)) ++ [')']) ++
        ((h.afterParenthesis.text ++ '=' :: h.afterEquals.text) ++ ['{'])) := by
    simp [OptionHead.text, OptionHead.stem_eq]
  rw [htext]
  exact headless_append.2 ⟨headless_word (by decide) h.afterOption,
    headless_append.2 ⟨headless_closed hclosed (by decide), headless_closed hequals (by decide)⟩⟩

/-- What a head begins with in front of its first parenthesis. -/
theorem OptionHead.eq_of_parenthesis (h : OptionHead) {a b s : Text} (ha : '(' ∉ a)
    (heq : a ++ '(' :: b = h.text ++ s) : a = "option".toList ++ h.afterOption.text ∧
      ∃ t, b = h.beforeName.text ++ (h.name.text ++ t) := by
  have hoption : '(' ∉ "option".toList ++ h.afterOption.text := by
    have hgap : '(' ∉ h.afterOption.text := h.afterOption.not_mem (by decide)
    simp [hgap]
  rw [h.text_eq, List.append_assoc] at heq
  obtain ⟨hfront, hback⟩ := eq_of_first ha hoption heq
  refine ⟨hfront, h.afterName.text ++ ')' :: (h.afterParenthesis.text ++
    '=' :: (h.afterEquals.text ++ '{' :: s)), ?_⟩
  simpa using hback

/-- No head of an option begins in front of another one. -/
theorem ne_append_option {b : Text} (hb : b ≠ []) (g g' : Gap) :
    b ++ ("option".toList ++ g.text) ≠ "option".toList ++ g'.text := by
  intro heq
  have hlen := List.length_pos_iff.2 hb
  have hleft : (b ++ ("option".toList ++ g.text))[b.length + 5]? = some 'n' := by
    rw [List.getElem?_append_right (by omega), Nat.add_sub_cancel_left]
    rfl
  have hlength : "option".toList.length ≤ b.length + 5 := by
    have : "option".toList.length = 6 := by decide
    omega
  rw [heq, List.getElem?_append_right hlength] at hleft
  exact absurd (g'.blank 'n' (List.mem_of_getElem? hleft)) (by decide)

/-- No head begins in a text without parentheses in front of a head. -/
theorem OptionHead.misses_of_not_mem (h : OptionHead) {name : OptionName} {u w r : Text}
    (hw : '(' ∉ w) : Misses (optionHead name.text) u w (h.text ++ r) := by
  refine misses_optionHead fun a b s hab hb o _ heq => ?_
  have hgap : '(' ∉ h.afterOption.text := h.afterOption.not_mem (by decide)
  have hfront : '(' ∉ b ++ ("option".toList ++ h.afterOption.text) := by
    simp only [hab, List.mem_append, not_or] at hw ⊢
    exact ⟨hw.2, by decide, hgap⟩
  rw [h.text_eq, List.append_assoc, ← List.append_assoc] at heq
  exact ne_append_option hb h.afterOption o.afterOption (o.eq_of_parenthesis hfront heq).1

/-- No head of an option begins in front of a parenthesis behind which its name does not stand. -/
theorem misses_before_parenthesis {name : OptionName} {u w z : Text} (hw : '(' ∉ w)
    (hz : ∀ (g : Gap) (t : Text), z ≠ g.text ++ (name.text ++ t)) :
    Misses (optionHead name.text) u w ('(' :: z) := by
  refine misses_optionHead fun a b s hab _ o ho heq => ?_
  have hb : '(' ∉ b := fun h => hw (by simp [hab, h])
  obtain ⟨-, t, ht⟩ := o.eq_of_parenthesis hb heq
  exact hz o.beforeName t (ho ▸ ht)

/-- The block behind the first live head of an option is read. -/
theorem optionBlock_append {o : OptionHead} {lead rest : Text} {name : String} (method : String)
    (hname : name.toList = o.name.text)
    (hlead : Misses (optionHead o.name.text) [] lead (o.text ++ rest))
    (hlive : (CommentMap.ofText (lead ++ (o.text ++ rest))).contains (byteLength lead) = false) :
    optionBlock name method (lead ++ (o.text ++ rest)) =
      match closingIndex? 0 rest with
      | none => .error (.unmatchedBraces s!"authz block of method {method}")
      | some n => .ok (stripComments (rest.take n)) := by
  have hfind : (CommentMap.ofText (lead ++ (o.text ++ rest))).findLive (optionHead o.name.text)
      (.start (lead ++ (o.text ++ rest))) =
        some (between lead (o.text ++ rest), between (lead ++ o.text) rest) := by
    rw [CommentMap.findLive_eq_findFirst, start_eq_between,
      findFirst_of_misses (hlead.mono fun c hc => CommentMap.live_eq_none hc), List.nil_append]
    refine findFirst_of_eq_some ?_
    rw [CommentMap.live_of_not_contains (by simpa using hlive), o.append]
  rw [optionBlock, hname, hfind]
  rfl

end AccessRules.Source
