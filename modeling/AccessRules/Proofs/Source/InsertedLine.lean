import AccessRules.Proofs.Source.CommentPlace
import AccessRules.Proofs.Source.Located

/-!
# Lines put in front of a method

A stub or a line comment that is put in front of the method that is located hides nothing
(`locate_insert`). It is no declaration with a body itself; a declaration that begins in front of it
cannot go on through it, as long as no parenthesis is left open there; and what is commented out
stays so.
-/

namespace AccessRules.Source

open AccessRules.Text Cursor Phase

/-! ## Lines that declare no body -/

/-- A stub of some method, or a comment that takes the whole line. -/
inductive DeclaresNoBody : Text → Prop
  | stub {indent : Text} (hindent : ∀ c ∈ indent, isIndent c = true) (s : Signature) :
      DeclaresNoBody (indent ++ (s.text ++ [';']))
  | comment {indent : Text} (hindent : ∀ c ∈ indent, isIndent c = true) (body : Text) :
      DeclaresNoBody (indent ++ '/' :: '/' :: body)

theorem Signature.heads (s : Signature) (r : Text) : Heads s.name.text (s.text ++ r) :=
  ⟨s.afterRpc.text, s.afterName.text, s.types ++ r, s.afterRpc_ne_nil, s.afterRpc.blank,
    s.afterName.blank, by simp [text, head]⟩

theorem Signature.exists_cons (s : Signature) : ∃ t, s.text = 'r' :: 'p' :: 'c' :: t :=
  ⟨_, rfl⟩

namespace DeclaresNoBody

variable {line r t : Text} {g : Gap} (hline : DeclaresNoBody line)

include hline

/-- What is visible of the line begins with a slash or with a signature. -/
theorem eq_of_gap (ht : ∀ c ∈ t.head?, isBlank c = false) (h : line ++ r = g.text ++ t) :
    (∃ b, t = '/' :: b) ∨ ∃ (s : Signature) (b : Text), t = s.text ++ b := by
  have hvisible : ∀ {i y : Text}, (∀ c ∈ i, isIndent c = true) →
      (∀ c ∈ y.head?, isBlank c = false) → i ++ y = g.text ++ t → y = t := fun hi hy heq =>
    (append_inj_of_class (p := isBlank) (fun c hc => isBlank_of_isIndent (hi c hc)) g.blank hy ht
      heq).2
  cases hline with
  | stub hindent s =>
      obtain ⟨z, hz⟩ := s.exists_cons
      rw [List.append_assoc] at h
      refine .inr ⟨s, [';'] ++ r, (hvisible hindent ?_ h).symm.trans (List.append_assoc ..)⟩
      rw [hz]
      rintro c ⟨⟩
      decide
  | comment hindent body =>
      rw [List.append_assoc] at h
      refine .inl ⟨_, (hvisible hindent ?_ h).symm⟩
      rintro c ⟨⟩
      decide

theorem ne_character {c : Char} {s : Text} (hc : isBlank c = false ∧ c ≠ '/' ∧ c ≠ 'r') :
    line ++ r ≠ g.text ++ ([c] ++ s) := by
  intro h
  rcases hline.eq_of_gap (by simpa using hc.1) h with ⟨b, hb⟩ | ⟨sig, b, hb⟩
  · exact hc.2.1 (List.cons.inj hb).1
  · exact hc.2.2 (List.cons.inj hb).1

theorem ne_returns {s : Text} : line ++ r ≠ g.text ++ ("returns".toList ++ s) := by
  intro h
  rcases hline.eq_of_gap (by rintro c ⟨⟩; decide) h with ⟨b, hb⟩ | ⟨sig, b, hb⟩
  · exact absurd (List.cons.inj hb).1 (by decide)
  · exact absurd (List.cons.inj (List.cons.inj hb).2).1 (by decide)

/-- No name with a parenthesis behind it is the first that is visible. -/
theorem ne_name {name : Word} {g' : Gap} {s : Text} :
    line ++ r ≠ g.text ++ (name.text ++ (g'.text ++ '(' :: s)) := by
  intro h
  rcases hline.eq_of_gap (name.isBlank_of_head? _) h with ⟨b, hb⟩ | ⟨sig, b, hb⟩
  · obtain ⟨x, t, hx, hword⟩ := name.exists_cons
    rw [hx] at hb
    obtain rfl : x = '/' := (List.cons.inj hb).1
    exact absurd hword (by decide)
  · exact not_heads_of_word name.word g' (hb ▸ sig.heads b)

end DeclaresNoBody

/-! ## Declarations in front of the line -/

section

variable {a z t s : Text}

theorem last_of_append {u : Text} (h : ∀ c ∈ (u ++ a).getLast?, c = '\n') :
    ∀ c ∈ a.getLast?, c = '\n' := by
  intro c hc
  refine h c ?_
  rw [List.getLast?_append, Option.mem_def.1 hc]
  rfl

/-- Whole lines do not end within a token. -/
theorem cut_token (ha : ∀ c ∈ a.getLast?, c = '\n') (hne : a ≠ []) (ht : '\n' ∉ t)
    (h : a ++ z = t ++ s) :
    ∃ a', (∀ c ∈ a'.getLast?, c = '\n') ∧ a = t ++ a' ∧ a' ++ z = s := by
  rcases List.append_eq_append_iff.1 h with ⟨c, rfl, hz⟩ | ⟨a', rfl, hs⟩
  · obtain ⟨b, x, rfl⟩ := (List.eq_nil_or_concat a).resolve_left hne
    obtain rfl : x = '\n' := ha x (by simp)
    exact absurd (by simp) ht
  · exact ⟨a', last_of_append ha, rfl, hs.symm⟩

/-- If they end in a gap, the token behind the gap is the first that is visible behind them. -/
theorem cut_gap {g : Gap} (ha : ∀ c ∈ a.getLast?, c = '\n') (ht : '\n' ∉ t)
    (hz : ∀ g' : Gap, z ≠ g'.text ++ (t ++ s)) (h : a ++ z = g.text ++ (t ++ s)) :
    ∃ a', (∀ c ∈ a'.getLast?, c = '\n') ∧ a = g.text ++ (t ++ a') ∧ a' ++ z = s := by
  rcases List.append_eq_append_iff.1 h with ⟨c, hg, hzc⟩ | ⟨b, rfl, hb⟩
  · exact absurd hzc (hz ⟨c, fun x hx => g.blank x (by simp [hg, hx])⟩)
  · by_cases hnil : b = []
    · exact absurd (by simpa [hnil] using hb.symm) (hz .none)
    · obtain ⟨a', ha', rfl, hs⟩ := cut_token (last_of_append ha) hnil ht hb.symm
      exact ⟨a', ha', rfl, hs⟩

/-- They do not end between parentheses that are closed in them. -/
theorem cut_enclosed {e : Enclosed} (ha : ∀ c ∈ a.getLast?, c = '\n') (hclosed : ')' ∈ a)
    (h : a ++ z = e.text ++ ')' :: s) :
    ∃ a', (∀ c ∈ a'.getLast?, c = '\n') ∧ a = e.text ++ ([')'] ++ a') ∧ a' ++ z = s := by
  obtain ⟨b, a', rfl, hb⟩ := List.eq_append_cons_of_mem hclosed
  rw [List.append_assoc, List.cons_append] at h
  obtain ⟨rfl, hs⟩ := eq_of_first hb e.not_closes h
  rw [← List.singleton_append] at ha ⊢
  exact ⟨a', last_of_append (last_of_append ha), rfl, hs⟩

end

/-- A declaration that begins in front of the line ends in front of it. -/
theorem OpaqueSignature.cut {name : Word} (s : OpaqueSignature name) {a line r z : Text}
    (hline : DeclaresNoBody line) (ha : ∀ c ∈ a.getLast?, c = '\n') (hne : a ≠ [])
    (hparens : ∀ b c, a = b ++ '(' :: c → ')' ∈ c)
    (h : a ++ (line ++ z) = s.text ++ '{' :: r) : ∃ a', a = s.text ++ '{' :: a' := by
  rw [s.text_append] at h
  obtain ⟨a₁, h₁, rfl, hrpc⟩ := cut_token ha hne (by decide) h
  obtain ⟨a₂, h₂, rfl, hname⟩ := cut_gap h₁ (name.not_mem (by decide))
    (fun g => hline.ne_name) hrpc
  obtain ⟨a₃, h₃, rfl, hopens⟩ := cut_gap (t := ['(']) h₂ (by decide)
    (fun g => hline.ne_character (by decide)) hname
  obtain ⟨a₄, h₄, rfl, hrequest⟩ := cut_enclosed h₃
    (hparens ("rpc".toList ++ (s.afterRpc.text ++ (name.text ++ s.afterName.text))) _ (by simp))
    hopens
  obtain ⟨a₅, h₅, rfl, hreturns⟩ := cut_gap h₄ (by decide) (fun g => hline.ne_returns) hrequest
  obtain ⟨a₆, h₆, rfl, hopens'⟩ := cut_gap (t := ['(']) h₅ (by decide)
    (fun g => hline.ne_character (by decide)) hreturns
  obtain ⟨a₇, h₇, rfl, hresponse⟩ := cut_enclosed h₆
    (hparens ("rpc".toList ++ (s.afterRpc.text ++ (name.text ++ (s.afterName.text ++ '(' ::
      (s.request.text ++ ')' :: (s.afterRequest.text ++ ("returns".toList ++
        s.afterReturns.text))))))) _ (by simp)) hopens'
  obtain ⟨a₈, -, rfl, -⟩ := cut_gap (t := ['{']) h₇ (by decide)
    (fun g => hline.ne_character (by decide)) hresponse
  exact ⟨a₈, by simp [text]⟩

/-! ## Declarations behind whole lines -/

theorem boundary_append_of_line {p : Text} (hp : ∀ c ∈ p.getLast?, c = '\n') (a : Text) :
    Boundary (p ++ a) ↔ Boundary a := by
  by_cases ha : a = []
  · refine ha ▸ iff_of_true (fun c hc => ?_) boundary_nil
    rw [hp c (by simpa using hc)]
    decide
  · exact boundary_append_iff ha

theorem OpaqueSignature.exists_cons {name : Word} (s : OpaqueSignature name) :
    ∃ t, s.text = 'r' :: t :=
  ⟨_, rfl⟩

/-- What is declared behind whole lines depends on them only in whether they leave a block comment
open. -/
theorem LiveDeclaration.of_lines {p p' rest a r : Text} {name : Word} {e : Char}
    (h : LiveDeclaration (p ++ rest) name e (p ++ a) r) (hp : ∀ c ∈ p.getLast?, c = '\n')
    (hp' : ∀ c ∈ p'.getLast?, c = '\n')
    (hphase : Phase.live.after p rest = Phase.live.after p' rest) :
    LiveDeclaration (p' ++ rest) name e (p' ++ a) r := by
  obtain ⟨hboundary, ⟨s, hs⟩, hlive⟩ := h
  rw [List.append_assoc, List.append_cancel_left_eq] at hs
  subst hs
  refine ⟨?_, ⟨s, by rw [List.append_assoc]⟩, ?_⟩
  · rwa [boundary_append_of_line hp', ← boundary_append_of_line hp]
  · obtain ⟨t, ht⟩ := s.exists_cons
    rw [ht, List.cons_append] at hlive hphase ⊢
    rwa [← contains_behind_lines hp hp' (by decide) hphase]

/-! ## Declarations in the line -/

namespace DeclaresNoBody

variable {front : Text} (hfront : ∀ c ∈ front.getLast?, c = '\n')

include hfront

/-- In a line comment nothing is live that begins with a letter. -/
theorem contains_comment {indent body v s : Text} (hindent : ∀ c ∈ indent, isIndent c = true)
    (hbody : '\n' ∉ body) (hline : (indent ++ '/' :: '/' :: body) ++ ['\n'] = v ++ 'r' :: s)
    (rest : Text) :
    (CommentMap.ofText (front ++ v ++ 'r' :: rest)).contains (byteLength (front ++ v)) = true := by
  have hslashes : 'r' ∉ indent ++ ['/', '/'] := by
    simp only [List.mem_append, not_or]
    exact ⟨fun h => absurd (hindent _ h) (by decide), by decide⟩
  obtain ⟨b, rfl, hb⟩ := exists_append_of_not_mem (y := body ++ ['\n']) hslashes
    (by simpa using hline)
  have hbegins : b <+: body := by
    have hlength := congrArg List.length hb
    simp only [List.length_append, List.length_cons, List.length_nil] at hlength
    exact List.prefix_of_prefix_length_le ⟨_, hb.symm⟩ (List.prefix_append _ _) (by omega)
  have hcomment : InLineComment (front ++ (indent ++ ['/', '/'] ++ b)) :=
    ⟨front, indent, b, by simp, hfront, hindent, fun h => hbody (hbegins.subset h)⟩
  exact (contains_iff (by decide)).2 (.inl hcomment)

/-- A stub is no declaration with a body, and none begins behind its first letter. -/
theorem misses_stub {indent : Text} (hindent : ∀ c ∈ indent, isIndent c = true) (s : Signature)
    (name : Word) (rest : Text) :
    Misses (declaration name.text '{') front (indent ++ (s.text ++ [';']) ++ ['\n']) rest := by
  have hboundary : Boundary (front ++ indent) := by
    refine (boundary_append_of_line hfront indent).2 ?_
    exact Gap.boundary ⟨indent, fun c hc => isBlank_of_isIndent (hindent c hc)⟩
  have hletter : 'r' ∉ indent := fun h => absurd (hindent _ h) (by decide)
  obtain ⟨t, ht, htail⟩ := s.exists_headless_tail
  have hstart : declaration name.text '{' (between (front ++ indent)
      (s.text ++ (([';'] ++ ['\n']) ++ rest))) = none := by
    by_cases hname : s.name.text = name.text
    · rw [declaration, ← hname, s.signature_append hboundary (by rintro c ⟨⟩; decide)]
      rfl
    · have hmiss := (s.headless (r := ([';'] ++ ['\n']) ++ rest) hname).misses '{' (front ++ indent)
      rw [ht] at hmiss ⊢
      exact hmiss.1
  rw [ht, List.cons_append] at hstart
  have hsignature : Misses (declaration name.text '{') (front ++ indent) s.text
      (([';'] ++ ['\n']) ++ rest) := by
    rw [ht]
    exact ⟨hstart, (htail name _).misses '{' _⟩
  have hend : ∀ u, Misses (declaration name.text '{') u ([';'] ++ ['\n']) rest := fun u =>
    (headless_of_not_mem (by decide)).misses '{' u
  rw [List.append_assoc, List.append_assoc]
  exact misses_append.2 ⟨(headless_of_not_mem hletter).misses '{' _,
    misses_append.2 ⟨hsignature, hend _⟩⟩

theorem misses {line : Text} (hline : DeclaresNoBody line) (hone : '\n' ∉ line) (name : Word)
    (rest : Text) :
    Misses ((CommentMap.ofText (front ++ (line ++ ['\n'] ++ rest))).live
      (declaration name.text '{')) front (line ++ ['\n']) rest := by
  cases hline with
  | stub hindent s =>
      exact (misses_stub hfront hindent s name rest).mono fun _ => CommentMap.live_eq_none
  | comment hindent body =>
      have hbody : '\n' ∉ body := fun h => hone (by simp [h])
      refine misses_of_forall fun v x s hv => ?_
      by_cases hx : x = 'r'
      · subst hx
        refine CommentMap.live_of_contains ?_
        have hcontains := contains_comment hfront hindent hbody hv (s ++ rest)
        rw [hv]
        simpa using hcontains
      · have hother : Headless name.text [x] (s ++ rest) :=
          headless_of_not_mem (by simpa using Ne.symm hx)
        exact CommentMap.live_eq_none (hother.misses '{' _).1

end DeclaresNoBody

/-! ## The text with the line -/

/-- A line that declares no body, in which no block comment begins or ends. -/
structure BodilessLine where
  text : Text
  bodiless : DeclaresNoBody text
  one_line : '\n' ∉ text
  not_opens : ¬ ['/', '*'] <:+: text
  not_ends : ¬ ['*', '/'] <:+: text

namespace BodilessLine

variable (line : BodilessLine) {front : Text} (hfront : ∀ c ∈ front.getLast?, c = '\n')

theorem not_infix {m : Text} (hm : m = ['/', '*'] ∨ m = ['*', '/']) :
    ¬ m <:+: line.text ++ ['\n'] := by
  have hline : ¬ m <:+: line.text := by
    rcases hm with rfl | rfl
    · exact line.not_opens
    · exact line.not_ends
  have hplain : '\n' ∉ m ∧ ¬ m <:+: [] := by
    rcases hm with rfl | rfl <;> decide
  exact fun h => (infix_append_cons hplain.1 h).elim hline hplain.2

theorem closes_append (r : Text) : closes (line.text ++ '\n' :: r) = closes r := by
  rw [closes_line, closes_eq_false_iff.2 line.not_ends, Bool.false_or]

include hfront

theorem after_behind (r : Text) :
    live.after (front ++ (line.text ++ ['\n'])) r = live.after front r := by
  have hsame : live.after front (line.text ++ '\n' :: r) = live.after front r :=
    after_line_congr hfront (line.closes_append r)
  rw [after_append, List.append_assoc, List.singleton_append, hsame, after_append,
    List.singleton_append, after, after_nil, List.nil_append]
  rcases after_line_eq_live_or_inside (r := r) hfront with hphase | hphase
  · rw [hphase, after_live_of_not_infix (line.not_infix (.inl rfl)), next_lineFeed (.inl rfl)]
  · rw [hphase, after_inside_of_not_infix (line.not_infix (.inr rfl)), next_lineFeed (.inr rfl)]

theorem contains_front {a b : Text} {x : Char} (h : front = a ++ x :: b) (rest : Text) :
    (CommentMap.ofText (front ++ (line.text ++ '\n' :: rest))).contains (byteLength a) =
      (CommentMap.ofText (front ++ rest)).contains (byteLength a) := by
  obtain ⟨l, y, hl⟩ := (List.eq_nil_or_concat front).resolve_left (by simp [h])
  obtain rfl : y = '\n' := hfront y (by simp [hl])
  rw [List.concat_eq_append] at hl
  have hcongr := contains_congr (line.closes_append rest) (hl.symm.trans h)
  rwa [hl, List.append_assoc, List.append_assoc, List.singleton_append, List.singleton_append]

/-- What is declared in front of the line is declared there without it. -/
theorem exists_of_front {rest v r : Text} {name : Word}
    (hparens : ∀ a b, front = a ++ '(' :: b → ')' ∈ b)
    (h : LiveDeclaration (front ++ (line.text ++ '\n' :: rest)) name '{' v r)
    (hv : v.length < front.length) :
    ∃ r', LiveDeclaration (front ++ rest) name '{' v r' := by
  obtain ⟨a, hne, rfl⟩ := h.exists_append_of_lt hv
  obtain ⟨hboundary, ⟨s, hs⟩, hlive⟩ := h
  rw [List.append_assoc, List.append_cancel_left_eq] at hs
  obtain ⟨a', rfl⟩ := s.cut line.bodiless (last_of_append hfront) hne
    (fun b c hbc => hparens (v ++ b) c (by simp [hbc])) hs
  obtain ⟨t, ht⟩ := s.exists_cons
  refine ⟨a' ++ rest, hboundary, ⟨s, by simp⟩, ?_⟩
  rwa [← line.contains_front hfront (by rw [ht, List.cons_append])]

/-- Nothing that is declared begins in the line. -/
theorem misses (rest : Text) (name : Word) :
    Misses ((CommentMap.ofText (front ++ (line.text ++ '\n' :: rest))).live
      (declaration name.text '{')) front (line.text ++ ['\n']) rest := by
  rw [← List.singleton_append, ← List.append_assoc line.text]
  exact line.bodiless.misses hfront line.one_line name rest

/-- The first declaration behind the line is the first one without it. -/
theorem firstDeclaration {rest a r : Text} {name : Word}
    (hparens : ∀ a b, front = a ++ '(' :: b → ')' ∈ b)
    (h : FirstDeclaration (front ++ rest) name '{' (front ++ a) r) :
    FirstDeclaration (front ++ (line.text ++ '\n' :: rest)) name '{'
      (front ++ (line.text ++ ['\n']) ++ a) r := by
  have hlines : ∀ c ∈ (front ++ (line.text ++ ['\n'])).getLast?, c = '\n' := by simp
  have hphase := line.after_behind hfront rest
  have htext : front ++ (line.text ++ '\n' :: rest) =
      front ++ (line.text ++ ['\n']) ++ rest := by simp
  constructor
  · rw [htext]
    exact h.toLiveDeclaration.of_lines hfront hlines hphase.symm
  · intro v s hv
    by_cases hlt : v.length < front.length
    · obtain ⟨r', hr'⟩ := line.exists_of_front hfront hparens hv hlt
      have := h.first v r' hr'
      rw [List.length_append] at this
      omega
    · have hmiss := line.misses hfront rest name
      rw [htext, List.append_assoc] at hv hmiss
      have hlength := (hv.length_of_misses (by decide) hmiss).resolve_left hlt
      rw [← List.length_append] at hlength
      rw [← List.append_assoc] at hv
      obtain ⟨b, rfl⟩ := hv.exists_append_of_le hlength
      have := h.first _ s (hv.of_lines hlines hfront hphase)
      simp only [List.length_append] at this ⊢
      omega

end BodilessLine

/-- A stub or a line comment in front of the first declaration with a body changes nothing about the
body that is located. -/
theorem locate_insert {front rest body : Text} {name : Word} (line : BodilessLine)
    (hfront : ∀ c ∈ front.getLast?, c = '\n')
    (hparens : ∀ a b, front = a ++ '(' :: b → ')' ∈ b)
    (hbehind : ∀ u r, LiveDeclaration (front ++ rest) name '{' u r → front.length ≤ u.length)
    (hlocate : locate (front ++ rest) name.text = .block body) :
    locate (front ++ (line.text ++ '\n' :: rest)) name.text = .block body := by
  obtain ⟨u, r, after, hfirst, hr, hbody⟩ := locate_block_iff.1 hlocate
  have hlive := hfirst.toLiveDeclaration
  obtain ⟨a, rfl⟩ := hlive.exists_append_of_le (hbehind u r hlive)
  have hinserted := line.firstDeclaration hfront hparens hfirst
  exact locate_block_iff.2 ⟨_, r, after, hinserted, hr, hbody⟩

/-- If the last parenthesis closes, every one that opens is followed by one that closes. -/
theorem closes_of_last {front w t : Text} (h : front = w ++ ')' :: t) (ht : '(' ∉ t) :
    ∀ a b, front = a ++ '(' :: b → ')' ∈ b := by
  rintro a b rfl
  rcases List.append_eq_append_iff.1 h with ⟨d, -, hd⟩ | ⟨d, -, hd⟩
  · cases d with
    | nil => exact absurd (List.cons.inj hd).1 (by decide)
    | cons c d =>
        obtain ⟨-, rfl⟩ := List.cons.inj hd
        simp
  · exact absurd (by simp [hd] : '(' ∈ ')' :: t) (by simp [ht])

/-- A declaration with a body that is commented out. -/
def commentedOut : BodilessLine where
  text := "  ".toList ++ '/' :: '/' :: " rpc Put(A) returns (B) \x7b".toList
  bodiless := .comment (by decide) _
  one_line := by decide
  not_opens := by decide
  not_ends := by decide

def stubbed : Word :=
  ⟨"Put".toList, by decide, by decide⟩

/-- A stub without a blank before its end. -/
def stubSignature : Signature :=
  { Signature.spaced stubbed (.ofWord stubbed) (.ofWord stubbed) with afterResponse := .none }

def stub : BodilessLine where
  text := [] ++ (stubSignature.text ++ [';'])
  bodiless := .stub (by decide) stubSignature
  one_line := by decide
  not_opens := by decide
  not_ends := by decide

/-- A service up to its second method. -/
def serviceBegun : Text :=
  "service S \x7b\n/* old:\nrpc Put(A) returns (B) \x7b \x7d */\nrpc PutAll(A) returns (B".toList ++
    ')' :: ";\n".toList

def serviceEnded : Text :=
  "rpc Put(A) returns (B) \x7b option (a) = \x7b \x7d; \x7d\n\x7d\n".toList

/-- Neither of the two lines hides the body behind them. -/
theorem locate_commentedOut_stub :
    locate (serviceBegun ++ serviceEnded) stubbed.text =
        .block " option (a) = \x7b \x7d; ".toList ∧
      locate (serviceBegun ++ (commentedOut.text ++ '\n' :: serviceEnded)) stubbed.text =
        .block " option (a) = \x7b \x7d; ".toList ∧
      locate (serviceBegun ++ (stub.text ++ '\n' :: serviceEnded)) stubbed.text =
        .block " option (a) = \x7b \x7d; ".toList := by
  have hlast : serviceBegun.getLast? = some '\n' := rfl
  have hfront : ∀ c ∈ serviceBegun.getLast?, c = '\n' := by simp [hlast]
  have hparens : ∀ a b, serviceBegun = a ++ '(' :: b → ')' ∈ b := closes_of_last rfl (by decide)
  have hmiss : Misses ((CommentMap.ofText ([] ++ (serviceBegun ++ serviceEnded))).live
      (declaration stubbed.text '{')) [] serviceBegun serviceEnded := by decide +kernel
  have hbehind : ∀ u r, LiveDeclaration (serviceBegun ++ serviceEnded) stubbed '{' u r →
      serviceBegun.length ≤ u.length := by
    intro u r h
    have hlength := LiveDeclaration.length_of_misses (u := []) (by decide) h hmiss
    rw [List.length_nil, Nat.zero_add] at hlength
    exact hlength.resolve_left (Nat.not_lt_zero _)
  have hlocate : locate (serviceBegun ++ serviceEnded) stubbed.text =
      .block " option (a) = \x7b \x7d; ".toList := by decide +kernel
  exact ⟨hlocate, locate_insert commentedOut hfront hparens hbehind hlocate,
    locate_insert stub hfront hparens hbehind hlocate⟩

end AccessRules.Source
