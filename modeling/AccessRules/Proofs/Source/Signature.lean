import AccessRules.Proofs.Text.Token
import AccessRules.Source.Declaration

/-!
# Written signatures

A signature as it is written, with any gaps between its tokens, is matched where it begins
(`Signature.declaration_append`). Nothing else is: a declaration of `name` can only begin where the
text reads `rpc`, `name` and an opening parenthesis (`Heads`), and no such head begins within the
signature of another method (`Signature.headless`).
-/

namespace AccessRules.Source

open AccessRules.Text Cursor

/-- What stands between two parentheses. -/
structure Argument where
  text : Text
  not_opens : '(' ∉ text
  not_closes : ')' ∉ text

/-- A name between parentheses. -/
def Argument.ofWord (w : Word) : Argument where
  text := w.text
  not_opens := w.not_mem (by decide)
  not_closes := w.not_mem (by decide)

/-- The signature of a method, from `rpc` to the last blank before what follows it. -/
structure Signature where
  afterRpc : Gap
  afterRpc_ne_nil : afterRpc.text ≠ []
  name : Word
  afterName : Gap
  request : Argument
  afterRequest : Gap
  afterReturns : Gap
  response : Argument
  afterResponse : Gap

namespace Signature

/-- A signature with single spaces. -/
def spaced (name : Word) (request response : Argument) : Signature where
  afterRpc := .space
  afterRpc_ne_nil := Gap.space_ne_nil
  name := name
  afterName := .none
  request := request
  afterRequest := .space
  afterReturns := .space
  response := response
  afterResponse := .space

/-- The signature up to and with its first parenthesis. -/
def head (s : Signature) : Text :=
  "rpc".toList ++ (s.afterRpc.text ++ (s.name.text ++ (s.afterName.text ++ ['('])))

/-- The signature from behind its first parenthesis. -/
def types (s : Signature) : Text :=
  s.request.text ++ ')' :: (s.afterRequest.text ++ ("returns".toList ++ (s.afterReturns.text ++
    '(' :: (s.response.text ++ ')' :: s.afterResponse.text))))

/-- The signature as it is written. -/
def text (s : Signature) : Text :=
  s.head ++ s.types

/-- A mark that is no parenthesis only occurs in the types. -/
theorem not_mem_text {s : Signature} {c : Char} (hc : isWord c = false ∧ isBlank c = false)
    (hmark : c ≠ '(' ∧ c ≠ ')') (hrequest : c ∉ s.request.text) (hresponse : c ∉ s.response.text) :
    c ∉ s.text := by
  have hgap : ∀ g : Gap, c ∉ g.text := fun g => g.not_mem hc.2
  have hreturns : ∀ x ∈ "rpc".toList ++ "returns".toList, isWord x = true := by decide
  have hfixed : c ∉ "rpc".toList ++ "returns".toList := fun h => by simp [hreturns c h] at hc
  rw [List.mem_append, not_or] at hfixed
  simp only [text, head, types, List.mem_append, List.mem_cons, List.not_mem_nil, or_false, not_or]
  exact ⟨⟨hfixed.1, hgap _, s.name.not_mem hc.1, hgap _, hmark.1⟩, hrequest, hmark.2, hgap _,
    hfixed.2, hgap _, hmark.1, hresponse, hmark.2, hgap _⟩

end Signature

/-! ## The match of a signature -/

theorem Argument.through_append (a : Argument) (u r : Text) :
    Pattern.through [')'] (between u (a.text ++ ')' :: r)) =
      some (between (u ++ (a.text ++ [')'])) r) :=
  Pattern.through_append (Pattern.misses_literal_of_not_mem a.not_closes)

/-- From `rpc` to the first parenthesis of a signature. -/
def signatureHead (method : Text) : Pattern := fun c => do
  let c ← Pattern.literal "rpc".toList c
  let c ← Pattern.blank c
  Pattern.afterBlanks (Pattern.closedName method '(') c

/-- A signature from behind its first parenthesis. -/
def signatureTypes : Pattern := fun c => do
  let c ← Pattern.through [')'] c
  let c ← Pattern.literal "returns".toList c.skipBlanks
  let c ← Pattern.literal ['('] c.skipBlanks
  let c ← Pattern.through [')'] c
  return c.skipBlanks

theorem signature_eq (method : Text) (c : Cursor) :
    signature method c =
      if c.atWordStart then (signatureHead method c).bind signatureTypes else none := by
  simp only [signature, signatureHead, Option.bind_eq_bind, Option.bind_assoc,
    Pattern.guard_bind]
  rfl

namespace Signature

variable (s : Signature) {u r : Text}

theorem head_append (u r : Text) :
    signatureHead s.name.text (between u (s.head ++ r)) = some (between (u ++ s.head) r) := by
  obtain ⟨b, g, hg⟩ := List.exists_cons_of_ne_nil s.afterRpc_ne_nil
  have hblank : ∀ c ∈ b :: g, isBlank c = true := hg ▸ s.afterRpc.blank
  have hname := Pattern.afterBlanks_closedName (g := g) (x := '(') s.name.ne_nil
    (by simpa using s.name.isBlank_of_head? []) (fun c hc => hblank c (by simp [hc])) s.afterName
    (by decide) (u ++ "rpc".toList ++ [b]) r
  simp only [signatureHead, head, hg, List.append_assoc, List.cons_append, List.nil_append,
    Pattern.literal_append, Option.bind_eq_bind, Option.bind_some,
    Pattern.blank_cons (hblank b (by simp))] at hname ⊢
  exact hname

theorem types_append (hr : ∀ c ∈ r.head?, isBlank c = false) :
    signatureTypes (between u (s.types ++ r)) = some (between (u ++ s.types) r) := by
  have hreturns : ∀ t : Text, ∀ c ∈ ("returns".toList ++ t).head?, isBlank c = false := by
    intro t c hc
    obtain rfl : c = 'r' := by simpa using hc.symm
    decide
  simp only [signatureTypes, types, List.append_assoc, List.cons_append, s.request.through_append,
    s.afterRequest.skipBlanks_append (hreturns _), Pattern.literal_append,
    s.afterReturns.skipBlanks_cons (x := '(') (by decide), Pattern.literal_cons,
    s.response.through_append, s.afterResponse.skipBlanks_append hr, Option.bind_eq_bind,
    Option.bind_some, Option.pure_def, List.nil_append]

/-- A signature is matched where it begins. -/
theorem signature_append (hu : Boundary u) (hr : ∀ c ∈ r.head?, isBlank c = false) :
    signature s.name.text (between u (s.text ++ r)) = some (between (u ++ s.text) r) := by
  rw [signature_eq, if_pos (atWordStart_between.2 hu), text, List.append_assoc, s.head_append,
    Option.bind_some, s.types_append hr, List.append_assoc]

theorem declaration_append {e : Char} (he : isBlank e = false) (hu : Boundary u) (r : Text) :
    declaration s.name.text e (between u (s.text ++ e :: r)) =
      some (between (u ++ (s.text ++ [e])) r) := by
  rw [declaration, s.signature_append hu (by simpa using he), Option.bind_some,
    Pattern.literal_cons, List.append_assoc]

end Signature

/-! ## Where a signature can begin -/

/-- Whether a text begins with `rpc`, the name and an opening parenthesis. -/
def Heads (name r : Text) : Prop :=
  ∃ g g' s : Text, g ≠ [] ∧ (∀ c ∈ g, isBlank c = true) ∧ (∀ c ∈ g', isBlank c = true) ∧
    r = "rpc".toList ++ (g ++ (name ++ (g' ++ '(' :: s)))

theorem heads_of_signature {method u r : Text} {d : Cursor}
    (h : signature method (between u r) = some d) : Heads method r := by
  rw [signature_eq] at h
  split at h
  · obtain ⟨e, hhead, -⟩ := Option.bind_eq_some_iff.1 h
    obtain ⟨c, hrpc, hhead⟩ := Option.bind_eq_some_iff.1 hhead
    obtain ⟨f, hblank, hname⟩ := Option.bind_eq_some_iff.1 hhead
    obtain ⟨t, rfl, rfl⟩ := Pattern.literal_eq_some_iff.1 hrpc
    obtain ⟨b, t, hb, rfl, rfl⟩ := Pattern.exists_of_blank hblank
    obtain ⟨g, t, rfl, hg, hname⟩ := Pattern.exists_of_afterBlanks hname
    obtain ⟨g', s, rfl, -⟩ := Pattern.exists_of_closedName hname
    exact ⟨b :: g, g'.text, s, by simp, by simpa [hb] using hg, g'.blank, by simp⟩
  · cases h

/-- No signature of `name` can begin in `w`, where `r` follows it. -/
def Headless (name : Text) : (w r : Text) → Prop
  | [], _ => True
  | x :: w, r => ¬ Heads name (x :: (w ++ r)) ∧ Headless name w r

section

variable {name v w r : Text}

theorem headless_append :
    Headless name (v ++ w) r ↔ Headless name v (w ++ r) ∧ Headless name w r := by
  induction v with
  | nil => simp [Headless]
  | cons x v ih => simp [Headless, ih, and_assoc]

theorem Headless.misses (h : Headless name w r) (e : Char) (u : Text) :
    Misses (declaration name e) u w r := by
  induction w generalizing u with
  | nil => trivial
  | cons x w ih =>
      refine ⟨?_, ih h.2 _⟩
      cases hd : declaration name e (between u (x :: (w ++ r))) with
      | none => rfl
      | some d =>
          obtain ⟨c, hs, -⟩ := Option.bind_eq_some_iff.1 hd
          exact absurd (heads_of_signature hs) h.1

/-- Where `r` does not occur, no signature begins. -/
theorem headless_of_not_mem (h : 'r' ∉ w) : Headless name w r := by
  induction w with
  | nil => trivial
  | cons x w ih =>
      simp only [List.mem_cons, not_or] at h
      refine ⟨?_, ih h.2⟩
      rintro ⟨g, g', s, -, -, -, hr⟩
      exact h.1 (List.cons.inj hr).1.symm

end

theorem headless_gap (g : Gap) (name r : Text) : Headless name g.text r :=
  headless_of_not_mem (g.not_mem (by decide))

section

variable {name : Word} {w r : Text}

/-- Only word characters and blanks stand before the parenthesis of a head. -/
theorem Heads.exists_words (h : Heads name.text r) :
    ∃ p s : Text, (∀ c ∈ p, isWord c = true ∨ isBlank c = true) ∧ r = p ++ '(' :: s := by
  obtain ⟨g, g', s, -, hg, hg', rfl⟩ := h
  refine ⟨"rpc".toList ++ (g ++ (name.text ++ g')), s, fun c hc => ?_, by simp⟩
  simp only [List.mem_append] at hc
  rcases hc with hc | hc | hc | hc
  · have hrpc : ∀ x ∈ "rpc".toList, isWord x = true := by decide
    exact .inl (hrpc c hc)
  · exact .inr (hg c hc)
  · exact .inl (name.word c hc)
  · exact .inr (hg' c hc)

/-- A head does not go beyond a character that is no part of it. -/
theorem not_heads_of_closed {c : Char} (hw : '(' ∉ w)
    (hc : isWord c = false ∧ isBlank c = false ∧ c ≠ '(') : ¬ Heads name.text (w ++ c :: r) := by
  intro h
  obtain ⟨p, s, hp, heq⟩ := h.exists_words
  rcases List.append_eq_append_iff.1 heq with ⟨t, rfl, ht⟩ | ⟨t, rfl, ht⟩
  · cases t with
    | nil => exact hc.2.2 (List.cons.inj ht).1
    | cons x t =>
        obtain ⟨rfl, -⟩ := List.cons.inj ht
        have := hp c (by simp)
        simp [hc.1, hc.2.1] at this
  · cases t with
    | nil => exact hc.2.2 (List.cons.inj ht).1.symm
    | cons x t =>
        obtain ⟨rfl, -⟩ := List.cons.inj ht
        exact hw (by simp)

theorem headless_closed {c : Char} (hw : '(' ∉ w)
    (hc : isWord c = false ∧ isBlank c = false ∧ c ≠ '(') :
    Headless name.text (w ++ [c]) r := by
  induction w with
  | nil => exact ⟨not_heads_of_closed (w := []) hw hc, trivial⟩
  | cons x w ih =>
      refine ⟨?_, ih fun h => hw (by simp [h])⟩
      have hhere : ¬ Heads name.text ((x :: w) ++ c :: r) := not_heads_of_closed hw hc
      simpa using hhere

/-- One word before a parenthesis is no head. -/
theorem not_heads_of_word (hw : ∀ c ∈ w, isWord c = true) (g : Gap) :
    ¬ Heads name.text (w ++ (g.text ++ '(' :: r)) := by
  rintro ⟨g₁, g₂, s, hne, hg₁, hg₂, heq⟩
  obtain ⟨b, t, rfl⟩ := List.exists_cons_of_ne_nil hne
  have hrpc : ∀ c ∈ "rpc".toList, isWord c = true := by decide
  have hword := append_inj_of_class (p := isWord) hw hrpc (g.isWord_of_head? (by simp; decide))
    (by simpa using isWord_of_isBlank (hg₁ b (by simp))) heq
  obtain ⟨x, t', hx, hxw⟩ := name.exists_cons
  have hgap := append_inj_of_class (p := isBlank) g.blank hg₁ (by simp; decide)
    (by simpa [hx] using isBlank_of_isWord hxw) hword.2
  rw [hx, List.cons_append] at hgap
  rw [← (List.cons.inj hgap.2).1] at hxw
  exact absurd hxw (by decide)

theorem headless_word (hw : ∀ c ∈ w, isWord c = true) (g : Gap) :
    Headless name.text (w ++ (g.text ++ ['('])) r := by
  induction w with
  | nil =>
      rw [List.nil_append, headless_append]
      exact ⟨headless_gap g _ _, headless_of_not_mem (by decide)⟩
  | cons x w ih =>
      refine ⟨?_, ih fun c hc => hw c (by simp [hc])⟩
      have hhere : ¬ Heads name.text ((x :: w) ++ (g.text ++ '(' :: r)) := not_heads_of_word hw g
      simpa using hhere

/-- Behind the first character of a signature no head begins. -/
theorem Signature.exists_headless_tail (s : Signature) :
    ∃ t, s.text = 'r' :: t ∧ ∀ (name : Word) (r : Text), Headless name.text t r := by
  refine ⟨('p' :: 'c' :: s.afterRpc.text) ++ ((s.name.text ++ (s.afterName.text ++ ['('])) ++
    ((s.request.text ++ [')']) ++ (s.afterRequest.text ++
      (("returns".toList ++ (s.afterReturns.text ++ ['('])) ++
        ((s.response.text ++ [')']) ++ s.afterResponse.text))))), ?_, fun name r => ?_⟩
  · simp [Signature.text, Signature.head, Signature.types]
  · have hpc : 'r' ∉ 'p' :: 'c' :: s.afterRpc.text := by
      have : 'r' ∉ s.afterRpc.text := s.afterRpc.not_mem (by decide)
      simpa using this
    have hresponse : Headless name.text ((s.response.text ++ [')']) ++ s.afterResponse.text) r :=
      headless_append.2 ⟨headless_closed s.response.not_opens (by decide), headless_gap _ _ _⟩
    have hword : Headless name.text ("returns".toList ++ (s.afterReturns.text ++ ['(']))
        (((s.response.text ++ [')']) ++ s.afterResponse.text) ++ r) :=
      headless_word (by decide) s.afterReturns
    have hreturns := headless_append.2 ⟨hword, hresponse⟩
    have htypes := headless_append.2 ⟨headless_closed (c := ')') s.request.not_opens (by decide),
      headless_append.2 ⟨headless_gap s.afterRequest _ _, hreturns⟩⟩
    exact headless_append.2 ⟨headless_of_not_mem hpc,
      headless_append.2 ⟨headless_word s.name.word s.afterName, htypes⟩⟩

/-- The head of another method begins nowhere in a signature. -/
theorem Signature.headless (s : Signature) (h : s.name.text ≠ name.text) :
    Headless name.text s.text r := by
  have hstart : ¬ Heads name.text (s.text ++ r) := by
    rintro ⟨g₁, g₂, t, hne, hg₁, hg₂, heq⟩
    rw [Signature.text, Signature.head, List.append_assoc, List.append_assoc,
      List.append_cancel_left_eq] at heq
    simp only [List.append_assoc] at heq
    have hgap := append_inj_of_class (p := isBlank) s.afterRpc.blank hg₁
      (s.name.isBlank_of_head? _) (name.isBlank_of_head? _) heq
    have hname := append_inj_of_class (p := isWord) s.name.word name.word
      (s.afterName.isWord_of_head? (by simp; decide))
      (Gap.isWord_of_head? ⟨g₂, hg₂⟩ (by simp; decide)) hgap.2
    exact h hname.1
  obtain ⟨t, ht, htail⟩ := s.exists_headless_tail
  rw [ht] at hstart ⊢
  exact ⟨hstart, htail name r⟩

end

end AccessRules.Source
