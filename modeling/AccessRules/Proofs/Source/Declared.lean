import AccessRules.Proofs.Source.Signature
import AccessRules.Proofs.Text.Reads

/-!
# Signatures with any types

What stands between the parentheses of a signature is taken as it is, up to the first closing one.
A declaration is matched at a place exactly if a signature of this form is written there, no word
goes on up to the place, and the signature is followed by the character that ends it
(`declaration_eq_some_iff`).
-/

namespace AccessRules.Source

open AccessRules.Text Cursor

/-- What stands between an opening parenthesis and the first closing one. -/
structure Enclosed where
  text : Text
  not_closes : ')' ∉ text

/-- The parts of a signature of `name` beside the name, with any text for its types. -/
structure OpaqueSignature (name : Word) where
  afterRpc : Gap
  afterRpc_ne_nil : afterRpc.text ≠ []
  afterName : Gap
  request : Enclosed
  afterRequest : Gap
  afterReturns : Gap
  response : Enclosed
  afterResponse : Gap

variable {name : Word}

/-- The signature as it is written. -/
def OpaqueSignature.text (s : OpaqueSignature name) : Text :=
  "rpc".toList ++ (s.afterRpc.text ++ (name.text ++ (s.afterName.text ++ '(' ::
    (s.request.text ++ ')' :: (s.afterRequest.text ++ ("returns".toList ++ (s.afterReturns.text ++
      '(' :: (s.response.text ++ ')' :: s.afterResponse.text))))))))

theorem OpaqueSignature.text_append (s : OpaqueSignature name) (r : Text) :
    s.text ++ r = "rpc".toList ++ (s.afterRpc.text ++ (name.text ++ (s.afterName.text ++ '(' ::
      (s.request.text ++ ')' :: (s.afterRequest.text ++ ("returns".toList ++ (s.afterReturns.text ++
        '(' :: (s.response.text ++ ')' :: (s.afterResponse.text ++ r))))))))) := by
  simp only [text, List.append_assoc, List.cons_append]

theorem declaration_eq (method : Text) (e : Char) (c : Cursor) :
    declaration method e c = if c.atWordStart then
      (signatureHead method c).bind fun c =>
      (Pattern.through [')'] c).bind fun c =>
      (Pattern.literal "returns".toList c.skipBlanks).bind fun c =>
      (Pattern.literal ['('] c.skipBlanks).bind fun c =>
      (Pattern.through [')'] c).bind fun c =>
      Pattern.literal [e] c.skipBlanks else none := by
  rw [declaration, signature_eq]
  split
  · simp only [signatureTypes, Option.bind_eq_bind, Option.bind_assoc, Option.pure_def,
      Option.bind_some]
  · rfl

theorem Enclosed.through_append (a : Enclosed) (u r : Text) :
    Pattern.through [')'] (between u (a.text ++ ')' :: r)) =
      some (between (u ++ (a.text ++ [')'])) r) :=
  Pattern.through_append (Pattern.misses_literal_of_not_mem a.not_closes)

theorem OpaqueSignature.declaration_append (s : OpaqueSignature name) {e : Char}
    (he : isBlank e = false) {u : Text} (hu : Boundary u) (r : Text) :
    declaration name.text e (between u (s.text ++ e :: r)) =
      some (between (u ++ (s.text ++ [e])) r) := by
  obtain ⟨b, g, hg⟩ := List.exists_cons_of_ne_nil s.afterRpc_ne_nil
  have hblank : ∀ c ∈ b :: g, isBlank c = true := hg ▸ s.afterRpc.blank
  have hname := fun r => Pattern.afterBlanks_closedName (g := g) (x := '(') name.ne_nil
    (by simpa using name.isBlank_of_head? []) (fun c hc => hblank c (by simp [hc])) s.afterName
    (by decide) (u ++ "rpc".toList ++ [b]) r
  have hreturns : ∀ t : Text, ∀ c ∈ ("returns".toList ++ t).head?, isBlank c = false := by
    intro t c hc
    obtain rfl : c = 'r' := by simpa using hc.symm
    decide
  rw [declaration_eq, if_pos (atWordStart_between.2 hu)]
  simp only [signatureHead, text, hg, List.append_assoc, List.cons_append, List.nil_append,
    Pattern.literal_append, Option.bind_eq_bind, Option.bind_some,
    Pattern.blank_cons (hblank b (by simp))] at hname ⊢
  simp only [hname, Option.bind_some, s.request.through_append,
    s.afterRequest.skipBlanks_append (hreturns _), Pattern.literal_append,
    s.afterReturns.skipBlanks_cons (x := '(') (by decide), Pattern.literal_cons,
    s.response.through_append, s.afterResponse.skipBlanks_cons he, List.append_assoc,
    List.cons_append, List.nil_append]

theorem exists_opaqueSignature {e : Char} {u r : Text} {d : Cursor}
    (h : declaration name.text e (between u r) = some d) :
    Boundary u ∧ ∃ (s : OpaqueSignature name) (rest : Text), r = s.text ++ e :: rest := by
  rw [declaration_eq] at h
  split at h
  · rename_i hstart
    obtain ⟨c₁, hhead, h⟩ := Option.bind_eq_some_iff.1 h
    obtain ⟨c₂, hrequest, h⟩ := Option.bind_eq_some_iff.1 h
    obtain ⟨c₃, hreturns, h⟩ := Option.bind_eq_some_iff.1 h
    obtain ⟨c₄, hopens, h⟩ := Option.bind_eq_some_iff.1 h
    obtain ⟨c₅, hresponse, hends⟩ := Option.bind_eq_some_iff.1 h
    obtain ⟨c, hrpc, hhead⟩ := Option.bind_eq_some_iff.1 hhead
    obtain ⟨f, hblank, hname⟩ := Option.bind_eq_some_iff.1 hhead
    obtain ⟨t, rfl, rfl⟩ := Pattern.literal_eq_some_iff.1 hrpc
    obtain ⟨b, t, hb, rfl, rfl⟩ := Pattern.exists_of_blank hblank
    obtain ⟨g₁, g₂, t, rfl, rfl, -⟩ := Pattern.exists_of_afterBlanks_closedName (by decide) hname
    obtain ⟨request, t, hrequest', rfl, rfl⟩ := Pattern.exists_of_through_char hrequest
    obtain ⟨g₃, t, rfl, rfl⟩ := Pattern.exists_of_skipBlanks_literal hreturns
    obtain ⟨g₄, t, rfl, rfl⟩ := Pattern.exists_of_skipBlanks_literal hopens
    obtain ⟨response, t, hresponse', rfl, rfl⟩ := Pattern.exists_of_through_char hresponse
    obtain ⟨g₅, rest, rfl, -⟩ := Pattern.exists_of_skipBlanks_literal hends
    have hgap : ∀ c ∈ b :: g₁.text, isBlank c = true := by simpa [hb] using g₁.blank
    refine ⟨atWordStart_between.1 hstart, ⟨⟨b :: g₁.text, hgap⟩, by simp, g₂,
      ⟨request, hrequest'⟩, g₃, g₄, ⟨response, hresponse'⟩, g₅⟩, rest, ?_⟩
    simp [OpaqueSignature.text]
  · cases h

/-- What a declaration is at a place. -/
theorem declaration_eq_some_iff {e : Char} (he : isBlank e = false) {u r : Text} {d : Cursor} :
    declaration name.text e (between u r) = some d ↔ Boundary u ∧
      ∃ (s : OpaqueSignature name) (rest : Text), r = s.text ++ e :: rest ∧
        d = between (u ++ (s.text ++ [e])) rest := by
  constructor
  · intro h
    obtain ⟨hu, s, rest, rfl⟩ := exists_opaqueSignature h
    rw [s.declaration_append he hu, Option.some.injEq] at h
    exact ⟨hu, s, rest, rfl, h.symm⟩
  · rintro ⟨hu, s, rest, rfl, rfl⟩
    exact s.declaration_append he hu rest

end AccessRules.Source
