import AccessRules.Proofs.Source.Brace
import AccessRules.Proofs.Source.Live
import AccessRules.Proofs.Source.Signature

/-!
# Definition files in parts

A definition file as it is written: methods with their bodies, and the text between them. If no part
in front of a method reads as the head of one with the same name, the search finds that method
(`locate_written`); if no part at all does, the method is not found (`locate_eq_notFound`).
-/

namespace AccessRules.Source

open AccessRules.Text Cursor

/-- A part of a definition file. -/
inductive Part where
  /-- Text between methods. -/
  | between (text : Text)
  /-- A method and the text between its braces. -/
  | method (signature : Signature) (body : Text)

namespace Part

/-- The part as it is written. -/
def text : Part → Text
  | between text => text
  | method signature body => signature.text ++ '{' :: (body ++ ['}'])

/-- Whether the part declares no method called `name` and never reads as if it did. -/
def Silent (name : Word) : Part → Prop
  | between text => ∀ r, Headless name.text text r
  | method signature body =>
    signature.name.text ≠ name.text ∧ ∀ r, Headless name.text body r

end Part

/-- The text of a file. -/
def written (parts : List Part) : Text :=
  parts.flatMap Part.text

@[simp] theorem written_nil : written [] = [] := rfl

@[simp] theorem written_cons (part : Part) (parts : List Part) :
    written (part :: parts) = part.text ++ written parts := rfl

@[simp] theorem written_append (parts parts' : List Part) :
    written (parts ++ parts') = written parts ++ written parts' :=
  List.flatMap_append

section

variable {name : Word} {part : Part} {parts : List Part}

theorem Part.Silent.headless (h : part.Silent name) (r : Text) :
    Headless name.text part.text r := by
  cases part with
  | between text => exact h r
  | method signature body =>
      have hbody : Headless name.text (body ++ ['}']) r :=
        headless_append.2 ⟨h.2 _, headless_of_not_mem (by decide)⟩
      have hopening : Headless name.text ['{'] ((body ++ ['}']) ++ r) :=
        headless_of_not_mem (by decide)
      exact headless_append.2 ⟨signature.headless h.1, headless_append.2 ⟨hopening, hbody⟩⟩

theorem headless_written (h : ∀ part ∈ parts, part.Silent name) (r : Text) :
    Headless name.text (written parts) r := by
  induction parts with
  | nil => trivial
  | cons part parts ih =>
      rw [List.forall_mem_cons] at h
      exact headless_append.2 ⟨h.1.headless _, ih h.2⟩

theorem boundary_written (h : ∀ part ∈ parts, Boundary part.text) : Boundary (written parts) := by
  induction parts with
  | nil => exact boundary_nil
  | cons part parts ih =>
      rw [List.forall_mem_cons] at h
      exact h.1.append (ih h.2)

theorem Part.boundary_method (signature : Signature) (body : Text) :
    Boundary (method signature body).text := by
  rw [text, ← List.cons_append, ← List.append_assoc]
  exact boundary_concat _ (by decide)

end

/-! ## Searches in written files -/

section

variable {name : Word} {comments : CommentMap}

theorem not_heads_nil (name : Text) : ¬ Heads name [] := by
  rintro ⟨_, _, _, _, _, _, h⟩
  cases h

theorem declaration_nil (name : Text) (e : Char) (u : Text) :
    declaration name e (Cursor.between u []) = none := by
  cases hd : declaration name e (Cursor.between u []) with
  | none => rfl
  | some d =>
      obtain ⟨c, hs, -⟩ := Option.bind_eq_some_iff.1 hd
      exact absurd (heads_of_signature hs) (not_heads_nil _)

theorem findLive_eq_none_of_misses {text : Text} {e : Char}
    (h : Misses (comments.live (declaration name.text e)) [] text []) :
    comments.findLive (declaration name.text e) (.start text) = none := by
  rw [CommentMap.findLive_eq_findFirst, start_eq_between]
  exact findFirst_eq_none h (CommentMap.live_eq_none (declaration_nil _ _ _))

theorem Headless.misses_live {w r : Text} (h : Headless name.text w r) (e : Char) (u : Text) :
    Misses (comments.live (declaration name.text e)) u w r :=
  (h.misses e u).mono fun _ => CommentMap.live_eq_none

/-- Where no head of a method begins, no declaration of it is found. -/
theorem findLive_eq_none {text : Text} (h : Headless name.text text []) (e : Char) :
    comments.findLive (declaration name.text e) (.start text) = none :=
  findLive_eq_none_of_misses (h.misses_live e [])

theorem locate_eq_notFound {text : Text} (h : Headless name.text text []) :
    locate text name.text = .notFound := by
  rw [locate, findLive_eq_none h, findLive_eq_none h]

variable {pre post : List Part} {signature : Signature} {body : Text}

/-- The first method with a name is found, if its signature is not commented out. -/
theorem findLive_written (hsilent : ∀ part ∈ pre, part.Silent signature.name)
    (hpre : Boundary (written pre))
    (hlive : comments.contains (byteLength (written pre)) = false) :
    comments.findLive (declaration signature.name.text '{')
        (.start (written (pre ++ .method signature body :: post))) =
      some (Cursor.between (written pre) (signature.text ++ '{' :: (body ++ '}' :: written post)),
        Cursor.between (written pre ++ (signature.text ++ ['{']))
          (body ++ '}' :: written post)) := by
  have hmiss : Misses (comments.live (declaration signature.name.text '{')) [] (written pre)
      (signature.text ++ '{' :: (body ++ '}' :: written post)) :=
    (headless_written hsilent _).misses_live '{' []
  have hmatch := signature.declaration_append (e := '{') (by decide) hpre
    (body ++ '}' :: written post)
  have htext : written (pre ++ .method signature body :: post) =
      written pre ++ (signature.text ++ '{' :: (body ++ '}' :: written post)) := by
    simp [Part.text]
  rw [CommentMap.findLive_eq_findFirst, start_eq_between, htext, findFirst_of_misses hmiss,
    List.nil_append]
  refine findFirst_of_eq_some ?_
  rw [CommentMap.live_of_not_contains (by simpa using hlive), hmatch]

/-- The first method with a name is cut off at the brace that closes its body. -/
theorem locate_written (hsilent : ∀ part ∈ pre, part.Silent signature.name)
    (hpre : Boundary (written pre))
    (hlive : (CommentMap.ofText (written (pre ++ .method signature body :: post))).contains
      (byteLength (written pre)) = false) :
    locate (written (pre ++ .method signature body :: post)) signature.name.text =
      match closingIndex? 0 (body ++ '}' :: written post) with
      | some n => .block ((body ++ '}' :: written post).take n)
      | none => .unmatched := by
  rw [locate, findLive_written hsilent hpre hlive]
  rfl

/-- The first method with a name is found with its own body, if its braces are balanced. -/
theorem locate_eq_block (hsilent : ∀ part ∈ pre, part.Silent signature.name)
    (hpre : Boundary (written pre))
    (hlive : (CommentMap.ofText (written (pre ++ .method signature body :: post))).contains
      (byteLength (written pre)) = false)
    (hbody : Balanced body) :
    locate (written (pre ++ .method signature body :: post)) signature.name.text = .block body := by
  rw [locate_written hsilent hpre hlive, hbody.closingIndex?_eq]
  simp

/-- A declaration that begins inside a comment is not found, if no other part could be taken for
it. -/
theorem findLive_eq_none_of_contains (hpre : ∀ part ∈ pre, part.Silent signature.name)
    (hbody : ∀ r, Headless signature.name.text body r)
    (hpost : ∀ part ∈ post, part.Silent signature.name)
    (hcontains : comments.contains (byteLength (written pre)) = true) (e : Char) :
    comments.findLive (declaration signature.name.text e)
      (.start (written (pre ++ .method signature body :: post))) = none := by
  obtain ⟨t, ht, htail⟩ := signature.exists_headless_tail
  have htext : written (pre ++ .method signature body :: post) =
      written pre ++ 'r' :: (t ++ '{' :: (body ++ '}' :: written post)) := by
    simp [Part.text, ht]
  have hrest : Headless signature.name.text (t ++ '{' :: (body ++ '}' :: written post)) [] := by
    have hbrace : ∀ c ∈ ['{', '}'], ∀ r, Headless signature.name.text [c] r := fun c hc r =>
      headless_of_not_mem (by revert c; decide)
    have hclosed := headless_append.2 ⟨hbrace '}' (by simp) _, headless_written hpost []⟩
    have hopened := headless_append.2 ⟨hbody _, hclosed⟩
    exact headless_append.2 ⟨htail _ _, headless_append.2 ⟨hbrace '{' (by simp) _, hopened⟩⟩
  have hhere : Misses (comments.live (declaration signature.name.text e)) ([] ++ written pre)
      ('r' :: (t ++ '{' :: (body ++ '}' :: written post))) [] :=
    ⟨CommentMap.live_of_contains (by simpa using hcontains), hrest.misses_live e _⟩
  have hbefore : Misses (comments.live (declaration signature.name.text e)) [] (written pre)
      ('r' :: (t ++ '{' :: (body ++ '}' :: written post)) ++ []) :=
    (headless_written hpre _).misses_live e []
  rw [htext]
  exact findLive_eq_none_of_misses (misses_append.2 ⟨hbefore, hhere⟩)

theorem locate_eq_notFound_of_contains (hpre : ∀ part ∈ pre, part.Silent signature.name)
    (hbody : ∀ r, Headless signature.name.text body r)
    (hpost : ∀ part ∈ post, part.Silent signature.name)
    (hcontains : (CommentMap.ofText (written (pre ++ .method signature body :: post))).contains
      (byteLength (written pre)) = true) :
    locate (written (pre ++ .method signature body :: post)) signature.name.text = .notFound := by
  have hnone := findLive_eq_none_of_contains hpre hbody hpost hcontains
  rw [locate, hnone, hnone]

end

end AccessRules.Source
