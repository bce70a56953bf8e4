import AccessRules.Proofs.Source.CommentPlace
import AccessRules.Proofs.Source.FirstMatch

/-!
# Comments behind option statements

What is read from the body of a method when `//` and some text are put behind its statements. The
text is commented out if `//` is the first that is visible in its line or a block comment is open;
behind live text it stays live. So the option that is read stays the same unless a head of it begins
in live text behind `//`, and then it is the one behind that head
(`optionBlock_trailingComment`).
-/

namespace AccessRules.Source

open AccessRules.Text Cursor Phase

/-! ## Contents of options at places -/

/-- The contents of an option behind its opening brace, if another brace closes them. -/
def contentsFrom? (opening : Cursor) : Option Text :=
  (closingIndex? 0 opening.rest).map fun n => opening.rest.take n

/-- The contents of the option whose live head begins at a place. -/
def contentsAt? (comments : CommentMap) (name : Text) (c : Cursor) : Option (Option Text) :=
  (comments.live (optionHead name) c).map contentsFrom?

theorem optionBlock_eq (name method : String) (body : Text) :
    optionBlock name method body =
      match ((Cursor.start body).findFirst
        (contentsAt? (CommentMap.ofText body) name.toList)).map (·.2) with
      | none => .error (.optionNotFound method)
      | some none => .error (.unmatchedBraces s!"authz block of method {method}")
      | some (some contents) => .ok (stripComments contents) := by
  unfold contentsAt?
  rw [optionBlock, CommentMap.findLive_eq_findFirst, findFirst_map]
  cases (Cursor.start body).findFirst ((CommentMap.ofText body).live (optionHead name.toList)) with
  | none => rfl
  | some found =>
      simp only [Option.map_some, contentsFrom?]
      cases closingIndex? 0 found.2.rest <;> rfl

theorem optionHead_eq_none_of_ne {name u r : Text} {x : Char} (hx : x ≠ 'o') :
    optionHead name (between u (x :: r)) = none := by
  refine Option.eq_none_iff_forall_ne_some.2 fun d h => hx ?_
  obtain ⟨g, s, hs, -⟩ := exists_gaps_of_optionHead h
  rw [g.text_append] at hs
  exact (List.cons.inj hs).1

theorem contentsAt?_eq_none {comments : CommentMap} {name : Text} {c : Cursor}
    (h : optionHead name c = none) : contentsAt? comments name c = none := by
  rw [contentsAt?, CommentMap.live_eq_none h, Option.map_none]

/-- At places that are both live or both commented out, the same option is found if the head and
what follows it are the same. -/
theorem contentsAt?_congr {comments comments' : CommentMap} {name : Text} {c c' : Cursor}
    (hlive : comments.contains c.offset = comments'.contains c'.offset)
    (hcontents : (optionHead name c).map contentsFrom? = (optionHead name c').map contentsFrom?) :
    contentsAt? comments name c = contentsAt? comments' name c' := by
  rw [contentsAt?, contentsAt?, CommentMap.live, CommentMap.live, hlive]
  split
  · rfl
  · exact hcontents

/-! ## Option statements -/

/-- A statement that sets an option to a braced value. -/
structure OptionStatement where
  lead : Gap
  head : HeadGaps
  name : Text
  contents : Text
  afterBlock : Gap
  not_opens : '{' ∉ name
  not_closes : '}' ∉ name
  balanced : Balanced contents

def OptionStatement.text (s : OptionStatement) : Text :=
  s.lead.text ++ (s.head.text s.name ++ (s.contents ++ '}' :: (s.afterBlock.text ++ [';'])))

theorem OptionStatement.balanced_text (s : OptionStatement) : Balanced s.text := by
  have hstem : Balanced (s.head.stem s.name) :=
    balanced_of_not_mem (s.head.not_mem_stem (by simp) s.not_opens)
      (s.head.not_mem_stem (by simp) s.not_closes)
  have hend : Balanced (s.afterBlock.text ++ [';']) :=
    (balanced_gap s.afterBlock).append (balanced_of_not_mem (by decide) (by decide))
  have htext : s.text = s.lead.text ++ (s.head.stem s.name ++
      '{' :: (s.contents ++ '}' :: (s.afterBlock.text ++ [';']))) := by
    rw [text, HeadGaps.stem_append_brace, List.append_assoc, List.singleton_append]
  rw [htext]
  exact (balanced_gap s.lead).append (hstem.append (.braces s.balanced hend))

/-- Statements that set options, one behind the other. -/
structure OptionStatements where
  statements : List OptionStatement
  trail : Gap

namespace OptionStatements

variable (x : OptionStatements)

def text : Text :=
  x.statements.flatMap OptionStatement.text ++ x.trail.text

theorem balanced_text : Balanced x.text := by
  have hall : ∀ statements : List OptionStatement,
      Balanced (statements.flatMap OptionStatement.text) := by
    intro statements
    induction statements with
    | nil => exact .nil
    | cons s statements ih => exact s.balanced_text.append ih
  exact (hall x.statements).append (balanced_gap x.trail)

/-- Behind a visible character of the statements one of them ends. -/
theorem exists_end {x : OptionStatements} {a b : Text} {c : Char} (hc : isBlank c = false ∧ c ≠ ';')
    (h : x.text = a ++ c :: b) : ∃ d e, b = d ++ ';' :: e := by
  have htrail : c ∉ x.trail.text := x.trail.not_mem hc.1
  rcases List.eq_nil_or_concat x.statements with hnil | ⟨statements, s, hs⟩
  · rw [text, hnil, List.flatMap_nil, List.nil_append] at h
    exact absurd (h ▸ by simp) htrail
  · have htext : x.text = (statements.flatMap OptionStatement.text ++ (s.lead.text ++
        (s.head.text s.name ++ (s.contents ++ '}' :: s.afterBlock.text)))) ++
          ';' :: x.trail.text := by
      simp [text, hs, OptionStatement.text]
    rw [htext] at h
    rcases List.append_eq_append_iff.1 h with ⟨z, -, hz⟩ | ⟨z, -, hz⟩
    · have : c ∈ ';' :: x.trail.text := by simp [hz]
      exact absurd this (by simp [hc.2, htrail])
    · cases z with
      | nil => exact absurd (List.cons.inj hz).1 hc.2
      | cons y z => exact ⟨z, x.trail.text, (List.cons.inj hz).2⟩

/-- An option whose head begins within the statements is the same whatever follows them. -/
theorem exists_contents {x : OptionStatements} {name a b r : Text} {d : Cursor} (hname : ';' ∉ name)
    (hx : x.text = a ++ 'o' :: b) (h : optionHead name (between a ('o' :: b ++ r)) = some d) :
    ∃ contents, ∀ s, (optionHead name (between a ('o' :: b ++ s))).map contentsFrom? =
      some (some contents) := by
  obtain ⟨e, e', rfl⟩ := exists_end (by decide) hx
  obtain ⟨w, t, hr, hd, hany⟩ := reads_optionHead name _ _ _ h
  obtain ⟨g, t', hr', hd'⟩ := exists_gaps_of_optionHead h
  obtain rfl : t = t' := congrArg Cursor.rest (hd.symm.trans hd')
  obtain rfl : w = g.text name := List.append_cancel_right (hr.symm.trans hr')
  -- The head ends before the statement does, and so do its contents.
  have hend : ';' ∉ g.text name := by
    rw [g.stem_append_brace]
    simp [g.not_mem_stem (c := ';') (by simp) hname]
  have hsplit : g.text name ++ t = ('o' :: e) ++ ';' :: (e' ++ r) := by
    rw [← hr]
    simp
  obtain ⟨z, hz, rfl⟩ := exists_append_of_not_mem hend hsplit
  have hstart : 'o' :: (e ++ ';' :: e') = g.text name ++ (z ++ ';' :: e') := by
    rw [← List.cons_append, hz, List.append_assoc]
  have hbalanced : Balanced ((a ++ g.stem name) ++ '{' :: (z ++ ';' :: e')) := by
    have := x.balanced_text
    rw [hx, hstart, g.stem_append_brace] at this
    simpa using this
  obtain ⟨n, hn, hclose⟩ := hbalanced.exists_closing
  refine ⟨(z ++ ';' :: e').take n, fun s => ?_⟩
  rw [hstart, List.append_assoc, hany, Option.map_some, contentsFrom?, rest_between, hclose,
    Option.map_some, List.take_append_of_le_length hn]

theorem contents_congr {x : OptionStatements} {name a b : Text} (hname : ';' ∉ name)
    (hx : x.text = a ++ 'o' :: b) (r s : Text) :
    (optionHead name (between a ('o' :: b ++ r))).map contentsFrom? =
      (optionHead name (between a ('o' :: b ++ s))).map contentsFrom? := by
  cases hr : optionHead name (between a ('o' :: b ++ r)) with
  | some d =>
      obtain ⟨contents, hcontents⟩ := exists_contents hname hx hr
      rw [← hr, hcontents, hcontents]
  | none =>
      cases hs : optionHead name (between a ('o' :: b ++ s)) with
      | none => rfl
      | some d =>
          obtain ⟨contents, hcontents⟩ := exists_contents hname hx hs
          have := hcontents r
          rw [hr] at this
          cases this

end OptionStatements

/-! ## Comments behind live text -/

/-- A comment that is put behind something else in its line. -/
structure TrailingComment where
  /-- What follows `//`. -/
  body : Text
  one_line : '\n' ∉ body
  not_opens : ¬ ['/', '*'] <:+: '/' :: '/' :: body
  not_ends : ¬ ['*', '/'] <:+: '/' :: '/' :: body

namespace TrailingComment

variable (t : TrailingComment)

def text : Text :=
  ' ' :: '/' :: '/' :: t.body

theorem not_infix {m : Text} (hm : m = ['/', '*'] ∨ m = ['*', '/']) :
    ¬ m <:+: t.text ++ ['\n'] := by
  have hbody : ¬ m <:+: '/' :: '/' :: t.body := by
    rcases hm with rfl | rfl
    · exact t.not_opens
    · exact t.not_ends
  have hplain : ' ' ∉ m ∧ '\n' ∉ m ∧ m ≠ [] := by
    rcases hm with rfl | rfl <;> decide
  have hnil : ¬ m <:+: [] := by simpa using hplain.2.2
  intro h
  rcases infix_append_cons hplain.2.1 h with h | h
  · exact (infix_append_cons (a := []) hplain.1 h).elim hnil hbody
  · exact hnil h

/-- The comment goes on as it began: live, or inside a block comment. -/
theorem after_eq {phase : Phase} (hphase : phase = live ∨ phase = inside) {w z : Text} {c : Char}
    (h : t.text ++ ['\n'] = w ++ c :: z) (r : Text) : phase.after w (c :: r) = phase := by
  have hpart : w ++ [c] <:+: t.text ++ ['\n'] := ⟨[], z, by simp [h]⟩
  rcases hphase with rfl | rfl
  · exact after_live_of_not_infix (fun hm => t.not_infix (.inl rfl) (hm.trans hpart)) r
  · exact after_inside_of_not_infix (fun hm => t.not_infix (.inr rfl) (hm.trans hpart)) r

theorem closes_append (w y : Text) :
    closes (w ++ (t.text ++ '\n' :: y)) = closes (w ++ '\n' :: y) := by
  have hbody : closes ('/' :: '/' :: t.body) = false := closes_eq_false_iff.2 t.not_ends
  rw [text, List.cons_append, closes_append_cons (by decide), closes_line, closes_line, hbody,
    Bool.false_or]

/-- What stands in front of the comment is in the same phase without it. -/
theorem after_append (u w y : Text) :
    live.after u (w ++ (t.text ++ '\n' :: y)) = live.after u (w ++ '\n' :: y) :=
  after_congr (fun w => t.closes_append w y) (by simp [text]) (by simp) live u w

theorem after_front (u y : Text) : live.after u (t.text ++ '\n' :: y) = live.after u ('\n' :: y) :=
  t.after_append u [] y

section

variable (u y : Text)

/-- So is what stands behind it. -/
theorem after_behind {v r : Text} (hy : y = v ++ r) :
    live.after (u ++ (t.text ++ '\n' :: v)) r = live.after (u ++ '\n' :: v) r := by
  have hphase : live.after u ('\n' :: y) = live ∨ live.after u ('\n' :: y) = inside :=
    after_eq_live_or_inside (by simp)
  rw [hy] at hphase
  rw [Phase.after_append, Phase.after_append _ u, List.append_assoc, List.cons_append,
    t.after_front, Phase.after_append _ t.text, List.cons_append,
    t.after_eq hphase (w := t.text) (z := []) rfl (v ++ r)]

theorem contains_front {a b : Text} (hu : u = a ++ 'o' :: b) :
    (CommentMap.ofText (u ++ (t.text ++ '\n' :: y))).contains (byteLength a) =
      (CommentMap.ofText (u ++ '\n' :: y)).contains (byteLength a) := by
  subst hu
  rw [Bool.eq_iff_iff, List.append_assoc, List.append_assoc, List.cons_append, List.cons_append,
    contains_iff (by decide), contains_iff (by decide), ← List.cons_append, t.after_append,
    List.cons_append]

theorem contains_behind {a b : Text} (hy : y = a ++ 'o' :: b) :
    (CommentMap.ofText (u ++ (t.text ++ '\n' :: y))).contains
        (byteLength (u ++ (t.text ++ '\n' :: a))) =
      (CommentMap.ofText (u ++ '\n' :: y)).contains (byteLength (u ++ '\n' :: a)) := by
  subst hy
  have hphase : live.after (u ++ (t.text ++ ['\n'])) (a ++ 'o' :: b) =
      live.after (u ++ ['\n']) (a ++ 'o' :: b) := t.after_behind u _ rfl
  simpa using contains_behind_lines (by simp) (by simp) (by decide) hphase

/-- The comment is commented out if `//` begins a line comment or stands in one, or a block comment
is open; otherwise it is live. -/
theorem contains_body {a b : Text} (hbody : t.body = a ++ 'o' :: b) :
    (CommentMap.ofText (u ++ (t.text ++ '\n' :: y))).contains
        (byteLength (u ++ ' ' :: '/' :: '/' :: a)) = true ↔
      InLineComment (u ++ [' ', '/', '/']) ∨ live.after u ('\n' :: y) ≠ live := by
  have htext : u ++ (t.text ++ '\n' :: y) =
      (u ++ ' ' :: '/' :: '/' :: a) ++ 'o' :: (b ++ '\n' :: y) := by
    simp [text, hbody]
  have hphase : live.after u ('\n' :: y) = live ∨ live.after u ('\n' :: y) = inside :=
    after_eq_live_or_inside (by simp)
  have hrest : ' ' :: '/' :: '/' :: a ++ 'o' :: (b ++ '\n' :: y) = t.text ++ '\n' :: y := by
    simp [text, hbody]
  have hafter : live.after (u ++ ' ' :: '/' :: '/' :: a) ('o' :: (b ++ '\n' :: y)) =
      live.after u ('\n' :: y) := by
    rw [Phase.after_append, hrest, t.after_front]
    exact t.after_eq hphase (z := b ++ ['\n']) (by simp [text, hbody]) _
  have hline : '\n' ∉ a := fun h => t.one_line (by simp [hbody, h])
  rw [htext, contains_iff (by decide), inLineComment_slashes hline, hafter]

end

end TrailingComment

/-! ## Bodies with a comment behind their statements -/

section

variable {name : String} (x : OptionStatements) (t : TrailingComment) (y : Text)

/-- Within the statements the same options are found with the comment and without it. -/
theorem contentsAt?_front (hname : ';' ∉ name.toList) {a b : Text} (hx : x.text = a ++ b)
    (hb : b ≠ []) :
    contentsAt? (CommentMap.ofText (x.text ++ (t.text ++ '\n' :: y))) name.toList
        (between a (b ++ (t.text ++ '\n' :: y))) =
      contentsAt? (CommentMap.ofText (x.text ++ '\n' :: y)) name.toList
        (between a (b ++ '\n' :: y)) := by
  obtain ⟨c, b, rfl⟩ := List.exists_cons_of_ne_nil hb
  by_cases hc : c = 'o'
  · subst hc
    exact contentsAt?_congr (t.contains_front x.text y hx)
      (OptionStatements.contents_congr hname hx _ _)
  · rw [List.cons_append, List.cons_append, contentsAt?_eq_none (optionHead_eq_none_of_ne hc),
      contentsAt?_eq_none (optionHead_eq_none_of_ne hc)]

/-- So they are in the text behind the comment. -/
theorem contentsAt?_behind (u : Text) {a b : Text} (hy : y = a ++ b) (hb : b ≠ []) :
    contentsAt? (CommentMap.ofText (u ++ (t.text ++ '\n' :: y))) name.toList
        (between (u ++ (t.text ++ '\n' :: a)) b) =
      contentsAt? (CommentMap.ofText (u ++ '\n' :: y)) name.toList
        (between (u ++ '\n' :: a) b) := by
  obtain ⟨c, b, rfl⟩ := List.exists_cons_of_ne_nil hb
  by_cases hc : c = 'o'
  · subst hc
    refine contentsAt?_congr (t.contains_behind u y hy) ?_
    exact (unanchored_optionHead name.toList).map_eq (fun _ _ _ => rfl) _ _ _
  · rw [contentsAt?_eq_none (optionHead_eq_none_of_ne hc),
      contentsAt?_eq_none (optionHead_eq_none_of_ne hc)]

/-- No option begins in the comment if it is commented out or no head of an option begins in it. -/
theorem misses_comment {u : Text}
    (h : InLineComment (u ++ [' ', '/', '/']) ∨ live.after u ('\n' :: y) ≠ live ∨
      Misses (optionHead name.toList) (u ++ [' ', '/', '/']) t.body ('\n' :: y)) :
    Misses (contentsAt? (CommentMap.ofText (u ++ (t.text ++ '\n' :: y))) name.toList) u t.text
      ('\n' :: y) := by
  have hslashes : Misses
      (contentsAt? (CommentMap.ofText (u ++ (t.text ++ '\n' :: y))) name.toList) u [' ', '/', '/']
      (t.body ++ '\n' :: y) :=
    ⟨contentsAt?_eq_none (optionHead_eq_none_of_ne (by decide)),
      contentsAt?_eq_none (optionHead_eq_none_of_ne (by decide)),
      contentsAt?_eq_none (optionHead_eq_none_of_ne (by decide)), trivial⟩
  refine misses_append (v := [' ', '/', '/']).2 ⟨hslashes, misses_of_forall fun a c b hbody => ?_⟩
  by_cases hc : c = 'o'
  · subst hc
    have hcontains := t.contains_body u y hbody
    rw [or_assoc.symm, ← hcontains] at h
    rcases h with h | h
    · rw [contentsAt?, CommentMap.live_of_contains (by simpa using h), Option.map_none]
    · exact contentsAt?_eq_none (h.eq_none hbody (by simp))
  · exact contentsAt?_eq_none (optionHead_eq_none_of_ne hc)

/-- What is read from the body of a method with a comment behind its statements. If the comment is
commented out or holds no head of the option, the same is read as without it. Otherwise the block
behind the first head is read. -/
theorem optionBlock_trailingComment (hname : ';' ∉ name.toList) (method : String) :
    (InLineComment (x.text ++ [' ', '/', '/']) ∨ live.after x.text ('\n' :: y) ≠ live ∨
        Misses (optionHead name.toList) (x.text ++ [' ', '/', '/']) t.body ('\n' :: y) →
      optionBlock name method (x.text ++ (t.text ++ '\n' :: y)) =
        optionBlock name method (x.text ++ '\n' :: y)) ∧
    (¬ InLineComment (x.text ++ [' ', '/', '/']) → live.after x.text ('\n' :: y) = live →
      ∀ (o : OptionHead) (a block b : Text), o.name.text = name.toList → Balanced block →
        t.body = a ++ (o.text ++ (block ++ '}' :: b)) →
        Misses (optionHead name.toList) [] (x.text ++ ' ' :: '/' :: '/' :: a)
          (o.text ++ (block ++ '}' :: (b ++ '\n' :: y))) →
        optionBlock name method (x.text ++ (t.text ++ '\n' :: y)) =
          .ok (stripComments block)) := by
  constructor
  · intro h
    have hfind : ((Cursor.start (x.text ++ (t.text ++ '\n' :: y))).findFirst (contentsAt?
          (CommentMap.ofText (x.text ++ (t.text ++ '\n' :: y))) name.toList)).map (·.2) =
        ((Cursor.start (x.text ++ '\n' :: y)).findFirst (contentsAt?
          (CommentMap.ofText (x.text ++ '\n' :: y)) name.toList)).map (·.2) := by
      rw [start_eq_between, start_eq_between]
      refine findFirst_congr (fun a b hx hb => contentsAt?_front x t y hname hx hb) ?_
      have hfeed : ∀ (comments : CommentMap) u,
          contentsAt? comments name.toList (between u ('\n' :: y)) = none := fun _ _ =>
        contentsAt?_eq_none (optionHead_eq_none_of_ne (by decide))
      have hend : ∀ u, optionHead name.toList (between u []) = none := fun u => rfl
      rw [List.nil_append, findFirst_of_misses (misses_comment t y h), findFirst_cons (hfeed _ _),
        findFirst_cons (hfeed _ _), ← List.append_nil y]
      refine findFirst_congr (fun a b hy hb => ?_) ?_
      · simpa using contentsAt?_behind t y x.text hy hb
      · rw [findFirst_nil (contentsAt?_eq_none (hend _)),
          findFirst_nil (contentsAt?_eq_none (hend _))]
    rw [optionBlock_eq, optionBlock_eq, hfind]
  · intro hline hphase o a block b ho hbalanced hbody hmiss
    have htext : x.text ++ (t.text ++ '\n' :: y) = (x.text ++ ' ' :: '/' :: '/' :: a) ++
        (o.text ++ (block ++ '}' :: (b ++ '\n' :: y))) := by
      simp [TrailingComment.text, hbody]
    obtain ⟨r, hr⟩ : ∃ r, o.text = 'o' :: r := by
      rw [o.text_eq]
      exact ⟨_, rfl⟩
    have hlive : (CommentMap.ofText (x.text ++ (t.text ++ '\n' :: y))).contains
        (byteLength (x.text ++ ' ' :: '/' :: '/' :: a)) = false := by
      refine Bool.eq_false_iff.2 fun hcontains => ?_
      rw [hr, List.cons_append] at hbody
      exact ((t.contains_body x.text y hbody).1 hcontains).elim hline fun h => h hphase
    rw [htext] at hlive ⊢
    rw [← ho] at hmiss
    rw [optionBlock_append method ho.symm hmiss hlive, hbalanced.closingIndex?_eq]
    simp

end

/-- The statement that binds a method to a path. -/
def bindingStatement : OptionStatements where
  statements := [⟨.none, ⟨.space, .none, .none, .space, .space⟩, "google.api.http".toList,
    " get: \"/x\" ".toList, .none, by decide, by decide,
    balanced_of_not_mem (by decide) (by decide)⟩]
  trail := .none

/-- The option that asks for a permission. -/
def permissionStatement : Text :=
  "option (proto.v1.authz) = \x7b permissions: [\"admin:write\"] \x7d;".toList

/-- The option that exempts a method from authentication, as a comment. -/
def exemptionComment : TrailingComment where
  body := " option (proto.v1.authz) = \x7b no_auth_required: true \x7d;".toList
  one_line := by decide +kernel
  not_opens := by decide +kernel
  not_ends := by decide +kernel

/-- A comment without an option. -/
def remark : TrailingComment where
  body := " one path only".toList
  one_line := by decide +kernel
  not_opens := by decide +kernel
  not_ends := by decide +kernel

theorem optionBlock_bindingStatement :
    optionBlock defaultOption "GetFoo"
        (bindingStatement.text ++ (remark.text ++ '\n' :: permissionStatement)) =
      optionBlock defaultOption "GetFoo" (bindingStatement.text ++ '\n' :: permissionStatement) ∧
    optionBlock defaultOption "GetFoo"
        (bindingStatement.text ++ (exemptionComment.text ++ '\n' :: permissionStatement)) =
      .ok " no_auth_required: true ".toList := by
  have hname : ';' ∉ defaultOption.toList := by decide +kernel
  have hline : ¬ InLineComment (bindingStatement.text ++ [' ', '/', '/']) :=
    not_inLineComment (i := []) (x := 'o') (by simp) (by decide) (by decide +kernel)
  have hstrip : stripComments " no_auth_required: true ".toList =
      " no_auth_required: true ".toList :=
    (uncommented_of_not_mem (by decide +kernel)).stripComments
  constructor
  · refine (optionBlock_trailingComment bindingStatement remark permissionStatement hname
      "GetFoo").1 (.inr (.inr ?_))
    decide +kernel
  · have := (optionBlock_trailingComment bindingStatement exemptionComment permissionStatement hname
      "GetFoo").2 hline (by decide +kernel) accessHead " ".toList " no_auth_required: true ".toList
      ";".toList rfl (balanced_of_not_mem (by decide) (by decide)) (by decide +kernel)
      (by decide +kernel)
    rwa [hstrip] at this

/-- Behind live text an option that was meant to be commented out takes the place of the live one. -/
theorem optionBlock_exemptionComment_ne :
    Balanced exemptionComment.body ∧
      Misses (optionHead defaultOption.toList) [] bindingStatement.text
        ('\n' :: permissionStatement) ∧
      optionBlock defaultOption "GetFoo"
          (bindingStatement.text ++ (exemptionComment.text ++ '\n' :: permissionStatement)) ≠
        optionBlock defaultOption "GetFoo"
          (bindingStatement.text ++ '\n' :: permissionStatement) := by
  refine ⟨?_, by decide +kernel, fun h => ?_⟩
  · have hbody : exemptionComment.body = " option (proto.v1.authz) = ".toList ++
        '{' :: (" no_auth_required: true ".toList ++ '}' :: [';']) := by
      decide +kernel
    rw [hbody]
    exact (balanced_of_not_mem (by decide) (by decide)).append
      (.braces (balanced_of_not_mem (by decide) (by decide))
        (balanced_of_not_mem (by decide) (by decide)))
  · have hexempt : (optionBlock defaultOption "GetFoo" (bindingStatement.text ++
        (exemptionComment.text ++ '\n' :: permissionStatement))).toOption =
          some " no_auth_required: true ".toList := by
      decide +kernel
    have hasked : (optionBlock defaultOption "GetFoo"
        (bindingStatement.text ++ '\n' :: permissionStatement)).toOption =
          some " permissions: [\"admin:write\"] ".toList := by
      decide +kernel
    rw [h, hasked] at hexempt
    exact absurd hexempt (by decide +kernel)

end AccessRules.Source
