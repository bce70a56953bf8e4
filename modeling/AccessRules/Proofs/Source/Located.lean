import AccessRules.Proofs.Source.Declared
import AccessRules.Proofs.Source.Live
import AccessRules.Proofs.Source.Nesting

/-!
# What a text says about a method

A declaration counts where it is live: it begins outside the comments of the text and continues no
word. The first live declaration with a body decides what is located, also where its brace is never
closed; one without a body counts only if there is no other (`locate_decides`).
-/

namespace AccessRules.Source

open AccessRules.Text Cursor

/-- In `text` a live declaration of `name` begins behind `u`, and `rest` follows the character `e`
that ends its signature. -/
structure LiveDeclaration (text : Text) (name : Word) (e : Char) (u rest : Text) : Prop where
  boundary : Boundary u
  reads : ∃ s : OpaqueSignature name, text = u ++ (s.text ++ e :: rest)
  live : (CommentMap.ofText text).contains (byteLength u) = false

/-- The live declaration is the first one of its kind. -/
structure FirstDeclaration (text : Text) (name : Word) (e : Char) (u rest : Text) : Prop
    extends LiveDeclaration text name e u rest where
  first : ∀ v s, LiveDeclaration text name e v s → u.length ≤ v.length

/-! ## Live declarations at places -/

section

variable {front rest v r : Text} {name : Word} {e : Char}
  (h : LiveDeclaration (front ++ rest) name e v r)

include h

theorem LiveDeclaration.exists_append_of_le (hle : front.length ≤ v.length) :
    ∃ a, v = front ++ a := by
  obtain ⟨s, hs⟩ := h.reads
  obtain ⟨a, rfl⟩ : front <+: v :=
    List.prefix_of_prefix_length_le (List.prefix_append _ _) ⟨_, hs.symm⟩ hle
  exact ⟨a, rfl⟩

theorem LiveDeclaration.exists_append_of_lt (hlt : v.length < front.length) :
    ∃ a, a ≠ [] ∧ front = v ++ a := by
  obtain ⟨s, hs⟩ := h.reads
  obtain ⟨a, rfl⟩ : v <+: front :=
    List.prefix_of_prefix_length_le ⟨_, hs.symm⟩ (List.prefix_append _ _) hlt.le
  refine ⟨a, ?_, rfl⟩
  rintro rfl
  simp at hlt

end

section

variable {text : Text} {name : Word} {e : Char} (he : isBlank e = false)

include he

theorem exists_liveDeclaration_iff {u r : Text} (htext : text = u ++ r) :
    (∃ rest, LiveDeclaration text name e u rest) ↔
      ∃ d, (CommentMap.ofText text).live (declaration name.text e) (between u r) = some d := by
  subst htext
  constructor
  · rintro ⟨rest, hu, ⟨s, hs⟩, hlive⟩
    obtain rfl := List.append_cancel_left hs
    exact ⟨_, by rw [CommentMap.live_of_not_contains hlive, s.declaration_append he hu]⟩
  · rintro ⟨d, hd⟩
    cases hc : (CommentMap.ofText (u ++ r)).contains (byteLength u) with
    | true =>
        rw [CommentMap.live_of_contains hc] at hd
        cases hd
    | false =>
        rw [CommentMap.live_of_not_contains hc] at hd
        obtain ⟨hu, s, rest, rfl, -⟩ := (declaration_eq_some_iff he).1 hd
        exact ⟨rest, hu, ⟨s, rfl⟩, hc⟩

theorem rest_of_live {u r rest : Text} {d : Cursor} (h : LiveDeclaration (u ++ r) name e u rest)
    (hd : (CommentMap.ofText (u ++ r)).live (declaration name.text e) (between u r) = some d) :
    d.rest = rest := by
  obtain ⟨hu, ⟨s, hs⟩, hlive⟩ := h
  obtain rfl := List.append_cancel_left hs
  rw [CommentMap.live_of_not_contains hlive, s.declaration_append he hu, Option.some.injEq] at hd
  rw [← hd, rest_between]

/-- A declaration does not begin in a part of the text in which a live search finds none. -/
theorem LiveDeclaration.length_of_misses {u w r v rest : Text}
    (h : LiveDeclaration (u ++ (w ++ r)) name e v rest)
    (hmiss : Misses ((CommentMap.ofText (u ++ (w ++ r))).live (declaration name.text e)) u w r) :
    v.length < u.length ∨ u.length + w.length ≤ v.length := by
  by_contra hpart
  rw [not_or, not_lt, not_le, ← List.length_append] at hpart
  obtain ⟨a, rfl⟩ := h.exists_append_of_le hpart.1
  rw [← List.append_assoc] at h hmiss
  obtain ⟨b, hne, hb⟩ := h.exists_append_of_lt hpart.2
  rw [List.append_assoc, List.append_cancel_left_eq] at hb
  subst hb
  have htext : u ++ (a ++ b) ++ r = u ++ a ++ (b ++ r) := by simp
  obtain ⟨d, hd⟩ := (exists_liveDeclaration_iff he htext).1 ⟨rest, h⟩
  rw [hmiss.eq_none rfl hne] at hd
  cases hd

/-- A place without a live declaration is passed over. -/
theorem findLive_eq_none_iff :
    (CommentMap.ofText text).findLive (declaration name.text e) (.start text) = none ↔
      ∀ u rest, ¬ LiveDeclaration text name e u rest := by
  rw [CommentMap.findLive_eq_findFirst, start_eq_between, findFirst_eq_none_iff]
  constructor
  · intro h u rest hlive
    obtain ⟨s, hs⟩ := hlive.reads
    obtain ⟨d, hd⟩ := (exists_liveDeclaration_iff he hs).1 ⟨rest, hlive⟩
    have hnone := h u _ hs
    rw [List.nil_append, hd] at hnone
    cases hnone
  · intro h u r hur
    rw [List.nil_append]
    refine Option.eq_none_iff_forall_ne_some.2 fun d hd => ?_
    obtain ⟨rest, hlive⟩ := (exists_liveDeclaration_iff he hur).2 ⟨d, hd⟩
    exact h u rest hlive

theorem exists_findLive_iff {rest : Text} :
    (∃ c d, (CommentMap.ofText text).findLive (declaration name.text e) (.start text) =
      some (c, d) ∧ d.rest = rest) ↔ ∃ u, FirstDeclaration text name e u rest := by
  simp only [CommentMap.findLive_eq_findFirst, start_eq_between, findFirst_eq_some_iff,
    List.nil_append]
  constructor
  · rintro ⟨c, d, ⟨u, r, rfl, rfl, hd, hfirst⟩, rfl⟩
    obtain ⟨rest, hlive⟩ := (exists_liveDeclaration_iff he rfl).2 ⟨d, hd⟩
    refine ⟨u, ?_, fun v s hv => Nat.le_of_not_lt fun hlt => ?_⟩
    · rwa [rest_of_live he hlive hd]
    · obtain ⟨g, hg⟩ := hv.reads
      obtain ⟨d', hd'⟩ := (exists_liveDeclaration_iff he hg).1 ⟨s, hv⟩
      rw [hfirst v _ hg hlt] at hd'
      cases hd'
  · rintro ⟨u, hlive, hfirst⟩
    obtain ⟨g, hg⟩ := hlive.reads
    obtain ⟨d, hd⟩ := (exists_liveDeclaration_iff he hg).1 ⟨rest, hlive⟩
    refine ⟨_, d, ⟨u, _, hg, rfl, hd, fun v t hvt hlt => ?_⟩, ?_⟩
    · refine Option.eq_none_iff_forall_ne_some.2 fun d' hd' => ?_
      obtain ⟨s, hv⟩ := (exists_liveDeclaration_iff he hvt).2 ⟨d', hd'⟩
      have := hfirst v s hv
      omega
    · subst hg
      exact rest_of_live he hlive hd

end

/-! ## The cases of the search -/

section

variable {text method : Text}

/-- The outcomes of the search, each with what was found in its course. -/
theorem locate_cases (text method : Text) :
    (∃ c d n, (CommentMap.ofText text).findLive (declaration method '{') (.start text) =
        some (c, d) ∧ closingIndex? 0 d.rest = some n ∧
        locate text method = .block (d.rest.take n)) ∨
    (∃ c d, (CommentMap.ofText text).findLive (declaration method '{') (.start text) =
        some (c, d) ∧ closingIndex? 0 d.rest = none ∧ locate text method = .unmatched) ∨
    ((CommentMap.ofText text).findLive (declaration method '{') (.start text) = none ∧
      ((CommentMap.ofText text).findLive (declaration method ';') (.start text) ≠ none ∧
          locate text method = .bodiless ∨
        (CommentMap.ofText text).findLive (declaration method ';') (.start text) = none ∧
          locate text method = .notFound)) := by
  rw [locate]
  cases hfind : (CommentMap.ofText text).findLive (declaration method '{') (.start text) with
  | none =>
      cases (CommentMap.ofText text).findLive (declaration method ';') (.start text) <;> simp
  | some found =>
      obtain ⟨c, d⟩ := found
      cases hn : closingIndex? 0 d.rest <;> simp [hn]

theorem locate_eq_block_iff {body : Text} : locate text method = .block body ↔
    ∃ c d n, (CommentMap.ofText text).findLive (declaration method '{') (.start text) =
      some (c, d) ∧ closingIndex? 0 d.rest = some n ∧ d.rest.take n = body := by
  obtain ⟨c, d, n, h, hn, hl⟩ | ⟨c, d, h, hn, hl⟩ | ⟨h, ⟨h', hl⟩ | ⟨h', hl⟩⟩ :=
    locate_cases text method <;> simp [*]

theorem locate_eq_unmatched_iff : locate text method = .unmatched ↔
    ∃ c d, (CommentMap.ofText text).findLive (declaration method '{') (.start text) =
      some (c, d) ∧ closingIndex? 0 d.rest = none := by
  obtain ⟨c, d, n, h, hn, hl⟩ | ⟨c, d, h, hn, hl⟩ | ⟨h, ⟨h', hl⟩ | ⟨h', hl⟩⟩ :=
    locate_cases text method <;> simp [*]

theorem locate_eq_bodiless_iff : locate text method = .bodiless ↔
    (CommentMap.ofText text).findLive (declaration method '{') (.start text) = none ∧
      (CommentMap.ofText text).findLive (declaration method ';') (.start text) ≠ none := by
  obtain ⟨c, d, n, h, hn, hl⟩ | ⟨c, d, h, hn, hl⟩ | ⟨h, ⟨h', hl⟩ | ⟨h', hl⟩⟩ :=
    locate_cases text method <;> simp [*]

theorem locate_eq_notFound_iff : locate text method = .notFound ↔
    (CommentMap.ofText text).findLive (declaration method '{') (.start text) = none ∧
      (CommentMap.ofText text).findLive (declaration method ';') (.start text) = none := by
  obtain ⟨c, d, n, h, hn, hl⟩ | ⟨c, d, h, hn, hl⟩ | ⟨h, ⟨h', hl⟩ | ⟨h', hl⟩⟩ :=
    locate_cases text method <;> simp [*]

end

/-! ## Which method a declaration is of -/

/-- One place declares one method: a name that goes on behind `name`, or has it in it, is another
name. -/
theorem LiveDeclaration.name_eq {text u rest rest' : Text} {name other : Word} {e e' : Char}
    (h : LiveDeclaration text name e u rest) (h' : LiveDeclaration text other e' u rest') :
    other.text = name.text := by
  obtain ⟨s, hs⟩ := h.reads
  obtain ⟨s', hs'⟩ := h'.reads
  have heq := List.append_cancel_left (hs'.symm.trans hs)
  rw [s'.text_append, s.text_append, List.append_cancel_left_eq] at heq
  have hgap := append_inj_of_class (p := isBlank) s'.afterRpc.blank s.afterRpc.blank
    (other.isBlank_of_head? _) (name.isBlank_of_head? _) heq
  have hname := append_inj_of_class (p := isWord) other.word name.word
    (s'.afterName.isWord_of_head? (by simp; decide))
    (s.afterName.isWord_of_head? (by simp; decide)) hgap.2
  exact hname.1

/-! ## What is located -/

theorem locate_block_iff {text : Text} {name : Word} {body : Text} :
    locate text name.text = .block body ↔ ∃ u rest after,
      FirstDeclaration text name '{' u rest ∧ rest = body ++ '}' :: after ∧ Balanced body := by
  rw [locate_eq_block_iff]
  constructor
  · rintro ⟨c, d, n, hfind, hclose, rfl⟩
    obtain ⟨u, hfirst⟩ := (exists_findLive_iff (by decide)).1 ⟨c, d, hfind, rfl⟩
    obtain ⟨body, after, hrest, rfl, hbody⟩ := closingIndex?_eq_some_iff_balanced.1 hclose
    rw [hrest, List.take_left]
    exact ⟨u, _, after, hfirst, hrest, hbody⟩
  · rintro ⟨u, rest, after, hfirst, hrest, hbody⟩
    obtain ⟨c, d, hfind, rfl⟩ := (exists_findLive_iff (by decide)).2 ⟨u, hfirst⟩
    refine ⟨c, d, body.length, hfind, ?_, ?_⟩
    · exact closingIndex?_eq_some_iff_balanced.2 ⟨body, after, hrest, rfl, hbody⟩
    · rw [hrest, List.take_left]

theorem locate_unmatched_iff {text : Text} {name : Word} :
    locate text name.text = .unmatched ↔ ∃ u rest,
      FirstDeclaration text name '{' u rest ∧
        ∀ body after, rest = body ++ '}' :: after → ¬ Balanced body := by
  have hclose : ∀ {rest : Text}, closingIndex? 0 rest = none ↔
      ∀ body after, rest = body ++ '}' :: after → ¬ Balanced body := by
    intro rest
    rw [Option.eq_none_iff_forall_ne_some]
    constructor
    · intro h body after hrest hbody
      exact h _ (closingIndex?_eq_some_iff_balanced.2 ⟨body, after, hrest, rfl, hbody⟩)
    · intro h n hn
      obtain ⟨body, after, hrest, -, hbody⟩ := closingIndex?_eq_some_iff_balanced.1 hn
      exact h body after hrest hbody
  rw [locate_eq_unmatched_iff]
  constructor
  · rintro ⟨c, d, hfind, hnone⟩
    obtain ⟨u, hfirst⟩ := (exists_findLive_iff (by decide)).1 ⟨c, d, hfind, rfl⟩
    exact ⟨u, d.rest, hfirst, hclose.1 hnone⟩
  · rintro ⟨u, rest, hfirst, hnone⟩
    obtain ⟨c, d, hfind, rfl⟩ := (exists_findLive_iff (by decide)).2 ⟨u, hfirst⟩
    exact ⟨c, d, hfind, hclose.2 hnone⟩

/-- The search tells its four cases apart by the live declarations of the text alone: the first one
with a body decides, and its brace is closed or not; one without a body counts if there is no other;
and a declaration of another method is none of this one. -/
theorem locate_decides (text : Text) (name : Word) :
    (∀ body, locate text name.text = .block body ↔ ∃ u rest after,
      FirstDeclaration text name '{' u rest ∧ rest = body ++ '}' :: after ∧ Balanced body) ∧
    (locate text name.text = .unmatched ↔ ∃ u rest, FirstDeclaration text name '{' u rest ∧
      ∀ body after, rest = body ++ '}' :: after → ¬ Balanced body) ∧
    (locate text name.text = .bodiless ↔ (∀ u rest, ¬ LiveDeclaration text name '{' u rest) ∧
      ∃ u rest, LiveDeclaration text name ';' u rest) ∧
    (locate text name.text = .notFound ↔ (∀ u rest, ¬ LiveDeclaration text name '{' u rest) ∧
      ∀ u rest, ¬ LiveDeclaration text name ';' u rest) ∧
    ∀ (other : Word) (e e' : Char) (u rest rest' : Text), LiveDeclaration text name e u rest →
      LiveDeclaration text other e' u rest' → other.text = name.text := by
  refine ⟨fun body => locate_block_iff, locate_unmatched_iff, ?_, ?_, ?_⟩
  · rw [locate_eq_bodiless_iff, ne_eq, findLive_eq_none_iff (by decide),
      findLive_eq_none_iff (by decide)]
    simp only [not_forall, not_not]
  · rw [locate_eq_notFound_iff, findLive_eq_none_iff (by decide),
      findLive_eq_none_iff (by decide)]
  · intro other e e' u rest rest' h h'
    exact h.name_eq h'

/-- A method whose body is never closed, and the same one further on with a body that is. -/
def declaredTwice : Text :=
  "rpc Get(A) returns (B) \x7b\nrpc GetAll(A) returns (B) \x7b \x7d\n".toList ++
    "rpc Get(A) returns (B) \x7b \x7d\n".toList

theorem locate_declaredTwice :
    locate declaredTwice "Get".toList = .unmatched ∧
      locate declaredTwice "GetAll".toList = .block " ".toList ∧
      ∃ u rest, FirstDeclaration declaredTwice ⟨"Get".toList, by decide, by decide⟩ '{' u rest ∧
        ∀ body after, rest = body ++ '}' :: after → ¬ Balanced body := by
  have hfound : locate declaredTwice "Get".toList = .unmatched ∧
      locate declaredTwice "GetAll".toList = .block " ".toList := by decide +kernel
  have hdecides := locate_decides declaredTwice ⟨"Get".toList, by decide, by decide⟩
  exact ⟨hfound.1, hfound.2, hdecides.2.1.1 hfound.1⟩

end AccessRules.Source
