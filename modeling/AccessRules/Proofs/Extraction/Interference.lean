import AccessRules.Proofs.Extraction.WrittenService
import AccessRules.Proofs.Source.Phase

/-!
# Paths that reach other methods

Comments are looked for in a file as a whole, inside quotes as well. So a path with a wildcard, such
as `/v1/*`, can leave a block comment open, and a method further down whose path has `*/` in it ends
that comment behind its own signature. In a text of two methods this is all that one path does to
the other method (`requirement_twoMethods`).
-/

namespace AccessRules

open Files Source Text Cursor Requirement Schema

/-! ## Comments that a path leaves open -/

/-- Whether a block comment is open behind a text, where one is open in front of it or not. -/
def leavesOpen : (isOpen : Bool) → Text → Bool
  | isOpen, [] => isOpen
  | false, '/' :: '*' :: rest => leavesOpen true rest
  | true, '*' :: '/' :: rest => leavesOpen false rest
  | isOpen, _ :: rest => leavesOpen isOpen rest

theorem after_of_closes {r : Text} (hr : closes r = true)
    (hhead : ∀ c ∈ r.head?, c ≠ '*' ∧ c ≠ '/') (isOpen : Bool) (w : Text) :
    (if isOpen then Phase.inside else .live).after w r =
      if leavesOpen isOpen w then .inside else .live := by
  fun_induction leavesOpen isOpen w with
  | case1 isOpen => rfl
  | case2 rest ih =>
      have hclose : closes (rest ++ r) = true := closes_append_left rest hr
      simpa [Phase.after, Phase.next, hclose] using ih
  | case3 rest ih => simpa [Phase.after, Phase.next] using ih
  | case4 isOpen x rest hopens hcloses ih =>
      have hnext : (if isOpen then Phase.inside else .live).next x (rest ++ r) =
          if isOpen then .inside else .live := by
        cases isOpen with
        | false =>
            have hx : ¬ (x = '/' ∧ (rest ++ r).head? = some '*') := by
              rintro ⟨rfl, hstar⟩
              cases rest with
              | nil => exact (hhead '*' hstar).1 rfl
              | cons y rest => exact hopens rest rfl rfl (by simpa using hstar)
            exact if_neg fun h => hx ⟨h.1, h.2.1⟩
        | true =>
            have hx : ¬ (x = '*' ∧ (rest ++ r).head? = some '/') := by
              rintro ⟨rfl, hslash⟩
              cases rest with
              | nil => exact (hhead '/' hslash).2 rfl
              | cons y rest => exact hcloses rest rfl rfl (by simpa using hslash)
            exact if_neg hx
      rw [Phase.after, hnext]
      exact ih

/-! ## Methods with a path -/

/-- A method that is bound to a path and asks for one permission. -/
structure BoundMethod where
  name : Word
  request : TypeText
  response : TypeText
  path : Text
  path_chars : ∀ c ∈ path,
    isWord c = true ∨ c ∈ ['/', '{', '}', '=', '*', '.', ':', '-']
  path_balanced : Balanced path
  permission : Text
  permission_ne_nil : permission ≠ []
  permission_chars : ∀ c ∈ permission, (isWord c = true ∧ c ≠ '_') ∨ c = ':'

/-- The head of the option that binds a method. -/
def bindingHead : OptionHead :=
  .spaced ⟨"google.api.http".toList, by decide, by decide +kernel⟩

namespace BoundMethod

variable (m : BoundMethod)

/-- The signature of the method. -/
def signature : Signature :=
  .spaced m.name m.request.argument m.response.argument

/-- The block of the binding up to the path. -/
def beforePath : Text :=
  ' ' :: (bindingHead.text ++ " get: \"".toList)

/-- What stands in front of the access option. -/
def lead : Text :=
  beforePath ++ (m.path ++ "\" \x7d; ".toList)

/-- What stands between the braces of the access option. -/
def block : Text :=
  Gap.space.text ++ (listKey ++ (quote m.permission ++ "] ".toList))

/-- What stands between the braces of the method. -/
def body : Text :=
  m.lead ++ (accessHead.text ++ (m.block ++ "\x7d; ".toList))

/-- The method as a part of a file. -/
def part : Part :=
  .method m.signature m.body

/-- The method as it is written. -/
def text : Text :=
  m.part.text

theorem part_eq : m.part = .method m.signature m.body := rfl

/-! ### Characters -/

theorem underscore_mem_flagName : '_' ∈ flagName := by
  simp [flagName]

theorem underscore_not_mem_permission : '_' ∉ m.permission := by
  intro h
  rcases m.permission_chars '_' h with hu | hu
  · exact hu.2 rfl
  · exact absurd hu (by decide)

theorem plain_permission : Plain m.permission where
  ne_nil := m.permission_ne_nil
  chars := fun c hc => (m.permission_chars c hc).imp (·.1) fun h => .inr (.inl h)
  not_flag := fun h => m.underscore_not_mem_permission (h.subset underscore_mem_flagName)

theorem not_mem_path {c : Char} (hw : isWord c = false)
    (hc : c ∉ ['/', '{', '}', '=', '*', '.', ':', '-']) : c ∉ m.path := by
  intro h
  rcases m.path_chars c h with hx | hx
  · simp [hx] at hw
  · exact hc hx

theorem not_mem_block {c : Char} (hd : isWord c = false ∧ c ≠ '.' ∧ c ≠ ':' ∧ c ≠ '-')
    (hmark : isBlank c = false ∧ c ≠ '[' ∧ c ≠ ']' ∧ c ≠ '"') : c ∉ m.block := by
  have hgap : c ∉ Gap.space.text := Gap.space.not_mem hmark.1
  have hend : c ∉ "] ".toList := by
    have hall : ∀ x ∈ "] ".toList, x = ']' ∨ isBlank x = true := by decide
    intro h
    rcases hall c h with rfl | hb
    · exact hmark.2.2.1 rfl
    · simp [hb] at hmark
  simp only [block, List.mem_append, not_or]
  exact ⟨hgap, not_mem_listKey hd.1 ⟨hd.2.2.1, hmark.1, hmark.2.1⟩,
    not_mem_quote (m.plain_permission.not_mem hd) hmark.2.2.2, hend⟩

theorem headless_body (name : Word) (r : Text) : Headless name.text m.body r := by
  have hblock : Headless name.text ((m.block ++ ['}']) ++ "; ".toList) r :=
    headless_append.2 ⟨headless_closed (m.not_mem_block (by decide) (by decide)) (by decide),
      headless_of_not_mem (by decide)⟩
  have hget : '(' ∉ " get: \"".toList ++ (m.path ++ "\" ".toList) := by
    simp only [List.mem_append, not_or]
    exact ⟨by decide, m.not_mem_path (by decide) (by decide), by decide⟩
  have hpath : Headless name.text (((" get: \"".toList ++ (m.path ++ "\" ".toList)) ++ ['}']) ++
      "; ".toList) (accessHead.text ++ (((m.block ++ ['}']) ++ "; ".toList) ++ r)) :=
    headless_append.2 ⟨headless_closed hget (by decide), headless_of_not_mem (by decide)⟩
  have htext : m.body = [' '] ++ (bindingHead.text ++ ((((" get: \"".toList ++
      (m.path ++ "\" ".toList)) ++ ['}']) ++ "; ".toList) ++
        (accessHead.text ++ ((m.block ++ ['}']) ++ "; ".toList)))) := by
    simp [body, lead, beforePath]
  rw [htext]
  refine headless_append.2 ⟨headless_of_not_mem (by decide), headless_append.2
    ⟨bindingHead.headless _ _, headless_append.2 ⟨?_, headless_append.2
      ⟨accessHead.headless _ _, hblock⟩⟩⟩⟩
  simpa using hpath

theorem balanced_block : Balanced m.block :=
  balanced_of_not_mem (m.not_mem_block (by decide) (by decide))
    (m.not_mem_block (by decide) (by decide))

theorem balanced_body : Balanced m.body := by
  have hget : Balanced (" get: \"".toList ++ (m.path ++ "\" ".toList)) :=
    (balanced_of_not_mem (by decide) (by decide)).append
      (m.path_balanced.append (balanced_of_not_mem (by decide) (by decide)))
  have haccess : Balanced (accessHead.stem ++ '{' :: (m.block ++ '}' :: "; ".toList)) :=
    accessHead.balanced_stem.append
      (.braces m.balanced_block (balanced_of_not_mem (by decide) (by decide)))
  have hsemicolon : Balanced "; ".toList := balanced_of_not_mem (by decide) (by decide)
  have hbinding : Balanced (bindingHead.stem ++ '{' :: ((" get: \"".toList ++ (m.path ++
      "\" ".toList)) ++ '}' :: ("; ".toList ++ (accessHead.stem ++
        '{' :: (m.block ++ '}' :: "; ".toList))))) :=
    bindingHead.balanced_stem.append (.braces hget (hsemicolon.append haccess))
  have htext : m.body = ' ' :: (bindingHead.stem ++ '{' :: ((" get: \"".toList ++ (m.path ++
      "\" ".toList)) ++ '}' :: ("; ".toList ++ (accessHead.stem ++
        '{' :: (m.block ++ '}' :: "; ".toList))))) := by
    simp [body, lead, beforePath, OptionHead.text]
  rw [htext]
  exact .plain (by decide) (by decide) hbinding

/-! ### The body on its own -/

/-- What follows the path in the body of the method. -/
def afterPath : Text :=
  "\" \x7d; ".toList ++ (accessHead.text ++ (m.block ++ "\x7d; ".toList))

theorem body_eq : m.body = beforePath ++ (m.path ++ m.afterPath) := by
  simp only [body, lead, afterPath, List.append_assoc]

theorem not_mem_afterPath {c : Char} (hc : c = '*' ∨ c = '/') : c ∉ m.afterPath := by
  have hblock : c ∉ m.block := by
    rcases hc with rfl | rfl
    · exact m.not_mem_block (by decide) (by decide)
    · exact m.not_mem_block (by decide) (by decide)
  have hhead : c ∉ "\" \x7d; ".toList ∧ c ∉ accessHead.text ∧ c ∉ "\x7d; ".toList := by
    rcases hc with rfl | rfl <;> decide
  simp only [afterPath, List.mem_append, not_or]
  exact ⟨hhead.1, hhead.2.1, hblock, hhead.2.2⟩

theorem not_mem_beforePath {c : Char} (hc : c = '*' ∨ c = '/' ∨ c = '\n') : c ∉ beforePath := by
  rcases hc with rfl | rfl | rfl <;> decide

/-- The search for the access option passes over the binding. -/
theorem misses_lead (r : Text) :
    Misses (optionHead accessHead.name.text) [] m.lead (accessHead.text ++ r) := by
  have hlead : m.lead = " option ".toList ++ (['('] ++ ("google.api.http) = \x7b get: \"".toList ++
      (m.path ++ "\" \x7d; ".toList))) := by
    have hbefore : beforePath =
        " option ".toList ++ (['('] ++ "google.api.http) = \x7b get: \"".toList) := rfl
    simp only [lead, hbefore, List.append_assoc]
  have hrest : '(' ∉ "google.api.http) = \x7b get: \"".toList ++
      (m.path ++ "\" \x7d; ".toList) := by
    simp only [List.mem_append, not_or]
    exact ⟨by decide, m.not_mem_path (by decide) (by decide), by decide⟩
  rw [hlead]
  refine misses_append.2 ⟨misses_before_parenthesis (by decide) fun g t hname => ?_,
    misses_append.2 ⟨misses_optionHead_of_not_mem (by decide),
      accessHead.misses_of_not_mem hrest⟩⟩
  -- The name behind the parenthesis is another one.
  cases hg : g.text with
  | nil =>
      rw [hg] at hname
      exact absurd (List.cons.inj hname).1 (by decide)
  | cons c w =>
      rw [hg] at hname
      have hc := g.blank c (by simp [hg])
      rw [← (List.cons.inj hname).1] at hc
      exact absurd hc (by decide)

theorem lineFeed_not_mem_body : '\n' ∉ m.body := by
  have hpath : '\n' ∉ m.path := m.not_mem_path (by decide) (by decide)
  have hquote : '\n' ∉ quote m.permission :=
    not_mem_quote (m.plain_permission.not_mem (by decide)) (by decide)
  have hfixed : '\n' ∉ "\" \x7d; ".toList ∧ '\n' ∉ accessHead.text ∧ '\n' ∉ Gap.space.text ∧
      '\n' ∉ "] ".toList ∧ '\n' ∉ "\x7d; ".toList := by decide
  have hkey : '\n' ∉ listKey := by simp [listKey]
  obtain ⟨hafter, hhead, hspace, hbracket, hend⟩ := hfixed
  simp only [body_eq, afterPath, block, List.mem_append, not_or]
  exact ⟨not_mem_beforePath (by simp), hpath, hafter, hhead, ⟨hspace, hkey, hquote, hbracket⟩, hend⟩

theorem findAll_lineComment_body : Pattern.findAll lineComment (.start m.body) = [] := by
  obtain ⟨t, ht⟩ : ∃ t, m.body = [' '] ++ 'o' :: t := ⟨_, by
    rw [body_eq, beforePath, OptionHead.text_eq, List.cons_append]
    rfl⟩
  have hbody := m.lineFeed_not_mem_body
  rw [ht] at hbody ⊢
  exact findAll_lineComment_eq_nil (misses_lineComment_line (by decide) (by decide)
    fun h => hbody (by rw [List.mem_append]; exact .inr h))

/-- The access option is live in the body of its method, whatever the path holds. -/
theorem not_contains_lead : (CommentMap.ofText m.body).contains (byteLength m.lead) = false := by
  obtain ⟨t, ht⟩ : ∃ t, accessHead.text ++ (m.block ++ "\x7d; ".toList) = 'o' :: t := ⟨_, by
    rw [OptionHead.text_eq, List.append_assoc]
    rfl⟩
  have hstar : '*' ∉ 'o' :: t := by
    rw [← ht]
    exact fun h => m.not_mem_afterPath (c := '*') (by simp)
      (by rw [afterPath, List.mem_append]; exact .inr h)
  have hline := m.findAll_lineComment_body
  rw [body, ht] at hline ⊢
  exact CommentMap.not_contains hline (by decide)
    (Phase.after_eq_live (closes_eq_false hstar) (by simp))

theorem read_block : Requirement.read m.block = .ok ⟨[String.ofList m.permission], false⟩ := by
  have hlisted : splitPermissions ((quote m.permission).takeWhile (· != ']')) = [m.permission] :=
    (@listed_eq_self_iff [m.permission]).2 (by simpa using m.plain_permission.kept)
  have hunderscore : '_' ∉ m.block := by
    have hkey : '_' ∉ listKey := by simp [listKey]
    have hfixed : '_' ∉ Gap.space.text ∧ '_' ∉ "] ".toList := by decide
    simp only [block, quote, List.mem_append, List.mem_cons, List.not_mem_nil, or_false, not_or]
    exact ⟨hfixed.1, hkey, ⟨by decide, m.underscore_not_mem_permission, by decide⟩, hfixed.2⟩
  have hflag : ¬ flagName <:+: m.block := fun h => hunderscore (h.subset underscore_mem_flagName)
  refine read_eq_ok_iff.2 ⟨?_, readNoAuthRequired_eq_false hflag⟩
  have := readPermissions_append .space (quote m.permission) [' ']
  rw [hlisted] at this
  exact this

/-- What is read from the body of a method is its own permission. -/
theorem read_body (method : String) :
    (do Requirement.read (← optionBlock defaultOption method m.body)) =
      .ok ⟨[String.ofList m.permission], false⟩ := by
  have hslash : '/' ∉ m.block := m.not_mem_block (by decide) (by decide)
  have hclose : closingIndex? 0 (m.block ++ "\x7d; ".toList) = some m.block.length :=
    m.balanced_block.closingIndex?_eq "; ".toList
  rw [body, optionBlock_append method rfl (m.misses_lead _) m.not_contains_lead, hclose]
  simp only [List.take_left, (uncommented_of_not_mem hslash).stripComments]
  exact m.read_block

/-! ### Two methods in one text -/

/-- What follows the path in the text of the method. -/
def tail : Text :=
  m.afterPath ++ ['}']

/-- What stands in front of the path in the text of the method. -/
def front : Text :=
  m.signature.text ++ '{' :: beforePath

theorem text_eq : m.text = m.front ++ (m.path ++ m.tail) := by
  rw [text, part_eq, Part.text, body_eq]
  simp [front, tail]

theorem not_mem_signature {c : Char} (hc : c = '*' ∨ c = '/') : c ∉ m.signature.text := by
  have hplain : isWord c = false ∧ isBlank c = false ∧ c ≠ '.' ∧ c ≠ '(' ∧ c ≠ ')' := by
    rcases hc with rfl | rfl <;> decide
  obtain ⟨hword, hblank, hdot, hmark⟩ := hplain
  have htype : ∀ t : TypeText, c ∉ t.argument.text := fun t => t.not_mem ⟨hword, hblank, hdot⟩
  exact Signature.not_mem_text ⟨hword, hblank⟩ hmark (htype _) (htype _)

theorem not_mem_front {c : Char} (hc : c = '*' ∨ c = '/') : c ∉ m.front := by
  have hbrace : c ≠ '{' := by rcases hc with rfl | rfl <;> decide
  simp only [front, List.mem_append, List.mem_cons, not_or]
  exact ⟨m.not_mem_signature hc, hbrace, not_mem_beforePath (hc.imp_right .inl)⟩

theorem not_mem_tail {c : Char} (hc : c = '*' ∨ c = '/') : c ∉ m.tail := by
  rw [tail, List.mem_append, not_or]
  refine ⟨m.not_mem_afterPath hc, ?_⟩
  rcases hc with rfl | rfl <;> decide

/-- A type may go over several lines, but no slash stands in front of the body. -/
theorem misses_lineComment_text (u r : Text) : Misses lineComment u m.text r := by
  have hbody : '\n' ∉ '{' :: (m.body ++ ['}']) := by
    simpa using m.lineFeed_not_mem_body
  exact misses_lineComment_line (m.not_mem_signature (.inr rfl)) (by decide) hbody

theorem text_eq_cons : ∃ t, m.text = 'r' :: t := by
  obtain ⟨t, ht, -⟩ := m.signature.exists_headless_tail
  exact ⟨t ++ '{' :: (m.body ++ ['}']), by rw [text, part_eq, Part.text, ht, List.cons_append]⟩

theorem tail_eq_cons : ∃ t, m.tail = '"' :: t := ⟨_, by
  rw [tail, afterPath, List.append_assoc]
  rfl⟩

/-- Only its path can end a comment that is open in front of a method. -/
theorem closes_text : closes m.text = closes m.path := by
  obtain ⟨t, ht⟩ := m.tail_eq_cons
  have hstar : '*' ∉ t := fun h => m.not_mem_tail (c := '*') (by simp) (by simp [ht, h])
  rw [text_eq, closes_append_of_not_mem (m.not_mem_front (by simp)), Bool.eq_iff_iff, closes_iff,
    closes_iff, ht]
  refine ⟨fun h => ?_, fun h => h.trans (List.prefix_append _ _).isInfix⟩
  rcases infix_append_cons (by decide) h with h | h
  · exact h
  · exact absurd (h.subset (by simp)) hstar

/-- Behind a method a place is live, unless the path leaves a comment open that ends later on. -/
theorem after_text (r : Text) : Phase.live.after m.text r =
    if leavesOpen false m.path ∧ closes r then .inside else .live := by
  obtain ⟨t, ht⟩ := m.tail_eq_cons
  have hhead : ∀ c ∈ (m.tail ++ r).head?, c ≠ '*' ∧ c ≠ '/' := by
    simp [ht]
  have hcloses : closes (m.tail ++ r) = closes r :=
    closes_append_of_not_mem (m.not_mem_tail (by simp)) r
  have hlive := Phase.after_live_of_not_mem (m.not_mem_tail (c := '/') (by simp)) r
  have hinside := Phase.after_inside_of_not_mem (m.not_mem_tail (c := '*') (by simp)) r
  rw [text_eq, Phase.after_append, Phase.after_live_of_not_mem (m.not_mem_front (by simp)),
    Phase.after_append]
  cases hr : closes r with
  | false =>
      rw [hr] at hcloses
      rw [Phase.after_eq_live hcloses hhead, hlive]
      simp
  | true =>
      rw [hr] at hcloses
      have hpath := after_of_closes hcloses hhead false m.path
      rw [if_neg (by decide)] at hpath
      rw [hpath]
      cases leavesOpen false m.path with
      | false => simpa using hlive
      | true => simpa using hinside

/-- What is read where the method is found with its own body. -/
theorem ofDocument_eq {text : Text} (h : locate text m.name.text = .block m.body) (file : String) :
    Requirement.ofDocument defaultOption ⟨file, String.ofList text⟩ (String.ofList m.name.text) =
      .ok ⟨[String.ofList m.permission], false⟩ := by
  rw [ofDocument, String.toList_ofList, String.toList_ofList, h]
  exact m.read_body _

/-- A method on its own is found with its own body. -/
theorem locate_text : locate m.text m.name.text = .block m.body := by
  have htext : m.text = written ([] ++ .method m.signature m.body :: []) := by
    simp [text, part_eq]
  obtain ⟨t, ht⟩ := m.text_eq_cons
  have hline := findAll_lineComment_eq_nil (m.misses_lineComment_text [] [])
  have hlive : (CommentMap.ofText m.text).contains (byteLength []) = false := by
    rw [ht] at hline ⊢
    exact CommentMap.not_contains (u := []) hline (by decide) rfl
  have hsilent : ∀ part ∈ ([] : List Part), part.Silent m.signature.name := by simp
  rw [htext] at hlive ⊢
  exact Source.locate_eq_block hsilent boundary_nil hlive m.balanced_body

end BoundMethod

/-! ## Two methods in one text -/

section

variable (a b : BoundMethod)

/-- The text of two methods, one below the other. -/
def twoMethods : Text :=
  a.text ++ '\n' :: b.text

theorem twoMethods_eq_written :
    twoMethods a b = written [a.part, .between ['\n'], b.part] := by
  simp [twoMethods, BoundMethod.text, Part.text]

theorem findAll_lineComment_twoMethods :
    Pattern.findAll lineComment (.start (twoMethods a b)) = [] :=
  findAll_lineComment_eq_nil (misses_append.2 ⟨a.misses_lineComment_text _ _,
    lineComment_eq_none_of_lineFeed _ _, b.misses_lineComment_text _ _⟩)

/-- The phase in front of the second method. -/
theorem after_first : Phase.live.after (a.text ++ ['\n']) b.text =
    if leavesOpen false a.path ∧ closes b.path then .inside else .live := by
  have hcloses : closes ('\n' :: b.text) = closes b.path := by
    rw [← b.closes_text]
    exact closes_append_of_not_mem (u := ['\n']) (by decide) b.text
  have hafter := a.after_text ('\n' :: b.text)
  rw [hcloses] at hafter
  rw [Phase.after_append, List.singleton_append, hafter]
  exact Phase.next_lineFeed (by split <;> simp) b.text

theorem locate_first : locate (twoMethods a b) a.name.text = .block a.body := by
  have htext : twoMethods a b =
      written ([] ++ .method a.signature a.body :: [.between ['\n'], b.part]) := by
    rw [twoMethods_eq_written]
    rfl
  obtain ⟨s, hs⟩ := a.text_eq_cons
  have hline := findAll_lineComment_twoMethods a b
  have hlive : (CommentMap.ofText (twoMethods a b)).contains (byteLength []) = false := by
    rw [twoMethods, hs, List.cons_append] at hline ⊢
    exact CommentMap.not_contains (u := []) hline (by decide) rfl
  have hsilent : ∀ part ∈ ([] : List Part), part.Silent a.signature.name := by simp
  rw [htext] at hlive ⊢
  exact Source.locate_eq_block hsilent boundary_nil hlive a.balanced_body

theorem locate_second (h : a.name.text ≠ b.name.text) :
    locate (twoMethods a b) b.name.text =
      if leavesOpen false a.path ∧ closes b.path then .notFound else .block b.body := by
  have htext : twoMethods a b =
      written ([a.part, .between ['\n']] ++ .method b.signature b.body :: []) := by
    rw [twoMethods_eq_written]
    rfl
  have hpre : written [a.part, .between ['\n']] = a.text ++ ['\n'] := by
    simp [BoundMethod.text, Part.text]
  have hsilent : ∀ part ∈ [a.part, .between ['\n']], part.Silent b.signature.name := by
    simp only [List.forall_mem_cons]
    exact ⟨⟨h, a.headless_body _⟩, fun r => headless_of_not_mem (by decide), by simp⟩
  have hboundary : Boundary (written [a.part, .between ['\n']]) := by
    rw [hpre]
    exact boundary_concat _ (by decide)
  obtain ⟨t, ht⟩ := b.text_eq_cons
  have hline := findAll_lineComment_twoMethods a b
  have hsplit : twoMethods a b = (a.text ++ ['\n']) ++ 'r' :: t := by
    rw [twoMethods, ht]
    simp
  have hphase := after_first a b
  rw [ht] at hphase
  rw [hsplit] at hline
  split
  · rename_i hopen
    rw [if_pos hopen] at hphase
    have hcontains := CommentMap.contains_of_ne_live hline (by rw [hphase]; decide)
    rw [← hsplit, htext, ← hpre] at hcontains
    rw [htext]
    exact locate_eq_notFound_of_contains hsilent (b.headless_body _) (by simp) hcontains
  · rename_i hopen
    rw [if_neg hopen] at hphase
    have hlive := CommentMap.not_contains hline (by decide) hphase
    rw [← hsplit, htext, ← hpre] at hlive
    rw [htext]
    exact Source.locate_eq_block hsilent hboundary hlive b.balanced_body

end

/-! ## Extraction -/

section

variable (a b : BoundMethod) (base : Setup) (pool : Pool) (disk : Disk) (file : String)

/-- What is extracted for a method of a file, where the setup has the text of the file. -/
def requirementFrom (text : Text) (name : Word) : Except Failure Requirement :=
  (((base.withText defaultOption file text).extractor pool).requirement disk
    (base.withText defaultOption file text).cache file (String.ofList name.text)).1

theorem requirementFrom_eq (text : Text) (name : Word) :
    requirementFrom base pool disk file text name =
      Requirement.ofDocument defaultOption ⟨file, String.ofList text⟩
        (String.ofList name.text) :=
  base.requirementIn_eq defaultOption file text pool disk (String.ofList name.text)

theorem requirementFrom_text :
    requirementFrom base pool disk file a.text a.name =
      .ok ⟨[String.ofList a.permission], false⟩ := by
  rw [requirementFrom_eq]
  exact a.ofDocument_eq a.locate_text file

theorem requirementFrom_first :
    requirementFrom base pool disk file (twoMethods a b) a.name =
      .ok ⟨[String.ofList a.permission], false⟩ := by
  rw [requirementFrom_eq]
  exact a.ofDocument_eq (locate_first a b) file

theorem requirementFrom_second (h : a.name.text ≠ b.name.text) :
    requirementFrom base pool disk file (twoMethods a b) b.name =
      if leavesOpen false a.path ∧ closes b.path then
        .error (.methodNotFound (String.ofList b.name.text) file)
      else .ok ⟨[String.ofList b.permission], false⟩ := by
  have hlocate := locate_second a b h
  rw [requirementFrom_eq]
  split at hlocate
  · rename_i hopen
    rw [if_pos hopen, Requirement.ofDocument, String.toList_ofList, String.toList_ofList, hlocate]
  · rename_i hopen
    rw [if_neg hopen]
    exact b.ofDocument_eq hlocate file

/-- Below another method, a method keeps what it has on its own, unless the path of the other one
leaves a block comment open that its own path ends: then it is not found. The method above keeps
what it has in any case. -/
theorem requirement_twoMethods (h : a.name.text ≠ b.name.text) :
    requirementFrom base pool disk file (twoMethods a b) a.name =
        requirementFrom base pool disk file a.text a.name ∧
      requirementFrom base pool disk file a.text a.name =
        .ok ⟨[String.ofList a.permission], false⟩ ∧
      requirementFrom base pool disk file b.text b.name =
        .ok ⟨[String.ofList b.permission], false⟩ ∧
      requirementFrom base pool disk file (twoMethods a b) b.name =
        if leavesOpen false a.path ∧ closes b.path then
          .error (.methodNotFound (String.ofList b.name.text) file)
        else requirementFrom base pool disk file b.text b.name := by
  refine ⟨?_, requirementFrom_text a base pool disk file,
    requirementFrom_text b base pool disk file, ?_⟩
  · rw [requirementFrom_first, requirementFrom_text]
  · rw [requirementFrom_second a b base pool disk file h, requirementFrom_text]

end

/-- A method called `name` that is bound to `path`. -/
def boundTo (name : Word) (path : Text) (permission : Text)
    (path_chars : ∀ c ∈ path, isWord c = true ∨ c ∈ ['/', '{', '}', '=', '*', '.', ':', '-'])
    (path_balanced : Balanced path) (permission_ne_nil : permission ≠ [])
    (permission_chars : ∀ c ∈ permission, (isWord c = true ∧ c ≠ '_') ∨ c = ':') : BoundMethod where
  name := name
  request := ⟨"Request".toList, by decide⟩
  response := ⟨"Response".toList, by decide⟩
  path := path
  path_chars := path_chars
  path_balanced := path_balanced
  permission := permission
  permission_ne_nil := permission_ne_nil
  permission_chars := permission_chars

/-- A method whose path ends in a wildcard. -/
def listMethod : BoundMethod :=
  boundTo ⟨"List".toList, by decide, by decide⟩ "/v1/*".toList "a:list".toList (by decide)
    (balanced_of_not_mem (by decide) (by decide)) (by decide) (by decide)

/-- A method with a wildcard in the middle of its path. -/
def childMethod : BoundMethod :=
  boundTo ⟨"Child".toList, by decide, by decide⟩ "/v1/*/x".toList "a:child".toList (by decide)
    (balanced_of_not_mem (by decide) (by decide)) (by decide) (by decide)

theorem balanced_identifierPath : Balanced "/v1/\x7bid\x7d".toList := by
  have hfront : Balanced "/v1/".toList := balanced_of_not_mem (by decide) (by decide)
  have hid : Balanced "id".toList := balanced_of_not_mem (by decide) (by decide)
  exact hfront.append (.braces hid .nil)

/-- A method without a wildcard in its path, with types of other packages. -/
def plainMethod : BoundMethod :=
  { boundTo ⟨"Plain".toList, by decide, by decide⟩ "/v1/\x7bid\x7d".toList "a:plain".toList
      (by decide) balanced_identifierPath (by decide) (by decide) with
    request := ⟨"google.protobuf.Empty".toList, by decide⟩
    response := ⟨"stream\n  foo.v1.Plain".toList, by decide⟩ }

/-- A path without a wildcard does not end the comment that the path above it leaves open. -/
theorem requirement_listMethod_plainMethod :
    twoMethods listMethod plainMethod =
        "rpc List(Request) returns (Response) \x7b option (google.api.http) = \x7b ".toList ++
          "get: \"/v1/*\" \x7d; ".toList ++
          "option (proto.v1.authz) = \x7b permissions: [\"a:list\"] \x7d; \x7d\n".toList ++
        "rpc Plain(google.protobuf.Empty) returns (stream\n  foo.v1.Plain) \x7b ".toList ++
          "option (google.api.http) = \x7b ".toList ++
          "get: \"/v1/\x7bid\x7d\" \x7d; ".toList ++
          "option (proto.v1.authz) = \x7b permissions: [\"a:plain\"] \x7d; \x7d".toList ∧
      requirementFrom {} {} .empty "a.proto" (twoMethods listMethod plainMethod) listMethod.name =
        .ok ⟨["a:list"], false⟩ ∧
      requirementFrom {} {} .empty "a.proto" (twoMethods listMethod plainMethod) plainMethod.name =
        .ok ⟨["a:plain"], false⟩ := by
  obtain ⟨hfirst, hlist, hplain, hsecond⟩ :=
    requirement_twoMethods listMethod plainMethod {} {} .empty "a.proto" (by decide)
  rw [if_neg (by decide)] at hsecond
  exact ⟨by decide +kernel, hfirst.trans hlist, hsecond.trans hplain⟩

/-- The wildcard in its path makes a method disappear below a path that ends in a wildcard. -/
theorem requirement_childMethod :
    requirementFrom {} {} .empty "a.proto" (twoMethods listMethod childMethod) childMethod.name =
        .error (.methodNotFound "Child" "a.proto") ∧
      requirementFrom {} {} .empty "a.proto" childMethod.text childMethod.name =
        .ok ⟨["a:child"], false⟩ := by
  have hsecond := requirementFrom_second listMethod childMethod {} {} .empty "a.proto" (by decide)
  rw [if_pos (by decide)] at hsecond
  exact ⟨hsecond, requirementFrom_text childMethod {} {} .empty "a.proto"⟩

end AccessRules
