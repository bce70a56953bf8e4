import AccessRules.Proofs.Extraction.KnownText
import AccessRules.Proofs.Requirement.BlankLine
import AccessRules.Proofs.Source.CommentLine
import AccessRules.Proofs.Source.FirstMatch
import AccessRules.Proofs.Source.Located

/-!
# Comment lines in option blocks

A line that holds only a comment may be put in front of any line of the access option of a method,
whatever the comment says: what is extracted for the method stays the same
(`requirementIn_commentLine`). The declaration and the head of the option are found where they were,
since the comments in front of them are the same; their closing braces move with the line; and the
reader of the block sees at most a blank line more.
-/

namespace AccessRules

open Files Requirement Schema Source Text Cursor

/-! ## Where the access option of a method stands -/

/-- The contents of the access option of `method` in a text, as byte offsets: from the opening brace
of the option, without the brace, up to the closing one. -/
def optionSpan? (option method text : Text) : Option Span := do
  let (_, opening) ← (CommentMap.ofText text).findLive (declaration method '{') (.start text)
  let bodyLength ← closingIndex? 0 opening.rest
  let body := opening.rest.take bodyLength
  let (_, block) ← (CommentMap.ofText body).findLive (optionHead option) (.start body)
  let blockLength ← closingIndex? 0 block.rest
  let start := opening.offset + block.offset
  return ⟨start, start + byteLength (block.rest.take blockLength)⟩

theorem optionSpan?_eq_some_iff {option method text : Text} {span : Span} :
    optionSpan? option method text = some span ↔ ∃ c opening n d block k,
      (CommentMap.ofText text).findLive (declaration method '{') (.start text) =
          some (c, opening) ∧
        closingIndex? 0 opening.rest = some n ∧
        (CommentMap.ofText (opening.rest.take n)).findLive (optionHead option)
          (.start (opening.rest.take n)) = some (d, block) ∧
        closingIndex? 0 block.rest = some k ∧
        span = ⟨opening.offset + block.offset,
          opening.offset + block.offset + byteLength (block.rest.take k)⟩ := by
  simp only [optionSpan?, Option.bind_eq_bind, Option.bind_eq_some_iff, Prod.exists,
    Option.pure_def, Option.some.injEq]
  constructor
  · rintro ⟨c, opening, h, n, hn, d, block, hd, k, hk, rfl⟩
    exact ⟨c, opening, n, d, block, k, h, hn, hd, hk, rfl⟩
  · rintro ⟨c, opening, n, d, block, k, h, hn, hd, hk, rfl⟩
    exact ⟨c, opening, h, n, hn, d, block, hd, k, hk, rfl⟩

/-- There are such contents exactly if the method has a body and the body has the option, both with
their closing braces. -/
theorem exists_optionSpan?_iff (option : String) (method text : Text) :
    (∃ span, optionSpan? option.toList method text = some span) ↔
      ∃ body block, locate text method = .block body ∧
        optionBlock option (String.ofList method) body = .ok block := by
  simp only [optionSpan?_eq_some_iff]
  constructor
  · rintro ⟨-, c, opening, n, d, block, k, h, hn, hd, hk, -⟩
    refine ⟨opening.rest.take n, stripComments (block.rest.take k), ?_, ?_⟩
    · exact locate_eq_block_iff.2 ⟨c, opening, n, h, hn, rfl⟩
    · simp only [optionBlock, hd, hk]
  · rintro ⟨body, block, hlocate, hblock⟩
    obtain ⟨c, opening, n, hopening, hn, rfl⟩ := locate_eq_block_iff.1 hlocate
    rw [optionBlock] at hblock
    split at hblock
    · cases hblock
    · rename_i d head hhead
      split at hblock
      · cases hblock
      · rename_i k hk
        exact ⟨_, c, opening, n, d, head, k, hopening, hn, hhead, hk, rfl⟩

/-- The parts of a text around the access option of a method. -/
structure OptionSite where
  lead : Text
  /-- The declaration of the method up to and with its opening brace. -/
  declared : Text
  bodyLead : Text
  /-- The head of the option up to and with its opening brace. -/
  head : Text
  block : Text
  bodyRest : Text
  rest : Text

namespace OptionSite

def inner (s : OptionSite) : Text :=
  s.block ++ '}' :: s.bodyRest

def body (s : OptionSite) : Text :=
  s.bodyLead ++ (s.head ++ s.inner)

def text (s : OptionSite) : Text :=
  s.lead ++ (s.declared ++ (s.body ++ '}' :: s.rest))

def front (s : OptionSite) : Text :=
  s.lead ++ (s.declared ++ (s.bodyLead ++ s.head))

theorem text_eq (s : OptionSite) :
    s.text = s.front ++ (s.block ++ ('}' :: (s.bodyRest ++ '}' :: s.rest))) := by
  simp [text, front, body, inner]

/-- Whether the parts are those that are found for an option and a method. -/
structure Found (s : OptionSite) (option method : Text) : Prop where
  declared_ne_nil : s.declared ≠ []
  declared_found : (CommentMap.ofText s.text).findLive (declaration method '{') (.start s.text) =
    some (between s.lead (s.declared ++ (s.body ++ '}' :: s.rest)),
      between (s.lead ++ s.declared) (s.body ++ '}' :: s.rest))
  body_closed : closingIndex? 0 (s.body ++ '}' :: s.rest) = some s.body.length
  head_ends : s.head.getLast? = some '{'
  head_found : (CommentMap.ofText s.body).findLive (optionHead option) (.start s.body) =
    some (between s.bodyLead (s.head ++ s.inner), between (s.bodyLead ++ s.head) s.inner)
  block_closed : closingIndex? 0 s.inner = some s.block.length

end OptionSite

theorem exists_site_of_optionSpan? {option : Text} {method : Word} {text : Text} {span : Span}
    (h : optionSpan? option method.text text = some span) :
    ∃ s : OptionSite, s.text = text ∧ s.Found option method.text ∧
      span = ⟨byteLength s.front, byteLength s.front + byteLength s.block⟩ := by
  obtain ⟨c, opening, n, d, block, k, hdeclared, hbody, hhead, hblock, hspan⟩ :=
    optionSpan?_eq_some_iff.1 h
  obtain ⟨lead, declared, r, rfl, hmatch, rfl, rfl⟩ :=
    exists_of_findLive (reads_declaration method.text (by decide)) hdeclared
  rw [rest_between] at hbody hhead
  obtain ⟨body, rest, rfl, htake, rfl⟩ := exists_append_of_closingIndex? hbody
  rw [htake] at hhead
  obtain ⟨bodyLead, head, inner, rfl, hmatch', rfl, rfl⟩ :=
    exists_of_findLive (reads_optionHead option) hhead
  rw [rest_between] at hblock hspan
  obtain ⟨block, bodyRest, rfl, htake', rfl⟩ := exists_append_of_closingIndex? hblock
  refine ⟨⟨lead, declared, bodyLead, head, block, bodyRest, rest⟩, rfl,
    ⟨?_, hdeclared, hbody, ?_, hhead, hblock⟩, ?_⟩
  · rintro rfl
    obtain ⟨front, g, s, -, hs, hd⟩ := exists_of_declaration (by decide) hmatch
    obtain rfl := congrArg Cursor.rest hd
    have hlength := congrArg List.length hs
    simp only [List.nil_append, List.length_append, List.length_cons, rest_between] at hlength
    omega
  · obtain ⟨g, s, hs, hd⟩ := exists_gaps_of_optionHead hmatch'
    obtain rfl := congrArg Cursor.rest hd
    obtain ⟨t, -, ht⟩ := g.exists_closing
    rw [List.append_cancel_right hs, g.text_eq, ht]
    simp only [← List.append_assoc, ← List.cons_append, List.getLast?_concat]
  · rw [hspan, htake']
    simp [OptionSite.front, Nat.add_assoc]

/-- A match in front of the line of a comment stays the first live one. -/
theorem Source.CommentLine.findLive_insert (c : CommentLine) {p : Pattern} (hreads : p.Reads)
    (hnest : p.Unnested) {a w l r : Text} (hw : w ≠ [])
    (h : (CommentMap.ofText (a ++ (w ++ (l ++ '\n' :: r)))).findLive p
        (.start (a ++ (w ++ (l ++ '\n' :: r)))) =
      some (between a (w ++ (l ++ '\n' :: r)), between (a ++ w) (l ++ '\n' :: r))) :
    (CommentMap.ofText (a ++ (w ++ (l ++ '\n' :: (c.text ++ r))))).findLive p
        (.start (a ++ (w ++ (l ++ '\n' :: (c.text ++ r))))) =
      some (between a (w ++ (l ++ '\n' :: (c.text ++ r))),
        between (a ++ w) (l ++ '\n' :: (c.text ++ r))) := by
  refine findLive_congr hreads hnest hw (fun b x d hb => ?_) h
  have hline : (a ++ (w ++ l)) ++ ['\n'] = b ++ x :: (d ++ (l ++ ['\n'])) := by
    rw [← List.append_assoc, hb]
    simp
  simpa using c.contains_eq (r := r) hline

namespace OptionSite.Found

variable {s : OptionSite} {method : Word}

theorem ofDocument_eq {option : String} (h : s.Found option.toList method.text) (file : String) :
    Requirement.ofDocument option ⟨file, String.ofList s.text⟩ (String.ofList method.text) =
      Requirement.read (stripComments s.block) := by
  have hlocate : locate s.text method.text = .block s.body := by
    rw [locate, h.declared_found]
    simp only [rest_between, h.body_closed, List.take_left]
  have hblock : optionBlock option (String.ofList method.text) s.body =
      .ok (stripComments s.block) := by
    rw [optionBlock, h.head_found]
    simp only [rest_between, h.block_closed]
    rw [inner, List.take_left]
  rw [Requirement.ofDocument, String.toList_ofList, String.toList_ofList, hlocate]
  simp only [hblock]
  rfl

theorem insert {option l r : Text} (h : s.Found option method.text) (c : CommentLine)
    (hblock : s.block = l ++ '\n' :: r) :
    { s with block := l ++ '\n' :: (c.text ++ r) }.Found option method.text := by
  obtain ⟨lead, declared, bodyLead, head, block, bodyRest, rest⟩ := s
  obtain rfl : block = l ++ '\n' :: r := hblock
  obtain ⟨hne, hdeclared, hbody, hends, hhead, hclosed⟩ := h
  have hfirst : head ≠ [] := by
    rintro rfl
    cases hends
  -- Both heads stand in front of the line, both closing braces behind it.
  refine ⟨hne, ?_, ?_, hends, ?_, ?_⟩
  · have hinsert := c.findLive_insert (p := declaration method.text '{') (a := lead)
      (l := bodyLead ++ (head ++ l))
      (r := r ++ '}' :: (bodyRest ++ '}' :: rest)) (reads_declaration method.text (by decide))
      (unnested_declaration method (by decide)) hne (by simpa [text, body, inner] using hdeclared)
    simpa [text, body, inner] using hinsert
  · have hinsert := c.closingIndex?_insert (l := bodyLead ++ (head ++ l))
      (r := r ++ '}' :: bodyRest) (s := rest) (by simpa [body, inner] using hbody)
    simpa [body, inner] using hinsert
  · have hinsert := c.findLive_insert (a := bodyLead) (r := r ++ '}' :: bodyRest)
      (reads_optionHead option) (unnested_optionHead option) hfirst
      (by simpa [text, body, inner] using hhead)
    simpa [text, body, inner] using hinsert
  · exact c.closingIndex?_insert hclosed

end OptionSite.Found

/-- A line that holds only a comment, put in front of a line of the access option of a method,
changes nothing of what is extracted for the method, as long as none of its permissions holds a line
feed. -/
theorem requirementIn_commentLine (base : Setup) (pool : Pool) (disk : Disk)
    (option file : String) (method : Word) (c : CommentLine) {u v : Text} {span : Span}
    (hspan : optionSpan? option.toList method.text (u ++ v) = some span)
    (hplace : span.start ≤ byteLength u ∧ byteLength u ≤ span.stop)
    (hline : u.getLast? = some '\n')
    (hplain : ∀ requirement, base.requirementIn option file (u ++ v) pool disk
        (String.ofList method.text) = .ok requirement →
      ∀ permission ∈ requirement.permissions, '\n' ∉ permission.toList) :
    base.requirementIn option file (u ++ (c.text ++ v)) pool disk (String.ofList method.text) =
      base.requirementIn option file (u ++ v) pool disk (String.ofList method.text) := by
  obtain ⟨s, htext, hfound, rfl⟩ := exists_site_of_optionSpan? hspan
  obtain ⟨b, r, hblock, rfl, rfl⟩ := exists_append_of_byteLength
    (htext.symm.trans s.text_eq) hplace.1 hplace.2
  -- The place is not just behind the opening brace, since a line begins there.
  obtain ⟨l, rfl⟩ : ∃ l, b = l ++ ['\n'] := by
    rcases List.eq_nil_or_concat b with rfl | ⟨l, x, rfl⟩
    · simp [OptionSite.front, List.getLast?_append, hfound.head_ends] at hline
    · exact ⟨l, by simpa [List.getLast?_append] using hline⟩
  rw [List.append_assoc, List.singleton_append] at hblock
  have hinsert := (hfound.insert c hblock).ofDocument_eq file
  have hnew : OptionSite.text { s with block := l ++ '\n' :: (c.text ++ r) } =
      s.front ++ (l ++ ['\n']) ++ (c.text ++ (r ++ '}' :: (s.bodyRest ++ '}' :: s.rest))) := by
    rw [OptionSite.text_eq]
    simp [OptionSite.front]
  rw [hnew] at hinsert
  have hold := hfound.ofDocument_eq file
  rw [htext] at hold
  simp only [Setup.requirementIn_eq] at hplain ⊢
  rw [hold, hblock] at hplain ⊢
  rw [hinsert]
  rcases c.stripComments_eq l r with heq | ⟨a, d, heq, heq'⟩
  · rw [heq]
  · rw [heq] at hplain ⊢
    rw [heq', read_double a d hplain]

/-- A comment that looks like the fields of an access option. -/
def decoyLine : CommentLine where
  indent := "  \t".toList
  indented := by decide
  body := " permissions: [\"fake\"], no_auth_required: true".toList
  one_line := by decide
  not_opens := by decide
  not_closes := by decide
  not_ends := by
    rw [← closes_iff]
    decide

/-- A method up to the second line of its list of permissions. -/
def listBegun : Text :=
  "rpc Get(A) returns (B) \x7b\n option (proto.v1.authz) = \x7b\n".toList ++
    " permissions: [\n\"a:read\",\n".toList

def listEnded : Text :=
  "\"a:write\"\n] \x7d;\n\x7d\n".toList

/-- A comment in the middle of a list adds nothing to the list. -/
theorem requirementIn_decoyLine :
    optionSpan? defaultOption.toList "Get".toList (listBegun ++ listEnded) = some ⟨53, 92⟩ ∧
      53 ≤ byteLength listBegun ∧ byteLength listBegun ≤ 92 ∧ listBegun.getLast? = some '\n' ∧
      Setup.requirementIn {} defaultOption "a.proto" (listBegun ++ listEnded) {} .empty "Get" =
        .ok ⟨["a:read", "a:write"], false⟩ ∧
      Setup.requirementIn {} defaultOption "a.proto" (listBegun ++ (decoyLine.text ++ listEnded)) {}
        .empty "Get" = .ok ⟨["a:read", "a:write"], false⟩ := by
  have hspan : optionSpan? defaultOption.toList "Get".toList (listBegun ++ listEnded) =
      some ⟨53, 92⟩ := by decide +kernel
  have hplace : 53 ≤ byteLength listBegun ∧ byteLength listBegun ≤ 92 := by decide
  have hline : listBegun.getLast? = some '\n' := by decide
  have hname : String.ofList "Get".toList = "Get" := String.ofList_toList
  have hread : Setup.requirementIn {} defaultOption "a.proto" (listBegun ++ listEnded) {} .empty
      "Get" = .ok ⟨["a:read", "a:write"], false⟩ := by
    rw [Setup.requirementIn_eq]
    decide +kernel
  have hsame := requirementIn_commentLine {} {} .empty defaultOption "a.proto"
    ⟨"Get".toList, by decide, by decide⟩ decoyLine hspan hplace hline (by
      rw [hname, hread]
      rintro _ ⟨rfl⟩
      decide)
  rw [hname, hread] at hsame
  exact ⟨hspan, hplace.1, hplace.2, hline, hread, hsame⟩

end AccessRules
