import AccessRules.Proofs.Requirement.ReadBack
import AccessRules.Proofs.Source.OptionHead
import AccessRules.Requirement.Reader

/-!
# Bodies with an access option

The body of a method that states a requirement in its access option. What is read from it is what is
read from the notation of the requirement (`AccessBody.read_text`). Cut off at some other brace, the
body gives the same requirement or none (`AccessBody.eq_of_read_body`).
-/

namespace AccessRules.Requirement

open AccessRules.Source AccessRules.Text Cursor

/-! ## Notations that are cut off -/

section

variable {r : Requirement}

/-- What is read back from its notation holds no bracket that closes the list. -/
theorem not_mem_listText (hself : Requirement.read r.blockText = .ok r) : ']' ∉ r.listText := by
  have hkept := readPermissions_blockText_eq_iff.1 (read_eq_ok_iff.1 hself).1
  rw [listText_eq]
  exact not_mem_join (List.forall_mem_map.2 fun permission hpermission =>
    (hkept permission hpermission).not_bracket) (by decide)

/-- A notation that is cut off at a brace has lost the bracket that closes its list. -/
theorem read_ne_ok_of_cut (g : Gap) (hself : Requirement.read r.blockText = .ok r) {cut rest : Text}
    (hcut : r.blockText = cut ++ '}' :: rest) (req : Requirement) :
    Requirement.read (g.text ++ cut) ≠ .ok req := by
  rw [blockText_eq] at hcut
  obtain ⟨l, rfl, hl⟩ := exists_append_of_not_mem
    (not_mem_listKey (c := '}') (by decide) (by decide)) hcut
  have hend : '}' ∉ ']' :: '\n' :: r.flagText.text := by
    simp [r.flagText.not_mem (c := '}') (by decide) (by decide)]
  have hbracket : ']' ∉ l := by
    rcases List.append_eq_append_iff.1 hl with ⟨a, -, ha⟩ | ⟨a, ha, -⟩
    · exact absurd (by simp [ha]) hend
    · exact fun h => not_mem_listText hself (by simp [ha, h])
  intro h
  have := (read_eq_ok_iff.1 h).1
  rw [readPermissions_eq_error g hbracket] at this
  cases this

/-- Whatever is read from a block that is cut off at a brace is the requirement it was written
for. -/
theorem eq_of_read_block (hself : Requirement.read r.blockText = .ok r) {g g' : Gap}
    {tail block rest : Text} {req : Requirement}
    (hcut : g.text ++ (r.blockText ++ (g'.text ++ '}' :: tail)) = block ++ '}' :: rest)
    (hread : Requirement.read block = .ok req) : req = r := by
  have hgap : '}' ∉ g.text := g.not_mem (by decide)
  obtain ⟨a, rfl, ha⟩ := exists_append_of_not_mem hgap hcut
  rcases List.append_eq_append_iff.1 ha with ⟨c, rfl, hc⟩ | ⟨c, hc, hrest⟩
  · have hhead : ∀ x ∈ c.head?, isWord x = false := by
      intro x hx
      obtain ⟨c, rfl⟩ := List.head?_eq_some_iff.1 hx
      refine g'.isWord_of_head? (r := '}' :: tail) (by simp; decide) x ?_
      rw [hc]
      rfl
    rw [read_append hhead, hself] at hread
    exact (Except.ok.inj hread).symm
  · cases c with
    | nil =>
        rw [List.append_nil] at hc
        have hread' : Requirement.read (g.text ++ (r.blockText ++ [])) =
            Requirement.read r.blockText := read_append (by simp)
        rw [List.append_nil, hself, hc, hread] at hread'
        exact Except.ok.inj hread'
    | cons x c =>
        obtain rfl : '}' = x := (List.cons.inj hrest).1
        exact absurd hread (read_ne_ok_of_cut g hself hc req)

end

/-! ## Bodies -/

/-- The body of a method with an access option. -/
structure AccessBody where
  lead : Text
  head : OptionHead
  beforeBlock : Gap
  requirement : Requirement
  afterBlock : Gap
  tail : Text

namespace AccessBody

/-- What stands between the braces of the option. -/
def block (b : AccessBody) : Text :=
  b.beforeBlock.text ++ (b.requirement.blockText ++ b.afterBlock.text)

/-- The body as it is written. -/
def text (b : AccessBody) : Text :=
  b.lead ++ (b.head.text ++ (b.block ++ '}' :: b.tail))

/-- The lead holds no head of the option, neither on its own nor with what follows. -/
def FirstOption (b : AccessBody) : Prop :=
  ∀ r, Misses (optionHead b.head.name.text) [] b.lead (b.head.text ++ r)

variable {b : AccessBody} {name : String}

theorem not_mem_block (hplain : ∀ permission ∈ b.requirement.permissions, Plain permission.toList)
    {d : Char} (hd : isWord d = false ∧ d ≠ '.' ∧ d ≠ ':' ∧ d ≠ '-')
    (hmark : isBlank d = false ∧ d ≠ '[' ∧ d ≠ ']' ∧ d ≠ ',' ∧ d ≠ '"') : d ∉ b.block := by
  have hgap : ∀ g : Gap, d ∉ g.text := fun g => g.not_mem hmark.1
  simp only [block, List.mem_append, not_or]
  exact ⟨hgap _, not_mem_blockText hplain hd hmark, hgap _⟩

theorem balanced_block
    (hplain : ∀ permission ∈ b.requirement.permissions, Plain permission.toList) :
    Balanced b.block :=
  balanced_of_not_mem (not_mem_block hplain (by decide) (by decide))
    (not_mem_block hplain (by decide) (by decide))

theorem optionBlock_eq (hfirst : b.FirstOption) (hname : name.toList = b.head.name.text)
    (method : String) {rest : Text} (hu : Uncommented (b.lead ++ (b.head.text ++ rest))) :
    optionBlock name method (b.lead ++ (b.head.text ++ rest)) =
      match closingIndex? 0 rest with
      | none => .error (.unmatchedBraces s!"authz block of method {method}")
      | some n => .ok (rest.take n) := by
  rw [optionBlock_append method hname (hfirst rest) (by rw [hu.ofText]; rfl)]
  cases h : closingIndex? 0 rest with
  | none => rfl
  | some n =>
      have hinfix : rest.take n <:+: b.lead ++ (b.head.text ++ rest) :=
        (List.take_prefix n rest).isInfix.trans ⟨b.lead ++ b.head.text, [], by simp⟩
      simp only [(hu.part hinfix).stripComments]

/-- What is read from a body is what its notation says. -/
theorem read_text (hfirst : b.FirstOption) (hname : name.toList = b.head.name.text)
    (method : String) (hu : Uncommented b.text) (hblock : Balanced b.block) :
    (do Requirement.read (← optionBlock name method b.text)) =
      Requirement.read b.requirement.blockText := by
  have hok : optionBlock name method b.text = .ok b.block := by
    rw [text, optionBlock_eq hfirst hname method hu, hblock.closingIndex?_eq]
    simp
  rw [hok]
  exact read_append fun c hc => isWord_of_isBlank (b.afterBlock.blank c (List.mem_of_mem_head? hc))

/-! ## Bodies that are cut off -/

/-- An option is only read from a body that holds a head of it. -/
theorem exists_of_optionBlock {o : OptionName} {method : String} {body block : Text}
    (hname : name.toList = o.text) (h : optionBlock name method body = .ok block) :
    ∃ (w s : Text) (head : OptionHead), head.name = o ∧ body = w ++ (head.text ++ s) := by
  rw [optionBlock, hname, CommentMap.findLive_eq_findFirst] at h
  cases hfind : (Cursor.start body).findFirst
      ((CommentMap.ofText body).live (optionHead o.text)) with
  | none => simp [hfind] at h
  | some found =>
      obtain ⟨place, stop⟩ := found
      rw [start_eq_between] at hfind
      obtain ⟨w, t, rfl, -, rfl, hfound⟩ := exists_of_findFirst hfind
      obtain ⟨head, s, hhead, hs, -⟩ :=
        exists_of_optionHead (CommentMap.of_live_eq_some hfound)
      exact ⟨w, s, head, hhead, by rw [hs]⟩

/-- A body that is cut off within its lead holds no head of the option. -/
theorem optionBlock_ne_ok_of_cut (hfirst : b.FirstOption) (hname : name.toList = b.head.name.text)
    {method : String} {body rest block : Text} (hcut : b.lead = body ++ rest) :
    optionBlock name method body ≠ .ok block := by
  intro h
  obtain ⟨w, s, head, hhead, rfl⟩ := exists_of_optionBlock hname h
  have hne : head.text ++ (s ++ rest) ≠ [] := by simp [OptionHead.text]
  have hmiss := (hfirst []).eq_none (v := w) (s := head.text ++ (s ++ rest)) (by simp [hcut]) hne
  rw [List.append_assoc, ← hhead, head.append] at hmiss
  cases hmiss

/-- Whatever is read from a body that is cut off at a brace is the requirement. -/
theorem eq_of_read_body (hfirst : b.FirstOption) (hname : name.toList = b.head.name.text)
    (hself : Requirement.read b.requirement.blockText = .ok b.requirement) {method : String}
    {body rest z : Text} (hu : Uncommented body) (hcut : b.text ++ '}' :: z = body ++ '}' :: rest)
    {req : Requirement} (hread : (do Requirement.read (← optionBlock name method body)) = .ok req) :
    req = b.requirement := by
  cases hblock : optionBlock name method body with
  | error failure =>
      rw [hblock] at hread
      cases hread
  | ok block =>
      rw [hblock] at hread
      rw [AccessBody.text, List.append_assoc] at hcut
      rcases List.append_eq_append_iff.1 hcut with ⟨a, rfl, ha⟩ | ⟨a, hlead, -⟩
      · have hhead : '}' ∉ b.head.text := by
          simp [OptionHead.text, b.head.not_mem_stem]
        rw [List.append_assoc] at ha
        obtain ⟨c, rfl, hc⟩ := exists_append_of_not_mem hhead ha
        rw [optionBlock_eq hfirst hname method hu] at hblock
        cases hn : closingIndex? 0 c with
        | none => simp [hn] at hblock
        | some n =>
            obtain ⟨s, hs⟩ := exists_of_closingIndex? hn
            simp only [hn, Except.ok.injEq] at hblock
            rw [hblock] at hs
            have htext : b.beforeBlock.text ++ (b.requirement.blockText ++
                (b.afterBlock.text ++ '}' :: (b.tail ++ '}' :: z))) =
                  block ++ '}' :: (s ++ '}' :: rest) := by
              rw [hs] at hc
              simpa [AccessBody.block] using hc
            exact eq_of_read_block hself htext hread
      · exact absurd hblock (optionBlock_ne_ok_of_cut hfirst hname hlead)

end AccessBody

end AccessRules.Requirement
