import AccessRules.Proofs.Source.Phase

/-!
# Mapped comments and stripped comments

A comment map finds line comments and block comments in one text; stripping looks for block comments
only in what the line comments leave. Both take out the same characters exactly if every line
comment ends inside a block comment if it begins inside one, and only then
(`LinesKeepBlocks`): a line comment that hides one of the two marks of a block comment parts them.
-/

namespace AccessRules.Source

open AccessRules.Text Cursor Phase

/-! ## Line comments at places -/

/-- Behind any character but a line feed the first character of the text is left. -/
theorem head?_erase_lineComment {x : Char} (hx : x ≠ '\n') (u r : Text) :
    (Pattern.erase lineComment (between (u ++ [x]) r)).head? = r.head? := by
  cases r with
  | nil => rw [Pattern.erase_nil]
  | cons y r => rw [Pattern.erase_skip (lineComment_eq_none_of_before hx), List.head?_cons,
      List.head?_cons]

/-- Where a line begins, no mark of a block comment stands half done. -/
theorem Phase.after_of_lineStart {u r : Text} (h : ∀ c ∈ u.getLast?, c = '\n') :
    live.after u r = live ∨ live.after u r = inside := by
  rcases List.eq_nil_or_concat u with rfl | ⟨u, x, rfl⟩
  · exact .inl rfl
  · rw [List.concat_eq_append] at h ⊢
    have hx : x = '\n' := h x (by simp)
    rw [after_append]
    cases live.after u ([x] ++ r) <;> simp [after, next, hx]

/-- Where a line comment ends, none does either. -/
theorem Phase.after_lineComment {u w r : Text}
    (h : lineComment (between u (w ++ r)) = some (between (u ++ w) r)) :
    live.after (u ++ w) r = live ∨ live.after (u ++ w) r = inside := by
  refine after_eq_live_or_inside fun c hc => ?_
  rw [(lineComment_text h).2.1 c hc]
  decide

/-- Taking out line comments puts no two characters together that would end a block comment. -/
theorem closes_of_erase_lineComment (u r : Text)
    (h : closes (Pattern.erase lineComment (between u r)) = true) : closes r = true := by
  induction u, r using lineComment_consumes.induction with
  | done u => rwa [Pattern.erase_nil] at h
  | skip u x r hx ih =>
      rw [Pattern.erase_skip hx] at h
      simp only [closes, Bool.or_eq_true, Bool.and_eq_true, beq_iff_eq] at h ⊢
      rcases h with ⟨rfl, hhead⟩ | h
      · exact .inl ⟨rfl, head?_erase_lineComment (x := '*') (by decide) u r ▸ hhead⟩
      · exact .inr (ih h)
  | take u w r hw hm ih =>
      rw [Pattern.erase_take hw hm] at h
      exact closes_append_left w (ih h)

/-! ## Line comments that keep the block comments -/

/-- Whether a place lies inside a block comment of the text, behind its first byte and before its
end. -/
def InBlock (text : Text) (offset : Nat) : Prop :=
  ∃ block ∈ Pattern.findAll blockComment (.start text),
    block.1.offset < offset ∧ offset < block.2.offset

theorem inBlock_iff {text u r : Text} (htext : text = u ++ r) :
    InBlock text (byteLength u) ↔ live.after u r ≠ live := by
  subst htext
  simpa [InBlock, start_eq_between] using inside_blockComment_iff [] u r

/-- Every line comment begins inside a block comment if and only if it ends inside one. -/
def LinesKeepBlocks (text : Text) : Prop :=
  ∀ line ∈ Pattern.findAll lineComment (.start text),
    InBlock text line.1.offset ↔ InBlock text line.2.offset

section

variable {text : Text}

/-- A block comment that is open goes on through the line comments that keep it, and is closed by
what they leave. -/
theorem closes_erase_lineComment {u r : Text} (htext : text = u ++ r)
    (hin : live.after u r = inside)
    (hkeep : ∀ line ∈ Pattern.findAll lineComment (between u r),
      InBlock text line.1.offset ↔ InBlock text line.2.offset) :
    closes (Pattern.erase lineComment (between u r)) = true := by
  have hfits : (live.after u r).Fits r := (live_fits (u ++ r)).after
  rw [hin] at hfits
  induction u, r using lineComment_consumes.induction with
  | done u => cases hfits
  | skip u x r hx ih =>
      rw [Pattern.findAll_skip hx] at hkeep
      rw [Pattern.erase_skip hx]
      have hnext : live.after (u ++ [x]) r = inside.next x r := by
        rw [after_append, List.singleton_append, hin]
        rfl
      simp only [closes, Bool.or_eq_true, Bool.and_eq_true, beq_iff_eq]
      by_cases hclose : x = '*' ∧ r.head? = some '/'
      · obtain ⟨rfl, hhead⟩ := hclose
        exact .inl ⟨rfl, head?_erase_lineComment (x := '*') (by decide) u r ▸ hhead⟩
      · rw [next, if_neg hclose] at hnext
        refine .inr (ih (by simp [htext]) hnext hkeep ?_)
        exact hnext ▸ (live_fits ((u ++ [x]) ++ r)).after
  | take u w r hw hm ih =>
      rw [Pattern.findAll_take hw hm, List.forall_mem_cons] at hkeep
      rw [Pattern.erase_take hw hm]
      have hbehind : text = (u ++ w) ++ r := by rw [htext, List.append_assoc]
      have hlive : live.after (u ++ w) r ≠ live :=
        (inBlock_iff hbehind).1 (hkeep.1.1 ((inBlock_iff htext).2 (by simp [hin])))
      have hafter := (after_lineComment hm).resolve_left hlive
      refine ih hbehind hafter hkeep.2 ?_
      exact hafter ▸ (live_fits ((u ++ w) ++ r)).after

/-- Where a block comment begins that only a line comment ends, some line comment does not keep
it. -/
theorem not_keep_of_closes {u t : Text} (htext : text = u ++ '/' :: '*' :: t)
    (hlive : live.after u ('/' :: '*' :: t) = live) (ht : closes t = true)
    (hleft : closes (Pattern.erase lineComment (between (u ++ ['/', '*']) t)) = false) :
    ¬ ∀ line ∈ Pattern.findAll lineComment (between (u ++ ['/']) ('*' :: t)),
      InBlock text line.1.offset ↔ InBlock text line.2.offset := by
  intro hkeep
  have hstar : lineComment (between (u ++ ['/']) ('*' :: t)) = none :=
    lineComment_eq_none_of_before (by decide)
  rw [Pattern.findAll_skip hstar, List.append_assoc, List.singleton_append] at hkeep
  have hin : live.after (u ++ ['/', '*']) t = inside := by
    rw [after_append, List.cons_append, List.singleton_append, hlive]
    simp [after, next, ht]
  have hclosed := closes_erase_lineComment (by simp [htext]) hin hkeep
  rw [hleft] at hclosed
  cases hclosed

/-- One character leads to the same phase with and without the line comments behind it, unless it
opens a block comment that only a line comment ends. -/
theorem next_erase_lineComment (phase : Phase) (u r : Text) (x : Char) :
    phase.next x (Pattern.erase lineComment (between (u ++ [x]) r)) = phase.next x r ∨
      ∃ t, phase = live ∧ x = '/' ∧ r = '*' :: t ∧ closes t = true ∧
        closes (Pattern.erase lineComment (between (u ++ ['/', '*']) t)) = false := by
  cases phase with
  | opening => exact .inl rfl
  | closing => exact .inl rfl
  | inside =>
      left
      by_cases hx : x = '*'
      · subst hx
        rw [next, next, head?_erase_lineComment (by decide)]
      · simp [next, hx]
  | live =>
      by_cases hx : x = '/' ∧ r.head? = some '*'
      · obtain ⟨rfl, hhead⟩ := hx
        obtain ⟨t, rfl⟩ := List.head?_eq_some_iff.1 hhead
        rw [Pattern.erase_skip (lineComment_eq_none_of_before (by decide)), List.append_assoc,
          List.singleton_append]
        cases hleft : closes (Pattern.erase lineComment (between (u ++ ['/', '*']) t)) with
        | true =>
            left
            simp [next, hleft, closes_of_erase_lineComment _ t hleft]
        | false =>
            cases ht : closes t with
            | true => exact .inr ⟨t, rfl, rfl, rfl, ht, hleft⟩
            | false =>
                left
                simp [next, hleft, ht]
      · left
        by_cases hslash : x = '/'
        · subst hslash
          have hhead := head?_erase_lineComment (x := '/') (by decide) u r
          have hr : r.head? ≠ some '*' := fun h => hx ⟨rfl, h⟩
          simp [next, hhead, hr]
        · simp [next, hslash]

/-- Phases that part where a line ends mark what follows differently. -/
theorem select_marks_ne {phase phase' : Phase} {u r : Text} (hphase : phase = live ∨ phase = inside)
    (hphase' : phase' = live ∨ phase' = inside) (hne : phase ≠ phase')
    (hr : ∀ c ∈ r.head?, c = '\n') (hfits : phase.Fits (Pattern.erase lineComment (between u r)))
    (hfits' : phase'.Fits r) :
    select (Pattern.leaves lineComment (between u r)) (phase'.marks r) ≠
      phase.marks (Pattern.erase lineComment (between u r)) := by
  intro heq
  cases r with
  | nil =>
      -- One of the phases is inside a block comment, which nothing ends any more.
      rw [Pattern.erase_nil] at hfits
      rcases hphase with rfl | rfl <;> rcases hphase' with rfl | rfl <;> simp_all [Fits, closes]
  | cons y r =>
      obtain rfl : y = '\n' := hr y (by simp)
      rw [Pattern.leaves_skip (lineComment_eq_none_of_lineFeed _ _),
        Pattern.erase_skip (lineComment_eq_none_of_lineFeed _ _), marks, marks, select,
        next_lineFeed hphase, next_lineFeed hphase', Bool.or_self, Bool.or_self] at heq
      have hmark := (List.cons.inj heq).1
      rcases hphase with rfl | rfl <;> rcases hphase' with rfl | rfl <;> simp_all

/-- The marks of what line comments leave are what they leave of the marks, exactly if all of them
keep the block comments. -/
theorem select_marks_iff {u r : Text} (htext : text = u ++ r)
    (hfits : (live.after u r).Fits (Pattern.erase lineComment (between u r))) :
    select (Pattern.leaves lineComment (between u r)) ((live.after u r).marks r) =
        (live.after u r).marks (Pattern.erase lineComment (between u r)) ↔
      ∀ line ∈ Pattern.findAll lineComment (between u r),
        InBlock text line.1.offset ↔ InBlock text line.2.offset := by
  induction u, r using lineComment_consumes.induction with
  | done u =>
      simp [Pattern.erase_nil, Pattern.leaves_nil, marks,
        Pattern.findAll_nil (lineComment_consumes.eq_none u)]
  | skip u x r hx ih =>
      have hnext : live.after (u ++ [x]) r = (live.after u (x :: r)).next x r := by
        rw [after_append, List.singleton_append]
        rfl
      rw [Pattern.erase_skip hx] at hfits ⊢
      rw [Pattern.leaves_skip hx, Pattern.findAll_skip hx, marks, marks, select]
      rcases next_erase_lineComment (live.after u (x :: r)) u r x with hsame | hpart
      · have := hfits.next
        rw [hsame, ← hnext] at this
        rw [hsame, ← hnext, List.cons.injEq, and_iff_right rfl]
        exact ih (by simp [htext]) this
      · obtain ⟨t, hlive, rfl, rfl, ht, hleft⟩ := hpart
        refine iff_of_false (fun heq => ?_) (not_keep_of_closes htext hlive ht hleft)
        have hopen : closes (Pattern.erase lineComment
            (between (u ++ ['/']) ('*' :: t))).tail = false := by
          rw [Pattern.erase_skip (lineComment_eq_none_of_before (by decide)), List.append_assoc]
          exact hleft
        have hmark := (List.cons.inj heq).1
        simp [hlive, next, ht, hopen] at hmark
  | take u w r hw hm ih =>
      rw [Pattern.erase_take hw hm] at hfits ⊢
      have hbehind : text = (u ++ w) ++ r := by rw [htext, List.append_assoc]
      have hbefore := after_of_lineStart (r := w ++ r) (lineComment_text hm).1
      have hafter := after_lineComment hm
      obtain ⟨m, hlen, hmarks⟩ := (live.after u (w ++ r)).exists_marks_append w r
      rw [Pattern.leaves_take hw hm, Pattern.findAll_take hw hm, List.forall_mem_cons, hmarks,
        select_append (by simp [hlen]), select_replicate_false, List.nil_append, ← after_append,
        offset_between, offset_between, inBlock_iff htext, inBlock_iff hbehind]
      by_cases hsame : live.after u (w ++ r) = live.after (u ++ w) r
      · rw [hsame, and_iff_right Iff.rfl]
        exact ih hbehind (hsame ▸ hfits)
      · refine iff_of_false (select_marks_ne hbefore hafter hsame (lineComment_text hm).2.1 hfits
          (live_fits ((u ++ w) ++ r)).after) fun hkeep => ?_
        have := hkeep.1
        rcases hbefore with hb | hb <;> rcases hafter with ha | ha <;> simp_all

end

/-! ## What the map leaves and what stripping leaves -/

/-- A place is in no mapped comment if it is in no line comment and in no block comment. -/
theorem map_offsets_contains (text : Text) :
    ((offsets text).map fun offset => !(CommentMap.ofText text).contains offset) =
      List.zipWith (· && ·) (Pattern.leaves lineComment (.start text))
        ((live.marks text).map (!·)) := by
  rw [← leaves_blockComment [] text, start_eq_between, lineComment_consumes.leaves_eq_map_offsets,
    blockComment_consumes.leaves_eq_map_offsets, List.zipWith_map_left, List.zipWith_map_right,
    List.zipWith_self]
  refine List.map_congr_left fun offset _ => ?_
  simp only [CommentMap.contains, CommentMap.ofText, start_eq_between, List.map_append,
    List.any_append, List.any_map, Bool.not_or]
  rfl

section

variable {α : Type}

/-- What is left where the mapped comments of a text are taken out, of elements that run beside the
text. -/
def outsideMap (text : Text) (as : List α) : List α :=
  select ((offsets text).map fun offset => !(CommentMap.ofText text).contains offset) as

/-- What is left where a text is stripped of its comments, of elements that run beside the text. -/
def outsideStripped (text : Text) (as : List α) : List α :=
  select (Pattern.leaves blockComment (.start (Pattern.erase lineComment (.start text))))
    (select (Pattern.leaves lineComment (.start text)) as)

/-- Beside its own characters, what is left is the stripped text. -/
theorem outsideStripped_self (text : Text) : outsideStripped text text = stripComments text := by
  rw [outsideStripped, stripComments, start_eq_between, start_eq_between,
    ← lineComment_consumes.erase_eq_select, ← blockComment_consumes.erase_eq_select]

theorem outsideMap_eq_select (text : Text) (as : List α) :
    outsideMap text as = select
      (select (Pattern.leaves lineComment (.start text)) ((live.marks text).map (!·)))
      (select (Pattern.leaves lineComment (.start text)) as) := by
  rw [select_select, outsideMap, map_offsets_contains]

theorem outsideStripped_eq_select (text : Text) (as : List α) :
    outsideStripped text as = select
      ((live.marks (Pattern.erase lineComment (.start text))).map (!·))
      (select (Pattern.leaves lineComment (.start text)) as) := by
  rw [← leaves_blockComment []]
  rfl

/-- Where line comments keep the block comments, the map and stripping leave the same. -/
theorem LinesKeepBlocks.outsideMap_eq {text : Text} (h : LinesKeepBlocks text) (as : List α) :
    outsideMap text as = outsideStripped text as := by
  have hmarks := (select_marks_iff (List.nil_append text).symm (live_fits _)).2 h
  rw [outsideMap_eq_select, outsideStripped_eq_select, select_map]
  exact congrArg (fun marks => select (marks.map (!·)) _) hmarks

end

/-- The map and stripping leave the characters at the same places exactly where line comments keep
the block comments; there the map leaves the stripped text. -/
theorem outsideMap_offsets_eq_iff (text : Text) :
    (outsideMap text (offsets text) = outsideStripped text (offsets text) ↔
      LinesKeepBlocks text) ∧
    (LinesKeepBlocks text → outsideMap text text = stripComments text) := by
  refine ⟨⟨fun heq => ?_, fun h => h.outsideMap_eq _⟩, fun h => ?_⟩
  · refine (select_marks_iff (List.nil_append text).symm (live_fits _)).1 ?_
    have hlen : (offsets text).length = text.length := length_offsetsFrom 0 text
    have hnodup : (select (Pattern.leaves lineComment (.start text)) (offsets text)).Nodup :=
      (select_sublist _ _).nodup (nodup_offsetsFrom 0 text)
    rw [outsideMap_eq_select, outsideStripped_eq_select, select_map] at heq
    rw [select_inj hnodup] at heq
    · exact (List.map_inj_right fun _ _ h => Bool.not_inj h).1 heq
    · rw [List.length_map]
      exact length_select_congr _ (by simp [hlen])
    · rw [List.length_map, length_marks, start_eq_between, lineComment_consumes.erase_eq_select]
      exact length_select_congr _ hlen.symm
  · rw [h.outsideMap_eq, outsideStripped_self]

/-- A line comment that hides the mark of a block comment hides it from stripping alone. -/
theorem outsideMap_ne_stripComments :
    outsideMap "// /*\nfoo */".toList "// /*\nfoo */".toList ≠
      stripComments "// /*\nfoo */".toList := by
  have hmap : outsideMap "// /*\nfoo */".toList "// /*\nfoo */".toList = [] := by
    decide +kernel
  have hstrip : stripComments "// /*\nfoo */".toList = "\nfoo */".toList := by
    decide +kernel
  rw [hmap, hstrip]
  decide

end AccessRules.Source
