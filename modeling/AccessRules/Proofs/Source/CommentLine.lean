import AccessRules.Proofs.Source.Brace
import AccessRules.Proofs.Source.CommentAgreement

/-!
# Comment lines put into a text

A line comment reads the text line by line and remembers nothing from one line to the next; a block
comment looks ahead no further than for a mark that ends it. So a line that holds only a comment
can be put in front of any line: what stands before it stays commented out or live as it was
(`CommentLine.contains_eq`), and stripping leaves at most one line feed of it
(`CommentLine.stripComments_eq`).
-/

namespace AccessRules.Source

open AccessRules.Text Cursor Phase

/-! ## Line comments, line by line -/

section

variable {u u' l r : Text} {d : Cursor}

theorem lineComment_append {i b : Text} (hu : ∀ c ∈ u.getLast?, c = '\n')
    (hi : ∀ c ∈ i, isIndent c = true) (hb : '\n' ∉ b) (hr : ∀ c ∈ r.head?, c = '\n') :
    lineComment (between u ((i ++ '/' :: '/' :: b) ++ r)) =
      some (between (u ++ (i ++ '/' :: '/' :: b)) r) := by
  have hline : (between u ((i ++ '/' :: '/' :: b) ++ r)).atLineStart = true := by
    simpa [atLineStart, Option.all_eq_true] using hu
  have hindent := skipWhile_append (p := isIndent) (u := u) (r := '/' :: '/' :: (b ++ r)) hi
    (by simp; decide)
  have hopen := Pattern.literal_append ['/', '/'] (u ++ i) (b ++ r)
  have hend := skipWhile_append (p := (· != '\n')) (u := u ++ i ++ ['/', '/']) (w := b) (r := r)
    (fun c hc => bne_iff_ne.2 (ne_of_mem_of_not_mem hc hb)) (by simpa using hr)
  rw [List.cons_append, List.cons_append, List.nil_append] at hopen
  rw [lineComment, if_pos hline, List.append_assoc, List.cons_append, List.cons_append, hindent,
    hopen, Option.map_some, hend]
  simp

theorem not_mem_lineComment {i b : Text} (hi : ∀ c ∈ i, isIndent c = true) (hb : '\n' ∉ b) :
    '\n' ∉ i ++ '/' :: '/' :: b := by
  simp only [List.mem_append, List.mem_cons, not_or]
  exact ⟨fun h => absurd (hi _ h) (by decide), by decide, by decide, hb⟩

theorem lineComment_line (hl : '\n' ∉ l)
    (h : lineComment (between u (l ++ '\n' :: r)) = some d) (r' : Text) :
    lineComment (between u (l ++ '\n' :: r')) = some (between (u ++ l) ('\n' :: r')) := by
  obtain ⟨hu, i, b, s, hs, hi, hb, hhead, -⟩ := exists_of_lineComment h
  have hfront := not_mem_lineComment hi hb
  obtain ⟨s, rfl⟩ : ∃ t, s = '\n' :: t := by
    cases s with
    | nil =>
        rw [List.append_nil] at hs
        exact absurd (hs ▸ List.mem_append_right l List.mem_cons_self) hfront
    | cons x s => exact ⟨s, by rw [hhead x rfl]⟩
  obtain ⟨rfl, -⟩ := eq_of_first hl hfront hs
  exact lineComment_append hu hi hb (by simp)

theorem lineComment_congr {w : Text}
    (hu : (∀ c ∈ u.getLast?, c = '\n') ↔ ∀ c ∈ u'.getLast?, c = '\n')
    (h : lineComment (between u (w ++ r)) = some (between (u ++ w) r)) :
    lineComment (between u' (w ++ r)) = some (between (u' ++ w) r) := by
  obtain ⟨hline, hhead, i, b, rfl, hi, hb⟩ := lineComment_text h
  exact lineComment_append (hu.1 hline) hi hb hhead

/-- In a line that is no line comment none begins, nor with the line feed behind it. -/
theorem misses_of_lineComment_eq_none (hl : '\n' ∉ l)
    (h : lineComment (between u (l ++ ['\n'])) = none) (r : Text) :
    Misses lineComment u (l ++ ['\n']) r := by
  refine misses_of_forall fun a x s has => ?_
  rcases List.eq_nil_or_concat a with rfl | ⟨a, y, rfl⟩
  · rw [List.append_nil, ← List.nil_append (x :: s), ← has, List.append_assoc,
      List.singleton_append]
    cases hd : lineComment (between u (l ++ ('\n' :: r))) with
    | none => rfl
    | some d =>
        rw [lineComment_line hl hd []] at h
        cases h
  · rw [List.concat_eq_append, List.append_assoc, List.singleton_append] at has
    have hy : y ≠ '\n' := by
      rintro rfl
      obtain ⟨d, -, hd⟩ := exists_append_of_not_mem hl has
      have := congrArg List.length hd
      simp only [List.length_append, List.length_cons, List.length_nil] at this
      omega
    rw [List.concat_eq_append, ← List.append_assoc]
    exact lineComment_eq_none_of_before hy

theorem exists_leaves_of_not_mem (u : Text) (hl : '\n' ∉ l) :
    ∃ flags : List Bool, flags.length = l.length ∧ ∀ r,
      Pattern.leaves lineComment (between u (l ++ '\n' :: r)) =
        flags ++ true :: Pattern.leaves lineComment (between (u ++ (l ++ ['\n'])) r) := by
  cases hm : lineComment (between u (l ++ ['\n'])) with
  | some d =>
      refine ⟨List.replicate l.length false, by simp, fun r => ?_⟩
      have hne : l ≠ [] := by
        rintro rfl
        rw [List.nil_append, lineComment_eq_none_of_lineFeed] at hm
        cases hm
      rw [Pattern.leaves_take hne (lineComment_line hl hm r),
        Pattern.leaves_skip (lineComment_eq_none_of_lineFeed _ _), List.append_assoc]
  | none =>
      refine ⟨List.replicate l.length true, by simp, fun r => ?_⟩
      have hleaves := Pattern.leaves_of_misses (misses_of_lineComment_eq_none hl hm r)
      rw [List.append_assoc] at hleaves
      rw [List.singleton_append] at hleaves
      rw [hleaves]
      simp [List.replicate_succ']

/-- What line comments leave of whole lines is told by the lines themselves. -/
theorem exists_leaves_line (u l : Text) :
    ∃ flags : List Bool, flags.length = l.length ∧ ∀ r,
      Pattern.leaves lineComment (between u (l ++ '\n' :: r)) =
        flags ++ true :: Pattern.leaves lineComment (between (u ++ (l ++ ['\n'])) r) := by
  -- One line after the other; the last one is followed by the line feed of the statement.
  generalize hn : l.length = n
  induction n using Nat.strongRecOn generalizing u l with
  | ind n ih =>
      by_cases hmem : '\n' ∈ l
      · obtain ⟨a, b, rfl, ha⟩ := List.eq_append_cons_of_mem hmem
        obtain ⟨first, hfirst, hleaves⟩ := exists_leaves_of_not_mem u ha
        obtain ⟨more, hmore, hleaves'⟩ :=
          ih b.length (by simp [← hn]; omega) (u ++ (a ++ ['\n'])) b rfl
        refine ⟨first ++ true :: more, by simp [hfirst, hmore, ← hn], fun r => ?_⟩
        rw [List.append_assoc, List.cons_append, hleaves, hleaves']
        simp
      · obtain ⟨flags, hflags, hleaves⟩ := exists_leaves_of_not_mem u hmem
        exact ⟨flags, by rw [hflags, hn], hleaves⟩

theorem leaves_lineComment_congr
    (hu : (∀ c ∈ u.getLast?, c = '\n') ↔ ∀ c ∈ u'.getLast?, c = '\n') :
    Pattern.leaves lineComment (between u r) = Pattern.leaves lineComment (between u' r) := by
  induction u, r using lineComment_consumes.induction generalizing u' with
  | done u => rw [Pattern.leaves_nil, Pattern.leaves_nil]
  | skip u x r hx ih =>
      have hx' : lineComment (between u' (x :: r)) = none := by
        cases hd : lineComment (between u' (x :: r)) with
        | none => rfl
        | some d =>
            obtain ⟨w, s, -, hr, rfl⟩ := lineComment_consumes u' _ d hd
            rw [hr] at hd hx
            rw [lineComment_congr hu.symm hd] at hx
            cases hx
      rw [Pattern.leaves_skip hx, Pattern.leaves_skip hx', @ih (u' ++ [x]) (by simp)]
  | take u w r hw hm ih =>
      have hlast : (u ++ w).getLast? = (u' ++ w).getLast? := by
        obtain ⟨v, x, rfl⟩ := List.eq_nil_or_concat w |>.resolve_left hw
        simp
      rw [Pattern.leaves_take hw hm, Pattern.leaves_take hw (lineComment_congr hu hm),
        @ih (u' ++ w) (by rw [hlast])]

end

theorem exists_erase_line (u l : Text) : ∃ e, ∀ r,
    Pattern.erase lineComment (between u (l ++ '\n' :: r)) =
      e ++ '\n' :: Pattern.erase lineComment (between (u ++ (l ++ ['\n'])) r) := by
  obtain ⟨flags, hflags, hleaves⟩ := exists_leaves_line u l
  refine ⟨select flags l, fun r => ?_⟩
  rw [lineComment_consumes.erase_eq_select, hleaves, select_append hflags, select,
    lineComment_consumes.erase_eq_select]

/-! ## Block comments, line by line -/

theorem closes_line (u r : Text) : closes (u ++ '\n' :: r) = (closes u || closes r) :=
  closes_append_cons (by decide) u r

theorem Phase.next_congr {phase : Phase} {x : Char} {r s : Text} (hhead : r.head? = s.head?)
    (hcloses : closes r.tail = closes s.tail) : phase.next x r = phase.next x s := by
  cases phase <;> simp [next, hhead, hcloses]

/-- Which characters of a line lie in a block comment is told by the line and by whether such a
comment ends behind it. -/
theorem Phase.exists_marks_line (phase : Phase) (u r : Text) :
    ∃ (marks : List Bool) (q : Phase), marks.length = u.length ∧ ∀ s, closes s = closes r →
      phase.after u ('\n' :: s) = q ∧
        phase.marks (u ++ '\n' :: s) = marks ++ q.marks ('\n' :: s) := by
  induction u generalizing phase with
  | nil => exact ⟨[], phase, rfl, fun s _ => ⟨rfl, rfl⟩⟩
  | cons x u ih =>
      obtain ⟨marks, q, hlen, hmarks⟩ := ih (phase.next x (u ++ '\n' :: r))
      refine ⟨(phase != live || phase.next x (u ++ '\n' :: r) != live) :: marks, q,
        by simp [hlen], fun s hs => ?_⟩
      have hnext : phase.next x (u ++ '\n' :: s) = phase.next x (u ++ '\n' :: r) := by
        cases u with
        | nil => exact next_congr rfl hs
        | cons y u => exact next_congr rfl (by simp [closes_line, hs])
      obtain ⟨hafter, hmarks⟩ := hmarks s hs
      rw [after, hnext, List.cons_append, Phase.marks, hnext, hmarks]
      exact ⟨hafter, rfl⟩

/-- A line feed is live, or it lies inside a block comment. -/
theorem exists_live_marks_line (u r : Text) :
    ∃ (marks : List Bool) (q : Phase), marks.length = u.length ∧ (q = live ∨ q = inside) ∧
      ∀ s, closes s = closes r →
        live.marks (u ++ '\n' :: s) = marks ++ (q != live) :: q.marks s := by
  obtain ⟨marks, q, hlen, hmarks⟩ := live.exists_marks_line u r
  have hq : q = live ∨ q = inside := by
    rw [← (hmarks r rfl).1]
    exact after_eq_live_or_inside (by simp)
  refine ⟨marks, q, hlen, hq, fun s hs => ?_⟩
  rw [(hmarks s hs).2, Phase.marks, next_lineFeed hq, Bool.or_self]

/-- Which characters of whole lines are commented out depends on the text behind them only in
whether a block comment ends there. -/
theorem contains_congr {l r r' a d : Text} {x : Char} (h : closes r = closes r')
    (hl : l ++ ['\n'] = a ++ x :: d) :
    (CommentMap.ofText (l ++ '\n' :: r)).contains (byteLength a) =
      (CommentMap.ofText (l ++ '\n' :: r')).contains (byteLength a) := by
  obtain ⟨flags, hflags, hleaves⟩ := exists_leaves_line [] l
  obtain ⟨marks, q, hmarks, -, hlive⟩ := exists_live_marks_line l r'
  -- A character is live exactly if neither kind of comment takes it.
  have hlines : ∀ s, closes s = closes r' →
      ((offsets (l ++ ['\n'])).map fun o => !(CommentMap.ofText (l ++ '\n' :: s)).contains o) =
        List.zipWith (· && ·) (flags ++ [true]) ((marks ++ [q != live]).map (!·)) := by
    intro s hs
    have hall := map_offsets_contains (l ++ '\n' :: s)
    rw [start_eq_between, hleaves, hlive s hs, List.append_cons l, List.append_cons flags,
      List.append_cons marks, offsets, offsetsFrom_append, List.map_append, List.map_append,
      List.zipWith_append (by simp [hflags, hmarks])] at hall
    rw [List.append_cons l]
    exact (List.append_inj hall (by simp [hflags, hmarks])).1
  have hmem : byteLength a ∈ offsets (l ++ ['\n']) := by
    rw [hl, offsets, offsetsFrom_append, offsetsFrom, Nat.zero_add]
    simp
  exact Bool.not_inj (List.map_inj_left.1 ((hlines r h).trans (hlines r' rfl).symm) _ hmem)

/-! ## Lines that hold only a comment -/

/-- A line comment that takes a line of its own, without braces and without the end of a block
comment. -/
structure CommentLine where
  indent : Text
  indented : ∀ c ∈ indent, isIndent c = true
  /-- What follows `//`. -/
  body : Text
  one_line : '\n' ∉ body
  not_opens : '{' ∉ body
  not_closes : '}' ∉ body
  not_ends : ¬ ['*', '/'] <:+: body

namespace CommentLine

variable (c : CommentLine)

def line : Text :=
  c.indent ++ '/' :: '/' :: c.body

def text : Text :=
  c.line ++ ['\n']

theorem text_append (r : Text) : c.text ++ r = c.line ++ '\n' :: r := by
  rw [text, List.append_assoc, List.singleton_append]

theorem not_mem_line {x : Char} (hx : isIndent x = false ∧ x ≠ '/') (h : x ∉ c.body) :
    x ∉ c.line := by
  simp only [line, List.mem_append, List.mem_cons, not_or]
  exact ⟨fun hi => by simp [c.indented x hi] at hx, hx.2, hx.2, h⟩

theorem balanced_text : Balanced c.text :=
  (balanced_of_not_mem (c.not_mem_line (by decide) c.not_opens)
    (c.not_mem_line (by decide) c.not_closes)).append (balanced_of_not_mem (by decide) (by decide))

theorem closes_text_append (r : Text) : closes (c.text ++ r) = closes r := by
  have hbody : closes c.body = false := closes_eq_false_iff.2 c.not_ends
  have hindent : '*' ∉ c.indent := fun h => absurd (c.indented _ h) (by decide)
  have hline : closes c.line = false := by
    rw [line, closes_append_of_not_mem hindent]
    simpa [closes] using hbody
  rw [text_append, closes_line, hline, Bool.false_or]

theorem closingIndex?_insert {l r s : Text}
    (h : closingIndex? 0 ((l ++ '\n' :: r) ++ '}' :: s) = some (l ++ '\n' :: r).length) :
    closingIndex? 0 ((l ++ '\n' :: (c.text ++ r)) ++ '}' :: s) =
      some (l ++ '\n' :: (c.text ++ r)).length := by
  have hinsert : closingIndex? 0 ((l ++ ['\n']) ++ (c.text ++ (r ++ '}' :: s))) =
      some ((l ++ '\n' :: r).length + c.text.length) :=
    c.balanced_text.closingIndex?_insert (by simp) (by simpa using h)
  have hlength : (l ++ '\n' :: (c.text ++ r)).length =
      (l ++ '\n' :: r).length + c.text.length := by
    simp only [List.length_append, List.length_cons]
    omega
  rw [hlength, ← hinsert]
  simp

theorem contains_eq {l r a d : Text} {x : Char} (hl : l ++ ['\n'] = a ++ x :: d) :
    (CommentMap.ofText (l ++ '\n' :: (c.text ++ r))).contains (byteLength a) =
      (CommentMap.ofText (l ++ '\n' :: r)).contains (byteLength a) :=
  contains_congr (c.closes_text_append r) hl

theorem erase_lineComment {u : Text} (hu : ∀ x ∈ u.getLast?, x = '\n') (r : Text) :
    Pattern.erase lineComment (between u (c.text ++ r)) =
      '\n' :: Pattern.erase lineComment (between u r) := by
  have hmatch : lineComment (between u (c.line ++ '\n' :: r)) =
      some (between (u ++ c.line) ('\n' :: r)) :=
    lineComment_append hu c.indented c.one_line (by simp)
  have hlast : (∀ x ∈ (u ++ c.line ++ ['\n']).getLast?, x = '\n') ↔ ∀ x ∈ u.getLast?, x = '\n' := by
    simpa using hu
  rw [text_append, Pattern.erase_take (by simp [line]) hmatch,
    Pattern.erase_skip (lineComment_eq_none_of_lineFeed _ _),
    lineComment_consumes.erase_eq_select, lineComment_consumes.erase_eq_select,
    leaves_lineComment_congr hlast]

/-- Stripping leaves nothing of the line, or a line feed behind another one. -/
theorem stripComments_eq (l r : Text) :
    stripComments (l ++ '\n' :: (c.text ++ r)) = stripComments (l ++ '\n' :: r) ∨
      ∃ a b, stripComments (l ++ '\n' :: r) = a ++ '\n' :: b ∧
        stripComments (l ++ '\n' :: (c.text ++ r)) = a ++ '\n' :: '\n' :: b := by
  obtain ⟨e, herase⟩ := exists_erase_line [] l
  have hline := c.erase_lineComment (u := [] ++ (l ++ ['\n'])) (by simp) r
  generalize hrest : Pattern.erase lineComment (between ([] ++ (l ++ ['\n'])) r) = rest at hline
  obtain ⟨marks, q, hlen, hq, hmarks⟩ := exists_live_marks_line e rest
  have hstrip : ∀ s t, Pattern.erase lineComment (between ([] ++ (l ++ ['\n'])) s) = t →
      closes t = closes rest → stripComments (l ++ '\n' :: s) =
        select (marks.map (!·)) e ++ select ((!(q != live)) :: (q.marks t).map (!·)) ('\n' :: t) := by
    intro s t hst ht
    rw [stripComments, start_eq_between, start_eq_between, herase, hst,
      blockComment_consumes.erase_eq_select, leaves_blockComment, hmarks t ht, List.map_append,
      select_append (by simp [hlen]), List.map_cons]
  rw [hstrip r rest hrest rfl, hstrip _ _ hline (closes_line [] rest), Phase.marks,
    next_lineFeed hq, Bool.or_self, List.map_cons]
  -- Inside a block comment the line feed of the line is stripped as well.
  rcases hq with rfl | rfl
  · exact .inr ⟨_, _, rfl, rfl⟩
  · exact .inl rfl

end CommentLine

end AccessRules.Source
