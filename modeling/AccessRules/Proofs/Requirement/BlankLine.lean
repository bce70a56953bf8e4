import AccessRules.Proofs.Requirement.AccessBody

/-!
# Blank lines in option blocks

A line feed more behind a line feed changes nothing of what is read from a block, as long as none of
the permissions that are read holds a line feed (`read_double`). The reader of the longer block goes
through it beside the reader of the shorter one (`Doubled`).
-/

namespace AccessRules.Requirement

open AccessRules.Text Cursor

/-! ## Reading two texts side by side -/

theorem rel_bind {α β γ δ : Type} {R : α → β → Prop} {S : γ → δ → Prop} {x : Option α}
    {y : Option β} {f : α → Option γ} {g : β → Option δ} (h : Option.Rel R x y)
    (hf : ∀ a b, R a b → Option.Rel S (f a) (g b)) : Option.Rel S (x.bind f) (y.bind g) := by
  cases h with
  | some h => exact hf _ _ h
  | none => exact .none

/-- Places in two texts of which the second has a line feed more in front of `tail`: both places lie
before the line feeds, or both behind them. -/
inductive Doubled (tail : Text) : Cursor → Cursor → Prop where
  | ahead (u x : Text) :
      Doubled tail (between u (x ++ '\n' :: tail)) (between u (x ++ '\n' :: '\n' :: tail))
  | behind {u u' : Text} (s : Text) (h : u.getLast? = u'.getLast?) :
      Doubled tail (between u s) (between u' s)

namespace Doubled

variable {tail : Text} {c d : Cursor}

theorem atWordStart_eq (h : Doubled tail c d) : c.atWordStart = d.atWordStart := by
  cases h with
  | ahead u x => rfl
  | behind s h => simp [atWordStart, h]

theorem atWordEnd_eq (h : Doubled tail c d) : c.atWordEnd = d.atWordEnd := by
  cases h with
  | ahead u x => cases x <;> rfl
  | behind s h => rfl

theorem getLast?_append {u u' : Text} (h : u.getLast? = u'.getLast?) (w : Text) :
    (u ++ w).getLast? = (u' ++ w).getLast? := by
  rw [List.getLast?_append, List.getLast?_append, h]

theorem literal (h : Doubled tail c d) {w : Text} (hw : '\n' ∉ w) :
    Option.Rel (Doubled tail) (Pattern.literal w c) (Pattern.literal w d) := by
  cases h with
  | ahead u x =>
      by_cases hx : ∃ y, x = w ++ y
      · obtain ⟨y, rfl⟩ := hx
        rw [List.append_assoc, List.append_assoc, Pattern.literal_append, Pattern.literal_append]
        exact .some (.ahead _ y)
      · have hnone : ∀ s, Pattern.literal w (between u (x ++ '\n' :: s)) = none := fun s =>
          Pattern.literal_eq_none fun t ht => by
            obtain ⟨y, hy, -⟩ := exists_append_of_not_mem hw ht.symm
            exact hx ⟨y, hy⟩
        rw [hnone, hnone]
        exact .none
  | behind s h =>
      by_cases hs : ∃ t, s = w ++ t
      · obtain ⟨t, rfl⟩ := hs
        rw [Pattern.literal_append, Pattern.literal_append]
        exact .some (.behind t (getLast?_append h w))
      · have hnone : ∀ u, Pattern.literal w (between u s) = none := fun u =>
          Pattern.literal_eq_none fun t ht => hs ⟨t, ht⟩
        rw [hnone, hnone]
        exact .none

theorem skipBlanks (h : Doubled tail c d) : Doubled tail c.skipBlanks d.skipBlanks := by
  cases h with
  | ahead u x =>
      obtain ⟨g, s, rfl, hg, hs, -⟩ := Pattern.exists_of_skipBlanks u x
      cases s with
      | cons y s =>
          have hskip : ∀ r, (between u ((g ++ y :: s) ++ r)).skipBlanks =
              between (u ++ g) ((y :: s) ++ r) := fun r => by
            rw [List.append_assoc]
            exact Pattern.skipBlanks_append hg (by simpa using hs)
          rw [hskip, hskip]
          exact .ahead _ _
      | nil =>
          -- Both line feeds are passed, and the blanks behind them.
          obtain ⟨g', t, rfl, hg', ht, -⟩ := Pattern.exists_of_skipBlanks u tail
          have hskip : ∀ m, (∀ c ∈ m, isBlank c = true) →
              (between u (g ++ (m ++ (g' ++ t)))).skipBlanks = between (u ++ (g ++ (m ++ g'))) t := by
            intro m hm
            rw [← List.append_assoc m, ← List.append_assoc g]
            refine Pattern.skipBlanks_append (fun c hc => ?_) ht
            rcases List.mem_append.1 hc with hc | hc
            · exact hg c hc
            · exact (List.mem_append.1 hc).elim (hm c) (hg' c)
          have hone := hskip ['\n'] (by decide)
          have htwo := hskip ['\n', '\n'] (by decide)
          simp only [List.cons_append, List.nil_append] at hone htwo
          rw [List.append_nil, hone, htwo]
          refine .behind t ?_
          simp [List.getLast?_append, List.getLast?_cons]
  | behind s h =>
      obtain ⟨g, t, rfl, hg, ht, -⟩ := Pattern.exists_of_skipBlanks [] s
      rw [Pattern.skipBlanks_append hg ht, Pattern.skipBlanks_append hg ht]
      exact .behind t (getLast?_append h g)

section

variable {α : Type} {R : α → α → Prop} {scan : Cursor → Option α}

/-- Two searches that find the same at a character, or nothing, go on alike behind it. -/
theorem findFirst_cons_rel {u u' r r' : Text} {x : Char}
    (hhere : Option.Rel R (scan (between u (x :: r))) (scan (between u' (x :: r'))))
    (hbehind : Option.Rel R (((between (u ++ [x]) r).findFirst scan).map (·.2))
      (((between (u' ++ [x]) r').findFirst scan).map (·.2))) :
    Option.Rel R (((between u (x :: r)).findFirst scan).map (·.2))
      (((between u' (x :: r')).findFirst scan).map (·.2)) := by
  cases hc : scan (between u (x :: r)) <;> cases hd : scan (between u' (x :: r')) <;>
    rw [hc, hd] at hhere
  · rw [findFirst_cons hc, findFirst_cons hd]
    exact hbehind
  · cases hhere
  · cases hhere
  · rw [findFirst_of_eq_some hc, findFirst_of_eq_some hd]
    exact hhere

variable (hscan : ∀ {c d}, Doubled tail c d → Option.Rel R (scan c) (scan d))

include hscan

theorem findFirst_behind {u u' : Text} (s : Text) (h : u.getLast? = u'.getLast?) :
    Option.Rel R (((between u s).findFirst scan).map (·.2))
      (((between u' s).findFirst scan).map (·.2)) := by
  induction s generalizing u u' with
  | nil =>
      have hrel := hscan (.behind [] h)
      cases hc : scan (between u []) <;> cases hd : scan (between u' []) <;> rw [hc, hd] at hrel
      · rw [findFirst_nil hc, findFirst_nil hd]
        exact .none
      · cases hrel
      · cases hrel
      · rw [findFirst_of_eq_some hc, findFirst_of_eq_some hd]
        exact hrel
  | cons y s ih =>
      exact findFirst_cons_rel (hscan (.behind (y :: s) h)) (ih (getLast?_append h [y]))

/-- A search that finds nothing at a line feed finds the same in both texts. -/
theorem findFirst_ahead (hfeed : ∀ u r, scan (between u ('\n' :: r)) = none) (u x : Text) :
    Option.Rel R (((between u (x ++ '\n' :: tail)).findFirst scan).map (·.2))
      (((between u (x ++ '\n' :: '\n' :: tail)).findFirst scan).map (·.2)) := by
  induction x generalizing u with
  | nil =>
      rw [List.nil_append, List.nil_append, findFirst_cons (hfeed _ _), findFirst_cons (hfeed _ _),
        findFirst_cons (hfeed _ _)]
      exact findFirst_behind hscan tail (by simp)
  | cons y x ih => exact findFirst_cons_rel (hscan (.ahead u (y :: x))) (ih (u ++ [y]))

end

/-! ## Keys and flags -/

theorem permissionsKey (h : Doubled tail c d) :
    Option.Rel (Doubled tail) (permissionsKey c) (permissionsKey d) := by
  simp only [Requirement.permissionsKey, Option.bind_eq_bind, Pattern.guard_bind]
  rw [h.atWordStart_eq]
  split
  · exact rel_bind (h.literal (by decide)) fun _ _ h =>
      rel_bind (h.skipBlanks.literal (by decide)) fun _ _ h => h.skipBlanks.literal (by decide)
  · exact .none

theorem flagKey (h : Doubled tail c d) : Option.Rel (Doubled tail) (flagKey c) (flagKey d) := by
  have hname : '\n' ∉ flagName := not_mem_flagName (by decide)
  exact rel_bind (h.literal hname) fun _ _ h =>
    rel_bind (h.skipBlanks.literal (by decide)) fun _ _ h => .some h.skipBlanks

theorem flagValueAt_eq (h : Doubled tail c d) : flagValueAt c = flagValueAt d := by
  have htrue := h.literal (w := "true".toList) (by decide)
  have hfalse := h.literal (w := "false".toList) (by decide)
  rw [flagValueAt, flagValueAt]
  generalize Pattern.literal "true".toList c = c₁ at htrue ⊢
  generalize Pattern.literal "true".toList d = d₁ at htrue ⊢
  generalize Pattern.literal "false".toList c = c₂ at hfalse ⊢
  generalize Pattern.literal "false".toList d = d₂ at hfalse ⊢
  cases htrue with
  | some h => simp only [h.atWordEnd_eq]
  | none =>
      cases hfalse with
      | some h => simp only [h.atWordEnd_eq]
      | none => rfl

theorem flagAt (h : Doubled tail c d) : Option.Rel (· = ·) (flagAt c) (flagAt d) := by
  rw [flagAt_eq, flagAt_eq, h.atWordStart_eq]
  split
  · refine rel_bind h.flagKey fun _ _ h => ?_
    rw [h.flagValueAt_eq]
    cases flagValueAt _ with
    | none => exact .none
    | some flag => exact .some rfl
  · exact .none

end Doubled

/-! ## Lists -/

theorem unquote_double (a b : Text) : unquote (a ++ '\n' :: '\n' :: b) = unquote (a ++ '\n' :: b) ∨
    '\n' ∈ unquote (a ++ '\n' :: b) := by
  rcases trimWhile_double (p := isBlank) (c := '\n') (by decide) a b with heq | hmem
  · left
    rw [unquote, unquote, trim, trim, heq]
  · right
    exact mem_trimWhile (by decide) (mem_trimWhile (by decide) hmem)

theorem splitPermissions_double (a b : Text)
    (h : ∀ p ∈ splitPermissions (a ++ '\n' :: b), '\n' ∉ p) :
    splitPermissions (a ++ '\n' :: '\n' :: b) = splitPermissions (a ++ '\n' :: b) := by
  obtain ⟨front, first, last, back, hsplit⟩ := exists_splitAt_append ',' a b
  have hone := hsplit ['\n'] (by decide)
  have htwo := hsplit ['\n', '\n'] (by decide)
  rw [List.singleton_append, List.singleton_append] at hone
  simp only [List.cons_append, List.nil_append] at htwo
  have hitem : unquote (first ++ '\n' :: '\n' :: last) = unquote (first ++ '\n' :: last) := by
    refine (unquote_double first last).resolve_right fun hmem => h _ ?_ hmem
    refine List.mem_filter.2 ⟨List.mem_map.2 ⟨_, ?_, rfl⟩, ?_⟩
    · rw [hone]
      simp
    · simp only [decide_eq_true_eq]
      exact List.ne_nil_of_mem hmem
  simp only [splitPermissions, hone, htwo, List.map_append, List.map_cons, hitem]

/-- The permissions of a block whose list begins at a place. -/
def permissionsFrom (opening : Cursor) : Except Failure (List String) :=
  match splitOnce? ']' opening.rest with
  | none => .error (.badPermissions "permissions list has no closing `]`")
  | some (list, _) => .ok ((splitPermissions list).map String.ofList)

theorem readPermissions_eq (block : Text) : readPermissions block =
    match ((Cursor.start block).findFirst Requirement.permissionsKey).map (·.2) with
    | none => .ok []
    | some opening => permissionsFrom opening := by
  rw [readPermissions, Pattern.find?]
  cases (Cursor.start block).findFirst Requirement.permissionsKey <;> rfl

theorem Doubled.permissionsFrom_eq {tail : Text} {c d : Cursor} (h : Doubled tail c d)
    (hplain : ∀ ps, permissionsFrom c = .ok ps → ∀ p ∈ ps, '\n' ∉ p.toList) :
    permissionsFrom d = permissionsFrom c := by
  cases h with
  | behind s h => rfl
  | ahead u x =>
      rw [permissionsFrom] at hplain
      rw [permissionsFrom, permissionsFrom]
      rw [rest_between] at hplain ⊢
      rw [rest_between]
      -- The bracket that closes the list stands before the line feeds, behind them or nowhere.
      by_cases hx : ']' ∈ x
      · obtain ⟨list, x, rfl, hlist⟩ := List.eq_append_cons_of_mem hx
        have hclose : ∀ r, splitOnce? ']' ((list ++ ']' :: x) ++ r) = some (list, x ++ r) :=
          fun r => splitOnce?_eq_some_iff.2 ⟨by simp, hlist⟩
        rw [hclose, hclose]
      · by_cases htail : ']' ∈ tail
        · obtain ⟨y, rest, rfl, hy⟩ := List.eq_append_cons_of_mem htail
          have hclose : ∀ m, ']' ∉ m → splitOnce? ']' (x ++ (m ++ (y ++ ']' :: rest))) =
              some (x ++ (m ++ y), rest) := fun m hm =>
            splitOnce?_eq_some_iff.2 ⟨by simp, by simp [hx, hm, hy]⟩
          have hone := hclose ['\n'] (by decide)
          have htwo := hclose ['\n', '\n'] (by decide)
          simp only [List.cons_append, List.nil_append] at hone htwo
          rw [hone] at hplain ⊢
          rw [htwo]
          simp only at hplain ⊢
          rw [splitPermissions_double x y fun p hp hmem => ?_]
          exact hplain _ rfl _ (List.mem_map_of_mem hp) (by simpa using hmem)
        · have hnone : ∀ m, ']' ∉ m → splitOnce? ']' (x ++ (m ++ tail)) = none := fun m hm =>
            splitOnce?_eq_none (by simp [hx, hm, htail])
          have hone := hnone ['\n'] (by decide)
          have htwo := hnone ['\n', '\n'] (by decide)
          simp only [List.cons_append, List.nil_append] at hone htwo
          rw [hone, htwo]

/-! ## Whole blocks -/

theorem readNoAuthRequired_double (a b : Text) :
    readNoAuthRequired (a ++ '\n' :: '\n' :: b) = readNoAuthRequired (a ++ '\n' :: b) := by
  have hfeed : ∀ u r, flagAt (between u ('\n' :: r)) = none := fun u r =>
    (Gap.misses_flagAt ⟨['\n'], by decide⟩ u r).1
  have hrel := Doubled.findFirst_ahead (@Doubled.flagAt b) hfeed [] a
  rw [readNoAuthRequired_eq, readNoAuthRequired_eq, firstFlag?, firstFlag?, flagFrom, flagFrom,
    start_eq_between, start_eq_between]
  generalize ((between [] (a ++ '\n' :: b)).findFirst flagAt).map (·.2) = one at hrel ⊢
  generalize ((between [] (a ++ '\n' :: '\n' :: b)).findFirst flagAt).map (·.2) = two at hrel ⊢
  cases hrel with
  | some h => rw [h]
  | none => rfl

theorem readPermissions_double (a b : Text)
    (h : ∀ ps, readPermissions (a ++ '\n' :: b) = .ok ps → ∀ p ∈ ps, '\n' ∉ p.toList) :
    readPermissions (a ++ '\n' :: '\n' :: b) = readPermissions (a ++ '\n' :: b) := by
  have hfeed : ∀ u r, permissionsKey (between u ('\n' :: r)) = none := fun u r => by
    cases hd : permissionsKey (between u ('\n' :: r)) with
    | none => rfl
    | some d =>
        obtain ⟨s, hs⟩ := exists_of_permissionsKey hd
        cases hs
  have hrel := Doubled.findFirst_ahead (@Doubled.permissionsKey b) hfeed [] a
  rw [readPermissions_eq, start_eq_between] at h ⊢
  rw [readPermissions_eq, start_eq_between]
  generalize ((between [] (a ++ '\n' :: b)).findFirst permissionsKey).map (·.2) = one at hrel h ⊢
  generalize ((between [] (a ++ '\n' :: '\n' :: b)).findFirst permissionsKey).map (·.2) = two
    at hrel ⊢
  cases hrel with
  | none => rfl
  | some hdoubled => exact hdoubled.permissionsFrom_eq h

theorem read_double (a b : Text)
    (h : ∀ r, Requirement.read (a ++ '\n' :: b) = .ok r → ∀ p ∈ r.permissions, '\n' ∉ p.toList) :
    Requirement.read (a ++ '\n' :: '\n' :: b) = Requirement.read (a ++ '\n' :: b) := by
  have hpermissions := readPermissions_double a b fun ps hps =>
    h ⟨ps, readNoAuthRequired (a ++ '\n' :: b)⟩ (read_eq_ok_iff.2 ⟨hps, rfl⟩)
  rw [Requirement.read, Requirement.read, hpermissions, readNoAuthRequired_double]

end AccessRules.Requirement
