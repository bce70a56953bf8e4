import AccessRules.Proofs.Requirement.Flag
import AccessRules.Proofs.Text.Split

/-!
# Requirements in block notation

What is read from the notation of a requirement are its permissions, split at the commas and cut
off at the first bracket that closes a list (`readPermissions_blockText`), and the first flag that
stands within a permission, or else its own (`flagFrom_blockText`). Blanks in front of the notation
and text behind it change nothing (`read_append`).
-/

namespace AccessRules.Requirement

open AccessRules.Text Cursor

/-! ## The list of permissions -/

/-- The key of the permissions list as it is written. -/
@[irreducible]
def listKey : Text :=
  "permissions: [".toList

theorem not_mem_listKey {c : Char} (hw : isWord c = false)
    (hc : c ≠ ':' ∧ isBlank c = false ∧ c ≠ '[') : c ∉ listKey := by
  have hall : ∀ x ∈ listKey, isWord x = true ∨ x = ':' ∨ x = ' ' ∨ x = '[' := by
    unfold listKey
    decide +kernel
  intro h
  rcases hall c h with hx | rfl | rfl | rfl
  · simp [hx] at hw
  · exact hc.1 rfl
  · exact absurd hc.2.1 (by decide)
  · exact hc.2.2 rfl

/-- The name of the permissions list. -/
@[irreducible]
def listName : Text :=
  "permissions".toList

/-- What the reader takes for the key of the permissions list. -/
structure ListKey where
  afterName : Gap
  afterColon : Gap

/-- The text of a key, up to and with the bracket that opens the list. -/
def ListKey.text (key : ListKey) : Text :=
  listName ++ (key.afterName.text ++ ':' :: (key.afterColon.text ++ ['[']))

theorem listKey_eq : listKey = ListKey.text ⟨.none, .space⟩ := by
  rw [listKey, ListKey.text, listName]
  rfl

theorem listName_eq_cons : ∃ t, listName = 'p' :: t :=
  ⟨_, by unfold listName; rfl⟩

theorem permissionsKey_eq_some_iff {u r : Text} {d : Cursor} :
    permissionsKey (between u r) = some d ↔ Boundary u ∧
      ∃ (key : ListKey) (s : Text), r = key.text ++ s ∧ d = between (u ++ key.text) s := by
  have hname : "permissions".toList = listName := by rw [listName]
  rw [permissionsKey, Option.bind_eq_bind, Pattern.guard_bind, hname]
  constructor
  · intro h
    split at h
    · rename_i hstart
      obtain ⟨c, hword, h⟩ := Option.bind_eq_some_iff.1 h
      obtain ⟨t, rfl, rfl⟩ := Pattern.literal_eq_some_iff.1 hword
      obtain ⟨c, hcolon, hbracket⟩ := Option.bind_eq_some_iff.1 h
      obtain ⟨g, t, rfl, rfl⟩ := Pattern.exists_of_skipBlanks_literal hcolon
      obtain ⟨g', s, rfl, rfl⟩ := Pattern.exists_of_skipBlanks_literal hbracket
      exact ⟨atWordStart_between.1 hstart, ⟨g, g'⟩, s, by simp [ListKey.text],
        by simp [ListKey.text]⟩
    · cases h
  · rintro ⟨hu, key, s, rfl, rfl⟩
    have hcolon := key.afterName.skipBlanks_cons (x := ':') (by decide) (u ++ listName)
      (key.afterColon.text ++ '[' :: s)
    have hbracket := key.afterColon.skipBlanks_cons (x := '[') (by decide)
      (u ++ listName ++ key.afterName.text ++ [':']) s
    rw [if_pos (atWordStart_between.2 hu)]
    simp only [ListKey.text, List.append_assoc, List.cons_append, List.nil_append]
      at hcolon hbracket ⊢
    simp only [Pattern.literal_append, Option.bind_eq_bind, Option.bind_some, hcolon,
      Pattern.literal_cons, List.append_assoc, List.cons_append, hbracket]

theorem exists_of_permissionsKey {u r : Text} {d : Cursor}
    (h : permissionsKey (between u r) = some d) : ∃ s, r = 'p' :: s := by
  obtain ⟨-, key, s, rfl, -⟩ := permissionsKey_eq_some_iff.1 h
  obtain ⟨t, ht⟩ := listName_eq_cons
  exact ⟨_, by rw [ListKey.text, ht]; rfl⟩

theorem permissionsKey_append {u : Text} (hu : Boundary u) (r : Text) :
    permissionsKey (between u (listKey ++ r)) = some (between (u ++ listKey) r) :=
  permissionsKey_eq_some_iff.2 ⟨hu, ⟨.none, .space⟩, r, by rw [listKey_eq], by rw [listKey_eq]⟩

/-- The list of permissions is found behind a text in which none begins. -/
theorem find?_permissionsKey {w : Text} (hw : Boundary w) {r : Text}
    (hmiss : Misses permissionsKey [] w (listKey ++ r)) :
    Pattern.find? permissionsKey (w ++ (listKey ++ r)) =
      some (between w (listKey ++ r), between (w ++ listKey) r) := by
  rw [Pattern.find?, start_eq_between, findFirst_of_misses hmiss, List.nil_append,
    findFirst_of_eq_some (permissionsKey_append hw r)]

theorem misses_permissionsKey {w : Text} (h : 'p' ∉ w) (u r : Text) :
    Misses permissionsKey u w r := by
  refine misses_of_forall fun a x b hab => Option.eq_none_iff_forall_ne_some.2 fun d hd => ?_
  obtain ⟨s, hs⟩ := exists_of_permissionsKey hd
  obtain rfl : x = 'p' := (List.cons.inj hs).1
  exact h (by simp [hab])

theorem readPermissions_of_misses {w : Text} (hw : Boundary w) {list rest : Text}
    (hmiss : Misses permissionsKey [] w (listKey ++ (list ++ ']' :: rest))) :
    readPermissions (w ++ (listKey ++ (list ++ ']' :: rest))) =
      .ok ((splitPermissions (list.takeWhile (· != ']'))).map String.ofList) := by
  obtain ⟨after, hafter⟩ := @splitOnce?_append_cons ']' list rest
  rw [readPermissions, find?_permissionsKey hw hmiss]
  simp only [rest_between, hafter]

theorem readPermissions_append (g : Gap) (list rest : Text) :
    readPermissions (g.text ++ (listKey ++ (list ++ ']' :: rest))) =
      .ok ((splitPermissions (list.takeWhile (· != ']'))).map String.ofList) :=
  readPermissions_of_misses g.boundary (misses_permissionsKey (g.not_mem (by decide)) _ _)

theorem readPermissions_eq_error (g : Gap) {list : Text} (h : ']' ∉ list) :
    readPermissions (g.text ++ (listKey ++ list)) =
      .error (.badPermissions "permissions list has no closing `]`") := by
  have hmiss : Misses permissionsKey [] g.text (listKey ++ list) :=
    misses_permissionsKey (g.not_mem (by decide)) _ _
  rw [readPermissions, find?_permissionsKey g.boundary hmiss]
  simp only [rest_between, splitOnce?_eq_none h]

theorem read_eq_ok_iff {block : Text} {req : Requirement} :
    Requirement.read block = .ok req ↔
      readPermissions block = .ok req.permissions ∧
        readNoAuthRequired block = req.noAuthRequired := by
  rw [Requirement.read]
  cases readPermissions block with
  | error failure => simp [bind, Except.bind]
  | ok permissions =>
      cases req
      simp [bind, Except.bind, pure, Except.pure]

/-! ## Elements of the list -/

/-- A permission between quotes. -/
def quote (permission : Text) : Text :=
  '"' :: (permission ++ ['"'])

theorem not_mem_quote {p : Text} {d : Char} (hp : d ∉ p) (hd : d ≠ '"') : d ∉ quote p := by
  simp [quote, hp, hd]

theorem getLast?_quote (p : Text) : (quote p).getLast? = some '"' :=
  List.getLast?_concat (l := '"' :: p)

/-- What is read from a quoted permission, with blanks in front of it or without. -/
theorem unquote_quote (g : Gap) (p : Text) :
    unquote (g.text ++ quote p) = trimWhile (· == '\'') (trimWhile (· == '"') p) := by
  have htrim : trim (g.text ++ quote p) = quote p := by
    have hself : trimWhile isBlank (quote p) = quote p := by
      refine trimWhile_eq_self_iff.2 ⟨?_, ?_⟩
      · simp [quote]
        decide
      · simp [getLast?_quote]
        decide
    have := trimWhile_append (p := isBlank) (b := []) g.blank (by simp) (quote p)
    rwa [List.append_nil, hself] at this
  have hquotes : trimWhile (· == '"') (quote p) = trimWhile (· == '"') p :=
    trimWhile_append (p := (· == '"')) (a := ['"']) (b := ['"']) (by simp) (by simp) p
  rw [unquote, htrim, hquotes]

theorem subset_of_mem_splitPermissions {list permission : Text}
    (h : permission ∈ splitPermissions list) : permission ⊆ list := by
  obtain ⟨item, hitem, rfl⟩ := List.mem_map.1 (List.mem_filter.1 h).1
  intro c hc
  exact subset_of_mem_splitAt hitem (trimWhile_subset _ _ (trimWhile_subset _ _
    (trimWhile_subset _ _ hc)))

theorem splitPermissions_append_cons {a : Text} (ha : ',' ∉ a) (b : Text) :
    splitPermissions (a ++ ',' :: b) = [unquote a].filter (· ≠ []) ++ splitPermissions b := by
  rw [splitPermissions, splitAt_append_cons ha, List.map_cons, ← List.singleton_append,
    List.filter_append, splitPermissions]

/-- A list is split where its permissions were joined, unless one of them holds a comma. Those of
which nothing is left are dropped. -/
theorem splitPermissions_join {ps : List Text} (h : ∀ p ∈ ps, ',' ∉ p) (g : Gap) :
    splitPermissions (g.text ++ Text.join [',', ' '] (ps.map quote)) =
      (ps.map fun p => unquote (quote p)).filter (· ≠ []) := by
  have hunquote : ∀ (g : Gap) p, unquote (g.text ++ quote p) = unquote (quote p) := fun g p => by
    have hnone := unquote_quote .none p
    rw [Gap.text_none, List.nil_append] at hnone
    rw [unquote_quote, hnone]
  have hcomma : ∀ (g : Gap) p, ',' ∉ p → ',' ∉ g.text ++ quote p := fun g p hp => by
    simp [g.not_mem (c := ',') (by decide), not_mem_quote hp]
  induction ps generalizing g with
  | nil =>
      have hnil : unquote g.text = [] := by
        have := trimWhile_append (p := isBlank) (b := []) g.blank (by simp) []
        rw [List.append_nil, List.append_nil] at this
        rw [unquote, trim, this]
        rfl
      simp [Text.join, splitPermissions, splitAt_of_not_mem (g.not_mem (c := ',') (by decide)),
        hnil]
  | cons p ps ih =>
      rw [List.forall_mem_cons] at h
      cases ps with
      | nil =>
          simp [Text.join, splitPermissions, splitAt_of_not_mem (hcomma g p h.1), hunquote]
      | cons q ps =>
          have hjoin : g.text ++ Text.join [',', ' '] ((p :: q :: ps).map quote) =
              (g.text ++ quote p) ++
                ',' :: (Gap.space.text ++ Text.join [',', ' '] ((q :: ps).map quote)) := by
            simp [Text.join]
          rw [hjoin, splitPermissions_append_cons (hcomma g p h.1), ih h.2, hunquote,
            List.map_cons (l := q :: ps), ← List.singleton_append (l := (q :: ps).map _),
            List.filter_append]

theorem not_mem_join {ps : List Text} {d : Char} (h : ∀ p ∈ ps, d ∉ p)
    (hd : d ≠ ',' ∧ d ≠ ' ' ∧ d ≠ '"') : d ∉ Text.join [',', ' '] (ps.map quote) := by
  induction ps with
  | nil => simp [Text.join]
  | cons p ps ih =>
      rw [List.forall_mem_cons] at h
      cases ps with
      | nil => exact not_mem_quote h.1 hd.2.2
      | cons q ps =>
          simp only [List.map_cons, Text.join, List.mem_append, not_or]
          exact ⟨⟨not_mem_quote h.1 hd.2.2, by simp [hd.1, hd.2.1]⟩, ih h.2⟩

/-! ## The first flag -/

theorem flagName_eq_cons : ∃ t, flagName = 'n' :: t :=
  ⟨_, by unfold flagName; rfl⟩

theorem isWord_of_mem_flagName {c : Char} (h : c ∈ flagName) : isWord c = true := by
  have hall : ∀ x ∈ "no_auth_required".toList, isWord x = true := by decide
  rw [flagName] at h
  exact hall c h

theorem not_mem_flagName {c : Char} (hc : isWord c = false) : c ∉ flagName :=
  fun h => by simp [isWord_of_mem_flagName h] at hc

theorem FlagText.not_mem (f : FlagText) {c : Char} (hw : isWord c = false)
    (hc : isBlank c = false ∧ c ≠ ':') : c ∉ f.text := by
  have hvalue : c ∉ flagValue f.value := fun h => by simp [isWord_of_mem_flagValue h] at hw
  simp only [FlagText.text, List.mem_append, List.mem_cons, not_or]
  exact ⟨not_mem_flagName hw, f.afterKey.not_mem hc.1, hc.2, f.afterColon.not_mem hc.1, hvalue⟩

theorem FlagText.eq_cons_tail (f : FlagText) : f.text = 'n' :: f.text.tail := by
  obtain ⟨t, ht⟩ := flagName_eq_cons
  rw [text, ht]
  rfl

/-- A flag begins with its key. -/
theorem flagName_prefix_of_flagAt {u r : Text} {flag : Bool}
    (h : flagAt (between u r) = some flag) : flagName <+: r := by
  obtain ⟨-, f, s, -, rfl, -⟩ := flagAt_eq_some_iff.1 h
  rw [FlagText.text, List.append_assoc]
  exact List.prefix_append _ _

theorem flagAt_nil (u : Text) : flagAt (between u []) = none := by
  refine Option.eq_none_iff_forall_ne_some.2 fun flag h => ?_
  obtain ⟨t, ht⟩ := flagName_eq_cons
  simpa [ht] using flagName_prefix_of_flagAt h

theorem flagAt_cons_of_ne {u r : Text} {x : Char} (hx : x ≠ 'n') :
    flagAt (between u (x :: r)) = none := by
  refine Option.eq_none_iff_forall_ne_some.2 fun flag h => hx ?_
  obtain ⟨t, hname⟩ := flagName_eq_cons
  obtain ⟨s, hs⟩ := flagName_prefix_of_flagAt h
  rw [hname] at hs
  exact (List.cons.inj hs).1.symm

/-- No flag begins with a blank. -/
theorem Gap.misses_flagAt (g : Gap) (u r : Text) : Misses flagAt u g.text r := by
  refine misses_of_forall fun a x b hab => flagAt_cons_of_ne ?_
  rintro rfl
  exact absurd (g.blank 'n' (by simp [hab])) (by decide)

/-- The value of the first flag at a place or behind it. -/
def flagFrom (c : Cursor) : Option Bool :=
  (c.findFirst flagAt).map (·.2)

/-- The value of the first flag in a text. -/
def firstFlag? (text : Text) : Option Bool :=
  flagFrom (Cursor.start text)

theorem readNoAuthRequired_eq (block : Text) :
    readNoAuthRequired block = (firstFlag? block).getD false := by
  rw [readNoAuthRequired, firstFlag?, flagFrom]
  cases (Cursor.start block).findFirst flagAt <;> rfl

theorem flagFrom_of_misses {u w r : Text} (h : Misses flagAt u w r) :
    flagFrom (between u (w ++ r)) = flagFrom (between (u ++ w) r) := by
  rw [flagFrom, findFirst_of_misses h, flagFrom]

theorem FlagText.flagFrom_append (f : FlagText) {u z : Text} (hu : Boundary u)
    (hz : ∀ c ∈ z.head?, isWord c = false) : flagFrom (between u (f.text ++ z)) = some f.value := by
  rw [flagFrom, findFirst_of_eq_some (flagAt_eq_some_iff.2 ⟨hu, f, z, rfl, rfl, hz⟩)]
  rfl

theorem flagFrom_cons_of_ne {u r : Text} {x : Char} (hx : x ≠ 'n') :
    flagFrom (between u (x :: r)) = flagFrom (between (u ++ [x]) r) := by
  rw [flagFrom, findFirst_cons (flagAt_cons_of_ne hx), flagFrom]

/-- A text without the key of a flag holds no flag. -/
theorem firstFlag?_eq_none {text : Text} (h : ¬ flagName <:+: text) : firstFlag? text = none := by
  have hnone : ∀ a b, text = a ++ b → flagAt (between a b) = none := by
    refine fun a b hab => Option.eq_none_iff_forall_ne_some.2 fun flag hflag => h ?_
    obtain ⟨s, rfl⟩ := flagName_prefix_of_flagAt hflag
    exact ⟨a, s, by rw [hab, List.append_assoc]⟩
  have hmiss : Misses flagAt [] text [] :=
    misses_of_forall fun a x b hab => by simpa using hnone a (x :: b) hab
  rw [firstFlag?, flagFrom, start_eq_between, findFirst_eq_none hmiss (hnone _ _ (by simp))]
  rfl

theorem readNoAuthRequired_eq_false {block : Text} (h : ¬ flagName <:+: block) :
    readNoAuthRequired block = false := by
  rw [readNoAuthRequired_eq, firstFlag?_eq_none h]
  rfl

/-- A character that can only begin a flag ends every flag that has begun before it. -/
theorem flagAt_append_cons {u b z : Text} {x : Char} (hx : ∀ f : FlagText, x ∉ f.text.tail)
    (hb : b ≠ []) {flag : Bool} : flagAt (between u (b ++ x :: z)) = some flag ↔
      Boundary u ∧ ∃ (f : FlagText) (d : Text), f.value = flag ∧ b = f.text ++ d ∧
        ∀ c ∈ (d ++ [x]).head?, isWord c = false := by
  have hhead : ∀ d : Text, (d ++ x :: z).head? = (d ++ [x]).head? := by
    rintro (_ | ⟨y, d⟩) <;> rfl
  rw [flagAt_eq_some_iff]
  refine and_congr_right' ⟨?_, ?_⟩
  · rintro ⟨f, s, hf, hr, hs⟩
    obtain ⟨y, b, rfl⟩ := List.exists_cons_of_ne_nil hb
    rw [f.eq_cons_tail, List.cons_append, List.cons_append] at hr
    obtain ⟨rfl, htail⟩ := List.cons.inj hr
    obtain ⟨d, rfl, rfl⟩ := exists_append_of_not_mem (hx f) htail.symm
    refine ⟨f, d, hf, ?_, hhead d ▸ hs⟩
    rw [← List.cons_append, ← f.eq_cons_tail]
  · rintro ⟨f, d, hf, rfl, hd⟩
    exact ⟨f, d ++ x :: z, hf, List.append_assoc .., hhead d ▸ hd⟩

theorem FlagText.not_boundary (f : FlagText) : ¬ Boundary f.text := by
  have hvalue : ∀ flag, ¬ Boundary (flagValue flag) := by
    intro flag h
    have hlast : (flagValue flag).getLast? = some 'e' := by cases flag <;> rfl
    exact absurd (h 'e' hlast) (by decide)
  have hne : flagValue f.value ≠ [] := by
    obtain ⟨y, t, ht, -⟩ := flagValue_eq_cons f.value
    simp [ht]
  rw [text, ← List.cons_append, ← List.append_assoc, ← List.append_assoc, boundary_append_iff hne]
  exact hvalue f.value

theorem FlagText.not_mem_tail (f : FlagText) {x : Char} (hname : x ∉ flagName.tail)
    (hgap : isBlank x = false ∧ x ≠ ':') (hvalue : x ∉ flagValue true ++ flagValue false) :
    x ∉ f.text.tail := by
  obtain ⟨t, ht⟩ := flagName_eq_cons
  have hflag : x ∉ flagValue f.value := fun h => by
    cases hflag : f.value <;> rw [hflag] at h <;> simp [h] at hvalue
  rw [ht, List.tail_cons] at hname
  rw [text, ht, List.cons_append, List.tail_cons]
  simp only [List.mem_append, List.mem_cons, not_or]
  exact ⟨hname, f.afterKey.not_mem hgap.1, hgap.2, f.afterColon.not_mem hgap.1, hflag⟩

/-- The first flag from a text on is the first one in the text, or else the first one behind it. -/
theorem flagFrom_append {u w z : Text} {x : Char} (hx : ∀ f : FlagText, x ∉ f.text.tail)
    (hend : isWord x = false ∨ Boundary w) (hu : Boundary u) :
    flagFrom (between u (w ++ x :: z)) =
      (firstFlag? w).or (flagFrom (between (u ++ w) (x :: z))) := by
  refine @findFirst_append Bool flagAt flagAt u [] w (x :: z)
    (fun a b hw hb => Option.ext fun flag => ?_) ?_
  · have hstart : Boundary (u ++ a) ↔ Boundary ([] ++ a) := by
      by_cases ha : a = []
      · simpa [ha] using iff_of_true hu boundary_nil
      · rw [boundary_append_iff ha, List.nil_append]
    rw [flagAt_append_cons hx hb, flagAt_eq_some_iff, hstart]
    refine and_congr_right' (exists₂_congr fun f d => and_congr_right' (and_congr_right ?_))
    rintro rfl
    cases d with
    | cons y d => simp
    | nil =>
        -- A flag ends with a letter, so no word goes on behind it.
        have hword : isWord x = false := hend.resolve_right fun h => by
          rw [hw, boundary_append_iff hb, List.append_nil] at h
          exact f.not_boundary h
        simp [hword]
  · exact flagAt_nil _

/-- The first flag from a quoted permission on is the first one in the permission, or else the first
one behind it. -/
theorem flagFrom_quote (u p z : Text) :
    flagFrom (between u (quote p ++ z)) =
      (firstFlag? p).or (flagFrom (between (u ++ quote p) z)) := by
  have hmark : ∀ f : FlagText, '"' ∉ f.text.tail := fun f h =>
    f.not_mem (c := '"') (by decide) (by decide) (List.mem_of_mem_tail h)
  have hinside := flagFrom_append (w := p) (z := z) hmark (.inl (by decide))
    (boundary_concat u (c := '"') (by decide))
  have hquote : quote p ++ z = '"' :: (p ++ '"' :: z) := by simp [quote]
  rw [hquote, flagFrom_cons_of_ne (by decide), hinside, flagFrom_cons_of_ne (by decide)]
  simp [quote]

/-- The first flag from a list on, if the elements of the list hold the flags of some texts. -/
theorem flagFrom_elements {α : Type} {text content : α → Text}
    (h : ∀ (a : α) (u z : Text), flagFrom (between u (text a ++ z)) =
      (firstFlag? (content a)).or (flagFrom (between (u ++ text a) z)))
    {separator : Text} (hseparator : 'n' ∉ separator) (u : Text) (as : List α) (z : Text) :
    flagFrom (between u (Text.join separator (as.map text) ++ z)) =
      ((as.map content).findSome? firstFlag?).or
        (flagFrom (between (u ++ Text.join separator (as.map text)) z)) := by
  induction as generalizing u with
  | nil => simp [Text.join]
  | cons a as ih =>
      cases as with
      | nil =>
          rw [List.map_singleton, Text.join, h, List.map_singleton, List.findSome?_singleton]
      | cons b as =>
          have hmiss : ∀ u z, Misses flagAt u separator z := fun u z =>
            misses_of_forall fun v x s hv => flagAt_cons_of_ne fun hx => hseparator (by simp [hv, hx])
          have hjoin : Text.join separator ((a :: b :: as).map text) =
              text a ++ (separator ++ Text.join separator ((b :: as).map text)) := by
            simp [Text.join]
          rw [hjoin, List.append_assoc, List.append_assoc, h, flagFrom_of_misses (hmiss _ _), ih,
            ← Option.or_assoc]
          congr 1
          · cases hp : firstFlag? (content a) <;> simp [hp]
          · simp

/-- The first flag from a list of quoted permissions on. -/
theorem flagFrom_join (u : Text) (ps : List Text) (z : Text) :
    flagFrom (between u (Text.join [',', ' '] (ps.map quote) ++ z)) =
      (ps.findSome? firstFlag?).or
        (flagFrom (between (u ++ Text.join [',', ' '] (ps.map quote)) z)) := by
  have := @flagFrom_elements Text quote id (fun p u z => flagFrom_quote u p z) [',', ' ']
    (by decide) u ps z
  rwa [List.map_id] at this

/-! ## The notation of a requirement -/

/-- The permissions between the brackets of the notation. -/
def listText (r : Requirement) : Text :=
  Text.join [',', ' '] (r.permissions.map fun permission => '"' :: permission.toList ++ ['"'])

/-- The flag in the notation. -/
def flagText (r : Requirement) : FlagText :=
  ⟨.none, .space, r.noAuthRequired⟩

theorem blockText_eq (r : Requirement) :
    r.blockText = listKey ++ (r.listText ++ (']' :: '\n' :: r.flagText.text)) := by
  have hsep : "]\nno_auth_required: ".toList = ']' :: '\n' :: (flagName ++ [':', ' ']) := by
    unfold flagName
    decide +kernel
  unfold blockText listKey
  simp only [hsep, listText, flagText, FlagText.text, flagValue, List.append_assoc,
    List.cons_append, List.nil_append]
  rfl

theorem readPermissions_blockText (r : Requirement) :
    readPermissions r.blockText =
      .ok ((splitPermissions (r.listText.takeWhile (· != ']'))).map String.ofList) := by
  have := readPermissions_append .none r.listText ('\n' :: r.flagText.text)
  rwa [Gap.text_none, List.nil_append, ← blockText_eq] at this

theorem listText_eq (r : Requirement) :
    r.listText = Text.join [',', ' '] ((r.permissions.map String.toList).map quote) := by
  rw [listText, List.map_map]
  rfl

variable {r : Requirement} {g : Gap} {rest : Text}

/-- No flag begins within the key of the list. -/
theorem misses_flagAt_listKey (u s : Text) : Misses flagAt u listKey s := by
  refine misses_of_forall fun a x b hab => Option.eq_none_iff_forall_ne_some.2 fun flag h => ?_
  obtain ⟨t, ht⟩ := flagName_prefix_of_flagAt h
  have hkey : listKey.getLast? = some '[' ∧ '_' ∉ listKey ∧ '_' ∈ flagName := by
    unfold listKey flagName
    decide +kernel
  -- The key of a flag would end before the bracket.
  have hlast : (x :: b).getLast? = some '[' := by
    simpa [hab, List.getLast?_append] using hkey.1
  obtain ⟨d, hd⟩ := List.getLast?_eq_some_iff.1 hlast
  rw [hd, List.append_assoc, List.singleton_append] at ht
  obtain ⟨e, rfl, -⟩ := exists_append_of_not_mem (not_mem_flagName (by decide)) ht
  refine hkey.2.1 ?_
  rw [hab, hd]
  simp [hkey.2.2]

/-- The first flag from the notation of a requirement on is the first one in its permissions, or
else its own. -/
theorem flagFrom_blockText {u : Text} (hrest : ∀ c ∈ rest.head?, isWord c = false) :
    flagFrom (between u (r.blockText ++ rest)) =
      ((r.permissions.map String.toList).findSome? firstFlag?).or (some r.noAuthRequired) := by
  have hend : ∀ v, flagFrom (between (v ++ ['\n']) (r.flagText.text ++ rest)) =
      some r.noAuthRequired := fun v =>
    r.flagText.flagFrom_append (boundary_concat v (by decide)) hrest
  have hblock : r.blockText ++ rest =
      listKey ++ (r.listText ++ ']' :: '\n' :: (r.flagText.text ++ rest)) := by
    simp [blockText_eq]
  rw [hblock, flagFrom_of_misses (misses_flagAt_listKey _ _), listText_eq, flagFrom_join,
    flagFrom_cons_of_ne (by decide), flagFrom_cons_of_ne (by decide), hend]

theorem readNoAuthRequired_blockText (r : Requirement) :
    readNoAuthRequired r.blockText =
      ((r.permissions.map String.toList).findSome? firstFlag?).getD r.noAuthRequired := by
  have := @flagFrom_blockText r [] [] (by simp)
  rw [List.append_nil] at this
  rw [readNoAuthRequired_eq, firstFlag?, start_eq_between, this]
  cases (r.permissions.map String.toList).findSome? firstFlag? <;> rfl

/-- Blanks in front of the notation of a requirement and text behind it do not change what is
read. -/
theorem read_append (hrest : ∀ c ∈ rest.head?, isWord c = false) :
    Requirement.read (g.text ++ (r.blockText ++ rest)) = Requirement.read r.blockText := by
  have hnoAuth : readNoAuthRequired (g.text ++ (r.blockText ++ rest)) =
      readNoAuthRequired r.blockText := by
    rw [readNoAuthRequired_eq, firstFlag?, start_eq_between,
      flagFrom_of_misses (Gap.misses_flagAt g _ _), flagFrom_blockText hrest,
      readNoAuthRequired_blockText]
    cases (r.permissions.map String.toList).findSome? firstFlag? <;> rfl
  have hlist : readPermissions (g.text ++ (r.blockText ++ rest)) = readPermissions r.blockText := by
    rw [readPermissions_blockText, blockText_eq]
    simp only [List.append_assoc, List.cons_append]
    rw [readPermissions_append]
  rw [Requirement.read, Requirement.read, hlist, hnoAuth]

end AccessRules.Requirement
