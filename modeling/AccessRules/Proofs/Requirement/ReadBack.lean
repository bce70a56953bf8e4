import AccessRules.Proofs.Requirement.BlockText

/-!
# Which requirements their notation keeps

The notation of a requirement can always be read, but what is read need not be the requirement:
permissions are put between quotes as they are, so a comma parts one, a bracket ends the list,
quotes at the ends are trimmed, empty permissions are dropped, and a permission may hold what the
reader takes for the flag. None of these makes up for another: exactly the requirements that suffer
none of them are read back (`read_blockText_eq_iff`), among them those whose permissions are plain
(`read_blockText`).
-/

namespace AccessRules.Requirement

open AccessRules.Text Cursor

/-! ## Permissions that the list keeps -/

/-- A permission that is read from the list as it was written. -/
structure Kept (permission : Text) : Prop where
  ne_nil : permission ≠ []
  not_comma : ',' ∉ permission
  not_bracket : ']' ∉ permission
  head : ∀ c ∈ permission.head?, c ≠ '"' ∧ c ≠ '\''
  last : ∀ c ∈ permission.getLast?, c ≠ '"' ∧ c ≠ '\''

theorem unquote_quote_eq_iff {p : Text} : unquote (quote p) = p ↔
    (∀ c ∈ p.head?, c ≠ '"' ∧ c ≠ '\'') ∧ ∀ c ∈ p.getLast?, c ≠ '"' ∧ c ≠ '\'' := by
  have hunquote := unquote_quote .none p
  rw [Gap.text_none, List.nil_append] at hunquote
  rw [hunquote, trimWhile_trimWhile_eq_self_iff, trimWhile_eq_self_iff, trimWhile_eq_self_iff]
  simp only [beq_eq_false_iff_ne, ne_eq]
  exact ⟨fun ⟨⟨hd, hd'⟩, hs, hs'⟩ =>
      ⟨fun c hc => ⟨hd c hc, hs c hc⟩, fun c hc => ⟨hd' c hc, hs' c hc⟩⟩,
    fun ⟨h, h'⟩ => ⟨⟨fun c hc => (h c hc).1, fun c hc => (h' c hc).1⟩,
      fun c hc => (h c hc).2, fun c hc => (h' c hc).2⟩⟩

theorem kept_iff {p : Text} :
    Kept p ↔ (p ≠ [] ∧ ',' ∉ p ∧ ']' ∉ p) ∧ unquote (quote p) = p := by
  rw [unquote_quote_eq_iff]
  exact ⟨fun h => ⟨⟨h.ne_nil, h.not_comma, h.not_bracket⟩, h.head, h.last⟩,
    fun ⟨⟨hne, hcomma, hbracket⟩, hhead, hlast⟩ => ⟨hne, hcomma, hbracket, hhead, hlast⟩⟩

/-- The permissions that are read from the notation of `ps`. -/
def listed (ps : List Text) : List Text :=
  splitPermissions ((Text.join [',', ' '] (ps.map quote)).takeWhile (· != ']'))

theorem not_mem_of_mem_listed {ps : List Text} {p : Text} (h : p ∈ listed ps) :
    p ≠ [] ∧ ',' ∉ p ∧ ']' ∉ p := by
  obtain ⟨hmap, hne⟩ := List.mem_filter.1 h
  obtain ⟨item, hitem, rfl⟩ := List.mem_map.1 hmap
  refine ⟨by simpa using hne, fun hmem => ?_, fun hmem => ?_⟩
  · have hsub : unquote item ⊆ item := fun c hc =>
      trimWhile_subset _ _ (trimWhile_subset _ _ (trimWhile_subset _ _ hc))
    exact not_mem_of_mem_splitAt hitem (hsub hmem)
  · simpa using List.mem_takeWhile_imp (subset_of_mem_splitPermissions h hmem)

theorem listed_eq {ps : List Text} (hcomma : ∀ p ∈ ps, ',' ∉ p) (hbracket : ∀ p ∈ ps, ']' ∉ p) :
    listed ps = (ps.map fun p => unquote (quote p)).filter (· ≠ []) := by
  have hmem : ']' ∉ Text.join [',', ' '] (ps.map quote) := not_mem_join hbracket (by decide)
  have htake : (Text.join [',', ' '] (ps.map quote)).takeWhile (· != ']') =
      Text.join [',', ' '] (ps.map quote) :=
    List.takeWhile_eq_self_iff.2 fun c hc => bne_iff_ne.2 (ne_of_mem_of_not_mem hc hmem)
  have := splitPermissions_join hcomma .none
  rwa [Gap.text_none, List.nil_append, ← htake] at this

/-- The list keeps the permissions exactly if it keeps each of them. -/
theorem listed_eq_self_iff {ps : List Text} : listed ps = ps ↔ ∀ p ∈ ps, Kept p := by
  constructor
  · intro h
    have hmarks : ∀ p ∈ ps, p ≠ [] ∧ ',' ∉ p ∧ ']' ∉ p := fun p hp =>
      not_mem_of_mem_listed (h.symm ▸ hp)
    rw [listed_eq (fun p hp => (hmarks p hp).2.1) fun p hp => (hmarks p hp).2.2] at h
    -- Nothing was dropped, since as many are read as were written.
    have hall : (ps.map fun p => unquote (quote p)).filter (· ≠ []) =
        ps.map fun p => unquote (quote p) :=
      List.filter_sublist.eq_of_length (by rw [h, List.length_map])
    have hsame : ps.map (fun p => unquote (quote p)) = ps.map id := by
      rw [← hall, h, List.map_id]
    exact fun p hp => kept_iff.2 ⟨hmarks p hp, List.map_inj_left.1 hsame p hp⟩
  · intro h
    have hsame : (ps.map fun p => unquote (quote p)) = ps := by
      rw [List.map_congr_left fun p hp => (kept_iff.1 (h p hp)).2, List.map_id']
    rw [listed_eq (fun p hp => (h p hp).not_comma) fun p hp => (h p hp).not_bracket, hsame,
      List.filter_eq_self]
    exact fun p hp => by simpa using (h p hp).ne_nil

/-! ## Flags within permissions -/

/-- A flag that stands, between word boundaries, where a text is cut. -/
def FlagBegins (u r : Text) (flag : Bool) : Prop :=
  Boundary u ∧ ∃ (f : FlagText) (s : Text),
    f.value = flag ∧ r = f.text ++ s ∧ ∀ c ∈ s.head?, isWord c = false

/-- The text holds no flag. -/
def Flagless (text : Text) : Prop :=
  ∀ u r flag, text = u ++ r → ¬ FlagBegins u r flag

/-- The first flag in the text has this value. -/
def FlagIn (text : Text) (flag : Bool) : Prop :=
  ∃ u r, text = u ++ r ∧ FlagBegins u r flag ∧
    ∀ u' r' flag', text = u' ++ r' → u'.length < u.length → ¬ FlagBegins u' r' flag'

/-- The first flag in the texts, taken in order, has this value. -/
inductive FirstFlag : List Text → Bool → Prop where
  | here {p : Text} {ps : List Text} {flag : Bool} (h : FlagIn p flag) : FirstFlag (p :: ps) flag
  | there {p : Text} {ps : List Text} {flag : Bool} (h : Flagless p) (hps : FirstFlag ps flag) :
      FirstFlag (p :: ps) flag

theorem flagBegins_iff {u r : Text} {flag : Bool} :
    FlagBegins u r flag ↔ flagAt (between u r) = some flag :=
  flagAt_eq_some_iff.symm

theorem flagAt_eq_none_iff {u r : Text} :
    flagAt (between u r) = none ↔ ∀ flag, ¬ FlagBegins u r flag := by
  simp only [flagBegins_iff, Option.eq_none_iff_forall_ne_some, ne_eq]

theorem firstFlag?_eq_none_iff {text : Text} : firstFlag? text = none ↔ Flagless text := by
  rw [firstFlag?, flagFrom, Option.map_eq_none_iff, start_eq_between, findFirst_eq_none_iff]
  simp only [List.nil_append, flagAt_eq_none_iff]
  exact ⟨fun h u r flag hur => h u r hur flag, fun h u r hur flag => h u r flag hur⟩

theorem firstFlag?_eq_some_iff {text : Text} {flag : Bool} :
    firstFlag? text = some flag ↔ FlagIn text flag := by
  rw [firstFlag?, flagFrom, Option.map_eq_some_iff, start_eq_between]
  constructor
  · rintro ⟨⟨c, value⟩, hfind, rfl⟩
    obtain ⟨u, r, hur, rfl, hflag, hfirst⟩ := findFirst_eq_some_iff.1 hfind
    exact ⟨u, r, hur, flagBegins_iff.2 hflag, fun u' r' flag' hur' hlt =>
      flagAt_eq_none_iff.1 (hfirst u' r' hur' hlt) flag'⟩
  · rintro ⟨u, r, hur, hbegins, hfirst⟩
    refine ⟨(between u r, flag), findFirst_eq_some_iff.2 ⟨u, r, hur, rfl, ?_, ?_⟩, rfl⟩
    · exact flagBegins_iff.1 hbegins
    · exact fun v t hvt hlt => flagAt_eq_none_iff.2 fun flag' => hfirst v t flag' hvt hlt

theorem findSome?_firstFlag?_eq_some_iff {ps : List Text} {flag : Bool} :
    ps.findSome? firstFlag? = some flag ↔ FirstFlag ps flag := by
  induction ps with
  | nil => exact iff_of_false (by simp) (by rintro ⟨⟩)
  | cons p ps ih =>
      cases hp : firstFlag? p with
      | none =>
          have hless : Flagless p := firstFlag?_eq_none_iff.1 hp
          rw [List.findSome?_cons, hp, ih]
          refine ⟨.there hless, ?_⟩
          rintro (⟨⟨u, r, hur, hbegins, -⟩⟩ | ⟨-, hps⟩)
          · exact absurd hbegins (hless u r flag hur)
          · exact hps
      | some value =>
          rw [List.findSome?_cons, hp, Option.some.injEq]
          constructor
          · rintro rfl
            exact .here (firstFlag?_eq_some_iff.1 hp)
          · rintro (h | ⟨hless, -⟩)
            · rw [← firstFlag?_eq_some_iff, hp, Option.some.injEq] at h
              exact h
            · rw [firstFlag?_eq_none_iff.2 hless] at hp
              cases hp

/-! ## Reading back -/

theorem readPermissions_blockText_eq_iff {r : Requirement} :
    readPermissions r.blockText = .ok r.permissions ↔
      ∀ permission ∈ r.permissions, Kept permission.toList := by
  have hstrings : ∀ ps : List Text,
      ps.map String.ofList = r.permissions ↔ ps = r.permissions.map String.toList := by
    refine fun ps => ⟨fun h => ?_, fun h => ?_⟩
    · rw [← h, List.map_map]
      simp
    · rw [h, List.map_map]
      simp
  have hkept := @listed_eq_self_iff (r.permissions.map String.toList)
  rw [listed, ← listText_eq, List.forall_mem_map] at hkept
  rw [readPermissions_blockText, Except.ok.injEq, hstrings, hkept]

theorem readNoAuthRequired_blockText_eq_iff {r : Requirement} :
    readNoAuthRequired r.blockText = r.noAuthRequired ↔
      ∀ flag, FirstFlag (r.permissions.map String.toList) flag → flag = r.noAuthRequired := by
  rw [readNoAuthRequired_blockText]
  simp only [← findSome?_firstFlag?_eq_some_iff]
  cases (r.permissions.map String.toList).findSome? firstFlag? <;> simp

/-- The notation of a requirement can be read. It gives the requirement exactly if the list keeps
every permission and the first flag within the permissions, if there is one, is its own. -/
theorem read_blockText_eq_iff (r : Requirement) :
    (∃ req, Requirement.read r.blockText = .ok req) ∧
      (Requirement.read r.blockText = .ok r ↔
        (∀ permission ∈ r.permissions, Kept permission.toList) ∧
          ∀ flag, FirstFlag (r.permissions.map String.toList) flag → flag = r.noAuthRequired) := by
  constructor
  · exact ⟨⟨_, _⟩, read_eq_ok_iff.2 ⟨readPermissions_blockText r, rfl⟩⟩
  · rw [read_eq_ok_iff, readPermissions_blockText_eq_iff, readNoAuthRequired_blockText_eq_iff]

/-! ## Plain permissions -/

/-- A permission that its notation keeps: word characters, points, colons and dashes, among which
the key of the flag does not occur. -/
structure Plain (permission : Text) : Prop where
  ne_nil : permission ≠ []
  chars : ∀ c ∈ permission, isWord c = true ∨ c = '.' ∨ c = ':' ∨ c = '-'
  not_flag : ¬ flagName <:+: permission

section

variable {p : Text} {r : Requirement}

theorem Plain.not_mem (h : Plain p) {d : Char}
    (hd : isWord d = false ∧ d ≠ '.' ∧ d ≠ ':' ∧ d ≠ '-') : d ∉ p := by
  intro hmem
  rcases h.chars d hmem with hw | rfl | rfl | rfl
  · simp [hw] at hd
  · exact hd.2.1 rfl
  · exact hd.2.2.1 rfl
  · exact hd.2.2.2 rfl

theorem Plain.kept (h : Plain p) : Kept p := by
  have hquotes : ∀ c ∈ p, c ≠ '"' ∧ c ≠ '\'' := fun c hc =>
    ⟨ne_of_mem_of_not_mem hc (h.not_mem (by decide)),
      ne_of_mem_of_not_mem hc (h.not_mem (by decide))⟩
  exact ⟨h.ne_nil, h.not_mem (by decide), h.not_mem (by decide),
    fun c hc => hquotes c (List.mem_of_mem_head? hc),
    fun c hc => hquotes c (List.mem_of_getLast? hc)⟩

/-- Plain permissions put no further marks into their notation. -/
theorem not_mem_blockText (h : ∀ permission ∈ r.permissions, Plain permission.toList) {d : Char}
    (hd : isWord d = false ∧ d ≠ '.' ∧ d ≠ ':' ∧ d ≠ '-')
    (hmark : isBlank d = false ∧ d ≠ '[' ∧ d ≠ ']' ∧ d ≠ ',' ∧ d ≠ '"') : d ∉ r.blockText := by
  have hkey : d ∉ listKey := not_mem_listKey hd.1 ⟨hd.2.2.1, hmark.1, hmark.2.1⟩
  have hspace : d ≠ ' ' := by
    rintro rfl
    exact absurd hmark.1 (by decide)
  have hlist : d ∉ r.listText := by
    rw [listText_eq]
    exact not_mem_join (List.forall_mem_map.2 fun permission hpermission =>
      (h permission hpermission).not_mem hd) ⟨hmark.2.2.2.1, hspace, hmark.2.2.2.2⟩
  have hline : d ≠ '\n' := by
    rintro rfl
    exact absurd hmark.1 (by decide)
  simp only [blockText_eq, List.mem_append, List.mem_cons, not_or]
  exact ⟨hkey, hlist, hmark.2.2.1, hline, r.flagText.not_mem hd.1 ⟨hmark.1, hd.2.2.1⟩⟩

/-- A requirement of plain permissions is read back from its notation. -/
theorem read_blockText (h : ∀ permission ∈ r.permissions, Plain permission.toList) :
    Requirement.read r.blockText = .ok r := by
  have hnone : (r.permissions.map String.toList).findSome? firstFlag? = none := by
    rw [List.findSome?_eq_none_iff, List.forall_mem_map]
    exact fun permission hpermission => firstFlag?_eq_none (h permission hpermission).not_flag
  refine read_eq_ok_iff.2 ⟨readPermissions_blockText_eq_iff.2 fun permission hpermission =>
    (h permission hpermission).kept, ?_⟩
  rw [readNoAuthRequired_blockText, hnone]
  rfl

end

end AccessRules.Requirement
