import AccessRules.Proofs.Requirement.ReadBack

/-!
# Strings of the list and the flag

The flag is looked for in the whole block, within the strings of the list as well. The first flag of
a block is the first one in front of the list, else the first one in a string of the list, else the
first one behind the list (`flagFrom_listEntry`). So the list has no influence on the flag as long as
none of its strings holds a flag, and the two entries can change places as long as no string of the
list holds a flag that would be read instead (`read_independent`).
-/

namespace AccessRules.Requirement

open AccessRules.Text Cursor

/-! ## Lists of strings -/

/-- A string of the list, with the blanks around it. -/
structure ListedString where
  before : Gap
  content : Text
  after : Gap

/-- The string as it is written. -/
def ListedString.text (s : ListedString) : Text :=
  s.before.text ++ (quote s.content ++ s.after.text)

/-- The entry of a list of strings. -/
def listEntry (strings : List ListedString) : Text :=
  listKey ++ (Text.join [','] (strings.map ListedString.text) ++ [']'])

theorem ListedString.flagFrom_text (s : ListedString) (u z : Text) :
    flagFrom (between u (s.text ++ z)) =
      (firstFlag? s.content).or (flagFrom (between (u ++ s.text) z)) := by
  rw [text, List.append_assoc, List.append_assoc, flagFrom_of_misses (Gap.misses_flagAt _ _ _),
    flagFrom_quote, flagFrom_of_misses (Gap.misses_flagAt _ _ _)]
  simp only [List.append_assoc]

theorem flagAt_congr {u u' : Text} (h : Boundary u ↔ Boundary u') (r : Text) :
    flagAt (between u r) = flagAt (between u' r) :=
  Option.ext fun flag => by rw [flagAt_eq_some_iff, flagAt_eq_some_iff, h]

/-- What is found from a place on depends on what stands before it only in whether a word ends
there. -/
theorem flagFrom_congr {u u' : Text} (h : Boundary u ↔ Boundary u') (r : Text) :
    flagFrom (between u r) = flagFrom (between u' r) := by
  have hany : ∀ a, Boundary (u ++ a) ↔ Boundary (u' ++ a) := fun a => by
    by_cases ha : a = []
    · simpa [ha] using h
    · rw [boundary_append_iff ha, boundary_append_iff ha]
  rw [← List.append_nil r]
  refine findFirst_congr (fun a b _ _ => flagAt_congr (hany a) _) ?_
  rw [findFirst_nil (flagAt_nil _), findFirst_nil (flagAt_nil _)]

/-- The first flag from the list on is the first one in its strings, or else the first one behind
it. -/
theorem flagFrom_listEntry (strings : List ListedString) (u z : Text) :
    flagFrom (between u (listEntry strings ++ z)) =
      ((strings.map ListedString.content).findSome? firstFlag?).or (firstFlag? z) := by
  have hbehind : ∀ v, flagFrom (between (v ++ [']']) z) = firstFlag? z := fun v =>
    flagFrom_congr (iff_of_true (boundary_concat v (by decide)) boundary_nil) z
  rw [listEntry, List.append_assoc, List.append_assoc,
    flagFrom_of_misses (misses_flagAt_listKey _ _),
    flagFrom_elements (fun s u z => s.flagFrom_text u z) (by decide), List.singleton_append,
    flagFrom_cons_of_ne (by decide), hbehind]

/-! ## Texts in front of an entry -/

theorem listEntry_append_eq_cons (strings : List ListedString) (z : Text) :
    ∃ t, listEntry strings ++ z = 'p' :: t := by
  have hkey : listKey = 'p' :: "ermissions: [".toList := by
    unfold listKey
    rfl
  exact ⟨_, by rw [listEntry, hkey]; rfl⟩

/-- Neither of the two entries goes on with a flag. -/
theorem FlagText.not_mem_tail_of_entry {x : Char} (hx : x = 'p' ∨ x = 'n') (f : FlagText) :
    x ∉ f.text.tail := by
  have hname : 'p' ∉ flagName.tail ∧ 'n' ∉ flagName.tail := by
    unfold flagName
    decide
  rcases hx with rfl | rfl
  · exact f.not_mem_tail hname.1 (by decide) (by decide)
  · exact f.not_mem_tail hname.2 (by decide) (by decide)

/-- The first flag of a block with a list at a word boundary. -/
theorem firstFlag?_listEntry {u : Text} (hu : Boundary u) (strings : List ListedString) (z : Text) :
    firstFlag? (u ++ (listEntry strings ++ z)) = (firstFlag? u).or
      (((strings.map ListedString.content).findSome? firstFlag?).or (firstFlag? z)) := by
  obtain ⟨t, ht⟩ := listEntry_append_eq_cons strings z
  rw [firstFlag?, start_eq_between, ht,
    flagFrom_append (FlagText.not_mem_tail_of_entry (.inl rfl)) (.inr hu) boundary_nil, ← ht,
    flagFrom_listEntry]

theorem firstFlag?_flagText {u : Text} (hu : Boundary u) (f : FlagText) {z : Text}
    (hz : ∀ c ∈ z.head?, isWord c = false) :
    firstFlag? (u ++ (f.text ++ z)) = (firstFlag? u).or (some f.value) := by
  have hflag := f.flagFrom_append (u := [] ++ u) hu hz
  rw [f.eq_cons_tail, List.cons_append] at hflag ⊢
  rw [firstFlag?, start_eq_between,
    flagFrom_append (FlagText.not_mem_tail_of_entry (.inr rfl)) (.inr hu) boundary_nil, hflag]

/-- Lists whose strings hold the same first flag leave the same flag to the block. -/
theorem firstFlag?_congr {strings strings' : List ListedString}
    (h : (strings.map ListedString.content).findSome? firstFlag? =
      (strings'.map ListedString.content).findSome? firstFlag?) (u z : Text) :
    firstFlag? (u ++ (listEntry strings ++ z)) = firstFlag? (u ++ (listEntry strings' ++ z)) := by
  have hbehind : ∀ v, flagFrom (between v (listEntry strings ++ z)) =
      flagFrom (between v (listEntry strings' ++ z)) := fun v => by
    rw [flagFrom_listEntry, flagFrom_listEntry, h]
  obtain ⟨t, ht⟩ := listEntry_append_eq_cons strings z
  obtain ⟨t', ht'⟩ := listEntry_append_eq_cons strings' z
  rw [ht, ht'] at hbehind ⊢
  rw [firstFlag?, firstFlag?, start_eq_between, start_eq_between]
  refine findFirst_congr (fun a b _ hb => Option.ext fun flag => ?_) (hbehind _)
  have hmark := FlagText.not_mem_tail_of_entry (.inl rfl)
  rw [flagAt_append_cons hmark hb, flagAt_append_cons hmark hb]

/-! ## Where the list is found -/

/-- The word stands in the text between word boundaries. -/
def HoldsWord (word text : Text) : Prop :=
  ∃ a b, text = a ++ (word ++ b) ∧ Boundary a ∧ ∀ c ∈ b.head?, isWord c = false

theorem word_of_permissionsKey {u r : Text} {d : Cursor}
    (h : permissionsKey (between u r) = some d) :
    Boundary u ∧ ∃ t, r = "permissions".toList ++ t ∧ ∀ c ∈ t.head?, isWord c = false := by
  obtain ⟨hu, key, s, rfl, -⟩ := permissionsKey_eq_some_iff.1 h
  refine ⟨hu, key.afterName.text ++ ':' :: (key.afterColon.text ++ '[' :: s), ?_,
    key.afterName.isWord_of_head? (by rintro c ⟨⟩; decide)⟩
  have hname : "permissions".toList = listName := by rw [listName]
  simp [hname, ListKey.text]

theorem misses_permissionsKey_of_not_holdsWord {u : Text} (hu : Boundary u)
    (h : ¬ HoldsWord "permissions".toList u) (r : Text) : Misses permissionsKey [] u r := by
  refine misses_of_forall fun a x b hab => Option.eq_none_iff_forall_ne_some.2 fun d hd => ?_
  obtain ⟨ha, t, ht, hhead⟩ := word_of_permissionsKey hd
  rcases List.append_eq_append_iff.1 ht with ⟨e, he, -⟩ | ⟨e, he, rfl⟩
  · -- The text would end within the word.
    have hword : ∀ c ∈ "permissions".toList, isWord c = true := by decide
    rw [hab, boundary_append_iff (by simp)] at hu
    obtain ⟨c, hc⟩ : ∃ c, (x :: b).getLast? = some c := ⟨_, List.getLast?_cons⟩
    have := hword c (he ▸ List.mem_append_left e (List.mem_of_getLast? hc))
    rw [hu c hc] at this
    cases this
  · refine h ⟨a, e, by rw [hab, he], ha, fun c hc => hhead c ?_⟩
    rw [List.head?_append, Option.mem_def.1 hc]
    rfl

theorem readPermissions_listEntry {w : Text} (hw : Boundary w) (strings : List ListedString)
    (z : Text) (hmiss : Misses permissionsKey [] w (listEntry strings ++ z)) :
    readPermissions (w ++ (listEntry strings ++ z)) = .ok ((splitPermissions
      ((Text.join [','] (strings.map ListedString.text)).takeWhile (· != ']'))).map
        String.ofList) := by
  have hentry : listEntry strings ++ z =
      listKey ++ (Text.join [','] (strings.map ListedString.text) ++ ']' :: z) := by
    simp [listEntry]
  rw [hentry] at hmiss ⊢
  exact readPermissions_of_misses hw hmiss

/-! ## Entries that change places -/

/-- What stands between two entries: no part of a word. -/
structure Separator where
  text : Text
  ne_nil : text ≠ []
  not_word : ∀ c ∈ text, isWord c = false

namespace Separator

variable (separator : Separator)

theorem not_mem {c : Char} (hc : isWord c = true) : c ∉ separator.text := fun h => by
  rw [separator.not_word c h] at hc
  cases hc

theorem boundary : Boundary separator.text :=
  fun c hc => separator.not_word c (List.mem_of_getLast? hc)

theorem isWord_of_head? (z : Text) : ∀ c ∈ (separator.text ++ z).head?, isWord c = false := by
  obtain ⟨x, t, ht⟩ := List.exists_cons_of_ne_nil separator.ne_nil
  have hx := separator.not_word x (by simp [ht])
  simpa [ht] using hx

theorem firstFlag?_eq_none : firstFlag? separator.text = none := by
  obtain ⟨t, ht⟩ := flagName_eq_cons
  refine Requirement.firstFlag?_eq_none fun h => ?_
  exact separator.not_mem (c := 'n') (by decide) (h.subset (by simp [ht]))

end Separator

section

variable {u v : Text} (hu : Boundary u) (strings : List ListedString) (flag : FlagText)
  (separator : Separator)

include hu

theorem readNoAuthRequired_list_flag (hv : ∀ c ∈ v.head?, isWord c = false) :
    readNoAuthRequired (u ++ (listEntry strings ++ (separator.text ++ (flag.text ++ v)))) =
      ((firstFlag? u).or (((strings.map ListedString.content).findSome? firstFlag?).or
        (some flag.value))).getD false := by
  rw [readNoAuthRequired_eq, firstFlag?_listEntry hu, firstFlag?_flagText separator.boundary flag hv,
    separator.firstFlag?_eq_none, Option.none_or]

theorem readNoAuthRequired_flag_list :
    readNoAuthRequired (u ++ (flag.text ++ (separator.text ++ (listEntry strings ++ v)))) =
      ((firstFlag? u).or (some flag.value)).getD false := by
  rw [readNoAuthRequired_eq, firstFlag?_flagText hu flag (separator.isWord_of_head? _)]

/-- The same permissions are read in either order. -/
theorem readPermissions_swapped (h : ¬ HoldsWord "permissions".toList u) : ∃ permissions,
    readPermissions (u ++ (listEntry strings ++ (separator.text ++ (flag.text ++ v)))) =
        .ok permissions ∧
      readPermissions (u ++ (flag.text ++ (separator.text ++ (listEntry strings ++ v)))) =
        .ok permissions := by
  have hmiss := misses_permissionsKey_of_not_holdsWord hu h
  have hlist := readPermissions_listEntry hu strings (separator.text ++ (flag.text ++ v)) (hmiss _)
  have hboundary : Boundary (u ++ (flag.text ++ separator.text)) := by
    rw [← List.append_assoc, boundary_append_iff separator.ne_nil]
    exact separator.boundary
  have hp : 'p' ∉ flag.text ++ separator.text := by
    have hflag : 'p' ∉ flag.text := by
      rw [flag.eq_cons_tail]
      simpa using FlagText.not_mem_tail_of_entry (.inl rfl) flag
    simpa [hflag] using separator.not_mem (c := 'p') (by decide)
  have hswapped := readPermissions_listEntry hboundary strings v
    (misses_append.2 ⟨hmiss _, misses_permissionsKey hp _ _⟩)
  simp only [List.append_assoc] at hswapped
  exact ⟨_, hlist, hswapped⟩

end

theorem read_eq_of_ok {block : Text} {permissions : List String}
    (h : readPermissions block = .ok permissions) :
    Requirement.read block = .ok ⟨permissions, readNoAuthRequired block⟩ :=
  read_eq_ok_iff.2 ⟨h, rfl⟩

/-- The list has no influence on the flag, and the two entries can change places, as long as no
string of the list holds a flag that would be read instead. -/
theorem read_independent (strings : List ListedString) (u v : Text) :
    (∀ strings', (∀ s ∈ strings ++ strings', Flagless s.content) →
      readNoAuthRequired (u ++ (listEntry strings ++ v)) =
        readNoAuthRequired (u ++ (listEntry strings' ++ v))) ∧
    (Boundary u → Flagless u → ∀ value, FirstFlag (strings.map ListedString.content) value →
      readNoAuthRequired (u ++ (listEntry strings ++ v)) = value) ∧
    ∀ (flag : FlagText) (separator : Separator), Boundary u → ¬ HoldsWord "permissions".toList u →
      (∀ c ∈ v.head?, isWord c = false) →
      (Requirement.read (u ++ (listEntry strings ++ (separator.text ++ (flag.text ++ v)))) =
          Requirement.read (u ++ (flag.text ++ (separator.text ++ (listEntry strings ++ v)))) ↔
        (Flagless u → ∀ value, FirstFlag (strings.map ListedString.content) value →
          value = flag.value)) := by
  simp only [← firstFlag?_eq_none_iff, ← findSome?_firstFlag?_eq_some_iff]
  refine ⟨fun strings' h => ?_, fun hu hfront value hvalue => ?_,
    fun flag separator hu hword hv => ?_⟩
  · have hnone : ∀ l : List ListedString, (∀ s ∈ l, firstFlag? s.content = none) →
        (l.map ListedString.content).findSome? firstFlag? = none := fun l hl => by
      rwa [List.findSome?_eq_none_iff, List.forall_mem_map]
    rw [List.forall_mem_append] at h
    rw [readNoAuthRequired_eq, readNoAuthRequired_eq,
      firstFlag?_congr ((hnone _ h.1).trans (hnone _ h.2).symm)]
  · rw [readNoAuthRequired_eq, firstFlag?_listEntry hu, hfront, hvalue]
    rfl
  · obtain ⟨permissions, hlist, hswapped⟩ := readPermissions_swapped hu strings flag separator hword
    rw [read_eq_of_ok hlist, read_eq_of_ok hswapped,
      readNoAuthRequired_list_flag hu strings flag separator hv,
      readNoAuthRequired_flag_list hu strings flag separator, Except.ok.injEq,
      Requirement.mk.injEq]
    cases firstFlag? u <;>
      cases (strings.map ListedString.content).findSome? firstFlag? <;> simp

/-- A permission, and a string that reads like the flag. -/
def readString : ListedString :=
  ⟨.none, "a:read".toList, .none⟩

def flagString : ListedString :=
  ⟨.none, "no_auth_required:true".toList, .none⟩

def lineSeparator : Separator :=
  ⟨['\n'], by decide, by decide⟩

/-- Plain permissions leave the flag as it is, wherever it stands. -/
theorem read_independent_readString :
    readNoAuthRequired (listEntry [readString]) = readNoAuthRequired (listEntry []) ∧
      Requirement.read (listEntry [readString] ++ '\n' :: "no_auth_required: true".toList) =
        Requirement.read ("no_auth_required: true".toList ++ '\n' :: listEntry [readString]) := by
  have hplain : Flagless readString.content :=
    firstFlag?_eq_none_iff.1 (firstFlag?_eq_none (by unfold flagName; decide))
  have hfirst : ∀ value, ¬ FirstFlag ([readString].map ListedString.content) value := by
    rintro value (⟨⟨u, r, hur, hbegins, -⟩⟩ | ⟨-, ⟨⟩⟩)
    exact hplain u r value hur hbegins
  obtain ⟨hsame, -, hswapped⟩ := read_independent [readString] [] []
  have hflag : FlagText.text ⟨.none, .space, true⟩ = "no_auth_required: true".toList := by
    unfold FlagText.text flagName
    rfl
  have hread := (hswapped ⟨.none, .space, true⟩ lineSeparator boundary_nil
    (by rintro ⟨a, b, h, -⟩; simp at h) (by simp)).2 fun _ value hvalue => (hfirst value hvalue).elim
  rw [hflag] at hread
  have hlist := hsame [] (by simpa using hplain)
  simp only [List.nil_append, List.append_nil] at hlist hread
  exact ⟨hlist, hread⟩

/-- A string that holds a flag sets it, or hides the one that follows. -/
theorem read_flagString :
    listEntry [flagString] = "permissions: [\"no_auth_required:true\"]".toList ∧
      (∀ c ∈ ['"', ',', '[', ']'], c ∉ flagString.content ∧ c ∉ readString.content) ∧
      readNoAuthRequired (listEntry [flagString]) ≠ readNoAuthRequired (listEntry [readString]) ∧
      Requirement.read (listEntry [flagString] ++ '\n' :: "no_auth_required: false".toList) ≠
        Requirement.read ("no_auth_required: false".toList ++ '\n' :: listEntry [flagString]) := by
  decide +kernel

end AccessRules.Requirement
