import AccessRules.Proofs.Requirement.Independence

/-!
# Layouts of the permissions list

The elements of the list may stand between double quotes, between single quotes or between none,
with blanks wherever two tokens meet, and elements in which nothing is left are passed over. None of
this changes what is read. Reading fails exactly if the first key of a list has no closing bracket
behind it (`readPermissions_layout`).
-/

namespace AccessRules.Requirement

open AccessRules.Text Cursor

/-! ## Elements -/

/-- A permission that an element can hold between any marks. -/
structure Permission where
  text : Text
  ne_nil : text ≠ []
  not_mark : ∀ c ∈ text, c ≠ ',' ∧ c ≠ ']' ∧ c ≠ '"' ∧ c ≠ '\''
  head : ∀ c ∈ text.head?, isBlank c = false
  last : ∀ c ∈ text.getLast?, isBlank c = false

/-- The marks on both sides of an element. -/
inductive Quotes where
  | none
  | double
  | single
deriving DecidableEq, Repr

def Quotes.text : Quotes → Text
  | none => []
  | double => ['"']
  | single => ['\'']

/-- Marks at both ends keep from trimming what is no such mark. -/
theorem trimWhile_between_marks {p : Char → Bool} {mark : Char} (h : p mark = false) (text : Text) :
    trimWhile p ([mark] ++ (text ++ [mark])) = [mark] ++ (text ++ [mark]) := by
  have hlast : ([mark] ++ (text ++ [mark])).getLast? = some mark := by
    rw [← List.append_assoc, List.getLast?_concat]
  rw [trimWhile_eq_self_iff, hlast]
  simp [h]

/-- An element of the list: a permission or nothing, between marks, with blanks around them. -/
structure ListElement where
  before : Gap
  quotes : Quotes
  content : Option Permission
  after : Gap

namespace ListElement

/-- What stands between the marks. -/
def value (e : ListElement) : Text :=
  (e.content.map Permission.text).getD []

/-- The element without the blanks around it. -/
def quoted (e : ListElement) : Text :=
  e.quotes.text ++ (e.value ++ e.quotes.text)

def text (e : ListElement) : Text :=
  e.before.text ++ (e.quoted ++ e.after.text)

variable (e : ListElement)

theorem not_mark_of_mem_value {c : Char} (h : c ∈ e.value) :
    c ≠ ',' ∧ c ≠ ']' ∧ c ≠ '"' ∧ c ≠ '\'' := by
  cases hcontent : e.content with
  | none => simp [value, hcontent] at h
  | some permission =>
      rw [value, hcontent] at h
      exact permission.not_mark c h

theorem isBlank_of_head?_value : ∀ c ∈ e.value.head?, isBlank c = false := by
  cases hcontent : e.content with
  | none => simp [value, hcontent]
  | some permission =>
      rw [value, hcontent]
      exact permission.head

theorem isBlank_of_getLast?_value : ∀ c ∈ e.value.getLast?, isBlank c = false := by
  cases hcontent : e.content with
  | none => simp [value, hcontent]
  | some permission =>
      rw [value, hcontent]
      exact permission.last

theorem not_mem_text {c : Char} (hblank : isBlank c = false) (hmark : c ≠ '"' ∧ c ≠ '\'')
    (hvalue : c ∉ e.value) : c ∉ e.text := by
  have hquotes : c ∉ e.quotes.text := by
    cases e.quotes <;> simp [Quotes.text, hmark]
  simp only [text, quoted, List.mem_append, not_or]
  exact ⟨e.before.not_mem hblank, ⟨hquotes, hvalue, hquotes⟩, e.after.not_mem hblank⟩

theorem trim_text : trim e.text = e.quoted := by
  have hself : trimWhile isBlank e.quoted = e.quoted := by
    rw [quoted]
    cases e.quotes with
    | none =>
        rw [Quotes.text, List.nil_append, List.append_nil]
        exact trimWhile_eq_self_iff.2 ⟨e.isBlank_of_head?_value, e.isBlank_of_getLast?_value⟩
    | double => exact trimWhile_between_marks (by decide) e.value
    | single => exact trimWhile_between_marks (by decide) e.value
  rw [trim, text, trimWhile_append e.before.blank e.after.blank, hself]

/-- Nothing but the permission is left of an element. -/
theorem unquote_text : unquote e.text = e.value := by
  have hvalue : ∀ mark, mark = '"' ∨ mark = '\'' →
      trimWhile (· == mark) e.value = e.value := fun mark hmark =>
    trimWhile_eq_self_of_not_mem fun h => by
      have := e.not_mark_of_mem_value h
      rcases hmark with rfl | rfl
      · exact this.2.2.1 rfl
      · exact this.2.2.2 rfl
  rw [unquote, trim_text, quoted]
  cases e.quotes with
  | none =>
      simp only [Quotes.text, List.nil_append, List.append_nil]
      rw [hvalue '"' (.inl rfl), hvalue '\'' (.inr rfl)]
  | double =>
      rw [Quotes.text, trimWhile_append (by simp) (by simp), hvalue '"' (.inl rfl),
        hvalue '\'' (.inr rfl)]
  | single =>
      -- Single quotes at the ends keep the other trimming off.
      have hother : trimWhile (· == '"') (['\''] ++ (e.value ++ ['\''])) =
          ['\''] ++ (e.value ++ ['\'']) :=
        trimWhile_between_marks (by decide) e.value
      rw [Quotes.text, hother, trimWhile_append (by simp) (by simp), hvalue '\'' (.inr rfl)]

end ListElement

/-! ## Lists of elements -/

/-- The elements as they stand between the brackets. -/
def elementsText (elements : List ListElement) : Text :=
  Text.join [','] (elements.map ListElement.text)

/-- The permissions that the elements hold. -/
def permissionsOf (elements : List ListElement) : List Text :=
  (elements.filterMap ListElement.content).map Permission.text

theorem filter_value_eq (elements : List ListElement) :
    (elements.map ListElement.value).filter (· ≠ []) = permissionsOf elements := by
  induction elements with
  | nil => rfl
  | cons e elements ih =>
      rw [permissionsOf] at ih ⊢
      cases hcontent : e.content with
      | none => simp [ListElement.value, hcontent, ← ih]
      | some permission =>
          simp [ListElement.value, hcontent, permission.ne_nil, ← ih]

theorem splitPermissions_elementsText (elements : List ListElement) :
    splitPermissions (elementsText elements) = permissionsOf elements := by
  by_cases hnil : elements = []
  · subst hnil
    rfl
  · have hcomma : ∀ text ∈ elements.map ListElement.text, ',' ∉ text :=
      List.forall_mem_map.2 fun e _ => e.not_mem_text (by decide) (by decide) fun h =>
        (e.not_mark_of_mem_value h).1 rfl
    have hvalues : (elements.map ListElement.text).map unquote =
        elements.map ListElement.value := by
      rw [List.map_map]
      exact List.map_congr_left fun e _ => e.unquote_text
    rw [splitPermissions, elementsText, splitAt_join (by simpa using hnil) hcomma, hvalues,
      filter_value_eq]

theorem not_mem_elementsText (elements : List ListElement) : ']' ∉ elementsText elements := by
  have htext : ∀ e : ListElement, ']' ∉ e.text := fun e =>
    e.not_mem_text (by decide) (by decide) fun h => (e.not_mark_of_mem_value h).2.1 rfl
  cases elements with
  | nil => simp [elementsText, Text.join]
  | cons e elements =>
      rw [elementsText, List.map_cons, join_cons]
      simp [htext]

/-! ## The first list of a block -/

/-- The first key of a list that stands in a block. -/
structure FirstKey (block before : Text) (key : ListKey) (after : Text) : Prop where
  block_eq : block = before ++ (key.text ++ after)
  boundary : Boundary before
  first : ∀ before' (key' : ListKey) after', block = before' ++ (key'.text ++ after') →
    Boundary before' → before.length ≤ before'.length

theorem find?_permissionsKey_eq_some_iff {block : Text} {c d : Cursor} :
    Pattern.find? permissionsKey block = some (c, d) ↔ ∃ before key after,
      FirstKey block before key after ∧ c = between before (key.text ++ after) ∧
        d = between (before ++ key.text) after := by
  rw [Pattern.find?, start_eq_between, findFirst_eq_some_iff]
  simp only [List.nil_append]
  constructor
  · rintro ⟨before, _, rfl, rfl, hkey, hfirst⟩
    obtain ⟨hbefore, key, after, rfl, rfl⟩ := permissionsKey_eq_some_iff.1 hkey
    refine ⟨before, key, after, ⟨rfl, hbefore, fun before' key' after' heq hbefore' => ?_⟩,
      rfl, rfl⟩
    by_contra hlt
    have hnone := hfirst before' _ heq (by omega)
    rw [permissionsKey_eq_some_iff.2 ⟨hbefore', key', after', rfl, rfl⟩] at hnone
    cases hnone
  · rintro ⟨before, key, after, hkey, rfl, rfl⟩
    refine ⟨before, _, hkey.block_eq, rfl,
      permissionsKey_eq_some_iff.2 ⟨hkey.boundary, key, after, rfl, rfl⟩, fun v t heq hlt =>
        Option.eq_none_iff_forall_ne_some.2 fun e he => ?_⟩
    obtain ⟨hv, key', after', rfl, -⟩ := permissionsKey_eq_some_iff.1 he
    have := hkey.first v key' after' heq hv
    omega

/-- A text that does not hold the name of the list does not keep the key behind it from being the
first. -/
theorem find?_permissionsKey_of_not_holdsWord {before : Text} (hbefore : Boundary before)
    (h : ¬ HoldsWord "permissions".toList before) (key : ListKey) (after : Text) :
    Pattern.find? permissionsKey (before ++ (key.text ++ after)) =
      some (between before (key.text ++ after), between (before ++ key.text) after) := by
  rw [Pattern.find?, start_eq_between,
    findFirst_of_misses (misses_permissionsKey_of_not_holdsWord hbefore h _), List.nil_append,
    findFirst_of_eq_some (permissionsKey_eq_some_iff.2 ⟨hbefore, key, after, rfl, rfl⟩)]

theorem readPermissions_eq_error_iff {block : Text} {failure : Failure} :
    readPermissions block = .error failure ↔
      failure = .badPermissions "permissions list has no closing `]`" ∧
        ∃ before key after, FirstKey block before key after ∧ ']' ∉ after := by
  rw [readPermissions]
  constructor
  · intro h
    split at h
    · cases h
    · rename_i c d hfind
      obtain ⟨before, key, after, hkey, -, rfl⟩ := find?_permissionsKey_eq_some_iff.1 hfind
      rw [rest_between] at h
      split at h
      · rename_i hclose
        refine ⟨(Except.error.inj h).symm, before, key, after, hkey, fun hmem => ?_⟩
        obtain ⟨list, rest, rfl⟩ := List.append_of_mem hmem
        obtain ⟨after, hafter⟩ := @splitOnce?_append_cons ']' list rest
        rw [hafter] at hclose
        cases hclose
      · cases h
  · rintro ⟨rfl, before, key, after, hkey, hclose⟩
    rw [find?_permissionsKey_eq_some_iff.2 ⟨before, key, after, hkey, rfl, rfl⟩]
    simp only [rest_between, splitOnce?_eq_none hclose]

/-- The permissions are read whatever their layout is, and reading fails exactly if the first list
of the block is not closed. -/
theorem readPermissions_layout :
    (∀ (before : Text) (key : ListKey) (elements : List ListElement) (after : Text),
      Boundary before → ¬ HoldsWord "permissions".toList before →
      readPermissions (before ++ (key.text ++ (elementsText elements ++ ']' :: after))) =
        .ok ((permissionsOf elements).map String.ofList)) ∧
    ∀ (block : Text) (failure : Failure), readPermissions block = .error failure ↔
      failure = .badPermissions "permissions list has no closing `]`" ∧
        ∃ before key after, FirstKey block before key after ∧ ']' ∉ after := by
  refine ⟨fun before key elements after hbefore h => ?_, fun block failure =>
    readPermissions_eq_error_iff⟩
  have hclose : splitOnce? ']' (elementsText elements ++ ']' :: after) =
      some (elementsText elements, after) :=
    splitOnce?_eq_some_iff.2 ⟨rfl, not_mem_elementsText elements⟩
  rw [readPermissions, find?_permissionsKey_of_not_holdsWord hbefore h]
  simp only [rest_between, hclose, splitPermissions_elementsText]

/-- Two permissions as they stand in the lists below. -/
def readPermission : Permission where
  text := "a:read".toList
  ne_nil := by decide
  not_mark := by decide
  head := by rintro c ⟨⟩; decide
  last := by rintro c ⟨⟩; decide

def spacedPermission : Permission where
  text := "b c".toList
  ne_nil := by decide
  not_mark := by decide
  head := by rintro c ⟨⟩; decide
  last := by rintro c ⟨⟩; decide

/-- The permissions between different marks, and nothing between them and behind them. -/
def mixedElements : List ListElement :=
  [⟨.none, .double, some readPermission, .space⟩, ⟨.space, .single, none, .none⟩,
    ⟨⟨['\n'], by decide⟩, .none, some spacedPermission, .none⟩, ⟨.space, .none, none, .none⟩]

/-- A key with a blank in front of its colon. -/
def spacedKey : ListKey :=
  ⟨.space, .none⟩

theorem readPermissions_mixedElements :
    readPermissions "roles: []\npermissions :[\"a:read\" , '',\nb c, ] # ]".toList =
        .ok ["a:read", "b c"] ∧
      readPermissions "permissions :[\"a:read\"".toList =
        .error (.badPermissions "permissions list has no closing `]`") := by
  obtain ⟨hread, herror⟩ := readPermissions_layout
  constructor
  · have htext : "roles: []\npermissions :[\"a:read\" , '',\nb c, ] # ]".toList =
        ("roles: []".toList ++ ['\n']) ++
          (spacedKey.text ++ (elementsText mixedElements ++ ']' :: " # ]".toList)) := by
      decide +kernel
    have hword : ¬ HoldsWord "permissions".toList ("roles: []".toList ++ ['\n']) := by
      rintro ⟨a, b, hab, -⟩
      have hno : ¬ "permissions".toList <:+: "roles: []".toList ++ ['\n'] := by decide +kernel
      exact hno ⟨a, b, by rw [hab, List.append_assoc]⟩
    have hpermissions : (permissionsOf mixedElements).map String.ofList = ["a:read", "b c"] := by
      decide +kernel
    rw [htext, hread _ spacedKey mixedElements _ (boundary_concat _ (by decide)) hword,
      hpermissions]
  · have htext : "permissions :[\"a:read\"".toList =
        [] ++ (spacedKey.text ++ "\"a:read\"".toList) := by decide +kernel
    exact (herror _ _).2 ⟨rfl, [], spacedKey, _,
      ⟨htext, boundary_nil, fun _ _ _ _ _ => Nat.zero_le _⟩, by decide⟩

end AccessRules.Requirement
