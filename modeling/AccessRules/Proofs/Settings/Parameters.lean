import AccessRules.Proofs.Text.Split
import AccessRules.Settings.Parameter
import Mathlib.Data.List.Forall2

/-!
# What a text of parameters does

A pair gives a parameter (`Spells`) or something is wrong with it (`Wrong`), and never both. The
pairs up to the first wrong one decide what becomes of the settings: each setting has the last value
given for it, the roots are all that were given, and what is given for one setting does not touch
another (`Settings.applyParameters_lastGiven`).
-/

namespace AccessRules

open Text

namespace Parameter

/-! ## Keys and values -/

/-- The key under which a parameter is given. -/
def key : Parameter → String
  | accessOption _ => "authz_option"
  | bindingExtension _ => "http_extension"
  | root _ => "source_root"
  | strict _ => "strict"
  | emitEmpty _ => "emit_empty"
  | format _ => "format"

/-- The spellings of a truth value. -/
def spellings : Bool → List String
  | true => ["true", "1", "yes"]
  | false => ["false", "0", "no"]

/-- The values that give a parameter. -/
def values : Parameter → List String
  | accessOption name => [name]
  | bindingExtension name => [name]
  | root path => [path]
  | strict value => spellings value
  | emitEmpty value => spellings value
  | format .json => ["json"]
  | format .rust => ["rust", "rs"]

/-- The keys that are known. -/
def keys : List String :=
  ["authz_option", "http_extension", "source_root", "strict", "emit_empty", "format"]

/-- Whether a key and a value stand on the two sides of the first equals sign, with blanks around
them. -/
def IsPair (pair : Text) (key value : String) : Prop :=
  ∃ before after, pair = before ++ '=' :: after ∧ '=' ∉ before ∧
    key = String.ofList (trim before) ∧ value = String.ofList (trim after)

/-- Whether a pair gives a parameter. -/
def Spells (pair : Text) (parameter : Parameter) : Prop :=
  ∃ value ∈ parameter.values, IsPair pair parameter.key value

/-- What is wrong with a pair that gives no parameter. -/
inductive Wrong : Text → ParameterError → Prop where
  | noValue {pair : Text} (h : '=' ∉ pair) : Wrong pair (.noValue (String.ofList pair))
  | unknownKey {pair : Text} {key value : String} (h : IsPair pair key value)
      (hkey : key ∉ keys) : Wrong pair (.unknownKey key)
  | notBoolean {pair : Text} {key value : String} (h : IsPair pair key value)
      (hkey : key = "strict" ∨ key = "emit_empty") (hvalue : ∀ flag, value ∉ spellings flag) :
      Wrong pair (.notBoolean key value)
  | unknownFormat {pair : Text} {value : String} (h : IsPair pair "format" value)
      (hvalue : value ∉ ["json", "rust", "rs"]) : Wrong pair (.unknownFormat value)

/-- What a key and a value give. -/
def ofKey (key value : String) : Except ParameterError Parameter :=
  match key with
  | "authz_option" => .ok (accessOption value)
  | "http_extension" => .ok (bindingExtension value)
  | "source_root" => .ok (root value)
  | "strict" => (readBool key value).map strict
  | "emit_empty" => (readBool key value).map emitEmpty
  | "format" => (Table.Format.read value).map format
  | _ => .error (.unknownKey key)

section

variable {pair : Text} {key value : String} {parameter : Parameter} {error : ParameterError}

theorem readBool_eq_ok_iff {flag : Bool} :
    readBool key value = .ok flag ↔ value ∈ spellings flag := by
  have hdisjoint : value ∈ spellings true → value ∉ spellings false := by
    simp only [spellings, List.mem_cons, List.not_mem_nil, or_false]
    rintro (rfl | rfl | rfl) <;> decide
  rw [readBool]
  split_ifs with htrue hfalse
  · cases flag
    · exact iff_of_false (by simp) (hdisjoint htrue)
    · exact iff_of_true rfl htrue
  · cases flag
    · exact iff_of_true rfl hfalse
    · exact iff_of_false (by simp) htrue
  · cases flag
    · exact iff_of_false (by simp) hfalse
    · exact iff_of_false (by simp) htrue

theorem readBool_eq_error_iff :
    readBool key value = .error error ↔
      (∀ flag, value ∉ spellings flag) ∧ error = .notBoolean key value := by
  have hneither (h : ∀ flag, value ∉ spellings flag) :
      readBool key value = .error (.notBoolean key value) := by
    have htrue : value ∉ ["true", "1", "yes"] := h true
    have hfalse : value ∉ ["false", "0", "no"] := h false
    rw [readBool, if_neg htrue, if_neg hfalse]
  refine ⟨fun h => ?_, fun ⟨hnone, herror⟩ => by rw [hneither hnone, herror]⟩
  have hnone : ∀ flag, value ∉ spellings flag := fun flag hflag => by
    rw [readBool_eq_ok_iff.2 hflag] at h
    cases h
  rw [hneither hnone] at h
  exact ⟨hnone, (Except.error.inj h).symm⟩

theorem ofName?_eq_some_iff {found : Table.Format} :
    Table.Format.ofName? value = some found ↔ value ∈ (format found).values := by
  unfold Table.Format.ofName?
  split <;> cases found <;> simp_all [values]

theorem ofName?_eq_none_iff :
    Table.Format.ofName? value = none ↔ value ∉ ["json", "rust", "rs"] := by
  unfold Table.Format.ofName?
  split <;> simp_all

theorem readFormat_eq_ok_iff {found : Table.Format} :
    Table.Format.read value = .ok found ↔ value ∈ (format found).values := by
  rw [← ofName?_eq_some_iff, Table.Format.read]
  cases Table.Format.ofName? value <;> simp

theorem readFormat_eq_error_iff :
    Table.Format.read value = .error error ↔
      value ∉ ["json", "rust", "rs"] ∧ error = .unknownFormat value := by
  rw [← ofName?_eq_none_iff, Table.Format.read]
  cases Table.Format.ofName? value <;> simp [eq_comm]

theorem map_eq_ok_iff {α : Type} {result : Except ParameterError α} {f : α → Parameter} :
    result.map f = .ok parameter ↔ ∃ a, result = .ok a ∧ f a = parameter := by
  cases result <;> simp [Except.map]

theorem map_eq_error_iff {α : Type} {result : Except ParameterError α} {f : α → Parameter} :
    result.map f = .error error ↔ result = .error error := by
  cases result <;> simp [Except.map]

theorem ofKey_eq_ok_iff :
    ofKey key value = .ok parameter ↔ key = parameter.key ∧ value ∈ parameter.values := by
  constructor
  · intro h
    unfold ofKey at h
    split at h
    case h_1 | h_2 | h_3 =>
      cases h
      exact ⟨rfl, List.mem_singleton_self _⟩
    case h_4 | h_5 =>
      obtain ⟨flag, hflag, rfl⟩ := map_eq_ok_iff.1 h
      exact ⟨rfl, readBool_eq_ok_iff.1 hflag⟩
    case h_6 =>
      obtain ⟨found, hfound, rfl⟩ := map_eq_ok_iff.1 h
      exact ⟨rfl, readFormat_eq_ok_iff.1 hfound⟩
    case h_7 => cases h
  · rintro ⟨rfl, hvalue⟩
    cases parameter with
    | accessOption | bindingExtension | root =>
        obtain rfl := List.mem_singleton.1 hvalue
        rfl
    | strict | emitEmpty => exact map_eq_ok_iff.2 ⟨_, readBool_eq_ok_iff.2 hvalue, rfl⟩
    | format => exact map_eq_ok_iff.2 ⟨_, readFormat_eq_ok_iff.2 hvalue, rfl⟩

theorem ofKey_eq_error_iff :
    ofKey key value = .error error ↔
      (key ∉ keys ∧ error = .unknownKey key) ∨
      ((key = "strict" ∨ key = "emit_empty") ∧ (∀ flag, value ∉ spellings flag) ∧
        error = .notBoolean key value) ∨
      (key = "format" ∧ value ∉ ["json", "rust", "rs"] ∧ error = .unknownFormat value) := by
  unfold ofKey
  split
  case h_1 | h_2 | h_3 => simp [keys]
  case h_4 | h_5 => simp [map_eq_error_iff, readBool_eq_error_iff, keys]
  case h_6 => simp [map_eq_error_iff, readFormat_eq_error_iff, keys]
  case h_7 => simp_all [keys, eq_comm]

/-! ## Reading a pair -/

theorem read_of_isPair (h : IsPair pair key value) : read pair = ofKey key value := by
  obtain ⟨before, after, rfl, hbefore, rfl, rfl⟩ := h
  rw [read, splitOnce?_eq_some_iff.2 ⟨rfl, hbefore⟩]
  rfl

theorem exists_isPair_of_mem (h : '=' ∈ pair) : ∃ key value, IsPair pair key value := by
  obtain ⟨before, after, rfl, hbefore⟩ := List.eq_append_cons_of_mem h
  exact ⟨_, _, before, after, rfl, hbefore, rfl, rfl⟩

theorem read_of_not_mem (h : '=' ∉ pair) :
    read pair = .error (.noValue (String.ofList pair)) := by
  rw [read, splitOnce?_eq_none h]

theorem read_eq_ok_iff : read pair = .ok parameter ↔ Spells pair parameter := by
  constructor
  · intro h
    by_cases hmem : '=' ∈ pair
    · obtain ⟨key, value, hpair⟩ := exists_isPair_of_mem hmem
      rw [read_of_isPair hpair] at h
      obtain ⟨rfl, hvalue⟩ := ofKey_eq_ok_iff.1 h
      exact ⟨value, hvalue, hpair⟩
    · rw [read_of_not_mem hmem] at h
      cases h
  · rintro ⟨value, hvalue, hpair⟩
    rw [read_of_isPair hpair]
    exact ofKey_eq_ok_iff.2 ⟨rfl, hvalue⟩

theorem read_eq_error_iff : read pair = .error error ↔ Wrong pair error := by
  constructor
  · intro h
    by_cases hmem : '=' ∈ pair
    · obtain ⟨key, value, hpair⟩ := exists_isPair_of_mem hmem
      rw [read_of_isPair hpair] at h
      rcases ofKey_eq_error_iff.1 h with ⟨hkey, rfl⟩ | ⟨hkey, hvalue, rfl⟩ | ⟨rfl, hvalue, rfl⟩
      · exact .unknownKey hpair hkey
      · exact .notBoolean hpair hkey hvalue
      · exact .unknownFormat hpair hvalue
    · rw [read_of_not_mem hmem] at h
      cases h
      exact .noValue hmem
  · intro h
    cases h with
    | noValue hmem => exact read_of_not_mem hmem
    | unknownKey hpair hkey =>
        rw [read_of_isPair hpair]
        exact ofKey_eq_error_iff.2 (.inl ⟨hkey, rfl⟩)
    | notBoolean hpair hkey hvalue =>
        rw [read_of_isPair hpair]
        exact ofKey_eq_error_iff.2 (.inr (.inl ⟨hkey, hvalue, rfl⟩))
    | unknownFormat hpair hvalue =>
        rw [read_of_isPair hpair]
        exact ofKey_eq_error_iff.2 (.inr (.inr ⟨rfl, hvalue, rfl⟩))

theorem Wrong.not_spells (h : Wrong pair error) (parameter : Parameter) :
    ¬ Spells pair parameter := fun hspells => by
  rw [← read_eq_error_iff, read_eq_ok_iff.2 hspells] at h
  cases h

end

/-! ## Pairs up to the first wrong one -/

/-- What the pairs give up to the first wrong one: the parameters in front of it, and what is wrong
with it. -/
inductive UpToWrong : List Text → List Parameter → Option ParameterError → Prop where
  | all {pairs : List Text} {parameters : List Parameter}
      (h : List.Forall₂ Spells pairs parameters) : UpToWrong pairs parameters none
  | stopped {front back : List Text} {pair : Text} {parameters : List Parameter}
      {error : ParameterError} (h : List.Forall₂ Spells front parameters)
      (hwrong : Wrong pair error) : UpToWrong (front ++ pair :: back) parameters (some error)

theorem exists_upToWrong (pairs : List Text) :
    ∃ parameters error?, UpToWrong pairs parameters error? := by
  induction pairs with
  | nil => exact ⟨[], none, .all .nil⟩
  | cons pair pairs ih =>
      cases hread : read pair with
      | error error =>
          have hwrong := read_eq_error_iff.1 hread
          exact ⟨[], some error, @UpToWrong.stopped [] pairs pair [] error .nil hwrong⟩
      | ok parameter =>
          have hspells := read_eq_ok_iff.1 hread
          obtain ⟨parameters, error?, h⟩ := ih
          refine ⟨parameter :: parameters, error?, ?_⟩
          cases h with
          | all h => exact .all (.cons hspells h)
          | stopped h hwrong => exact .stopped (.cons hspells h) hwrong

theorem exists_spells_of_mem {pairs : List Text} {parameters : List Parameter}
    (h : List.Forall₂ Spells pairs parameters) {pair : Text} (hpair : pair ∈ pairs) :
    ∃ parameter, Spells pair parameter := by
  induction h with
  | nil => simp at hpair
  | cons hspells _ ih =>
      rcases List.mem_cons.1 hpair with rfl | hpair
      · exact ⟨_, hspells⟩
      · exact ih hpair

theorem UpToWrong.isSome_iff {pairs : List Text} {parameters : List Parameter}
    {error? : Option ParameterError} (h : UpToWrong pairs parameters error?) :
    error?.isSome ↔ ∃ pair ∈ pairs, ∃ error, Wrong pair error := by
  cases h with
  | all h =>
      refine iff_of_false (by simp) ?_
      rintro ⟨pair, hpair, error, hwrong⟩
      obtain ⟨parameter, hspells⟩ := exists_spells_of_mem h hpair
      exact hwrong.not_spells parameter hspells
  | stopped h hwrong => exact iff_of_true rfl ⟨_, by simp, _, hwrong⟩

/-! ## Parameters applied in order -/

/-- The settings after some parameters, where `replaced` says whether roots were given before. -/
def applyAll (replaced : Bool) (settings : Settings) : List Parameter → Settings
  | [] => settings
  | parameter :: parameters =>
    applyAll (replaced || parameter.isRoot) (parameter.apply replaced settings) parameters

theorem exists_applyPairs_append {front : List Text} {parameters : List Parameter}
    (h : List.Forall₂ Spells front parameters) (replaced : Bool) (settings : Settings) :
    ∃ replaced', ∀ back, applyPairs replaced settings (front ++ back) =
      applyPairs replaced' (applyAll replaced settings parameters) back := by
  induction h generalizing replaced settings with
  | nil => exact ⟨replaced, fun _ => rfl⟩
  | cons hspells _ ih =>
      obtain ⟨replaced', hback⟩ := ih (replaced || _) (apply replaced settings _)
      refine ⟨replaced', fun back => ?_⟩
      rw [List.cons_append, applyPairs, read_eq_ok_iff.2 hspells]
      exact hback back

theorem UpToWrong.applyPairs_eq {pairs : List Text} {parameters : List Parameter}
    {error? : Option ParameterError} (h : UpToWrong pairs parameters error?) (replaced : Bool)
    (settings : Settings) :
    applyPairs replaced settings pairs = (applyAll replaced settings parameters, error?) := by
  cases h with
  | all h =>
      obtain ⟨replaced', hback⟩ := exists_applyPairs_append h replaced settings
      rw [← List.append_nil pairs, hback, applyPairs]
  | stopped h hwrong =>
      obtain ⟨replaced', hback⟩ := exists_applyPairs_append h replaced settings
      rw [hback, applyPairs, read_eq_error_iff.2 hwrong]

/-- Parameters with different keys can change places. -/
theorem apply_comm {first second : Parameter} (h : first.key ≠ second.key) (replaced : Bool)
    (settings : Settings) :
    second.apply (replaced || first.isRoot) (first.apply replaced settings) =
      first.apply (replaced || second.isRoot) (second.apply replaced settings) := by
  cases first <;> cases second <;> simp_all [key, apply, isRoot]

theorem applyPairs_swap {first second : Text} {p q : Parameter} (hfirst : Spells first p)
    (hsecond : Spells second q) (h : p.key ≠ q.key) (front back : List Text) (replaced : Bool)
    (settings : Settings) :
    applyPairs replaced settings (front ++ second :: first :: back) =
      applyPairs replaced settings (front ++ first :: second :: back) := by
  induction front generalizing replaced settings with
  | nil =>
      simp only [List.nil_append, applyPairs, read_eq_ok_iff.2 hfirst, read_eq_ok_iff.2 hsecond]
      rw [apply_comm h, Bool.or_right_comm]
  | cons pair front ih =>
      simp only [List.cons_append, applyPairs]
      cases read pair with
      | error error => rfl
      | ok parameter => exact ih _ _

/-! ## The last value for each setting -/

def accessOption? : Parameter → Option String
  | accessOption name => some name
  | _ => none

def bindingExtension? : Parameter → Option String
  | bindingExtension name => some name
  | _ => none

def root? : Parameter → Option String
  | root path => some path
  | _ => none

def strict? : Parameter → Option Bool
  | strict value => some value
  | _ => none

def emitEmpty? : Parameter → Option Bool
  | emitEmpty value => some value
  | _ => none

def format? : Parameter → Option Table.Format
  | format value => some value
  | _ => none

/-- The last value that is given for a setting, where `pick` says which parameters give one; the
old value if none does. -/
def lastGiven {α : Type} (pick : Parameter → Option α) (parameters : List Parameter) (old : α) :
    α :=
  (parameters.filterMap pick).getLast?.getD old

section

variable {α : Type} {pick : Parameter → Option α}

theorem lastGiven_cons (parameter : Parameter) (parameters : List Parameter) (old : α) :
    lastGiven pick (parameter :: parameters) old =
      lastGiven pick parameters ((pick parameter).getD old) := by
  cases h : pick parameter with
  | none => simp [lastGiven, h]
  | some value => simp [lastGiven, h, List.getLast?_cons]

theorem lastGiven_lastGiven (parameters : List Parameter) (old : α) :
    lastGiven pick parameters (lastGiven pick parameters old) = lastGiven pick parameters old := by
  rw [lastGiven, lastGiven]
  cases (parameters.filterMap pick).getLast? <;> rfl

/-- A setting that each parameter changes to what it gives for it, if anything, has the last value
that is given for it. -/
theorem applyAll_eq_lastGiven {f : Settings → α}
    (h : ∀ (parameter : Parameter) (replaced : Bool) (settings : Settings),
      f (parameter.apply replaced settings) = (pick parameter).getD (f settings))
    (replaced : Bool) (settings : Settings) (parameters : List Parameter) :
    f (applyAll replaced settings parameters) = lastGiven pick parameters (f settings) := by
  induction parameters generalizing replaced settings with
  | nil => rfl
  | cons parameter parameters ih => rw [applyAll, ih, h, lastGiven_cons]

end

/-- The first root that is given replaces the old ones, unless they were replaced before. -/
theorem roots_applyAll (replaced : Bool) (settings : Settings) (parameters : List Parameter) :
    (applyAll replaced settings parameters).extraction.roots =
      if replaced = false ∧ parameters.filterMap root? ≠ [] then parameters.filterMap root?
      else settings.extraction.roots ++ parameters.filterMap root? := by
  induction parameters generalizing replaced settings with
  | nil => simp [applyAll]
  | cons parameter parameters ih =>
      rw [applyAll, ih]
      cases parameter with
      | root path => cases replaced <;> simp [apply, isRoot, root?]
      | _ =>
          rw [List.filterMap_cons_none rfl]
          simp only [apply, isRoot, Bool.or_false]

end Parameter

/-! ## Settings after a text of parameters -/

attribute [ext] ExtractionSettings OutputSettings Settings

namespace Settings

open Parameter

/-- The settings after some parameters: each has the last value that was given for it, and the roots
are all that were given. -/
def after (settings : Settings) (parameters : List Parameter) : Settings where
  extraction := {
    accessOption := lastGiven accessOption? parameters settings.extraction.accessOption
    bindingExtension := lastGiven bindingExtension? parameters settings.extraction.bindingExtension
    roots :=
      if parameters.filterMap root? = [] then settings.extraction.roots
      else parameters.filterMap root?
    strict := lastGiven strict? parameters settings.extraction.strict }
  output := {
    format := lastGiven format? parameters settings.output.format
    emitEmpty := lastGiven emitEmpty? parameters settings.output.emitEmpty }

theorem applyAll_eq_after (settings : Settings) (parameters : List Parameter) :
    applyAll false settings parameters = settings.after parameters := by
  have hoption : (applyAll false settings parameters).extraction.accessOption =
      (settings.after parameters).extraction.accessOption :=
    applyAll_eq_lastGiven (f := (·.extraction.accessOption))
      (fun parameter _ _ => by cases parameter <;> rfl) false settings parameters
  have hextension : (applyAll false settings parameters).extraction.bindingExtension =
      (settings.after parameters).extraction.bindingExtension :=
    applyAll_eq_lastGiven (f := (·.extraction.bindingExtension))
      (fun parameter _ _ => by cases parameter <;> rfl) false settings parameters
  have hroots : (applyAll false settings parameters).extraction.roots =
      (settings.after parameters).extraction.roots := by
    rw [roots_applyAll]
    by_cases h : parameters.filterMap root? = [] <;> simp [after, h]
  have hstrict : (applyAll false settings parameters).extraction.strict =
      (settings.after parameters).extraction.strict :=
    applyAll_eq_lastGiven (f := (·.extraction.strict))
      (fun parameter _ _ => by cases parameter <;> rfl) false settings parameters
  have hformat : (applyAll false settings parameters).output.format =
      (settings.after parameters).output.format :=
    applyAll_eq_lastGiven (f := (·.output.format))
      (fun parameter _ _ => by cases parameter <;> rfl) false settings parameters
  have hempty : (applyAll false settings parameters).output.emitEmpty =
      (settings.after parameters).output.emitEmpty :=
    applyAll_eq_lastGiven (f := (·.output.emitEmpty))
      (fun parameter _ _ => by cases parameter <;> rfl) false settings parameters
  exact Settings.ext (ExtractionSettings.ext hoption hextension hroots hstrict)
    (OutputSettings.ext hformat hempty)

theorem after_after (settings : Settings) (parameters : List Parameter) :
    (settings.after parameters).after parameters = settings.after parameters := by
  have hroots : ((settings.after parameters).after parameters).extraction.roots =
      (settings.after parameters).extraction.roots := by
    by_cases h : parameters.filterMap root? = [] <;> simp [after, h]
  exact Settings.ext
    (ExtractionSettings.ext (lastGiven_lastGiven _ _) (lastGiven_lastGiven _ _) hroots
      (lastGiven_lastGiven _ _))
    (OutputSettings.ext (lastGiven_lastGiven _ _) (lastGiven_lastGiven _ _))

theorem applyParameters_eq {settings : Settings} {text : String} {parameters : List Parameter}
    {error? : Option ParameterError} (h : UpToWrong (pairs text) parameters error?) :
    settings.applyParameters text = (settings.after parameters, error?) := by
  rw [applyParameters, h.applyPairs_eq, applyAll_eq_after]

/-- The pairs up to the first wrong one decide what becomes of the settings and what is wrong. So the
same text changes nothing when it is applied again, and pairs with different keys can change
places. -/
theorem applyParameters_lastGiven (settings : Settings) (text : String) :
    (∃ parameters error?, UpToWrong (pairs text) parameters error? ∧
        settings.applyParameters text = (settings.after parameters, error?) ∧
        (error?.isSome ↔ ∃ pair ∈ pairs text, ∃ error, Wrong pair error)) ∧
      (settings.applyParameters text).1.applyParameters text = settings.applyParameters text ∧
      ∀ (text' : String) (front back : List Text) (first second : Text) (p q : Parameter),
        pairs text = front ++ first :: second :: back →
        pairs text' = front ++ second :: first :: back →
        Spells first p → Spells second q → p.key ≠ q.key →
        settings.applyParameters text' = settings.applyParameters text := by
  obtain ⟨parameters, error?, hpairs⟩ := exists_upToWrong (pairs text)
  refine ⟨⟨parameters, error?, hpairs, applyParameters_eq hpairs, hpairs.isSome_iff⟩, ?_, ?_⟩
  · rw [applyParameters_eq hpairs, applyParameters_eq hpairs, after_after]
  · intro text' front back first second p q htext htext' hfirst hsecond hkey
    rw [applyParameters, applyParameters, htext, htext', applyPairs_swap hfirst hsecond hkey]

/-- A text with a pair that has no value. -/
def brokenText : String := "format=rs, strict = yes,,source_root=a,source_root=b,strict,format=json"

/-- The same with the first two pairs in the other order. -/
def swappedText : String := "strict = yes,format=rs,source_root=a,source_root=b,strict,format=json"

/-- The pairs in front of the one without a value are applied, in either order. -/
theorem applyParameters_swappedText :
    Spells "format=rs".toList (.format .rust) ∧ Spells "strict = yes".toList (.strict true) ∧
      applyParameters {} swappedText = applyParameters {} brokenText ∧
      applyParameters {} brokenText =
        ({ extraction := { roots := ["a", "b"], strict := true }, output := { format := .rust } },
          some (.noValue "strict")) := by
  have hformat : Spells "format=rs".toList (.format .rust) :=
    ⟨"rs", by decide, "format".toList, "rs".toList, by decide, by decide, by decide, by decide⟩
  have hstrict : Spells "strict = yes".toList (.strict true) :=
    ⟨"yes", by decide, "strict ".toList, " yes".toList, by decide, by decide, by decide, by decide⟩
  obtain ⟨-, -, hswap⟩ := applyParameters_lastGiven {} brokenText
  exact ⟨hformat, hstrict,
    hswap swappedText [] (["source_root=a", "source_root=b", "strict", "format=json"].map
      String.toList) _ _ _ _ (by decide +kernel) (by decide +kernel) hformat hstrict (by decide),
    by decide +kernel⟩

end Settings

end AccessRules
