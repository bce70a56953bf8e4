import AccessRules.Proofs.Wire.Grammar

/-!
# Occurrences of fields

A message is read field by field: each step gets the key of a field and takes the payload off the
bytes. Which fields a reader meets in a message, and how they change what it knows, is told by its
run (`Run`); every message that it reads to the end has one (`foldFields_eq_some_iff`). What only
one field changes is left by the last occurrence of that field (`Run.view_eq`).
-/

namespace AccessRules.Wire

/-- A field as it occurs in an encoded message. -/
structure Occurrence where
  number : Nat
  form : Form
  payload : Bytes
deriving DecidableEq, Repr

/-- The text that an occurrence gives to a field of texts. -/
def Occurrence.text? (occurrence : Occurrence) : Option String := do
  let (payload, _) ← readPlain occurrence.form occurrence.payload
  payload.asText?

variable {α β : Type} {step : Nat → Form → α → Bytes → Option (α × Bytes)}
  {state last : α} {bytes rest : Bytes} {occurrences : List Occurrence}

/-- The run of a reader over a whole message: the fields that occur in it, and the state behind the
last one. -/
inductive Run (step : Nat → Form → α → Bytes → Option (α × Bytes)) :
    α → Bytes → List Occurrence → α → Prop where
  | nil {state : α} : Run step state [] [] state
  | cons {state next last : α} {number : Nat} {form : Form} {key payload rest : Bytes}
      {occurrences : List Occurrence} (hkey : IsKey number form key)
      (hstep : step number form state (payload ++ rest) = some (next, rest))
      (hrest : Run step next rest occurrences last) :
      Run step state (key ++ (payload ++ rest)) (⟨number, form, payload⟩ :: occurrences) last

/-- What holds of the state and of the bytes that are left goes on to hold if neither the keys nor
the steps put an end to it. -/
theorem foldFields_invariant (Inv : α → Bytes → Prop)
    (hkey : ∀ {state bytes key rest}, Inv state bytes → readKey bytes = some (key, rest) →
      Inv state rest)
    (hstep : ∀ {number form state bytes next rest}, Inv state bytes →
      step number form state bytes = some (next, rest) → Inv next rest)
    {ending : Option Nat} (hinv : Inv state bytes)
    (h : foldFields step ending state bytes = some (last, rest)) : Inv last rest := by
  fun_induction foldFields step ending state bytes with
  | case1 =>
      obtain ⟨rfl, rfl⟩ := Prod.mk.inj (Option.some.inj h)
      exact hinv
  | case4 state byte tail number form behind hread hend hnumber =>
      obtain ⟨rfl, rfl⟩ := Prod.mk.inj (Option.some.inj h)
      exact hkey hinv hread
  | case7 state byte tail number form behind hread hend next behind' hnext hless ih =>
      exact ih (hstep (hkey hinv hread) hnext) h
  | _ => cases h

/-- Whether each step takes the payload off the front of the bytes. -/
def TakesOff (step : Nat → Form → α → Bytes → Option (α × Bytes)) : Prop :=
  ∀ {number form state bytes next rest}, step number form state bytes = some (next, rest) →
    rest <:+ bytes

theorem suffix_of_readKey {key : Nat × Form} (h : readKey bytes = some (key, rest)) :
    rest <:+ bytes := by
  obtain ⟨front, rfl, -⟩ := exists_of_readKey h
  exact List.suffix_append front rest

theorem suffix_of_readPlain {form : Form} {payload : Payload}
    (h : readPlain form bytes = some (payload, rest)) : rest <:+ bytes := by
  obtain ⟨front, rfl, -⟩ := exists_of_readPlain h
  exact List.suffix_append front rest

theorem suffix_of_foldFields (hstep : TakesOff step) {ending : Option Nat}
    (h : foldFields step ending state bytes = some (last, rest)) : rest <:+ bytes :=
  foldFields_invariant (fun _ left => left <:+ bytes)
    (fun hleft hkey => (suffix_of_readKey hkey).trans hleft)
    (fun hleft hnext => (hstep hnext).trans hleft) List.suffix_rfl h

theorem foldFields_eq_some_iff (hstep : TakesOff step) :
    foldFields step none state bytes = some (last, rest) ↔
      rest = [] ∧ ∃ occurrences, Run step state bytes occurrences last := by
  constructor
  · intro h
    generalize hending : (none : Option Nat) = ending at h
    fun_induction foldFields step ending state bytes with
    | case1 =>
        obtain ⟨rfl, rfl⟩ := Prod.mk.inj (Option.some.inj h)
        exact ⟨rfl, [], .nil⟩
    | case4 state byte tail number form behind hread hend => exact absurd hending.symm hend.2
    | case7 state byte tail number form behind hread hend next behind' hnext hless ih =>
        obtain ⟨key, hbytes, hkey⟩ := exists_of_readKey hread
        obtain ⟨payload, rfl⟩ := hstep hnext
        obtain ⟨hrest, occurrences, hrun⟩ := ih h
        rw [hbytes]
        exact ⟨hrest, _, .cons hkey hnext hrun⟩
    | _ => cases h
  · rintro ⟨rfl, occurrences, h⟩
    induction h with
    | nil => rw [foldFields, if_pos rfl]
    | @cons state next last number form key payload rest occurrences hkey hnext hrest ih =>
        have hread := readKey_append hkey (payload ++ rest)
        have hless : rest.length < (key ++ (payload ++ rest)).length := by
          have := hkey.length_pos
          simp only [List.length_append]
          omega
        generalize key ++ (payload ++ rest) = bytes at *
        cases bytes with
        | nil => cases hless
        | cons byte tail =>
            rw [foldFields, hread]
            simp only [ne_eq, not_true_eq_false, and_false, if_false, hnext, if_pos hless, ih]

/-- What each occurrence of one field determines and no other field changes is determined by the
last occurrence of the field. -/
theorem Run.view_eq (number : Nat) (view : α → β) (value : Occurrence → β)
    (hown : ∀ {form state payload rest next},
      step number form state (payload ++ rest) = some (next, rest) →
        view next = value ⟨number, form, payload⟩)
    (hother : ∀ {other form state bytes next rest}, other ≠ number →
      step other form state bytes = some (next, rest) → view next = view state)
    (h : Run step state bytes occurrences last) :
    view last =
      ((occurrences.filter (·.number = number)).getLast?.map value).getD (view state) := by
  induction h with
  | nil => rfl
  | @cons state next last other form key payload rest occurrences _ hnext _ ih =>
      rw [ih]
      by_cases hnumber : other = number
      · subst hnumber
        simp [List.getLast?_cons, hown hnext]
      · simp [hnumber, hother hnumber hnext]

end AccessRules.Wire
