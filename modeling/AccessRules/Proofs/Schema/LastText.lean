import AccessRules.Proofs.Wire.Occurrence
import AccessRules.Schema.Value
import Mathlib.Data.List.Nodup

/-!
# The last text wins

A field of single texts is left by a message as its last occurrence has it, whatever other fields
occur and in whatever order (`Decodes.get?_eq`). A field that does not tell a default from nothing
is unset where the last text is its default.
-/

namespace AccessRules.Schema

open Wire (Bytes Form Occurrence TakesOff Run)

/-! ## Setting fields -/

namespace MessageType

variable (type : MessageType) (message : Message) (field : Field) (value : Value)

@[simp] theorem put_type : (type.put message field value).type = message.type := by
  rw [put]
  split <;> rfl

theorem get?_put_self : (type.put message field value).get? field.number =
    if field.isSet value then some value else none := by
  rw [put]
  split <;> simp

theorem get?_put_of_ne {number : Nat} (hnumber : number ≠ field.number)
    (hexcludes : type.excludes field number = false) :
    (type.put message field value).get? number = message.get? number := by
  rw [put]
  split
  · rw [Message.get?_set_of_ne _ _ hnumber, Message.get?_eraseAll, if_neg (by simp [hexcludes])]
  · rw [Message.get?_eraseAll, if_neg (by simpa using hnumber), Message.get?_eraseAll,
      if_neg (by simp [hexcludes])]

end MessageType

/-- Whether the field is set when it has this text: if it tells every text from nothing, or the text
is no default. -/
def Field.keeps (field : Field) (text : String) : Bool :=
  field.hasPresence || decide (field.default? ≠ some (.text text))

theorem Field.isSet_text (field : Field) (text : String) :
    field.isSet (.datum (.text text)) = field.keeps text := by
  rw [isSet, keeps, isDefault]
  congr 1
  cases field.default? with
  | none => rfl
  | some datum => cases datum <;> simp [Datum.same, eq_comm]

/-- The text that the occurrences leave in the field: that of the last one, if the field is set
then. -/
def Field.finalText? (field : Field) (occurrences : List Occurrence) : Option String :=
  ((occurrences.filter (·.number = field.number)).getLast?.bind Occurrence.text?).filter field.keeps

namespace Types

variable {types : Types} {depth : Nat} {nested : Merge} {type : MessageType} {field : Field}
  {number : Nat} {form : Form} {message next : Message} {bytes rest : Bytes}

/-! ## One field -/

/-- The reader of the messages inside of one in which messages nest `depth` deep. -/
def inner (types : Types) : (depth : Nat) → Merge
  | 0 => fun _ _ _ _ => none
  | depth + 1 => types.merge depth

theorem merge_eq (type? : Option MessageType) (ending : Option Nat) :
    types.merge depth type? ending =
      Wire.foldFields (types.mergeField depth (types.inner depth) type?) ending := by
  cases depth <;> rfl

theorem field?_number (h : types.field? type number = some field) : field.number = number := by
  rw [field?] at h
  split at h
  · rename_i declared hdeclared
    rw [← Option.some.inj h]
    simpa using List.find?_some hdeclared
  · obtain ⟨extension, hextension, rfl⟩ := Option.map_eq_some_iff.1 h
    have := List.find?_some hextension
    simp only [Bool.decide_and, Bool.and_eq_true, decide_eq_true_eq] at this
    exact this.2

/-- All that a step does: a field that the type does not have is passed over, one that it has is put
into the message. Only entries of maps are no values of the field itself. -/
theorem mergeField_cases {type? : Option MessageType}
    (h : types.mergeField depth nested type? number form message bytes = some (next, rest)) :
    ((type?.bind fun type => types.field? type number) = none ∧
        (nested none (some number) message bytes = some (next, rest) ∨
          next = message ∧ ∃ payload, Wire.readPlain form bytes = some (payload, rest))) ∨
      ∃ type field value, type? = some type ∧ types.field? type number = some field ∧
        next = type.put message field value ∧
        ((∃ values, field.add (message.get? field.number) values = some value ∧
            types.readValues nested field (message.get? field.number) form bytes =
              some (values, rest)) ∨
          field.isRepeated = true ∧
            ∃ payload, Wire.readPlain .bytes bytes = some (payload, rest)) := by
  simp only [mergeField] at h
  split at h
  · rename_i hunknown
    refine .inl ⟨?_, ?_⟩
    · cases type? with
      | none => rfl
      | some type => simpa using hunknown
    · split at h
      · exact .inl h
      · obtain ⟨⟨payload, behind⟩, hread, hpair⟩ := Option.map_eq_some_iff.1 h
        obtain ⟨rfl, rfl⟩ := Prod.mk.inj hpair
        exact .inr ⟨rfl, payload, hread⟩
  · rename_i hknown
    obtain ⟨type, htype, hknown⟩ := Option.bind_eq_some_iff.1 hknown
    obtain ⟨field, hfield, hpair⟩ := Option.map_eq_some_iff.1 hknown
    obtain ⟨rfl, rfl⟩ := Prod.mk.inj hpair
    split at h
    · obtain ⟨⟨values, behind⟩, hvalues, h⟩ := Option.bind_eq_some_iff.1 h
      obtain ⟨value, hvalue, hpair⟩ := Option.bind_eq_some_iff.1 h
      obtain ⟨rfl, rfl⟩ := Prod.mk.inj (Option.some.inj hpair)
      exact .inr ⟨type, field, value, htype, hfield, rfl, .inl ⟨values, hvalue, hvalues⟩⟩
    · rename_i entry hentry
      obtain ⟨⟨payload, behind⟩, hread, h⟩ := Option.bind_eq_some_iff.1 h
      obtain ⟨raw, -, h⟩ := Option.bind_eq_some_iff.1 h
      obtain ⟨item, -, h⟩ := Option.bind_eq_some_iff.1 h
      obtain ⟨value, -, hpair⟩ := Option.bind_eq_some_iff.1 h
      obtain ⟨rfl, rfl⟩ := Prod.mk.inj (Option.some.inj hpair)
      have hrepeated : field.isRepeated = true := by
        by_contra hsingle
        rw [Types.entry?, if_neg hsingle] at hentry
        cases hentry
      exact .inr ⟨type, field, value, htype, hfield, rfl, .inr ⟨hrepeated, payload, hread⟩⟩

/-- A field that the type has is put into the message. -/
theorem exists_put_of_mergeField (hfield : types.field? type number = some field)
    (h : types.mergeField depth nested (some type) number form message bytes = some (next, rest)) :
    ∃ value, next = type.put message field value ∧
      ((∃ values, field.add (message.get? field.number) values = some value ∧
          types.readValues nested field (message.get? field.number) form bytes =
            some (values, rest)) ∨
        field.isRepeated = true) := by
  rcases mergeField_cases h with ⟨hunknown, -⟩ | ⟨_, _, value, htype, hknown, hnext, hvalue⟩
  · rw [Option.bind_some, hfield] at hunknown
    cases hunknown
  · obtain rfl := Option.some.inj htype
    rw [hfield, Option.some.injEq] at hknown
    subst hknown
    exact ⟨value, hnext, hvalue.imp_right And.left⟩

/-- A field that the type does not have leaves the message as it is. -/
theorem eq_of_mergeField {type? : Option MessageType}
    (hnested : ∀ {ending message bytes next rest},
      nested none ending message bytes = some (next, rest) → next = message)
    (h : types.mergeField depth nested type? number form message bytes = some (next, rest))
    (hunknown : (type?.bind fun type => types.field? type number) = none) : next = message := by
  rcases mergeField_cases h with ⟨-, hpassed | ⟨hnext, -⟩⟩ | ⟨type, field, value, rfl, hfield, -, -⟩
  · exact hnested hpassed
  · exact hnext
  · rw [Option.bind_some, hfield] at hunknown
    cases hunknown

/-- Without a type every field is passed over. -/
theorem eq_of_inner_none {ending : Option Nat}
    (h : types.inner depth none ending message bytes = some (next, rest)) : next = message := by
  induction depth generalizing ending message bytes next rest with
  | zero => cases h
  | succ depth ih =>
      rw [inner, merge_eq] at h
      exact Wire.foldFields_invariant (fun state _ => state = message) (fun hstate _ => hstate)
        (fun hstate hnext => (eq_of_mergeField ih hnext rfl).trans hstate) rfl h

/-! ## What is taken off the bytes -/

section

variable (hnested : ∀ {type? ending message bytes next rest},
  nested type? ending message bytes = some (next, rest) → rest <:+ bytes)

include hnested

theorem suffix_of_readValues {old : Option Value} {values : List Value}
    (h : types.readValues nested field old form bytes = some (values, rest)) : rest <:+ bytes := by
  simp only [readValues] at h
  split at h
  case h_1 | h_2 =>
    obtain ⟨⟨payload, behind⟩, hread, h⟩ := Option.bind_eq_some_iff.1 h
    have hbehind : behind = rest := by
      split at h <;>
      · obtain ⟨data, -, hpair⟩ := Option.bind_eq_some_iff.1 h
        exact (Prod.mk.inj (Option.some.inj hpair)).2
    exact hbehind ▸ Wire.suffix_of_readPlain hread
  case h_3 =>
    obtain ⟨⟨payload, behind⟩, hread, h⟩ := Option.bind_eq_some_iff.1 h
    obtain ⟨inside, -, h⟩ := Option.bind_eq_some_iff.1 h
    obtain ⟨raw, -, h⟩ := Option.bind_eq_some_iff.1 h
    obtain ⟨⟨message, left⟩, -, hpair⟩ := Option.bind_eq_some_iff.1 h
    obtain ⟨-, rfl⟩ := Prod.mk.inj (Option.some.inj hpair)
    exact Wire.suffix_of_readPlain hread
  case h_4 =>
    obtain ⟨inside, -, h⟩ := Option.bind_eq_some_iff.1 h
    obtain ⟨⟨message, behind⟩, hread, hpair⟩ := Option.bind_eq_some_iff.1 h
    obtain ⟨-, rfl⟩ := Prod.mk.inj (Option.some.inj hpair)
    exact hnested hread
  case h_5 => cases h

theorem takesOff_mergeField {type? : Option MessageType} :
    TakesOff (types.mergeField depth nested type?) := by
  intro number form message bytes next rest h
  rcases mergeField_cases h with ⟨-, hpassed | ⟨-, payload, hread⟩⟩ |
    ⟨type, field, value, -, -, -, ⟨values, -, hread⟩ | ⟨-, payload, hread⟩⟩
  · exact hnested hpassed
  · exact Wire.suffix_of_readPlain hread
  · exact suffix_of_readValues hnested hread
  · exact Wire.suffix_of_readPlain hread

end

theorem suffix_of_inner {type? : Option MessageType} {ending : Option Nat}
    (h : types.inner depth type? ending message bytes = some (next, rest)) : rest <:+ bytes := by
  induction depth generalizing type? ending message bytes next rest with
  | zero => cases h
  | succ depth ih =>
      rw [inner, merge_eq] at h
      exact Wire.suffix_of_foldFields (takesOff_mergeField ih) h

/-! ## Whole messages -/

/-- Whether the bytes encode the message by these occurrences of fields, where messages nest `depth`
deep at most. -/
def Decodes (types : Types) (depth : Nat) (type : MessageType) (bytes : Bytes)
    (occurrences : List Occurrence) (message : Message) : Prop :=
  Run (types.mergeField depth (types.inner depth) (some type)) ⟨type.name, []⟩ bytes occurrences
    message

theorem merge_eq_some_iff :
    types.merge depth (some type) none ⟨type.name, []⟩ bytes = some (message, rest) ↔
      rest = [] ∧ ∃ occurrences, types.Decodes depth type bytes occurrences message := by
  rw [merge_eq]
  exact Wire.foldFields_eq_some_iff (takesOff_mergeField suffix_of_inner)

/-- Exactly the messages that fields make up, one after the other, are decoded. -/
theorem decode_eq_some_iff : types.decode type bytes = some message ↔
    ∃ occurrences, types.Decodes Wire.maxDepth type bytes occurrences message := by
  rw [decode]
  constructor
  · intro h
    obtain ⟨⟨decoded, rest⟩, hmerge, hpair⟩ := Option.bind_eq_some_iff.1 h
    obtain rfl := Option.some.inj hpair
    exact (merge_eq_some_iff.1 hmerge).2
  · intro h
    rw [merge_eq_some_iff.2 ⟨rfl, h⟩]
    rfl

theorem mergeField_type
    (h : types.mergeField depth (types.inner depth) (some type) number form message bytes =
      some (next, rest)) : next.type = message.type := by
  cases hfield : types.field? type number with
  | none => rw [eq_of_mergeField eq_of_inner_none h hfield]
  | some field =>
      obtain ⟨value, rfl, -⟩ := exists_put_of_mergeField hfield h
      exact type.put_type message field value

theorem Decodes.type_eq {occurrences : List Occurrence}
    (h : types.Decodes depth type bytes occurrences message) : message.type = type.name := by
  have hmerge := merge_eq_some_iff.2 ⟨rfl, occurrences, h⟩
  rw [merge_eq] at hmerge
  exact Wire.foldFields_invariant (fun (state : Message) _ => state.type = type.name)
    (fun hstate _ => hstate) (fun hstate hnext => (mergeField_type hnext).trans hstate) rfl hmerge

/-- A field of single texts that no other field of the type unsets: it is alone with its number and
in its choice, if it belongs to one. -/
structure HoldsText (types : Types) (type : MessageType) (field : Field) : Prop where
  mem : field ∈ type.fields
  text : field.type = .scalar .text
  single : field.isRepeated = false
  eq_of_number : ∀ other ∈ type.fields, other.number = field.number → other = field
  eq_of_choice : ∀ {number other}, types.field? type number = some other →
    other.choice?.isSome → other.choice? = field.choice? → number = field.number

/-- Where numbers are distinct, a field of single texts outside of all choices is such a field. -/
theorem HoldsText.of_mem (hnumbers : (type.fields.map Field.number).Nodup)
    (hmem : field ∈ type.fields) (htext : field.type = .scalar .text)
    (hsingle : field.isRepeated = false) (hchoice : field.choice? = none) :
    types.HoldsText type field where
  mem := hmem
  text := htext
  single := hsingle
  eq_of_number := fun _ hother hnumber => List.inj_on_of_nodup_map hnumbers hother hmem hnumber
  eq_of_choice := fun {_ _} _ hother hsame => by simp [hsame, hchoice] at hother

namespace HoldsText

variable (hfield : types.HoldsText type field)

include hfield

theorem field?_eq : types.field? type field.number = some field := by
  have hsome : (type.fields.find? (·.number = field.number)).isSome :=
    List.find?_isSome.2 ⟨field, hfield.mem, by simp⟩
  obtain ⟨other, hother⟩ := Option.isSome_iff_exists.1 hsome
  have hnumber : other.number = field.number := by simpa using List.find?_some hother
  rw [field?, hother, hfield.eq_of_number other (List.mem_of_find?_eq_some hother) hnumber]

theorem excludes_eq_false {other : Field} (hother : types.field? type number = some other)
    (hnumber : number ≠ field.number) : type.excludes other field.number = false := by
  rw [Bool.eq_false_iff, MessageType.excludes]
  intro h
  simp only [Bool.and_eq_true, List.any_eq_true, beq_iff_eq] at h
  obtain ⟨⟨hchoice, -⟩, declared, hmem, hdeclared, hsame⟩ := h
  rw [hfield.eq_of_number declared hmem hdeclared] at hsame
  exact hnumber (hfield.eq_of_choice hother hchoice hsame.symm)

theorem values_eq_of_readValues {old : Option Value} {payload : Bytes} {values : List Value}
    (h : types.readValues nested field old form (payload ++ rest) = some (values, rest)) :
    ∃ text, Occurrence.text? ⟨field.number, form, payload⟩ = some text ∧
      values = [.datum (.text text)] := by
  simp only [readValues, hfield.text, hfield.single, Bool.false_eq_true, if_false] at h
  obtain ⟨⟨found, behind⟩, hread, h⟩ := Option.bind_eq_some_iff.1 h
  obtain ⟨data, hdata, hpair⟩ := Option.bind_eq_some_iff.1 h
  obtain ⟨rfl, rfl⟩ := Prod.mk.inj (Option.some.inj hpair)
  obtain ⟨datum, hdatum, rfl⟩ := Option.map_eq_some_iff.1 hdata
  obtain ⟨front, hfront, hplain⟩ := Wire.exists_of_readPlain hread
  obtain rfl := List.append_cancel_right hfront
  have hagain := Wire.readPlain_append hplain []
  rw [List.append_nil] at hagain
  cases found with
  | bytes raw =>
      obtain ⟨text, htext, rfl⟩ := Option.map_eq_some_iff.1 hdatum
      exact ⟨text, by rw [Occurrence.text?, hagain]; exact htext, rfl⟩
  | varint | fixed64 | group | fixed32 => cases hdatum

/-- An occurrence of the field puts its text into the message. -/
theorem put_of_mergeField {payload : Bytes}
    (h : types.mergeField depth nested (some type) field.number form message (payload ++ rest) =
      some (next, rest)) : ∃ text, Occurrence.text? ⟨field.number, form, payload⟩ = some text ∧
        next = type.put message field (.datum (.text text)) := by
  obtain ⟨value, rfl, ⟨values, hvalue, hvalues⟩ | hrepeated⟩ :=
    exists_put_of_mergeField hfield.field?_eq h
  · obtain ⟨text, htext, rfl⟩ := hfield.values_eq_of_readValues hvalues
    rw [Field.add, hfield.single] at hvalue
    exact ⟨text, htext, by rw [← Option.some.inj hvalue]⟩
  · rw [hfield.single] at hrepeated
    cases hrepeated

/-- Nothing else changes it. -/
theorem get?_of_mergeField_ne (hnumber : number ≠ field.number)
    (h : types.mergeField depth (types.inner depth) (some type) number form message bytes =
      some (next, rest)) : next.get? field.number = message.get? field.number := by
  cases hother : types.field? type number with
  | none => rw [eq_of_mergeField eq_of_inner_none h hother]
  | some other =>
      obtain ⟨value, rfl, -⟩ := exists_put_of_mergeField hother h
      refine type.get?_put_of_ne message other value ?_ (hfield.excludes_eq_false hother hnumber)
      rw [field?_number hother]
      exact hnumber.symm

end HoldsText

/-- The field is left as its last occurrence has it. -/
theorem Decodes.get?_eq {occurrences : List Occurrence}
    (h : types.Decodes depth type bytes occurrences message)
    (hfield : types.HoldsText type field) :
    message.get? field.number =
      (field.finalText? occurrences).map fun text => .datum (.text text) := by
  have hlast := h.view_eq field.number (fun state => state.get? field.number)
    (fun occurrence => (occurrence.text?.filter field.keeps).map fun text => .datum (.text text))
    (fun {form state payload rest next} hnext => by
      obtain ⟨text, htext, rfl⟩ := hfield.put_of_mergeField hnext
      rw [type.get?_put_self, field.isSet_text, htext, Option.filter_some]
      split <;> rfl)
    hfield.get?_of_mergeField_ne
  rw [hlast, Field.finalText?]
  cases (occurrences.filter (·.number = field.number)).getLast? <;> rfl

end Types

end AccessRules.Schema
