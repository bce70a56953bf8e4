import AccessRules.Extraction.Binding
import AccessRules.Proofs.Schema.LastText

/-!
# The choice of a verb

A binding is decided by the final texts of the verb fields alone (`ofMessage?_decides`): the order
in which the type declares them, their numbers, other fields and the order of the encoding do not
show.
-/

namespace AccessRules.Binding

open Schema
open Wire (Bytes Occurrence maxDepth)

/-- A type of bindings in which each verb that it has stands in a field of single texts. -/
structure DeclaresVerbs (types : Types) (type : MessageType) : Prop where
  known : types.message? type.name = some type
  holdsText : ∀ verb ∈ verbFields, ∀ field ∈ type.fieldNamed? verb.1, types.HoldsText type field

/-- The path that the occurrences leave in the field called `name`, if there is such a field and it
is set. -/
def finalPath? (type : MessageType) (occurrences : List Occurrence) (name : String) :
    Option String := do
  (← type.fieldNamed? name).finalText? occurrences

/-- Whether the binding has the first verb that is set, with its path. -/
def IsFirstSet (pathOf? : String → Option String) (binding : Binding) : Prop :=
  ∃ before name after, verbFields = before ++ (name, binding.verb) :: after ∧
    pathOf? name = some binding.path ∧ ∀ verb ∈ before, pathOf? verb.1 = none

theorem IsFirstSet.congr {pathOf? pathOf?' : String → Option String} {binding : Binding}
    (h : ∀ verb ∈ verbFields, pathOf? verb.1 = pathOf?' verb.1) :
    IsFirstSet pathOf? binding ↔ IsFirstSet pathOf?' binding := by
  refine exists_congr fun before => exists_congr fun name => exists_congr fun after =>
    and_congr_right fun hverbs => ?_
  rw [hverbs, List.forall_mem_append, List.forall_mem_cons] at h
  rw [h.2.1]
  exact and_congr_right fun _ => forall₂_congr fun verb hverb => by rw [h.1 verb hverb]

/-! ## What a message states -/

theorem ofMessage?_eq_some_iff {types : Types} {message : Message} {binding : Binding} :
    ofMessage? types message = some binding ↔ IsFirstSet (path? types message) binding := by
  rw [ofMessage?, List.findSome?_eq_some_iff]
  constructor
  · rintro ⟨before, ⟨name, verb⟩, after, hverbs, hfound, hbefore⟩
    obtain ⟨path, hpath, rfl⟩ := Option.map_eq_some_iff.1 hfound
    exact ⟨before, name, after, hverbs, hpath, fun verb hverb =>
      Option.map_eq_none_iff.1 (hbefore verb hverb)⟩
  · rintro ⟨before, name, after, hverbs, hpath, hbefore⟩
    exact ⟨before, (name, binding.verb), after, hverbs, Option.map_eq_some_iff.2 ⟨_, hpath, rfl⟩,
      fun verb hverb => Option.map_eq_none_iff.2 (hbefore verb hverb)⟩

theorem ofMessage?_eq_none_iff {types : Types} {message : Message} :
    ofMessage? types message = none ↔ ∀ verb ∈ verbFields, path? types message verb.1 = none := by
  rw [ofMessage?, List.findSome?_eq_none_iff]
  exact forall₂_congr fun verb _ => Option.map_eq_none_iff

section

variable {types : Types} {depth : Nat} {type : MessageType} {bytes : Bytes}
  {occurrences : List Occurrence} {message : Message}

theorem path?_eq (hverbs : DeclaresVerbs types type)
    (h : types.Decodes depth type bytes occurrences message) :
    ∀ verb ∈ verbFields, path? types message verb.1 = finalPath? type occurrences verb.1 := by
  intro verb hverb
  rw [path?, finalPath?, h.type_eq, hverbs.known]
  cases hfield : type.fieldNamed? verb.1 with
  | none => simp [hfield]
  | some field =>
      have hget := h.get?_eq (hverbs.holdsText verb hverb field hfield)
      simp only [Option.bind_eq_bind, Option.bind_some, hfield, hget]
      cases field.finalText? occurrences <;> rfl

end

/-- Every message that is decoded states the first verb that its encoding leaves set, with the path
that it has at last, and nothing if it leaves none set. Two encodings that leave the same paths
state the same, whatever else their types declare and they hold. -/
theorem ofMessage?_decides :
    (∀ {types : Types} {type : MessageType} {bytes : Bytes} {message : Message},
      types.decode type bytes = some message ↔
        ∃ occurrences, types.Decodes maxDepth type bytes occurrences message) ∧
    ∀ {types : Types} {depth : Nat} {type : MessageType} {bytes : Bytes}
      {occurrences : List Occurrence} {message : Message}, DeclaresVerbs types type →
      types.Decodes depth type bytes occurrences message →
      (∀ binding, ofMessage? types message = some binding ↔
        IsFirstSet (finalPath? type occurrences) binding) ∧
      (ofMessage? types message = none ↔
        ∀ verb ∈ verbFields, finalPath? type occurrences verb.1 = none) ∧
      ∀ {types' : Types} {depth' : Nat} {type' : MessageType} {bytes' : Bytes}
        {occurrences' : List Occurrence} {message' : Message}, DeclaresVerbs types' type' →
        types'.Decodes depth' type' bytes' occurrences' message' →
        (∀ verb ∈ verbFields,
          finalPath? type occurrences verb.1 = finalPath? type' occurrences' verb.1) →
        ofMessage? types message = ofMessage? types' message' := by
  refine ⟨Types.decode_eq_some_iff, fun {types _ type _ occurrences message} hverbs h => ?_⟩
  have hsome : ∀ binding, ofMessage? types message = some binding ↔
      IsFirstSet (finalPath? type occurrences) binding := fun _ =>
    ofMessage?_eq_some_iff.trans (IsFirstSet.congr (path?_eq hverbs h))
  refine ⟨hsome, ?_, fun hverbs' h' hfinal => Option.ext fun binding => ?_⟩
  · rw [ofMessage?_eq_none_iff]
    exact forall₂_congr fun verb hverb => by rw [path?_eq hverbs h verb hverb]
  · rw [hsome, ofMessage?_eq_some_iff, IsFirstSet.congr (path?_eq hverbs' h')]
    exact IsFirstSet.congr hfinal

/-- A field of single texts that is unset where its text is empty. -/
def textField (name : String) (number : Nat) : Field :=
  ⟨name, number, .scalar .text, false, false, some (.text ""), none⟩

/-- Two types of bindings that have other fields, in another order and with other numbers. -/
def plainType : MessageType :=
  ⟨"acme.Plain", [textField "get" 1, textField "patch" 2], false⟩

def mixedType : MessageType :=
  ⟨"acme.Mixed", [textField "patch" 3, textField "put" 4, textField "custom" 1, textField "get" 2],
    false⟩

def bindingTypes : Types where
  messages := [plainType, mixedType]

theorem DeclaresVerbs.of_forall {types : Types} {type : MessageType}
    (hknown : types.message? type.name = some type)
    (hnumbers : (type.fields.map Field.number).Nodup)
    (hfields : ∀ field ∈ type.fields, field.type = .scalar .text ∧ field.isRepeated = false ∧
      field.choice? = none) : DeclaresVerbs types type where
  known := hknown
  holdsText := fun _ _ field hfield => by
    have hmem : field ∈ type.fields := List.mem_of_find?_eq_some hfield
    obtain ⟨htext, hsingle, hchoice⟩ := hfields field hmem
    exact .of_mem hnumbers hmem htext hsingle hchoice

/-- The patch path, then the get path. -/
theorem decodes_plainType : bindingTypes.Decodes maxDepth plainType
    ([18] ++ ([2, 47, 112] ++ ([10] ++ ([2, 47, 103] ++ []))))
    [⟨2, .bytes, [2, 47, 112]⟩, ⟨1, .bytes, [2, 47, 103]⟩]
    ⟨"acme.Plain", [(1, .datum (.text "/g")), (2, .datum (.text "/p"))]⟩ :=
  .cons ⟨by decide, by decide, @Wire.Spelled.last 18 (by decide), by decide, by decide⟩ rfl
    (.cons ⟨by decide, by decide, @Wire.Spelled.last 10 (by decide), by decide, by decide⟩ rfl .nil)

/-- A get path that is overwritten, a field that is no verb and an empty put path between them. -/
theorem decodes_mixedType : bindingTypes.Decodes maxDepth mixedType
    ([18] ++ ([2, 47, 120] ++ ([10] ++ ([1, 99] ++ ([34] ++ ([0] ++ ([18] ++ ([2, 47, 103] ++
      ([26] ++ ([2, 47, 112] ++ []))))))))))
    [⟨2, .bytes, [2, 47, 120]⟩, ⟨1, .bytes, [1, 99]⟩, ⟨4, .bytes, [0]⟩, ⟨2, .bytes, [2, 47, 103]⟩,
      ⟨3, .bytes, [2, 47, 112]⟩]
    ⟨"acme.Mixed", [(3, .datum (.text "/p")), (2, .datum (.text "/g")), (1, .datum (.text "c"))]⟩ :=
  .cons ⟨by decide, by decide, @Wire.Spelled.last 18 (by decide), by decide, by decide⟩ rfl
    (.cons ⟨by decide, by decide, @Wire.Spelled.last 10 (by decide), by decide, by decide⟩ rfl
      (.cons ⟨by decide, by decide, @Wire.Spelled.last 34 (by decide), by decide, by decide⟩ rfl
        (.cons ⟨by decide, by decide, @Wire.Spelled.last 18 (by decide), by decide, by decide⟩ rfl
          (.cons ⟨by decide, by decide, @Wire.Spelled.last 26 (by decide), by decide, by decide⟩ rfl
            .nil))))

theorem ofMessage?_mixedType : ∃ message message',
    bindingTypes.decode plainType [18, 2, 47, 112, 10, 2, 47, 103] = some message ∧
      bindingTypes.decode mixedType
        [18, 2, 47, 120, 10, 1, 99, 34, 0, 18, 2, 47, 103, 26, 2, 47, 112] = some message' ∧
      ofMessage? bindingTypes message = some ⟨.get, "/g"⟩ ∧
      ofMessage? bindingTypes message = ofMessage? bindingTypes message' := by
  have hplain : DeclaresVerbs bindingTypes plainType :=
    .of_forall (by decide +kernel) (by decide +kernel) (by decide +kernel)
  have hmixed : DeclaresVerbs bindingTypes mixedType :=
    .of_forall (by decide +kernel) (by decide +kernel) (by decide +kernel)
  obtain ⟨hdecode, hdecides⟩ := ofMessage?_decides
  obtain ⟨hsome, -, hsame⟩ := hdecides hplain decodes_plainType
  refine ⟨_, _, hdecode.2 ⟨_, decodes_plainType⟩, hdecode.2 ⟨_, decodes_mixedType⟩,
    (hsome _).2 ⟨[], "get", _, rfl, ?_, by simp⟩, hsame hmixed decodes_mixedType ?_⟩
  · decide +kernel
  · decide +kernel

end AccessRules.Binding
