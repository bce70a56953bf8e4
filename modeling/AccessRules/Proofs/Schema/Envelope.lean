import AccessRules.Proofs.Wire.Grammar
import AccessRules.Schema.Set

/-!
# Files in requests and in sets

A request and a set hold encoded files among other fields. What is read from either are the files
alone, in the order in which they occur (`parts?_eq_some_iff`, `filesOfSet?_eq_some_iff`). A request
has its files written as a set, which keeps each of them (`isSet_writeSet`), so both lead to the
same pool (`read_agrees_ofSet`).
-/

namespace AccessRules.Wire

/-- The payloads of the fields with the number, in the order of the fields. -/
def occurrences (number : Nat) (fields : List Field) : List Payload :=
  (fields.filter (·.number = number)).map (·.payload)

section

variable {limit number : Nat} {fields : List Field} {bytes : Bytes}

theorem all_eq_some_iff {α : Type} {read : Payload → Option α} {values : List α} :
    all read number fields = some values ↔
      (occurrences number fields).map read = values.map some := by
  rw [all, occurrences, List.map_map]
  induction fields.filter (·.number = number) generalizing values with
  | nil => cases values <;> simp
  | cons field rest ih =>
      rw [List.mapM_cons, List.map_cons]
      cases values <;> simp [Option.bind_eq_some_iff, ih]

theorem map_asBytes?_eq_iff {payloads : List Payload} {values : List Bytes} :
    payloads.map Payload.asBytes? = values.map some ↔ payloads = values.map .bytes := by
  have hpayload (payload : Payload) (value : Bytes) :
      payload.asBytes? = some value ↔ payload = .bytes value := by
    cases payload <;> simp [Payload.asBytes?]
  induction payloads generalizing values with
  | nil => cases values <;> simp
  | cons payload payloads ih => cases values <;> simp [hpayload, ih]

theorem EncodesAll.exists_of_mem (h : EncodesAll limit fields bytes) {field : Field}
    (hfield : field ∈ fields) : ∃ front, Encodes limit field front := by
  induction h with
  | nil => cases hfield
  | cons hfirst _ ih =>
      rcases List.mem_cons.1 hfield with rfl | hmem
      · exact ⟨_, hfirst⟩
      · exact ih hmem

/-- The length of a payload is a 64-bit number. -/
theorem Encodes.length_lt {payload : Bytes} (h : Encodes limit ⟨number, .bytes payload⟩ bytes) :
    payload.length < 2 ^ 64 := by
  cases h with
  | plain _ hplain =>
      cases hplain with
      | bytes hcount => exact hcount.lt

theorem length_lt_of_occurrences (h : EncodesAll limit fields bytes) {payload : Bytes}
    (hpayload : .bytes payload ∈ occurrences number fields) : payload.length < 2 ^ 64 := by
  obtain ⟨⟨_, _⟩, hfield, rfl⟩ := List.mem_map.1 hpayload
  obtain ⟨front, hfront⟩ := h.exists_of_mem (List.mem_filter.1 hfield).1
  exact hfront.length_lt

/-! ## Writing -/

theorem encodes_writeBytes {payload : Bytes} (hne : number ≠ 0) (hnumber : number < 2 ^ 29)
    (hpayload : payload.length < 2 ^ 64) :
    Encodes limit ⟨number, .bytes payload⟩ (writeBytes number payload) := by
  have hcode : number * 8 + Form.bytes.code < 2 ^ 32 := by
    rw [Form.code]
    omega
  rw [writeBytes, List.append_assoc]
  exact .plain ⟨hne, hcode, isVarint_writeVarint (by omega)⟩
    (.bytes (isVarint_writeVarint hpayload))

end

end AccessRules.Wire

namespace AccessRules.Schema

open Wire

variable {bytes : Bytes} {files : List Bytes}

/-- Whether the bytes are a set of the files: encoded fields, of which those with the number 1 are
these files. -/
def IsSet (bytes : Bytes) (files : List Bytes) : Prop :=
  ∃ fields, EncodesAll maxDepth fields bytes ∧ occurrences 1 fields = files.map .bytes

/-- Whether the bytes are a request: encoded fields, of which those with the numbers 1, 2 and 15 are
the targets, the parameters and the files. -/
def IsRequest (bytes : Bytes) (targets parameters : List String) (files : List Bytes) : Prop :=
  ∃ fields, EncodesAll maxDepth fields bytes ∧
    (occurrences 1 fields).map Payload.asText? = targets.map some ∧
    (occurrences 2 fields).map Payload.asText? = parameters.map some ∧
    occurrences 15 fields = files.map .bytes

theorem filesOfSet?_eq_some_iff : filesOfSet? bytes = some files ↔ IsSet bytes files := by
  simp only [filesOfSet?, IsSet, Option.bind_eq_bind, Option.bind_eq_some_iff,
    readFields_eq_some_iff, all_eq_some_iff, map_asBytes?_eq_iff]

theorem Request.parts?_eq_some_iff {targets : List String} {parameter? : Option String} :
    parts? bytes = some (targets, parameter?, files) ↔
      ∃ parameters, IsRequest bytes targets parameters files ∧
        parameter? = parameters.getLast? := by
  simp only [parts?, last, IsRequest, Option.bind_eq_bind, Option.bind_eq_some_iff,
    readFields_eq_some_iff, all_eq_some_iff, map_asBytes?_eq_iff, Option.map_eq_some_iff,
    Option.pure_def, Option.some.injEq, Prod.mk.injEq]
  constructor
  · rintro ⟨fields, hfields, _, htargets, _, ⟨parameters, hparameters, rfl⟩, _, hfiles,
      rfl, rfl, rfl⟩
    exact ⟨parameters, ⟨fields, hfields, htargets, hparameters, hfiles⟩, rfl⟩
  · rintro ⟨parameters, ⟨fields, hfields, htargets, hparameters, hfiles⟩, rfl⟩
    exact ⟨fields, hfields, targets, htargets, _, ⟨parameters, hparameters, rfl⟩, files, hfiles,
      rfl, rfl, rfl⟩

/-- Files are kept when they are written as a set. -/
theorem isSet_writeSet (h : ∀ file ∈ files, file.length < 2 ^ 64) :
    IsSet (writeSet files) files := by
  induction files with
  | nil => exact ⟨[], .nil, rfl⟩
  | cons file files ih =>
      obtain ⟨hfile, hrest⟩ := List.forall_mem_cons.1 h
      obtain ⟨fields, hfields, hfiles⟩ := ih hrest
      have hfirst : Encodes maxDepth ⟨1, .bytes file⟩ (writeBytes 1 file) :=
        encodes_writeBytes (by decide) (by decide) hfile
      refine ⟨⟨1, .bytes file⟩ :: fields, .cons hfirst hfields, ?_⟩
      rw [List.map_cons, ← hfiles]
      rfl

theorem IsRequest.linkSet_eq {targets parameters : List String}
    (h : IsRequest bytes targets parameters files) :
    Pool.linkSet (writeSet files) = Pool.ofFiles files := by
  obtain ⟨fields, hfields, -, -, hfiles⟩ := h
  have hlength : ∀ file ∈ files, file.length < 2 ^ 64 := by
    intro file hfile
    have hoccurs : .bytes file ∈ occurrences 15 fields := hfiles ▸ List.mem_map_of_mem hfile
    exact length_lt_of_occurrences hfields hoccurs
  rw [Pool.linkSet, filesOfSet?_eq_some_iff.2 (isSet_writeSet hlength)]

theorem IsSet.ofSet_eq (h : IsSet bytes files) : Pool.ofSet bytes = Pool.ofFiles files := by
  rw [Pool.ofSet, Pool.linkSet, filesOfSet?_eq_some_iff.2 h]

theorem Pool.eq_unlinkable_of_ofFiles {error : PoolError} (h : Pool.ofFiles files = .error error) :
    error = .unlinkable := by
  rw [ofFiles] at h
  split at h
  · cases h
  · exact (Except.error.inj h).symm

/-- A request and a set with the same files give the same pool, or both fail because these cannot be
linked. The request also holds its targets in order, and the last of its parameters. -/
theorem read_agrees_ofSet {request set : Bytes} {targets parameters : List String}
    {files : List Bytes} (hrequest : IsRequest request targets parameters files)
    (hset : IsSet set files) :
    (∃ pool, Pool.ofSet set = .ok pool ∧
      Request.read request = .ok ⟨targets, parameters.getLast?, pool⟩) ∨
    (Pool.ofSet set = .error .unlinkable ∧ Request.read request = .error .unlinkable) := by
  have hread : Request.read request = do
      return ⟨targets, parameters.getLast?, ← Pool.ofFiles files⟩ := by
    rw [Request.read, Request.parts?_eq_some_iff.2 ⟨parameters, hrequest, rfl⟩]
    simp only [hrequest.linkSet_eq]
  rw [hread, hset.ofSet_eq]
  cases hpool : Pool.ofFiles files with
  | ok pool => exact .inl ⟨pool, rfl, rfl⟩
  | error error =>
      obtain rfl := Pool.eq_unlinkable_of_ofFiles hpool
      exact .inr ⟨rfl, rfl⟩

/-- A request with a group between its files and a set with a number between them, which is not
spelled in the shortest way. The length of one file takes two bytes, and one file is empty. -/
theorem read_agrees_ofSet_groups :
    let file := writeBytes 1 (Text.encode "a.proto") ++ writeBytes 100 (List.replicate 130 0)
    let request := writeBytes 1 (Text.encode "b.proto") ++ writeBytes 15 file ++
      writeBytes 2 (Text.encode "x") ++ [0xa3, 0x06, 0x08, 0x00, 0xa4, 0x06] ++
      writeBytes 15 [] ++ writeBytes 2 (Text.encode "y") ++ writeBytes 1 (Text.encode "a.proto")
    let set := writeBytes 1 file ++ [0x10, 0x81, 0x00] ++ writeBytes 1 []
    ∃ pool, Pool.ofSet set = .ok pool ∧ pool.files.map (·.name) = ["a.proto", ""] ∧
      Request.read request = .ok ⟨["b.proto", "a.proto"], some "y", pool⟩ := by
  intro file request set
  obtain ⟨parameters, hrequest, hlast⟩ : ∃ parameters,
      IsRequest request ["b.proto", "a.proto"] parameters [file, []] ∧
        some "y" = parameters.getLast? :=
    Request.parts?_eq_some_iff.1 (by decide +kernel)
  have hset : IsSet set [file, []] := filesOfSet?_eq_some_iff.1 (by decide +kernel)
  have hnames : (Pool.ofSet set).toOption.map (fun pool => pool.files.map (·.name)) =
      some ["a.proto", ""] := by
    decide +kernel
  rcases read_agrees_ofSet hrequest hset with ⟨pool, hpool, hread⟩ | ⟨hpool, -⟩
  · rw [hpool] at hnames
    exact ⟨pool, hpool, Option.some.inj hnames, hlast ▸ hread⟩
  · rw [hpool] at hnames
    cases hnames

end AccessRules.Schema
