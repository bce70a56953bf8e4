import AccessRules.Proofs.Wire.Varint
import AccessRules.Wire.Record

/-!
# The grammar of encoded messages

A message is a sequence of encoded fields (`EncodesAll`), each a key and a payload (`Encodes`).
Groups hold fields up to their end mark (`Nested`), and they nest to a limit. Reading accepts exactly
the messages of this grammar and gives their fields in order (`readFields_eq_some_iff`).
-/

namespace AccessRules.Wire

variable {limit number : Nat} {form : Form} {payload : Payload} {bytes rest : Bytes}
  {innermost : Nat} {outer : List Nat}

/-! ## Keys -/

/-- Whether the bytes are a key with the number of a field and the form of its payload. -/
structure IsKey (number : Nat) (form : Form) (bytes : Bytes) : Prop where
  ne_zero : number ≠ 0
  lt : number * 8 + form.code < 2 ^ 32
  varint : IsVarint (number * 8 + form.code) bytes

theorem Form.code_lt (form : Form) : form.code < 8 := by
  cases form <;> decide

theorem Form.ofCode?_eq_some_iff {code : Nat} :
    Form.ofCode? code = some form ↔ form.code = code := by
  constructor
  · intro h
    rw [ofCode?] at h
    simpa using List.find?_some h
  · rintro rfl
    cases form <;> rfl

theorem exists_of_readKey (h : readKey bytes = some ((number, form), rest)) :
    ∃ key, bytes = key ++ rest ∧ IsKey number form key := by
  obtain ⟨⟨n, tail⟩, hread, hkey⟩ := Option.bind_eq_some_iff.1 h
  obtain ⟨key, rfl, hvarint⟩ := readVarint_eq_some_iff.1 hread
  dsimp only at hkey
  split at hkey
  · cases hkey
  · rename_i hbounds
    simp only [Bool.or_eq_true, decide_eq_true_eq, not_or] at hbounds
    obtain ⟨found, hform, hpair⟩ := Option.bind_eq_some_iff.1 hkey
    simp only [Option.pure_def, Option.some.injEq, Prod.mk.injEq] at hpair
    obtain ⟨⟨rfl, rfl⟩, rfl⟩ := hpair
    have hn : n / 8 * 8 + found.code = n := by
      rw [Form.ofCode?_eq_some_iff.1 hform, Nat.div_add_mod']
    exact ⟨key, rfl, hbounds.2, by rw [hn]; exact Nat.not_le.1 hbounds.1, hn.symm ▸ hvarint⟩

theorem readKey_append {key : Bytes} (h : IsKey number form key) (rest : Bytes) :
    readKey (key ++ rest) = some ((number, form), rest) := by
  have hcode := form.code_lt
  have hdiv : (number * 8 + form.code) / 8 = number := by omega
  have hmod : (number * 8 + form.code) % 8 = form.code := by omega
  have hform : Form.ofCode? form.code = some form := Form.ofCode?_eq_some_iff.2 rfl
  have hlt := h.lt
  have hne := h.ne_zero
  rw [readKey, readVarint_eq_some_iff.2 ⟨key, rfl, h.varint⟩]
  simp only [Option.bind_eq_bind, Option.bind_some, hdiv, hmod, hform, Option.pure_def]
  rw [if_neg (by simp; omega)]

/-! ## Plain payloads -/

/-- Whether the bytes are a payload in a form that is no group. -/
inductive IsPlain : Form → Payload → Bytes → Prop where
  | varint {n : Nat} {bytes : Bytes} (h : IsVarint n bytes) : IsPlain .varint (.varint n) bytes
  | fixed64 {bytes : Bytes} (h : bytes.length = 8) : IsPlain .fixed64 (.fixed64 bytes) bytes
  | bytes {count bytes : Bytes} (h : IsVarint bytes.length count) :
      IsPlain .bytes (.bytes bytes) (count ++ bytes)
  | fixed32 {bytes : Bytes} (h : bytes.length = 4) : IsPlain .fixed32 (.fixed32 bytes) bytes

theorem takeBytes_eq_some_iff {count : Nat} {taken : Bytes} :
    takeBytes count bytes = some (taken, rest) ↔ bytes = taken ++ rest ∧ taken.length = count := by
  rw [takeBytes]
  constructor
  · intro h
    split at h
    · rename_i hcount
      obtain ⟨rfl, rfl⟩ := Prod.mk.inj (Option.some.inj h)
      exact ⟨(List.take_append_drop count bytes).symm, List.length_take_of_le hcount⟩
    · cases h
  · rintro ⟨rfl, rfl⟩
    rw [if_pos (by simp), List.take_left, List.drop_left]

theorem exists_of_readPlain (h : readPlain form bytes = some (payload, rest)) :
    ∃ front, bytes = front ++ rest ∧ IsPlain form payload front := by
  cases form with
  | varint =>
      obtain ⟨⟨n, tail⟩, hread, hpair⟩ := Option.map_eq_some_iff.1 h
      obtain ⟨rfl, rfl⟩ := Prod.mk.inj hpair
      obtain ⟨front, hfront, hvarint⟩ := readVarint_eq_some_iff.1 hread
      exact ⟨front, hfront, .varint hvarint⟩
  | fixed64 =>
      obtain ⟨⟨taken, tail⟩, htake, hpair⟩ := Option.map_eq_some_iff.1 h
      obtain ⟨rfl, rfl⟩ := Prod.mk.inj hpair
      obtain ⟨hfront, hlength⟩ := takeBytes_eq_some_iff.1 htake
      exact ⟨taken, hfront, .fixed64 hlength⟩
  | fixed32 =>
      obtain ⟨⟨taken, tail⟩, htake, hpair⟩ := Option.map_eq_some_iff.1 h
      obtain ⟨rfl, rfl⟩ := Prod.mk.inj hpair
      obtain ⟨hfront, hlength⟩ := takeBytes_eq_some_iff.1 htake
      exact ⟨taken, hfront, .fixed32 hlength⟩
  | bytes =>
      obtain ⟨⟨n, tail⟩, hread, hbehind⟩ := Option.bind_eq_some_iff.1 h
      obtain ⟨⟨taken, tail'⟩, htake, hpair⟩ := Option.bind_eq_some_iff.1 hbehind
      obtain ⟨rfl, rfl⟩ := Prod.mk.inj (Option.some.inj hpair)
      obtain ⟨count, rfl, hcount⟩ := readVarint_eq_some_iff.1 hread
      obtain ⟨htail, hlength⟩ := takeBytes_eq_some_iff.1 htake
      exact ⟨count ++ taken, by rw [htail, List.append_assoc], .bytes (hlength.symm ▸ hcount)⟩
  | groupStart => cases h
  | groupEnd => cases h

theorem readPlain_append {front : Bytes} (h : IsPlain form payload front) (rest : Bytes) :
    readPlain form (front ++ rest) = some (payload, rest) := by
  cases h with
  | varint hvarint =>
      rw [readPlain, readVarint_eq_some_iff.2 ⟨front, rfl, hvarint⟩]
      rfl
  | fixed64 hlength =>
      rw [readPlain, takeBytes_eq_some_iff.2 ⟨rfl, hlength⟩]
      rfl
  | fixed32 hlength =>
      rw [readPlain, takeBytes_eq_some_iff.2 ⟨rfl, hlength⟩]
      rfl
  | @bytes count taken hcount =>
      have htake : takeBytes taken.length (taken ++ rest) = some (taken, rest) :=
        takeBytes_eq_some_iff.2 ⟨rfl, rfl⟩
      rw [readPlain, List.append_assoc, readVarint_eq_some_iff.2 ⟨count, rfl, hcount⟩]
      simp [htake]

/-! ## Groups -/

/-- Whether the bytes are fields inside of a group in which `depth` more levels may be open, itself
not counted. -/
inductive Nested : (depth : Nat) → Bytes → Prop where
  | nil {depth : Nat} : Nested depth []
  | plain {depth number : Nat} {form : Form} {payload : Payload} {key front rest : Bytes}
      (hkey : IsKey number form key) (hplain : IsPlain form payload front)
      (hrest : Nested (depth + 1) rest) : Nested (depth + 1) (key ++ front ++ rest)
  | group {depth number : Nat} {opening inner closing rest : Bytes}
      (hopening : IsKey number .groupStart opening) (hinner : Nested depth inner)
      (hclosing : IsKey number .groupEnd closing) (hrest : Nested (depth + 1) rest) :
      Nested (depth + 1) (opening ++ inner ++ closing ++ rest)

/-- Whether the bytes are a field in which groups may nest `limit` deep. -/
inductive Encodes (limit : Nat) : Field → Bytes → Prop where
  | plain {number : Nat} {form : Form} {payload : Payload} {key front : Bytes}
      (hkey : IsKey number form key) (hplain : IsPlain form payload front) :
      Encodes limit ⟨number, payload⟩ (key ++ front)
  | group {depth number : Nat} {opening inner closing : Bytes} (hlimit : limit = depth + 1)
      (hopening : IsKey number .groupStart opening) (hinner : Nested depth inner)
      (hclosing : IsKey number .groupEnd closing) :
      Encodes limit ⟨number, .group inner⟩ (opening ++ inner ++ closing)

/-- Whether the bytes are these fields, one after the other. -/
inductive EncodesAll (limit : Nat) : List Field → Bytes → Prop where
  | nil : EncodesAll limit [] []
  | cons {field : Field} {fields : List Field} {front rest : Bytes}
      (hfield : Encodes limit field front) (hfields : EncodesAll limit fields rest) :
      EncodesAll limit (field :: fields) (front ++ rest)

/-! ### Reading groups -/

/-- One step of the search for the end of a group. -/
theorem groupEnd_eq (limit innermost : Nat) (outer : List Nat) (bytes : Bytes) :
    groupEnd limit (innermost :: outer) bytes =
      (readKey bytes).bind fun ((number, form), rest) =>
        match form with
        | .groupEnd =>
          if number = innermost then
            if outer = [] then some (bytes, rest) else groupEnd limit outer rest
          else none
        | .groupStart =>
          if (innermost :: outer).length < limit then
            groupEnd limit (number :: innermost :: outer) rest
          else none
        | form =>
          if (innermost :: outer).length < limit then
            (readPlain form rest).bind fun (_, rest) => groupEnd limit (innermost :: outer) rest
          else none := by
  rw [groupEnd]
  split
  · rename_i h
    simp only [h, Option.bind_none]
  · rename_i number form rest h
    cases form
    case groupEnd =>
      simp only [h, Option.bind_some]
      cases outer <;> rfl
    case groupStart => simp only [h, Option.bind_some]
    all_goals
      simp only [h, Option.bind_some]
      split
      · split
        · rename_i hread
          simp only [hread, Option.bind_none]
        · rename_i hread
          simp only [hread, Option.bind_some]
      · rfl

theorem IsKey.length_pos (h : IsKey number form bytes) : 0 < bytes.length :=
  h.varint.spelled.length_pos

/-- The end mark of the innermost group is found, or the search goes on in the group around it. -/
theorem groupEnd_closing {closing : Bytes} (h : IsKey innermost .groupEnd closing) :
    groupEnd limit (innermost :: outer) (closing ++ rest) =
      if outer = [] then some (closing ++ rest, rest) else groupEnd limit outer rest := by
  rw [groupEnd_eq, readKey_append h, Option.bind_some]
  exact if_pos rfl

theorem groupEnd_opening {opening : Bytes} (h : IsKey number .groupStart opening)
    (hlimit : (innermost :: outer).length < limit) :
    groupEnd limit (innermost :: outer) (opening ++ rest) =
      groupEnd limit (number :: innermost :: outer) rest := by
  rw [groupEnd_eq, readKey_append h, Option.bind_some]
  exact if_pos hlimit

theorem groupEnd_plain {key front : Bytes} (hkey : IsKey number form key)
    (hplain : IsPlain form payload front) (hlimit : (innermost :: outer).length < limit) :
    groupEnd limit (innermost :: outer) (key ++ (front ++ rest)) =
      groupEnd limit (innermost :: outer) rest := by
  have hread := readPlain_append hplain rest
  rw [groupEnd_eq, readKey_append hkey, Option.bind_some]
  cases hplain <;> simp only [if_pos hlimit, hread, Option.bind_some]

/-- Fields inside of a group are passed over. -/
theorem Nested.groupEnd_append {depth : Nat} {inner : Bytes} (h : Nested depth inner)
    (hdepth : depth = limit - (innermost :: outer).length) :
    groupEnd limit (innermost :: outer) (inner ++ rest) =
      groupEnd limit (innermost :: outer) rest := by
  induction h generalizing innermost outer rest with
  | nil => rfl
  | plain hkey hplain _ ih =>
      rw [List.append_assoc, List.append_assoc, groupEnd_plain hkey hplain (by omega), ih hdepth]
  | group hopening _ hclosing _ ihinner ihrest =>
      simp only [List.append_assoc]
      rw [groupEnd_opening hopening (by omega),
        ihinner (by simp only [List.length_cons] at *; omega),
        groupEnd_closing hclosing, if_neg (List.cons_ne_nil _ _), ihrest hdepth]

/-- All that one step of the search does: it ends the innermost group, begins another one in it, or
passes over a plain field. -/
theorem groupEnd_cases {result : Bytes × Bytes}
    (h : groupEnd limit (innermost :: outer) bytes = some result) :
    (∃ closing rest, bytes = closing ++ rest ∧ IsKey innermost .groupEnd closing ∧
      (if outer = [] then some (bytes, rest) else groupEnd limit outer rest) = some result) ∨
    (innermost :: outer).length < limit ∧
      ((∃ number opening rest, bytes = opening ++ rest ∧ IsKey number .groupStart opening ∧
          groupEnd limit (number :: innermost :: outer) rest = some result) ∨
        ∃ number form payload key front rest, bytes = key ++ (front ++ rest) ∧
          IsKey number form key ∧ IsPlain form payload front ∧
          groupEnd limit (innermost :: outer) rest = some result) := by
  rw [groupEnd_eq] at h
  obtain ⟨⟨⟨number, form⟩, tail⟩, hread, hstep⟩ := Option.bind_eq_some_iff.1 h
  obtain ⟨key, rfl, hkey⟩ := exists_of_readKey hread
  cases form with
  | groupEnd =>
      dsimp only at hstep
      split at hstep
      · rename_i hnumber
        subst hnumber
        exact .inl ⟨key, tail, rfl, hkey, hstep⟩
      · cases hstep
  | groupStart =>
      dsimp only at hstep
      split at hstep
      · rename_i hlimit
        exact .inr ⟨hlimit, .inl ⟨number, key, tail, rfl, hkey, hstep⟩⟩
      · cases hstep
  | varint | fixed64 | bytes | fixed32 =>
      dsimp only at hstep
      split at hstep
      · rename_i hlimit
        obtain ⟨⟨payload, rest⟩, hread', hnext⟩ := Option.bind_eq_some_iff.1 hstep
        obtain ⟨front, rfl, hplain⟩ := exists_of_readPlain hread'
        exact .inr ⟨hlimit, .inr ⟨number, _, payload, key, front, rest, rfl, hkey, hplain, hnext⟩⟩
      · cases hstep

/-- In front of the end mark that is found there are fields only. -/
theorem exists_of_groupEnd {result : Bytes × Bytes}
    (h : groupEnd limit (innermost :: outer) bytes = some result) :
    ∃ inner closing rest, bytes = inner ++ (closing ++ rest) ∧
      Nested (limit - (innermost :: outer).length) inner ∧ IsKey innermost .groupEnd closing ∧
      (if outer = [] then some (closing ++ rest, rest) else groupEnd limit outer rest) =
        some result := by
  -- The search takes a field off the bytes at each step, so the induction is on their number.
  induction hlength : bytes.length using Nat.strongRecOn generalizing bytes innermost outer with
  | ind n ih =>
      subst hlength
      rcases groupEnd_cases h with ⟨closing, rest, rfl, hclosing, hresult⟩ | ⟨hlimit,
        ⟨number, opening, tail, rfl, hopening, h⟩ |
        ⟨number, form, payload, key, front, tail, rfl, hkey, hplain, h⟩⟩
      · exact ⟨[], closing, rest, rfl, .nil, hclosing, hresult⟩
      · have := hopening.length_pos
        obtain ⟨inner, closing, behind, rfl, hinner, hclosing, houter⟩ :=
          ih _ (by simp only [List.length_append]; omega) h rfl
        rw [if_neg (List.cons_ne_nil _ _)] at houter
        obtain ⟨inner', closing', rest, rfl, hinner', hclosing', hresult⟩ :=
          ih _ (by simp only [List.length_append]; omega) houter rfl
        have hdepth : limit - (innermost :: outer).length =
            limit - (number :: innermost :: outer).length + 1 := by
          simp only [List.length_cons] at *
          omega
        rw [hdepth] at hinner' ⊢
        exact ⟨opening ++ inner ++ closing ++ inner', closing', rest,
          by simp only [List.append_assoc], .group hopening hinner hclosing hinner', hclosing',
          hresult⟩
      · have := hkey.length_pos
        obtain ⟨inner, closing, rest, rfl, hinner, hclosing, hresult⟩ :=
          ih _ (by simp only [List.length_append]; omega) h rfl
        have hdepth : limit - (innermost :: outer).length =
            limit - (innermost :: outer).length - 1 + 1 :=
          (Nat.sub_add_cancel (Nat.sub_pos_of_lt hlimit)).symm
        rw [hdepth] at hinner ⊢
        exact ⟨key ++ front ++ inner, closing, rest, by simp only [List.append_assoc],
          .plain hkey hplain hinner, hclosing, hresult⟩

/-! ## Fields and messages -/

section

variable {field : Field} {fields : List Field} {front : Bytes}

theorem readPayload_plain (h : IsPlain form payload front) (rest : Bytes) :
    readPayload limit number form (front ++ rest) = some (payload, rest) := by
  have hread := readPlain_append h rest
  cases h <;> exact hread

theorem readPayload_group {depth : Nat} {inner closing : Bytes} (hinner : Nested depth inner)
    (hclosing : IsKey number .groupEnd closing) (rest : Bytes) :
    readPayload (depth + 1) number .groupStart (inner ++ (closing ++ rest)) =
      some (.group inner, rest) := by
  simp only [readPayload, if_neg (Nat.succ_ne_zero depth)]
  rw [hinner.groupEnd_append (by simp), groupEnd_closing hclosing]
  simp

theorem exists_of_readPayload (h : readPayload limit number form bytes = some (payload, rest)) :
    (∃ front, bytes = front ++ rest ∧ IsPlain form payload front) ∨
      form = .groupStart ∧ ∃ depth inner closing, limit = depth + 1 ∧ payload = .group inner ∧
        bytes = inner ++ (closing ++ rest) ∧ Nested depth inner ∧
        IsKey number .groupEnd closing := by
  cases form with
  | groupStart =>
      simp only [readPayload] at h
      split at h
      · cases h
      · obtain ⟨⟨ending, behind⟩, hsearch, hpair⟩ := Option.bind_eq_some_iff.1 h
        obtain ⟨rfl, rfl⟩ := Prod.mk.inj (Option.some.inj hpair)
        obtain ⟨inner, closing, rest, rfl, hinner, hclosing, hfound⟩ := exists_of_groupEnd hsearch
        rw [if_pos rfl, Option.some.injEq, Prod.mk.injEq] at hfound
        obtain ⟨rfl, rfl⟩ := hfound
        exact .inr ⟨rfl, limit - 1, inner, closing, by omega, by simp, rfl, hinner, hclosing⟩
  | groupEnd => cases h
  | varint | fixed64 | bytes | fixed32 => exact .inl (exists_of_readPlain h)

/-- Exactly the encodings of a field are read as that field, whatever is behind them. -/
theorem readField_eq_some_iff : readField limit bytes = some (field, rest) ↔
    ∃ front, bytes = front ++ rest ∧ Encodes limit field front := by
  constructor
  · intro h
    obtain ⟨⟨⟨number, form⟩, tail⟩, hread, hbehind⟩ := Option.bind_eq_some_iff.1 h
    obtain ⟨⟨payload, rest'⟩, hpayload, hpair⟩ := Option.bind_eq_some_iff.1 hbehind
    obtain ⟨rfl, rfl⟩ := Prod.mk.inj (Option.some.inj hpair)
    obtain ⟨key, rfl, hkey⟩ := exists_of_readKey hread
    rcases exists_of_readPayload hpayload with
      ⟨front, rfl, hplain⟩ | ⟨rfl, depth, inner, closing, hlimit, rfl, rfl, hinner, hclosing⟩
    · exact ⟨key ++ front, (List.append_assoc ..).symm, .plain hkey hplain⟩
    · exact ⟨key ++ inner ++ closing, by simp only [List.append_assoc],
        .group hlimit hkey hinner hclosing⟩
  · rintro ⟨front, rfl, h⟩
    cases h with
    | plain hkey hplain =>
        rw [readField, List.append_assoc, readKey_append hkey]
        simp only [Option.bind_eq_bind, Option.bind_some, readPayload_plain hplain]
        rfl
    | group hlimit hopening hinner hclosing =>
        subst hlimit
        rw [readField]
        simp only [List.append_assoc, readKey_append hopening, Option.bind_eq_bind,
          Option.bind_some, readPayload_group hinner hclosing]
        rfl

theorem Encodes.length_pos (h : Encodes limit field bytes) : 0 < bytes.length := by
  cases h with
  | plain hkey _ | group _ hkey _ _ =>
      have := hkey.length_pos
      simp only [List.length_append]
      omega

/-- Exactly the encodings of fields are read, and give these fields in order. -/
theorem readFields_eq_some_iff :
    readFields limit bytes = some fields ↔ EncodesAll limit fields bytes := by
  constructor
  · intro h
    fun_induction readFields limit bytes generalizing fields with
    | case1 =>
        obtain rfl := Option.some.inj h
        exact .nil
    | case2 => cases h
    | case3 byte tail field rest hread hless ih =>
        obtain ⟨front, hbytes, hfield⟩ := readField_eq_some_iff.1 hread
        obtain ⟨fields, hfields, rfl⟩ := Option.map_eq_some_iff.1 h
        exact hbytes ▸ .cons hfield (ih hfields)
    | case4 => cases h
  · intro h
    induction h with
    | nil => rw [readFields]
    | @cons field fields front rest hfield _ ih =>
        have hread : readField limit (front ++ rest) = some (field, rest) :=
          readField_eq_some_iff.2 ⟨front, rfl, hfield⟩
        have hless : rest.length < (front ++ rest).length := by
          have := hfield.length_pos
          rw [List.length_append]
          omega
        generalize hbytes : front ++ rest = bytes at *
        cases bytes with
        | nil => cases hless
        | cons byte tail => rw [readFields, hread]; simp only [if_pos hless, ih]; rfl

end

end AccessRules.Wire
