/-!
# Variable-length numbers

A number is written seven bits to a byte, the lowest first; every byte but the last has its high
bit set. Numbers have 64 bits and so take at most ten bytes.
-/

namespace AccessRules.Wire

/-- A sequence of bytes. -/
abbrev Bytes := List UInt8

/-- The bytes of `n`. -/
def writeVarint (n : Nat) : Bytes :=
  if n < 128 then [n.toUInt8] else (n % 128 + 128).toUInt8 :: writeVarint (n / 128)
termination_by n
decreasing_by omega

/-- The number at the front of the bytes, where `index` bytes of it were read before. -/
def readVarintFrom (index : Nat) : Bytes → Option (Nat × Bytes)
  | [] => none
  | byte :: rest =>
    if index = 9 then if byte.toNat < 2 then some (byte.toNat, rest) else none
    else if byte.toNat < 128 then some (byte.toNat, rest)
    else (readVarintFrom (index + 1) rest).map fun (high, rest) =>
      (byte.toNat - 128 + 128 * high, rest)

/-- The number at the front of the bytes, and the bytes behind it. -/
def readVarint (bytes : Bytes) : Option (Nat × Bytes) :=
  readVarintFrom 0 bytes

theorem length_of_readVarintFrom {index n : Nat} {bytes rest : Bytes}
    (h : readVarintFrom index bytes = some (n, rest)) : rest.length < bytes.length := by
  induction bytes generalizing index n with
  | nil => simp [readVarintFrom] at h
  | cons byte bytes ih =>
      rw [readVarintFrom] at h
      split at h
      · split at h
        · simp_all
        · simp at h
      · split at h
        · simp_all
        · simp only [Option.map_eq_some_iff, Prod.mk.injEq, Prod.exists] at h
          obtain ⟨high, _, hread, _, rfl⟩ := h
          have := ih hread
          simp only [List.length_cons]
          omega

/-- Reading takes at least one byte. -/
theorem length_of_readVarint {n : Nat} {bytes rest : Bytes}
    (h : readVarint bytes = some (n, rest)) : rest.length < bytes.length :=
  length_of_readVarintFrom h

end AccessRules.Wire
