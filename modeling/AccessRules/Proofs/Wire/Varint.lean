import AccessRules.Wire.Varint
import Mathlib.Algebra.Group.Nat.Defs

/-!
# Spellings of numbers

A number has one spelling that is written and longer ones with zeros at its end. Reading accepts
every spelling of a 64-bit number that takes at most ten bytes, and nothing else
(`readVarint_eq_some_iff`); what is written is such a spelling (`isVarint_writeVarint`).
-/

namespace AccessRules.Wire

/-- Whether the bytes hold the number seven bits to a byte, the lowest first, with the high bit set
in all but the last. -/
inductive Spelled : Nat → Bytes → Prop where
  | last {byte : UInt8} (h : byte.toNat < 128) : Spelled byte.toNat [byte]
  | more {byte : UInt8} {high : Nat} {bytes : Bytes} (h : 128 ≤ byte.toNat)
      (hbytes : Spelled high bytes) : Spelled (byte.toNat - 128 + 128 * high) (byte :: bytes)

theorem Spelled.length_pos {n : Nat} {bytes : Bytes} (h : Spelled n bytes) : 0 < bytes.length := by
  cases h <;> exact Nat.zero_lt_succ _

/-- Whether the bytes are a spelling of a 64-bit number that can be read. -/
structure IsVarint (n : Nat) (bytes : Bytes) : Prop where
  spelled : Spelled n bytes
  length_le : bytes.length ≤ 10
  lt : n < 2 ^ 64

/-- The bound of what is left of a 64-bit number behind `index` bytes. -/
def room (index : Nat) : Nat :=
  2 * 128 ^ (9 - index)

theorem room_eq {index : Nat} (h : index < 9) : room index = 128 * room (index + 1) := by
  have hpow : 9 - index = 9 - (index + 1) + 1 := by omega
  rw [room, room, hpow, Nat.pow_succ]
  omega

theorem room_pos (index : Nat) : 0 < room index :=
  Nat.mul_pos Nat.two_pos (Nat.pow_pos (by decide))

section

variable {index n : Nat} {byte : UInt8} {bytes rest front : Bytes}

/-! ## Reading -/

theorem readVarintFrom_nine (h : byte.toNat < 2) :
    readVarintFrom 9 (byte :: rest) = some (byte.toNat, rest) := by
  rw [readVarintFrom, if_pos rfl, if_pos h]

theorem readVarintFrom_last (hindex : index < 9) (h : byte.toNat < 128) :
    readVarintFrom index (byte :: rest) = some (byte.toNat, rest) := by
  rw [readVarintFrom, if_neg (Nat.ne_of_lt hindex), if_pos h]

theorem readVarintFrom_more (hindex : index < 9) (h : 128 ≤ byte.toNat) :
    readVarintFrom index (byte :: bytes) = (readVarintFrom (index + 1) bytes).map
      fun (high, rest) => (byte.toNat - 128 + 128 * high, rest) := by
  rw [readVarintFrom, if_neg (Nat.ne_of_lt hindex), if_neg (Nat.not_lt.2 h)]

theorem readVarintFrom_append (hspelled : Spelled n front) (hlength : index + front.length ≤ 10)
    (hn : n < room index) : readVarintFrom index (front ++ rest) = some (n, rest) := by
  induction hspelled generalizing index with
  | last h =>
      rcases Nat.lt_or_eq_of_le (Nat.le_of_succ_le_succ hlength) with hindex | rfl
      · exact readVarintFrom_last hindex h
      · exact readVarintFrom_nine hn
  | more h hbytes ih =>
      have hpos := hbytes.length_pos
      rw [List.length_cons] at hlength
      have hindex : index < 9 := by omega
      rw [room_eq hindex] at hn
      rw [List.cons_append, readVarintFrom_more hindex h, ih (by omega) (by omega)]
      rfl

theorem exists_of_readVarintFrom (hindex : index ≤ 9)
    (h : readVarintFrom index bytes = some (n, rest)) :
    ∃ front, bytes = front ++ rest ∧ Spelled n front ∧ index + front.length ≤ 10 ∧
      n < room index := by
  induction bytes generalizing index n with
  | nil => cases h
  | cons byte bytes ih =>
      rcases Nat.lt_or_eq_of_le hindex with hlt | rfl
      · have hroom := room_eq hlt
        have hnext := room_pos (index + 1)
        by_cases hlast : byte.toNat < 128
        · rw [readVarintFrom_last hlt hlast] at h
          obtain ⟨rfl, rfl⟩ := Prod.mk.inj (Option.some.inj h)
          exact ⟨[byte], rfl, .last hlast, by simp; omega, by omega⟩
        · rw [readVarintFrom_more hlt (Nat.not_lt.1 hlast)] at h
          obtain ⟨⟨high, tail⟩, hread, hpair⟩ := Option.map_eq_some_iff.1 h
          obtain ⟨rfl, rfl⟩ := Prod.mk.inj hpair
          obtain ⟨front, rfl, hspelled, hlength, hhigh⟩ := ih (by omega) hread
          have hbyte := byte.toNat_lt
          exact ⟨byte :: front, rfl, .more (Nat.not_lt.1 hlast) hspelled, by simp; omega, by omega⟩
      · rw [readVarintFrom, if_pos rfl] at h
        split at h
        · rename_i hsmall
          obtain ⟨rfl, rfl⟩ := Prod.mk.inj (Option.some.inj h)
          exact ⟨[byte], rfl, .last (Nat.lt_trans hsmall (by decide)), Nat.le_refl 10, hsmall⟩
        · cases h

/-- Exactly the spellings of a number are read as that number, whatever is behind them. -/
theorem readVarint_eq_some_iff :
    readVarint bytes = some (n, rest) ↔ ∃ front, bytes = front ++ rest ∧ IsVarint n front := by
  have hroom : room 0 = 2 ^ 64 := by decide
  constructor
  · intro h
    obtain ⟨front, hfront, hspelled, hlength, hn⟩ := exists_of_readVarintFrom (Nat.zero_le 9) h
    exact ⟨front, hfront, hspelled, by omega, hroom ▸ hn⟩
  · rintro ⟨front, rfl, h⟩
    exact readVarintFrom_append h.spelled (by simpa using h.length_le) (hroom ▸ h.lt)

/-! ## Writing -/

theorem toNat_toUInt8_of_lt (h : n < 256) : n.toUInt8.toNat = n := by
  simp [Nat.mod_eq_of_lt h]

theorem spelled_writeVarint (n : Nat) : Spelled n (writeVarint n) := by
  induction n using Nat.strongRecOn with
  | ind n ih =>
      rw [writeVarint]
      split
      · rename_i hlast
        have hbyte : n.toUInt8.toNat = n := toNat_toUInt8_of_lt (by omega)
        have hspelled : Spelled n.toUInt8.toNat [n.toUInt8] := .last (hbyte.symm ▸ hlast)
        rwa [hbyte] at hspelled
      · have hbyte : (n % 128 + 128).toUInt8.toNat = n % 128 + 128 :=
          toNat_toUInt8_of_lt (by omega)
        have hspelled : Spelled ((n % 128 + 128).toUInt8.toNat - 128 + 128 * (n / 128))
            ((n % 128 + 128).toUInt8 :: writeVarint (n / 128)) :=
          .more (by omega) (ih (n / 128) (by omega))
        rwa [hbyte, Nat.add_sub_cancel, Nat.mod_add_div] at hspelled

theorem length_writeVarint_le {n : Nat} (count : Nat) (h : n < 2 * 128 ^ count) :
    (writeVarint n).length ≤ count + 1 := by
  induction count generalizing n with
  | zero =>
      rw [writeVarint, if_pos (by omega)]
      exact Nat.le_refl 1
  | succ count ih =>
      rw [writeVarint]
      split
      · exact Nat.le_add_left 1 _
      · rw [Nat.pow_succ] at h
        exact Nat.succ_le_succ (ih (by omega))

theorem isVarint_writeVarint (h : n < 2 ^ 64) : IsVarint n (writeVarint n) :=
  ⟨spelled_writeVarint n, length_writeVarint_le 9 h, h⟩

end

end AccessRules.Wire
