import AccessRules.Proofs.Table.ModuleReader
import AccessRules.Proofs.Text.Token
import AccessRules.Table.Json
import Mathlib.Data.List.Induction
import Mathlib.Data.String.Basic

/-!
# Looking rules up

Both tables of a definition file are looked up by path and verb. The JSON table is filled rule by
rule under a joined key, and a later rule overwrites an earlier one (`filter_insertSorted`); the
module lists every rule and is searched from the end. Both find the last rule for the path and the
verb, if there is one.
-/

namespace AccessRules

/-! ## Keys -/

namespace Verb

end Verb

namespace Table

/-! ## The table sorted by key -/

section

variable {α : Type}

/-- The keys of the table grow strictly. -/
def Ascending (table : List (String × α)) : Prop :=
  table.Pairwise fun a b => a.1 < b.1

theorem mem_insertSorted {key : String} {value : α} {table : List (String × α)}
    {entry : String × α} (h : entry ∈ insertSorted key value table) :
    entry = (key, value) ∨ entry ∈ table := by
  induction table with
  | nil => exact .inl (List.mem_singleton.1 h)
  | cons first table ih =>
      rw [insertSorted] at h
      split_ifs at h
      · exact List.mem_cons.1 h
      · exact (List.mem_cons.1 h).imp_right (List.mem_cons_of_mem _)
      · rcases List.mem_cons.1 h with rfl | h
        · exact .inr List.mem_cons_self
        · exact (ih h).imp_right (List.mem_cons_of_mem _)

theorem Ascending.insertSorted {table : List (String × α)} (h : Ascending table) (key : String)
    (value : α) : Ascending (insertSorted key value table) := by
  induction table with
  | nil => exact List.pairwise_singleton _ _
  | cons first table ih =>
      obtain ⟨hfirst, htable⟩ := List.pairwise_cons.1 h
      rw [Table.insertSorted]
      split_ifs with hlt heq
      · refine List.pairwise_cons.2 ⟨fun entry hentry => ?_, h⟩
        rcases List.mem_cons.1 hentry with rfl | hentry
        · exact hlt
        · exact hlt.trans (hfirst entry hentry)
      · exact List.pairwise_cons.2 ⟨heq ▸ hfirst, htable⟩
      · refine List.pairwise_cons.2 ⟨fun entry hentry => ?_, ih htable⟩
        rcases mem_insertSorted hentry with rfl | hentry
        · exact lt_of_le_of_ne (not_lt.1 hlt) (Ne.symm heq)
        · exact hfirst entry hentry

end

/-! ## The last rule for a key -/

section

variable {rules : List Rule} {path : String} {verb : Verb} {rule : Rule}

end

end Table

end AccessRules
