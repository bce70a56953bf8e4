import AccessRules.Extraction.File
import Mathlib.Data.List.Basic

/-!
# Visits to the methods of a file

Whether the text of a file is read from the disk or known from an earlier method makes no
difference: each method of the file gives what it gives on its own (`Extractor.file_rules_eq`).
-/

namespace AccessRules

open Files Schema

section

variable {cache : Cache} {disk : Disk} {name : String} {document : Document}

/-- A document that was loaded is loaded again from what is known. -/
theorem Files.Cache.load_load (h : (cache.load disk name).1 = .ok document) :
    (cache.load disk name).2.load disk name = (.ok document, (cache.load disk name).2) := by
  cases hget : cache.get? name with
  | some known =>
      have hload : cache.load disk name = (.ok known, cache) := by rw [Cache.load, hget]
      rw [hload] at h ⊢
      obtain rfl : known = document := Except.ok.inj h
      exact hload
  | none =>
      cases hread : Cache.readBelow disk name cache.roots with
      | error failure =>
          rw [Cache.load, hget, hread] at h
          cases h
      | ok found =>
          have hload : cache.load disk name = (.ok found, cache.insert name found) := by
            rw [Cache.load, hget, hread]
          rw [hload] at h ⊢
          obtain rfl : found = document := Except.ok.inj h
          rw [Cache.load, Cache.get?_insert_self]

end

namespace Extractor

variable (extractor : Extractor) (disk : Disk) {cache : Cache} {file : String} {document : Document}

/-- What a method gives where the text of its file is known. -/
def outcome (document : Document) (service : String) (rpc : Rpc) : Outcome :=
  match Requirement.ofDocument extractor.accessOption document rpc.name with
  | .error failure => .error (.of rpc.file service rpc.name .start failure)
  | .ok requirement =>
    match extractor.binding rpc with
    | .error failure => .error (.of rpc.file service rpc.name .requirementRead failure)
    | .ok binding => .ok (.of binding requirement)

theorem visit_eq (service : String) {rpc : Rpc} (h : (cache.load disk rpc.file).1 = .ok document) :
    extractor.visit disk cache service rpc =
      (extractor.outcome document service rpc, (cache.load disk rpc.file).2) := by
  have hrequirement : extractor.requirement disk cache rpc.file rpc.name =
      (Requirement.ofDocument extractor.accessOption document rpc.name,
        (cache.load disk rpc.file).2) := by
    rw [requirement]
    split
    · rename_i hload
      rw [hload] at h
      cases h
    · rename_i hload
      rw [hload] at h ⊢
      rw [Except.ok.inj h]
  rw [visit, rule, hrequirement, outcome]
  cases Requirement.ofDocument extractor.accessOption document rpc.name with
  | error failure => rfl
  | ok requirement =>
      cases hbinding : extractor.binding rpc with
      | error failure => simp only
      | ok binding => simp only

/-- The methods of a file give what each of them gives on its own. -/
theorem visitAll_eq {rpcs : List (String × Rpc)} (hfile : ∀ entry ∈ rpcs, entry.2.file = file)
    (h : (cache.load disk file).1 = .ok document) :
    (extractor.visitAll disk cache rpcs).1 =
      rpcs.map fun entry => extractor.outcome document entry.1 entry.2 := by
  induction rpcs generalizing cache with
  | nil => rfl
  | cons entry rpcs ih =>
      obtain ⟨service, rpc⟩ := entry
      rw [List.forall_mem_cons] at hfile
      obtain rfl : rpc.file = file := hfile.1
      have hvisit := extractor.visit_eq disk service h
      have hnext : ((cache.load disk rpc.file).2.load disk rpc.file).1 = .ok document := by
        rw [Cache.load_load h]
      simp only [visitAll, hvisit, ih hfile.2 hnext, List.map_cons]

theorem file_rpcs (file : File) : ∀ entry ∈ file.rpcs, entry.2.file = file.name := by
  simp only [File.rpcs, Service.rpcs, List.mem_flatMap, List.mem_map]
  rintro _ ⟨service, -, _, ⟨method, -, rfl⟩, rfl⟩
  rfl

/-- The rules of a file are those that its methods give on their own, in their order. -/
theorem file_rules_eq {file : File} (h : (cache.load disk file.name).1 = .ok document) :
    (extractor.file disk cache file).1.rules =
      file.rpcs.filterMap fun entry => (extractor.visit disk cache entry.1 entry.2).1.rule? := by
  have hvisit : ∀ entry ∈ file.rpcs, (extractor.visit disk cache entry.1 entry.2).1 =
      extractor.outcome document entry.1 entry.2 := by
    intro entry hentry
    have hload : (cache.load disk entry.2.file).1 = .ok document := by
      rw [file_rpcs file entry hentry, h]
    rw [extractor.visit_eq disk entry.1 hload]
  have hrules : (extractor.file disk cache file).1.rules =
      (extractor.visitAll disk cache file.rpcs).1.filterMap Outcome.rule? :=
    Report.ofOutcomes_rules _
  rw [hrules, extractor.visitAll_eq disk (file_rpcs file) h, List.filterMap_map]
  exact List.filterMap_congr fun entry hentry => by rw [hvisit entry hentry]; rfl

end Extractor

end AccessRules
