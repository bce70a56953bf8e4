import AccessRules.Extraction.Method

/-!
# Extracting from a known text

A setup that has the text of a file reads the requirements of its methods from that text, whatever
the disk holds, and its cache stays as it is.
-/

namespace AccessRules

open Files Schema

/-- A disk without files. -/
def Files.Disk.empty : Disk where
  read := fun _ => .error .missing
  kind? := fun _ => none

namespace Setup

variable (base : Setup) (option file : String) (text : Text)

/-- A setup with an access option and the text of a file. -/
def withText : Setup :=
  { base with
    accessOption := option
    documents := base.documents ++ [(file, String.ofList text)] }

/-- The last text that a setup has for a file is the one that is loaded. -/
theorem load_withText (disk : Disk) :
    (base.withText option file text).cache.load disk file =
      (.ok ⟨file, String.ofList text⟩, (base.withText option file text).cache) := by
  have hget : (base.withText option file text).cache.get? file =
      some ⟨file, String.ofList text⟩ := by
    rw [cache, withText, List.foldl_append]
    exact Cache.get?_insert_self _ file ⟨file, String.ofList text⟩
  rw [Cache.load, hget]

theorem requirement_withText (pool : Pool) (disk : Disk) (method : String) :
    ((base.withText option file text).extractor pool).requirement disk
        (base.withText option file text).cache file method =
      (Requirement.ofDocument option ⟨file, String.ofList text⟩ method,
        (base.withText option file text).cache) := by
  rw [Extractor.requirement, load_withText]
  rfl

/-- What is extracted for a method of a file, where the setup has the text of the file. -/
def requirementIn (pool : Pool) (disk : Disk) (method : String) : Except Failure Requirement :=
  (((base.withText option file text).extractor pool).requirement disk
    (base.withText option file text).cache file method).1

theorem requirementIn_eq (pool : Pool) (disk : Disk) (method : String) :
    base.requirementIn option file text pool disk method =
      Requirement.ofDocument option ⟨file, String.ofList text⟩ method := by
  rw [requirementIn, requirement_withText]

end Setup

end AccessRules
