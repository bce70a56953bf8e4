import AccessRules.Extraction.Method

/-!
# Extracting services and files

The methods of a file are visited service by service, in the order of their declaration. Each gives
a rule or a skip.
-/

namespace AccessRules

open Files Schema

/-- What a visited method gives. -/
abbrev Outcome := Except Skip Rule

namespace Outcome

/-- The rule, if there is one. -/
def rule? : Outcome → Option Rule
  | .ok rule => some rule
  | .error _ => none

/-- The skip, if there is one. -/
def skip? : Outcome → Option Skip
  | .ok _ => none
  | .error skip => some skip

end Outcome

namespace Report

/-- The report with one visited method more. -/
def addOutcome (report : Report) (outcome : Outcome) : Report :=
  let report := { report with methodsSeen := report.methodsSeen + 1 }
  match outcome with
  | .ok rule => report.addRule rule
  | .error skip => report.addSkip skip

/-- The report on some visited methods. -/
def ofOutcomes (outcomes : List Outcome) : Report :=
  outcomes.foldl addOutcome {}

theorem foldl_addOutcome (report : Report) (outcomes : List Outcome) :
    outcomes.foldl addOutcome report = { report with
      rules := report.rules ++ outcomes.filterMap Outcome.rule?
      skipped := report.skipped ++ outcomes.filterMap Outcome.skip?
      methodsSeen := report.methodsSeen + outcomes.length.toUInt64 } := by
  induction outcomes generalizing report with
  | nil => simp
  | cons outcome outcomes ih =>
      rw [List.foldl_cons, ih]
      have hseen : report.methodsSeen + 1 + outcomes.length.toUInt64 =
          report.methodsSeen + (outcomes.length + 1).toUInt64 := by
        rw [UInt64.add_assoc, UInt64.add_comm 1]
        simp
      cases outcome with
      | ok rule =>
          simp [addOutcome, addRule, List.filterMap_cons, Outcome.rule?, Outcome.skip?, hseen]
      | error skip =>
          simp [addOutcome, addSkip, List.filterMap_cons, Outcome.rule?, Outcome.skip?, hseen]

theorem ofOutcomes_eq (outcomes : List Outcome) : ofOutcomes outcomes = {
    rules := outcomes.filterMap Outcome.rule?
    skipped := outcomes.filterMap Outcome.skip?
    methodsSeen := outcomes.length.toUInt64 } := by
  simp [ofOutcomes, foldl_addOutcome]

@[simp] theorem ofOutcomes_rules (outcomes : List Outcome) :
    (ofOutcomes outcomes).rules = outcomes.filterMap Outcome.rule? := by
  rw [ofOutcomes_eq]

@[simp] theorem ofOutcomes_skipped (outcomes : List Outcome) :
    (ofOutcomes outcomes).skipped = outcomes.filterMap Outcome.skip? := by
  rw [ofOutcomes_eq]

end Report

/-- The methods of a service. -/
def Schema.Service.rpcs (file : String) (service : Service) : List Rpc :=
  service.methods.map fun method => ⟨method.name, file, method.options⟩

/-- The methods of a file, each with the name of its service. -/
def Schema.File.rpcs (file : File) : List (String × Rpc) :=
  file.services.flatMap fun service =>
    (service.rpcs file.name).map fun rpc => (service.name, rpc)

namespace Extractor

/-- Visits a method of a service. -/
def visit (extractor : Extractor) (disk : Disk) (cache : Cache) (service : String) (rpc : Rpc) :
    Outcome × Cache :=
  match extractor.rule disk cache rpc with
  | (.ok rule, cache) => (.ok rule, cache)
  | (.error ⟨stage, failure⟩, cache) =>
    (.error (.of rpc.file service rpc.name stage failure), cache)

/-- Visits methods one after the other. -/
def visitAll (extractor : Extractor) (disk : Disk) (cache : Cache) :
    List (String × Rpc) → List Outcome × Cache
  | [] => ([], cache)
  | (service, rpc) :: rpcs =>
    let (outcome, cache) := extractor.visit disk cache service rpc
    let (outcomes, cache) := extractor.visitAll disk cache rpcs
    (outcome :: outcomes, cache)

/-- The report on the methods of a service. -/
def service (extractor : Extractor) (disk : Disk) (cache : Cache) (name : String)
    (rpcs : List Rpc) : Report × Cache :=
  let (outcomes, cache) := extractor.visitAll disk cache (rpcs.map fun rpc => (name, rpc))
  (.ofOutcomes outcomes, cache)

/-- The report on a file. -/
def file (extractor : Extractor) (disk : Disk) (cache : Cache) (file : File) : Report × Cache :=
  let (outcomes, cache) := extractor.visitAll disk cache file.rpcs
  ({ Report.ofOutcomes outcomes with filesProcessed := 1 }, cache)

end Extractor

end AccessRules
