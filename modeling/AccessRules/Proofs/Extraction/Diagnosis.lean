import AccessRules.Extraction.File

/-!
# What skips say

A method gives the rule that joins its requirement with its binding, or the failure of the first of
the two that cannot be had (`rule_fst_eq`). Every failure belongs to one of these two sides
(`Failure.stage`), so the stage, the kind and the severity of a skip agree in every report
(`rule_or_first_failure`).
-/

namespace AccessRules

open Files Schema

/-- The stage that a method with this failure has reached. -/
def Failure.stage : Failure → Stage
  | noBinding _ | noVerb _ => .requirementRead
  | _ => .start

/-! ## Failures of the source text -/

section

variable {failure : Failure}

theorem Requirement.stage_of_read {block : Text} (h : Requirement.read block = .error failure) :
    failure.stage = .start := by
  rw [read, readPermissions] at h
  split at h
  · cases h
  · split at h
    · obtain rfl := Except.error.inj h
      rfl
    · cases h

theorem Source.stage_of_optionBlock {name method : String} {body : Text}
    (h : Source.optionBlock name method body = .error failure) : failure.stage = .start := by
  rw [optionBlock] at h
  split at h
  · obtain rfl := Except.error.inj h
    rfl
  · split at h
    · obtain rfl := Except.error.inj h
      rfl
    · cases h

theorem Requirement.stage_of_ofDocument {option method : String} {document : Document}
    (h : Requirement.ofDocument option document method = .error failure) :
    failure.stage = .start := by
  rw [ofDocument] at h
  split at h
  · rename_i body hbody
    cases hblock : Source.optionBlock option method body with
    | error blockFailure =>
        rw [hblock] at h
        obtain rfl := Except.error.inj h
        exact Source.stage_of_optionBlock hblock
    | ok block =>
        rw [hblock] at h
        exact stage_of_read h
  all_goals
    obtain rfl := Except.error.inj h
    rfl

theorem Files.Cache.unreadable_of_readBelow {disk : Disk} {name : String} {roots : List String}
    (h : readBelow disk name roots = .error failure) :
    ∃ path cause, failure = .unreadable path cause := by
  induction roots with
  | nil => exact ⟨name, .missing, (Except.error.inj h).symm⟩
  | cons root roots ih =>
      unfold readBelow at h
      dsimp only at h
      split at h
      · cases h
      · rename_i cause _
        exact ⟨joinPath root name, cause, (Except.error.inj h).symm⟩
      · exact ih h

theorem Files.Cache.unreadable_of_load {cache : Cache} {disk : Disk} {name : String}
    (h : (cache.load disk name).1 = .error failure) :
    ∃ path cause, failure = .unreadable path cause := by
  rw [load] at h
  split at h
  · cases h
  · split at h
    · cases h
    · rename_i hread
      obtain rfl := Except.error.inj h
      exact unreadable_of_readBelow hread

end

namespace Extractor

variable (extractor : Extractor) (disk : Disk) (cache : Cache) (rpc : Rpc)

theorem stage_of_requirement {extractor : Extractor} {disk : Disk} {cache : Cache}
    {file method : String} {failure : Failure}
    (h : (extractor.requirement disk cache file method).1 = .error failure) :
    failure.stage = .start := by
  rw [requirement] at h
  split at h
  · rename_i hload
    obtain rfl := Except.error.inj h
    obtain ⟨path, cause, rfl⟩ := Cache.unreadable_of_load (congrArg Prod.fst hload)
    rfl
  · exact Requirement.stage_of_ofDocument h

/-! ## Failures of the binding -/

theorem failure_of_binding {extractor : Extractor} {rpc : Rpc} {failure : Failure}
    (h : extractor.binding rpc = .error failure) :
    failure = .noBinding rpc.name ∨ failure = .noVerb rpc.name := by
  rw [binding] at h
  split at h
  · exact .inl (Except.error.inj h).symm
  · rw [Binding.read] at h
    split at h
    · exact .inl (Except.error.inj h).symm
    · split at h
      · exact .inr (Except.error.inj h).symm
      · cases h

/-! ## Rules -/

theorem rule_fst_eq : (extractor.rule disk cache rpc).1 =
    match (extractor.requirement disk cache rpc.file rpc.name).1, extractor.binding rpc with
    | .error failure, _ => .error ⟨.start, failure⟩
    | .ok _, .error failure => .error ⟨.requirementRead, failure⟩
    | .ok requirement, .ok binding => .ok (.of binding requirement) := by
  rw [rule]
  cases hrequirement : extractor.requirement disk cache rpc.file rpc.name with
  | mk result rest => cases result <;> cases extractor.binding rpc <;> rfl

variable {extractor disk cache rpc}

theorem stage_of_rule {stage : Stage} {failure : Failure}
    (h : (extractor.rule disk cache rpc).1 = .error ⟨stage, failure⟩) : stage = failure.stage := by
  rw [rule_fst_eq] at h
  split at h
  · rename_i hrequirement
    cases h
    exact (stage_of_requirement hrequirement).symm
  · rename_i hbinding
    cases h
    rcases failure_of_binding hbinding with rfl | rfl <;> rfl
  · cases h

/-! ## Reports -/

theorem exists_of_visit {service : String} {skip : Skip}
    (h : (extractor.visit disk cache service rpc).1 = .error skip) :
    ∃ failure : Failure, skip = .of rpc.file service rpc.name failure.stage failure := by
  rw [visit] at h
  split at h
  · cases h
  · rename_i stage failure rest hrule
    obtain rfl : stage = failure.stage := stage_of_rule (congrArg Prod.fst hrule)
    exact ⟨failure, (Except.error.inj h).symm⟩

theorem exists_of_visitAll {rpcs : List (String × Rpc)} {skip : Skip}
    (h : .error skip ∈ (extractor.visitAll disk cache rpcs).1) :
    ∃ entry ∈ rpcs, ∃ failure : Failure,
      skip = .of entry.2.file entry.1 entry.2.name failure.stage failure := by
  induction rpcs generalizing cache with
  | nil => cases h
  | cons entry rpcs ih =>
      rcases List.mem_cons.1 h with hvisit | hrest
      · exact ⟨entry, List.mem_cons_self, exists_of_visit hvisit.symm⟩
      · obtain ⟨found, hfound, hfailure⟩ := ih hrest
        exact ⟨found, List.mem_cons_of_mem entry hfound, hfailure⟩

end Extractor

theorem Report.mem_skipped_ofOutcomes {outcomes : List Outcome} {skip : Skip} :
    skip ∈ (Report.ofOutcomes outcomes).skipped ↔ .error skip ∈ outcomes := by
  have houtcome (outcome : Outcome) : outcome.skip? = some skip ↔ outcome = .error skip := by
    cases outcome <;> simp [Outcome.skip?]
  simp [List.mem_filterMap, houtcome]

namespace Extractor

/-- A method yields a rule exactly where its requirement and its binding can both be had, and the
rule is made of these two. Otherwise it fails with its requirement, or with its binding where only
that cannot be had. In each report the stage of a skip, its kind and its severity agree. -/
theorem rule_or_first_failure (extractor : Extractor) (disk : Disk) (cache : Cache) :
    (∀ rpc : Rpc,
      let requirement := (extractor.requirement disk cache rpc.file rpc.name).1
      let result := (extractor.rule disk cache rpc).1
      (∀ rule, result = .ok rule ↔ ∃ found binding, requirement = .ok found ∧
        extractor.binding rpc = .ok binding ∧
        rule = ⟨binding.path, binding.verb, found.permissions, found.noAuthRequired⟩) ∧
      (∀ failure, result = .error ⟨.start, failure⟩ ↔ requirement = .error failure) ∧
      (∀ failure, result = .error ⟨.requirementRead, failure⟩ ↔
        (∃ found, requirement = .ok found) ∧ extractor.binding rpc = .error failure) ∧
      (∀ stage failure, result = .error ⟨stage, failure⟩ →
        stage = .start ∨ stage = .requirementRead) ∧
      ∀ failure, extractor.binding rpc = .error failure →
        failure = .noBinding rpc.name ∨ failure = .noVerb rpc.name) ∧
    ∀ report : Report,
      (∃ name rpcs, report = (extractor.service disk cache name rpcs).1) ∨
        (∃ file, report = (extractor.file disk cache file).1) →
      ∀ skip ∈ report.skipped,
        (skip.stage = .start ∨ skip.stage = .requirementRead) ∧
        (skip.stage = .requirementRead ↔
          skip.kind = "no-http-annotation" ∨ skip.kind = "no-http-method-found") ∧
        (skip.severity = .soft ↔ skip.kind = "authz-options-not-found") ∧
        (skip.severity = .soft → skip.stage = .start) := by
  constructor
  · intro rpc requirement result
    have hresult := rule_fst_eq extractor disk cache rpc
    have hstage : ∀ stage failure, result = .error ⟨stage, failure⟩ →
        stage = .start ∨ stage = .requirementRead := by
      intro stage failure hfails
      rw [stage_of_rule hfails]
      cases failure <;> simp [Failure.stage]
    refine ⟨fun rule => ?_, fun failure => ?_, fun failure => ?_, hstage,
      fun failure => failure_of_binding⟩
    all_goals
      simp only [result, requirement, hresult]
      cases (extractor.requirement disk cache rpc.file rpc.name).1 <;>
        cases extractor.binding rpc <;> simp [Rule.of, eq_comm]
  · rintro report hreport skip hskip
    have hvisited : ∃ rpcs, .error skip ∈ (extractor.visitAll disk cache rpcs).1 := by
      rcases hreport with ⟨name, rpcs, rfl⟩ | ⟨file, rfl⟩
      · exact ⟨_, Report.mem_skipped_ofOutcomes.1 hskip⟩
      · exact ⟨_, Report.mem_skipped_ofOutcomes.1 hskip⟩
    obtain ⟨rpcs, hmem⟩ := hvisited
    obtain ⟨entry, -, failure, rfl⟩ := exists_of_visitAll hmem
    refine ⟨?_, ?_, failure.severity_eq_soft_iff, ?_⟩
    all_goals cases failure <;> simp [Skip.of, Failure.stage, Failure.kind, Failure.severity]

/-- A method whose file is missing fails at the start, also where it has no binding. -/
theorem rule_of_missing_file :
    let extractor : Extractor := ⟨Source.defaultOption, none, {}⟩
    let disk : Disk := ⟨fun _ => .error .missing, fun _ => none⟩
    let rpc : Rpc := ⟨"Get", "a", ⟨"Options", []⟩⟩
    extractor.binding rpc = .error (.noBinding "Get") ∧
      (extractor.rule disk (.ofRoots []) rpc).1 = .error ⟨.start, .unreadable "./a" .missing⟩ := by
  intro extractor disk rpc
  have hmissing : (extractor.requirement disk (.ofRoots []) "a" "Get").1 =
      .error (.unreadable "./a" .missing) := by rfl
  obtain ⟨-, hstart, -⟩ := (rule_or_first_failure extractor disk (.ofRoots [])).1 rpc
  exact ⟨rfl, (hstart _).2 hmissing⟩

end Extractor

end AccessRules
