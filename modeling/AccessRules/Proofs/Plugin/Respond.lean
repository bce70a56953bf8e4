import AccessRules.Plugin.Generate
import AccessRules.Proofs.Extraction.Alone
import AccessRules.Proofs.Extraction.KnownText

/-!
# Responses and extraction runs

A request for files of its pool is answered with what an extraction run over the same files reports
(`exists_generate_extract`): the run fails for both or for neither, with the same skipped methods,
and each table holds the rules of its own file.
-/

namespace AccessRules.Plugin

open Files Schema

variable {disk : Disk} {settings : Settings} {pool : Pool} {targets : List String}

/-- The methods of the targets that fail for hard reasons. -/
def hardSkips (disk : Disk) (settings : ExtractionSettings) (pool : Pool)
    (targets : List String) : List Skip :=
  targets.flatMap fun name => (reportOnNamed disk settings pool name).bySeverity .hard

theorem respond_of_missing {name : String} (h : pool.filesNamed targets = .error name) :
    respond disk settings pool targets = .failed (missingMessage name) := by
  rw [respond, h]

theorem respond_of_found {files : List File} (h : pool.filesNamed targets = .ok files) :
    respond disk settings pool targets =
      if settings.extraction.strict ∧ hardSkips disk settings.extraction pool targets ≠ [] then
        .failed (strictMessage (hardSkips disk settings.extraction pool targets))
      else .made (targets.filterMap fun name =>
        table? settings.output name (reportOnNamed disk settings.extraction pool name)) := by
  rw [respond, h]
  simp only [reports_filesNamed h, List.flatMap_map, hardSkips]
  congr 2
  rw [← List.map_prod_left_eq_zip, List.filterMap_map]
  rfl

section

variable {bytes : Wire.Bytes} {request : Request} {settings' : Settings}

theorem generate_of_unreadable {error : PoolError} (hread : Request.read bytes = .error error) :
    generate disk settings bytes = .error error := by
  simp only [generate, hread, bind, Except.bind]

theorem generate_of_wrong {error : ParameterError} (hread : Request.read bytes = .ok request)
    (hsettings : settings.applyParameters (request.parameter?.getD "") = (settings', some error)) :
    generate disk settings bytes = .ok (.failed error.message) := by
  simp only [generate, hread, bind, Except.bind, hsettings]
  rfl

theorem generate_of_read (hread : Request.read bytes = .ok request)
    (hsettings : settings.applyParameters (request.parameter?.getD "") = (settings', none)) :
    generate disk settings bytes = .ok (respond disk settings' request.pool request.targets) := by
  simp only [generate, hread, bind, Except.bind, hsettings]
  rfl

end

/-- Whether a table is generated for a report. -/
def generates (settings : OutputSettings) (report : Report) : Bool :=
  !report.rules.isEmpty || settings.emitEmpty

theorem table?_eq (settings : OutputSettings) (name : String) (report : Report) :
    table? settings name report = if generates settings report then
      some ⟨Table.fileName settings.format name,
        String.ofList (Table.render settings.format name report.rules)⟩ else none := by
  cases hrules : report.rules <;> cases hempty : settings.emitEmpty <;>
    simp [table?, generates, hrules, hempty]

theorem filterMap_table? (settings : OutputSettings) (report : String → Report)
    (names : List String) :
    (names.filterMap fun name => table? settings name (report name)) =
      (names.filter fun name => generates settings (report name)).map fun name =>
        ⟨Table.fileName settings.format name,
          String.ofList (Table.render settings.format name (report name).rules)⟩ := by
  induction names with
  | nil => rfl
  | cons name names ih =>
      have htable := table?_eq settings name (report name)
      cases h : generates settings (report name) <;> rw [h] at htable <;> simp [htable, h, ih]

/-- A file without a table has no rules. -/
theorem flatMap_filter_generates (settings : OutputSettings) (report : String → Report)
    (names : List String) :
    ((names.filter fun name => generates settings (report name)).flatMap fun name =>
      (report name).rules) = names.flatMap fun name => (report name).rules := by
  induction names with
  | nil => rfl
  | cons name names ih =>
      cases h : generates settings (report name) with
      | true => simp [h, ih]
      | false =>
          have hrules : (report name).rules = [] := by
            simp only [generates, Bool.or_eq_false_iff, Bool.not_eq_false',
              List.isEmpty_iff] at h
            exact h.1
          simp [h, ih, hrules]

theorem filter_isHard_eq {report : Report} {settings : ExtractionSettings}
    (h : report.skipped = targets.flatMap fun name =>
      (reportOnNamed disk settings pool name).skipped) :
    report.skipped.filter Skip.isHard = hardSkips disk settings pool targets := by
  rw [h, List.filter_flatMap]
  rfl

theorem hasHardFailures_iff (report : Report) :
    report.hasHardFailures = true ↔ report.skipped.filter Skip.isHard ≠ [] := by
  simp [Report.hasHardFailures]

theorem strictMessage_eq (report : Report) :
    strictMessage (report.skipped.filter Skip.isHard) =
      s!"{report.hardCount} method(s) could not be extracted:\n" ++
        String.intercalate "\n" ((report.skipped.filter Skip.isHard).map Skip.line) := by
  rw [strictMessage, Report.hardCount, List.countP_eq_length_filter]

/-- A request for files of its pool is answered with a problem exactly where a strict run over these
files has hard failures, and then with those of the run. Otherwise it is answered with a table for
each file that yields rules on its own, or for each file at all where the settings ask for it, and
the rules in the tables are those of the run. -/
theorem exists_generate_extract (disk : Disk) (settings settings' : Settings) (bytes : Wire.Bytes)
    (request : Request) (hread : Request.read bytes = .ok request)
    (hsettings : settings.applyParameters (request.parameter?.getD "") = (settings', none))
    (hne : request.targets ≠ [])
    (hpool : ∀ name ∈ request.targets, (request.pool.file? name).isSome) :
    ∃ (report : Report) (single : String → Report) (response : Response),
      extract disk settings'.extraction request.pool request.targets = .ok report ∧
      (∀ name ∈ request.targets,
        extract disk settings'.extraction request.pool [name] = .ok (single name)) ∧
      generate disk settings bytes = .ok response ∧
      (response.error?.isSome ↔ settings'.extraction.strict = true ∧ report.hasHardFailures) ∧
      (response.error?.isSome → response.files = [] ∧
        response.error? = some (s!"{report.hardCount} method(s) could not be extracted:\n" ++
          String.intercalate "\n" ((report.skipped.filter Skip.isHard).map Skip.line))) ∧
      (response.error? = none →
        let generated := request.targets.filter fun name =>
          !(single name).rules.isEmpty || settings'.output.emitEmpty
        response.files = generated.map (fun name =>
            ⟨Table.fileName settings'.output.format name,
              String.ofList (Table.render settings'.output.format name (single name).rules)⟩) ∧
          generated.flatMap (fun name => (single name).rules) = report.rules) := by
  obtain ⟨report, hreport, hrules, hskipped⟩ :=
    exists_extract disk settings'.extraction hne hpool
  obtain ⟨files, hfiles⟩ := Pool.exists_filesNamed hpool
  refine ⟨report, reportOnNamed disk settings'.extraction request.pool,
    respond disk settings' request.pool request.targets, hreport,
    fun name hname => extract_singleton (hpool name hname), generate_of_read hread hsettings, ?_⟩
  have hhard := filter_isHard_eq hskipped
  rw [hasHardFailures_iff, ← strictMessage_eq, hhard, respond_of_found hfiles]
  split
  · rename_i hfails
    exact ⟨iff_of_true rfl hfails, fun _ => ⟨rfl, rfl⟩, fun herror => (by cases herror)⟩
  · rename_i hfails
    refine ⟨iff_of_false (by simp [Response.made]) hfails, fun herror => (by cases herror),
      fun _ => ⟨?_, ?_⟩⟩
    · exact filterMap_table? settings'.output _ request.targets
    · exact (flatMap_filter_generates settings'.output _ request.targets).trans hrules.symm

/-- A strict request that names a file with one method twice. -/
def twiceBytes : Wire.Bytes :=
  [0x0a, 1, 0x61, 0x0a, 1, 0x61,
    0x12, 10, 0x73, 0x74, 0x72, 0x69, 0x63, 0x74, 0x3d, 0x79, 0x65, 0x73,
    0x7a, 26, 0x0a, 1, 0x61, 0x22, 3, 0x0a, 1, 0x4d,
    0x32, 16, 0x0a, 1, 0x53, 0x12, 11, 0x0a, 1, 0x46, 0x12, 2, 0x2e, 0x4d, 0x1a, 2, 0x2e, 0x4d]

/-- A file that is named twice fails twice. -/
theorem generate_twiceBytes :
    ∃ request report response,
      Request.read twiceBytes = .ok request ∧ request.targets = ["a", "a"] ∧
      (∀ name ∈ request.targets, (request.pool.file? name).isSome) ∧
      Settings.applyParameters {} (request.parameter?.getD "") =
        ({ extraction.strict := true }, none) ∧
      extract .empty { strict := true } request.pool request.targets = .ok report ∧
      report.hardCount = 2 ∧ generate .empty {} twiceBytes = .ok response ∧
      response.error?.isSome ∧ response.files = [] := by
  have hcheck : (Request.read twiceBytes).map (fun request => decide
      (request.targets = ["a", "a"] ∧
        (∀ name ∈ request.targets, (request.pool.file? name).isSome) ∧
        Settings.applyParameters {} (request.parameter?.getD "") =
          ({ extraction.strict := true }, none) ∧
        (extract .empty { strict := true } request.pool request.targets).map
          Report.hardCount = .ok 2)) = .ok true := by decide +kernel
  cases hread : Request.read twiceBytes with
  | error => rw [hread] at hcheck; cases hcheck
  | ok request =>
      rw [hread] at hcheck
      obtain ⟨htargets, hpool, hsettings, hcount⟩ := of_decide_eq_true (Except.ok.inj hcheck)
      obtain ⟨report, single, response, hreport, -, hresponse, herror, hfailed, -⟩ :=
        exists_generate_extract .empty {} _ twiceBytes request hread hsettings
          (by rw [htargets]; decide) hpool
      have htwo : report.hardCount = 2 := by
        rw [hreport] at hcount
        exact Except.ok.inj hcount
      have hhard : report.hasHardFailures = true := by
        rw [hasHardFailures_iff, ← List.length_pos_iff, ← List.countP_eq_length_filter]
        exact Nat.lt_of_lt_of_eq Nat.zero_lt_two htwo.symm
      have hproblem := herror.2 ⟨rfl, hhard⟩
      exact ⟨request, report, response, rfl, htargets, hpool, hsettings, hreport, htwo, hresponse,
        hproblem, (hfailed hproblem).1⟩

end AccessRules.Plugin
