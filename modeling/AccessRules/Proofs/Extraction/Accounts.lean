import AccessRules.Files.Snapshot
import AccessRules.Proofs.Extraction.Alone
import AccessRules.Proofs.Extraction.Diagnosis
import AccessRules.Proofs.Files.History

/-!
# Accounts of runs

A run accounts for every method of its files: each gives one rule or one skip, in the order of the
files, and the counts agree with the lists. What a run reports is what its files report on their
own, one after the other (`exists_extract_accounts`).
-/

namespace AccessRules

open Files Schema

/-! ## Counts -/

namespace Report

variable (report : Report)

theorem isHard_eq_false_iff (skip : Skip) : skip.isHard = false ↔ skip.severity = .soft := by
  cases h : skip.severity <;> simp [Skip.isHard, h]

theorem hardCount_eq : report.hardCount = (report.bySeverity .hard).length :=
  List.countP_eq_length_filter

theorem hardCount_add_softCount : report.hardCount + report.softCount = report.skipped.length :=
  Nat.add_sub_cancel' List.countP_le_length

theorem softCount_eq : report.softCount = (report.bySeverity .soft).length := by
  have hlength := List.length_eq_countP_add_countP Skip.isHard (l := report.skipped)
  have hsoft : (report.bySeverity .soft).length =
      report.skipped.countP fun skip => ¬skip.isHard := by
    rw [bySeverity, ← List.countP_eq_length_filter]
    refine List.countP_congr fun skip _ => ?_
    simp [← isHard_eq_false_iff]
  have hsum := report.hardCount_add_softCount
  rw [hardCount] at hsum
  omega

theorem hasHardFailures_iff_pos : report.hasHardFailures = true ↔ 0 < report.hardCount := by
  rw [hasHardFailures, hardCount, List.any_eq_true, List.countP_pos_iff]

/-! ## Reports of several files -/

/-- The report on some files in which the visited methods gave these outcomes. -/
def covering (files : Nat) (outcomes : List Outcome) : Report :=
  { ofOutcomes outcomes with filesProcessed := files.toUInt64 }

theorem covering_eq (files : Nat) (outcomes : List Outcome) : covering files outcomes =
    ⟨outcomes.filterMap Outcome.rule?, outcomes.filterMap Outcome.skip?, files.toUInt64,
      outcomes.length.toUInt64⟩ := by
  rw [covering, ofOutcomes_eq]

theorem ofOutcomes_eq_covering (outcomes : List Outcome) :
    ofOutcomes outcomes = covering 0 outcomes := by
  rw [covering_eq, ofOutcomes_eq]
  rfl

theorem covering_append (files more : Nat) (outcomes next : List Outcome) :
    covering files outcomes ++ covering more next = covering (files + more) (outcomes ++ next) := by
  have happend : covering files outcomes ++ covering more next =
      ⟨outcomes.filterMap Outcome.rule? ++ next.filterMap Outcome.rule?,
        outcomes.filterMap Outcome.skip? ++ next.filterMap Outcome.skip?,
        files.toUInt64 + more.toUInt64, outcomes.length.toUInt64 + next.length.toUInt64⟩ := by
    rw [covering_eq, covering_eq]
    rfl
  rw [happend, covering_eq]
  simp

/-- Reports one after the other. -/
def concat (reports : List Report) : Report :=
  reports.foldl (· ++ ·) {}

theorem foldl_covering {α : Type} (count : Nat) (outcomes : α → List Outcome) (files : Nat)
    (before : List Outcome) (parts : List α) :
    (parts.map fun part => covering count (outcomes part)).foldl (· ++ ·) (covering files before) =
      covering (files + parts.length * count) (before ++ parts.flatMap outcomes) := by
  induction parts generalizing files before with
  | nil => simp
  | cons part parts ih =>
      rw [List.map_cons, List.foldl_cons, covering_append, ih, List.length_cons, Nat.succ_mul,
        List.flatMap_cons, List.append_assoc]
      congr 1
      omega

/-- Reports one after the other cover all their outcomes in order. -/
theorem concat_covering {α : Type} (count : Nat) (outcomes : α → List Outcome) (parts : List α) :
    concat (parts.map fun part => covering count (outcomes part)) =
      covering (parts.length * count) (parts.flatMap outcomes) := by
  have h := foldl_covering count outcomes 0 [] parts
  rw [Nat.zero_add, List.nil_append] at h
  exact h

end Report

/-- Each outcome is a rule or a skip. -/
theorem Outcome.length_rules_add_skips (outcomes : List Outcome) :
    (outcomes.filterMap rule?).length + (outcomes.filterMap skip?).length = outcomes.length := by
  induction outcomes with
  | nil => rfl
  | cons outcome outcomes ih =>
      cases outcome <;> simp only [List.filterMap_cons, rule?, skip?, List.length_cons] <;> omega

/-! ## Files and services alone -/

namespace Extractor

variable (extractor : Extractor) (disk : Disk) (roots : List String)

theorem visit_fresh (service : String) (rpc : Rpc) :
    (extractor.visit disk (.ofRoots roots) service rpc).1 =
      extractor.outcomeBelow disk (Cache.ofRoots roots).roots service rpc :=
  congrArg Prod.fst (extractor.visit_eq_below (Cache.faithful_ofRoots roots disk) service rpc)

theorem file_fresh (file : File) :
    (extractor.file disk (.ofRoots roots) file).1 = .covering 1 (file.rpcs.map fun entry =>
      (extractor.visit disk (.ofRoots roots) entry.1 entry.2).1) := by
  simp only [visit_fresh]
  exact (extractor.file_eq_below (Cache.faithful_ofRoots roots disk) file).1

theorem service_fresh (name : String) (rpcs : List Rpc) :
    (extractor.service disk (.ofRoots roots) name rpcs).1 = .covering 0 (rpcs.map fun rpc =>
      (extractor.visit disk (.ofRoots roots) name rpc).1) := by
  simp only [visit_fresh]
  obtain ⟨houtcomes, -, -⟩ := extractor.visitAll_eq_below (Cache.faithful_ofRoots roots disk)
    (rpcs.map fun rpc => (name, rpc))
  rw [List.map_map] at houtcomes
  exact (congrArg Report.ofOutcomes houtcomes).trans (Report.ofOutcomes_eq_covering _)

/-- The report on a file is made of the reports on its services. -/
theorem file_fresh_eq_services (file : File) :
    (extractor.file disk (.ofRoots roots) file).1 =
      { Report.concat (file.services.map fun service =>
          (extractor.service disk (.ofRoots roots) service.name (service.rpcs file.name)).1) with
        filesProcessed := 1 } := by
  simp only [service_fresh, file_fresh, Report.concat_covering, File.rpcs, List.map_flatMap,
    List.map_map]
  rfl

/-- A file that no root has fails with every method. -/
theorem file_fresh_of_missing {file : File}
    (h : MissingBelow disk (Cache.ofRoots roots).roots file.name) :
    ∃ last cause, (Cache.ofRoots roots).roots.getLast? = some last ∧
      disk.readText (joinPath last file.name) = .error cause ∧
      (extractor.file disk (.ofRoots roots) file).1.rules = [] ∧
      (extractor.file disk (.ofRoots roots) file).1.skipped = file.rpcs.map fun entry =>
        .of file.name entry.1 entry.2.name .start
          (.unreadable (joinPath last file.name) cause) := by
  have hne := Cache.roots_ofRoots_ne_nil roots
  obtain ⟨cause, hcause, hread⟩ := Cache.exists_readBelow_eq_error h hne
  refine ⟨_, cause, List.getLast?_eq_some_getLast hne, hcause, ?_⟩
  have houtcomes : (file.rpcs.map fun entry =>
      (extractor.visit disk (.ofRoots roots) entry.1 entry.2).1) =
      file.rpcs.map fun entry => .error (.of file.name entry.1 entry.2.name .start
        (.unreadable (joinPath ((Cache.ofRoots roots).roots.getLast hne) file.name) cause)) := by
    refine List.map_congr_left fun entry hentry => ?_
    rw [visit_fresh, outcomeBelow, file_rpcs file entry hentry, hread]
  rw [file_fresh, houtcomes, Report.covering_eq]
  constructor <;> simp [Outcome.rule?, Outcome.skip?, List.filterMap_map, Function.comp_def]

end Extractor

/-! ## Runs -/

section

variable {pool : Pool} {names more : List String} {files : List File}

/-- The files to extract are those that have a service, or those with the names. -/
theorem Schema.Pool.exists_targets (h : ∀ name ∈ names, (pool.file? name).isSome) :
    ∃ files, pool.targets names = .ok files ∧
      if names = [] then files = pool.files.filter (fun file => !file.services.isEmpty)
      else names.map pool.file? = files.map some := by
  rw [targets]
  split
  · exact ⟨_, rfl, rfl⟩
  · obtain ⟨files, hfiles⟩ := exists_filesNamed h
    exact ⟨files, hfiles, filesNamed_eq_ok_iff.1 hfiles⟩

/-- The same names in another order stand for the same files in another order. -/
theorem Schema.Pool.exists_targets_perm (h : pool.targets names = .ok files)
    (hperm : more.Perm names) :
    ∃ others, others.Perm files ∧ pool.targets more = .ok others := by
  rw [targets] at h
  split at h
  · rename_i hnames
    obtain rfl := (hnames ▸ hperm).eq_nil
    exact ⟨files, .refl files, (if_pos rfl).trans h⟩
  · rename_i hnames
    obtain ⟨others, hothers⟩ := exists_filesNamed fun name hname =>
      isSome_of_filesNamed h name (hperm.mem_iff.1 hname)
    have hmap : (others.map some).Perm (files.map some) := by
      rw [← filesNamed_eq_ok_iff.1 h, ← filesNamed_eq_ok_iff.1 hothers]
      exact hperm.map pool.file?
    refine ⟨others, ?_, ?_⟩
    · simpa [List.filterMap_map] using hmap.filterMap id
    · rw [targets, if_neg fun hmore => hnames (hmore ▸ hperm).symm.eq_nil, hothers]

end

theorem extract_of_targets {disk : Disk} {settings : ExtractionSettings} {pool : Pool}
    {names : List String} {files : List File} (h : pool.targets names = .ok files) :
    extract disk settings pool names = .ok (.concat (files.map fun file =>
      (((Setup.ofSettings settings).extractor pool).file disk
        (Setup.ofSettings settings).cache file).1)) := by
  have hfresh (file : File) := (Setup.ofSettings settings).extractor pool |>.file_eq_below
    (Cache.faithful_ofRoots settings.roots disk) file
  have hreports : reports disk settings pool files = files.map fun file =>
      (((Setup.ofSettings settings).extractor pool).file disk
        (Setup.ofSettings settings).cache file).1 := by
    rw [reports_eq]
    exact List.map_congr_left fun file _ => (hfresh file).1.symm
  rw [extract, h, ← hreports]
  rfl

/-- A run over files of the pool accounts for all their methods: each gives one rule or one skip, as
it does in a run of its own, and the counts tell how many there are. The report is made of the
reports that the files give alone, and those of the reports on their services. So other orders of
the names only give the parts another order, and a file that no root has fails with each of its
methods and with no other. -/
theorem exists_extract_accounts (disk : Disk) (settings : ExtractionSettings) (pool : Pool)
    (names : List String) (h : ∀ name ∈ names, (pool.file? name).isSome) :
    let setup := Setup.ofSettings settings
    let extractor := setup.extractor pool
    let visited := fun entry : String × Rpc =>
      (extractor.visit disk setup.cache entry.1 entry.2).1
    let alone := fun file => (extractor.file disk setup.cache file).1
    ∃ (files : List File) (report : Report),
      let methods := files.flatMap File.rpcs
      (if names = [] then files = pool.files.filter (fun file => !file.services.isEmpty)
        else names.map pool.file? = files.map some) ∧
      extract disk settings pool names = .ok report ∧
      (report.rules = (methods.map visited).filterMap Outcome.rule? ∧
        report.skipped = (methods.map visited).filterMap Outcome.skip? ∧
        (∀ entry ∈ methods, ∀ skip, visited entry = .error skip →
          skip.file = entry.2.file ∧ skip.service = entry.1 ∧ skip.method = entry.2.name) ∧
        report.rules.length + report.skipped.length = methods.length ∧
        report.methodsSeen = methods.length.toUInt64) ∧
      report.filesProcessed = files.length.toUInt64 ∧
      (report.hardCount + report.softCount = report.skipped.length ∧
        report.hardCount = (report.bySeverity .hard).length ∧
        report.softCount = (report.bySeverity .soft).length ∧
        (report.hasHardFailures ↔ 0 < report.hardCount)) ∧
      report = .concat (files.map alone) ∧
      (∀ file, alone file =
        { Report.concat (file.services.map fun service =>
            (extractor.service disk setup.cache service.name (service.rpcs file.name)).1) with
          filesProcessed := 1 }) ∧
      (∀ more : List String, more.Perm names → ∃ others : List File, others.Perm files ∧
        extract disk settings pool more = .ok (.concat (others.map alone))) ∧
      ∀ file, MissingBelow disk (if settings.roots = [] then ["."] else settings.roots) file.name →
        ∃ last cause,
          (if settings.roots = [] then ["."] else settings.roots).getLast? = some last ∧
          disk.readText (joinPath last file.name) = .error cause ∧ (alone file).rules = [] ∧
          (alone file).skipped = file.rpcs.map fun entry =>
            .of file.name entry.1 entry.2.name .start
              (.unreadable (joinPath last file.name) cause) := by
  intro setup extractor visited alone
  obtain ⟨files, htargets, hfiles⟩ := pool.exists_targets h
  have hreport : Report.concat (files.map alone) =
      .covering files.length ((files.flatMap File.rpcs).map visited) := by
    have halone : alone = fun file => .covering 1 (file.rpcs.map visited) :=
      funext fun file => extractor.file_fresh disk settings.roots file
    rw [halone, Report.concat_covering, Nat.mul_one, List.map_flatMap]
  have hlength := Outcome.length_rules_add_skips ((files.flatMap File.rpcs).map visited)
  rw [List.length_map] at hlength
  have hcovering := Report.covering_eq files.length ((files.flatMap File.rpcs).map visited)
  refine ⟨files, .covering files.length ((files.flatMap File.rpcs).map visited), hfiles,
    hreport ▸ extract_of_targets htargets,
    ⟨congrArg Report.rules hcovering, congrArg Report.skipped hcovering,
      fun entry _ skip hskip => ?_, ?_, ?_⟩,
    rfl, ⟨Report.hardCount_add_softCount _, Report.hardCount_eq _, Report.softCount_eq _,
      Report.hasHardFailures_iff_pos _⟩, hreport.symm,
    extractor.file_fresh_eq_services disk settings.roots, fun more hmore => ?_,
    fun file hmissing => extractor.file_fresh_of_missing disk settings.roots hmissing⟩
  · obtain ⟨failure, rfl⟩ := Extractor.exists_of_visit hskip
    exact ⟨rfl, rfl, rfl⟩
  · rw [hcovering, hlength]
  · rw [hcovering, List.length_map]
  · obtain ⟨others, hperm, hothers⟩ := Pool.exists_targets_perm htargets hmore
    exact ⟨others, hperm, extract_of_targets hothers⟩

/-- The files of a run: one with a bound method and a method that is not in its text, and one that
is on no disk. -/
def accountedPool : Pool where
  messages := [⟨"Rule", [⟨"get", 1, .scalar .text, false, true, none, none⟩], false⟩]
  extensions :=
    [⟨defaultBindingExtension, methodOptionsName,
      ⟨"http", 1, .message "Rule", false, true, none, none⟩⟩]
  files :=
    let bound : Message := ⟨methodOptionsName, [(1, .message "Rule" [(1, .datum (.text "/g"))])]⟩
    [⟨"a", [⟨"S", [⟨"Get", bound⟩, ⟨"Put", bound⟩]⟩], []⟩, ⟨"b", [⟨"T", [⟨"Get", bound⟩]⟩], []⟩]

/-- A missing file that is named twice fails twice, before and after the file between. -/
theorem extract_accountedPool :
    let text := "rpc Get(A) returns (B) \x7b option (proto.v1.authz) = " ++
      "\x7b permissions: [\"p\"] \x7d; \x7d"
    let disk := Snapshot.disk [("./a", ⟨.ok (Text.encode text), some .file⟩)]
    ∃ report, extract disk {} accountedPool ["b", "a", "b"] = .ok report ∧
      report.rules = [⟨"/g", .get, ["p"], false⟩] ∧
      report.skipped.map (fun skip => (skip.service, skip.method, skip.kind)) =
        [("T", "Get", "file-read"), ("S", "Put", "method-not-found"), ("T", "Get", "file-read")] ∧
      report.methodsSeen = 4 ∧ report.filesProcessed = 3 := by
  intro text disk
  obtain ⟨files, report, hfiles, hextract, ⟨-, -, -, hlength, hseen⟩, hprocessed, -⟩ :=
    exists_extract_accounts disk {} accountedPool ["b", "a", "b"] (by decide +kernel)
  have hcheck : (extract disk {} accountedPool ["b", "a", "b"]).map (fun report => decide
      (report.rules = [⟨"/g", .get, ["p"], false⟩] ∧
        report.skipped.map (fun skip => (skip.service, skip.method, skip.kind)) =
          [("T", "Get", "file-read"), ("S", "Put", "method-not-found"),
            ("T", "Get", "file-read")])) = .ok true := by
    decide +kernel
  rw [hextract] at hcheck
  obtain ⟨hrules, hskipped⟩ := of_decide_eq_true (Except.ok.inj hcheck)
  have hskips : report.skipped.length = 3 := by
    rw [← List.length_map, hskipped]
    rfl
  have hthree : files.length = 3 := by
    rw [← List.length_map (f := some), ← hfiles]
    rfl
  refine ⟨report, hextract, hrules, hskipped, ?_, ?_⟩
  · rw [hseen, ← hlength, hrules, hskips]
    rfl
  · rw [hprocessed, hthree]
    rfl

end AccessRules
