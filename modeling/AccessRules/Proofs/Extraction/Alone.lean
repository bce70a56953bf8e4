import AccessRules.Extraction.Run
import AccessRules.Proofs.Extraction.Visit
import AccessRules.Proofs.Files.Faithful

/-!
# Files on their own

The files of a run share what is known of their sources. Where the disk does not change, that makes
no difference: each file gives the report that it gives in a run of its own (`reports_eq`,
`extract_singleton`), and the report of a run is these reports one after the other
(`exists_extract`).
-/

namespace AccessRules

open Files Schema

namespace Extractor

variable (extractor : Extractor) {disk : Disk} {cache : Cache}

/-- What a method gives where its file is read from the disk. -/
def outcomeBelow (disk : Disk) (roots : List String) (service : String) (rpc : Rpc) : Outcome :=
  match Cache.readBelow disk rpc.file roots with
  | .error failure => .error (.of rpc.file service rpc.name .start failure)
  | .ok document => extractor.outcome document service rpc

/-- The report on a file whose sources are read from the disk. -/
def fileBelow (disk : Disk) (roots : List String) (file : File) : Report :=
  { Report.ofOutcomes (file.rpcs.map fun entry =>
      extractor.outcomeBelow disk roots entry.1 entry.2) with filesProcessed := 1 }

theorem visit_of_unreadable (service : String) {rpc : Rpc} {failure : Failure}
    (h : (cache.load disk rpc.file).1 = .error failure) :
    extractor.visit disk cache service rpc =
      (.error (.of rpc.file service rpc.name .start failure), (cache.load disk rpc.file).2) := by
  have hrequirement : extractor.requirement disk cache rpc.file rpc.name =
      (.error failure, (cache.load disk rpc.file).2) := by
    rw [requirement]
    split
    · rename_i hload
      rw [hload] at h ⊢
      rw [Except.error.inj h]
    · rename_i hload
      rw [hload] at h
      cases h
  rw [visit, rule, hrequirement]

/-- A visit leaves behind what loading the file of the method leaves behind. -/
theorem visit_eq_below (h : cache.Faithful disk) (service : String) (rpc : Rpc) :
    extractor.visit disk cache service rpc =
      (extractor.outcomeBelow disk cache.roots service rpc, (cache.load disk rpc.file).2) := by
  have hload := h.load_fst rpc.file
  rw [outcomeBelow]
  cases hread : Cache.readBelow disk rpc.file cache.roots with
  | error failure => exact extractor.visit_of_unreadable service (hload.trans hread)
  | ok document => exact extractor.visit_eq disk service (hload.trans hread)

theorem visitAll_eq_below (h : cache.Faithful disk) (rpcs : List (String × Rpc)) :
    (extractor.visitAll disk cache rpcs).1 =
        rpcs.map (fun entry => extractor.outcomeBelow disk cache.roots entry.1 entry.2) ∧
      (extractor.visitAll disk cache rpcs).2.Faithful disk ∧
      (extractor.visitAll disk cache rpcs).2.roots = cache.roots := by
  induction rpcs generalizing cache with
  | nil => exact ⟨rfl, h, rfl⟩
  | cons entry rpcs ih =>
      obtain ⟨service, rpc⟩ := entry
      obtain ⟨houtcomes, hfaithful, hroots⟩ := ih (h.load_snd rpc.file)
      rw [Cache.load_snd_roots] at houtcomes hroots
      simp only [visitAll, extractor.visit_eq_below h, List.map_cons, houtcomes]
      exact ⟨trivial, hfaithful, hroots⟩

theorem file_eq_below (h : cache.Faithful disk) (file : File) :
    (extractor.file disk cache file).1 = extractor.fileBelow disk cache.roots file ∧
      (extractor.file disk cache file).2.Faithful disk ∧
      (extractor.file disk cache file).2.roots = cache.roots := by
  obtain ⟨houtcomes, hfaithful, hroots⟩ := extractor.visitAll_eq_below h file.rpcs
  refine ⟨?_, hfaithful, hroots⟩
  simp only [Extractor.file, fileBelow, houtcomes]

theorem files_eq_below (h : cache.Faithful disk) (files : List File) :
    (extractor.files disk cache files).1 =
      files.map fun file => extractor.fileBelow disk cache.roots file := by
  induction files generalizing cache with
  | nil => rfl
  | cons file files ih =>
      obtain ⟨hreport, hfaithful, hroots⟩ := extractor.file_eq_below h file
      simp only [Extractor.files, hreport, ih hfaithful, hroots, List.map_cons]

end Extractor

/-! ## Runs -/

/-- The report on a file that is extracted on its own. -/
def reportOn (disk : Disk) (settings : ExtractionSettings) (pool : Pool) (file : File) : Report :=
  ((Setup.ofSettings settings).extractor pool).fileBelow disk
    (Setup.ofSettings settings).cache.roots file

/-- The report on the file called `name`; empty if the pool has no such file. -/
def reportOnNamed (disk : Disk) (settings : ExtractionSettings) (pool : Pool) (name : String) :
    Report :=
  (pool.file? name).elim {} (reportOn disk settings pool)

variable {disk : Disk} {settings : ExtractionSettings} {pool : Pool}

theorem reports_eq (files : List File) :
    reports disk settings pool files = files.map (reportOn disk settings pool) :=
  Extractor.files_eq_below _ (Cache.faithful_ofRoots _ _) files

theorem Schema.Pool.filesNamed_cons_of_none {name : String} (h : pool.file? name = none)
    (names : List String) : pool.filesNamed (name :: names) = .error name := by
  rw [filesNamed, List.mapM_cons, h]
  rfl

theorem Schema.Pool.filesNamed_cons_of_some {name : String} {file : File}
    (h : pool.file? name = some file) (names : List String) :
    pool.filesNamed (name :: names) = (pool.filesNamed names).map (file :: ·) := by
  rw [filesNamed, List.mapM_cons, h]
  rfl

/-- Files are found exactly where there is one for each name. -/
theorem Schema.Pool.filesNamed_eq_ok_iff {names : List String} {files : List File} :
    pool.filesNamed names = .ok files ↔ names.map pool.file? = files.map some := by
  induction names generalizing files with
  | nil => cases files <;> simp [filesNamed, pure, Except.pure]
  | cons name names ih =>
      cases h : pool.file? name with
      | none =>
          rw [filesNamed_cons_of_none h]
          cases files <;> simp [h]
      | some file =>
          rw [filesNamed_cons_of_some h]
          cases files with
          | nil => cases hnames : pool.filesNamed names <;> simp [Except.map]
          | cons file' files =>
              rw [List.map_cons, List.map_cons, h, List.cons.injEq, ← ih, Option.some.injEq]
              cases hnames : pool.filesNamed names <;> simp [Except.map]

theorem Schema.Pool.isSome_of_filesNamed {names : List String} {files : List File}
    (h : pool.filesNamed names = .ok files) : ∀ name ∈ names, (pool.file? name).isSome := by
  intro name hname
  have hmem : pool.file? name ∈ files.map some :=
    filesNamed_eq_ok_iff.1 h ▸ List.mem_map_of_mem hname
  obtain ⟨file, -, hfile⟩ := List.mem_map.1 hmem
  rw [← hfile]
  rfl

theorem Schema.Pool.exists_filesNamed {names : List String}
    (h : ∀ name ∈ names, (pool.file? name).isSome) : ∃ files, pool.filesNamed names = .ok files := by
  induction names with
  | nil => exact ⟨[], rfl⟩
  | cons name names ih =>
      obtain ⟨hname, hnames⟩ := List.forall_mem_cons.1 h
      obtain ⟨file, hfile⟩ := Option.isSome_iff_exists.1 hname
      obtain ⟨files, hfiles⟩ := ih hnames
      exact ⟨file :: files, by rw [filesNamed_cons_of_some hfile, hfiles]; rfl⟩

/-- The reports on the files with some names are the reports that go by these names. -/
theorem reports_filesNamed {names : List String} {files : List File}
    (h : pool.filesNamed names = .ok files) :
    reports disk settings pool files = names.map (reportOnNamed disk settings pool) := by
  have hfiles := congrArg (List.map fun file? => file?.elim {} (reportOn disk settings pool))
    (Pool.filesNamed_eq_ok_iff.1 h)
  rw [List.map_map, List.map_map] at hfiles
  rw [reports_eq]
  exact hfiles.symm

theorem Report.empty_append (report : Report) : ({} : Report) ++ report = report := by
  have happend : ({} : Report) ++ report = ⟨[] ++ report.rules, [] ++ report.skipped,
      0 + report.filesProcessed, 0 + report.methodsSeen⟩ := rfl
  rw [happend, List.nil_append, List.nil_append, UInt64.zero_add, UInt64.zero_add]

theorem Report.foldl_append (report : Report) (reports : List Report) :
    (reports.foldl (· ++ ·) report).rules = report.rules ++ reports.flatMap (·.rules) ∧
      (reports.foldl (· ++ ·) report).skipped =
        report.skipped ++ reports.flatMap (·.skipped) := by
  induction reports generalizing report with
  | nil => simp
  | cons next reports ih =>
      obtain ⟨hrules, hskipped⟩ := ih (report ++ next)
      rw [List.foldl_cons, hrules, hskipped]
      simp

/-- A file that is extracted alone gives its own report. -/
theorem extract_singleton {name : String} (h : (pool.file? name).isSome) :
    extract disk settings pool [name] = .ok (reportOnNamed disk settings pool name) := by
  obtain ⟨files, hfiles⟩ : ∃ files, pool.filesNamed [name] = .ok files :=
    Pool.exists_filesNamed (by simpa using h)
  rw [extract, Pool.targets, if_neg (by simp), hfiles]
  simp only [bind, Except.bind, pure, Except.pure, reports_filesNamed hfiles, List.map_cons,
    List.map_nil, List.foldl_cons, List.foldl_nil, Report.empty_append]

/-- A run lists the rules and the skipped methods of its files, file by file. -/
theorem exists_extract (disk : Disk) (settings : ExtractionSettings) {names : List String}
    (hne : names ≠ []) (h : ∀ name ∈ names, (pool.file? name).isSome) :
    ∃ report, extract disk settings pool names = .ok report ∧
      report.rules = names.flatMap (fun name => (reportOnNamed disk settings pool name).rules) ∧
      report.skipped =
        names.flatMap fun name => (reportOnNamed disk settings pool name).skipped := by
  obtain ⟨files, hfiles⟩ := Pool.exists_filesNamed h
  obtain ⟨hrules, hskipped⟩ :=
    Report.foldl_append {} (names.map (reportOnNamed disk settings pool))
  refine ⟨_, ?_, hrules.trans ?_, hskipped.trans ?_⟩
  · rw [extract, Pool.targets, if_neg hne, hfiles]
    simp only [bind, Except.bind, pure, Except.pure, reports_filesNamed hfiles]
  · simp [List.flatMap_map]
  · simp [List.flatMap_map]

end AccessRules
