import AccessRules.Proofs.Plugin.Respond

/-!
# Strict runs

Settings that differ only in whether they are strict are changed by parameters in the same way: they
stay apart by that much, or a parameter makes them equal. So a strict run gives what a lenient one
gives, or it reports the hard failures that the lenient one passes over (`generate_withStrict`).
-/

namespace AccessRules

open Files Schema

def Settings.withStrict (settings : Settings) (strict : Bool) : Settings :=
  { settings with extraction.strict := strict }

/-! ## Parameters -/

namespace Parameter

theorem apply_withStrict (parameter : Parameter) (replaced : Bool) (settings : Settings) :
    (∃ settings', ∀ strict, parameter.apply replaced (settings.withStrict strict) = settings') ∨
      ∀ strict, parameter.apply replaced (settings.withStrict strict) =
        (parameter.apply replaced settings).withStrict strict := by
  cases parameter with
  | strict value => exact .inl ⟨settings.withStrict value, fun _ => rfl⟩
  | accessOption name => exact .inr fun _ => rfl
  | bindingExtension name => exact .inr fun _ => rfl
  | root path => exact .inr fun _ => rfl
  | emitEmpty value => exact .inr fun _ => rfl
  | format value => exact .inr fun _ => rfl

/-- Strict and lenient settings fail at the same pair, and they end equal or apart by that much. -/
theorem applyPairs_withStrict (replaced : Bool) (settings : Settings) (pairs : List Text) :
    ∃ (settings' : Settings) (error? : Option ParameterError),
      (∀ strict, applyPairs replaced (settings.withStrict strict) pairs = (settings', error?)) ∨
        ∀ strict, applyPairs replaced (settings.withStrict strict) pairs =
          (settings'.withStrict strict, error?) := by
  -- A pair that sets strictness makes the settings equal, and equal they stay.
  induction pairs generalizing replaced settings with
  | nil => exact ⟨settings, none, .inr fun _ => rfl⟩
  | cons pair pairs ih =>
      simp only [applyPairs]
      cases hread : read pair with
      | error error => exact ⟨settings, some error, .inr fun _ => rfl⟩
      | ok parameter =>
          rcases parameter.apply_withStrict replaced settings with ⟨settings', hequal⟩ | happart
          · refine ⟨(applyPairs (replaced || parameter.isRoot) settings' pairs).1,
              (applyPairs (replaced || parameter.isRoot) settings' pairs).2, .inl fun strict => ?_⟩
            simp only [hequal]
          · simp only [happart]
            exact ih _ _

end Parameter

/-! ## Responses -/

namespace Plugin

variable {disk : Disk} {pool : Pool} {targets : List String}

theorem files_of_respond {settings : Settings}
    (h : (respond disk settings pool targets).error?.isSome) :
    (respond disk settings pool targets).files = [] := by
  cases hfiles : pool.filesNamed targets with
  | error name =>
      rw [respond_of_missing hfiles]
      rfl
  | ok files =>
      rw [respond_of_found hfiles] at h ⊢
      split
      · rfl
      · rename_i hmade
        rw [if_neg hmade] at h
        cases h

/-- A strict response is the lenient one, or it reports the hard failures. -/
theorem respond_withStrict (disk : Disk) (settings : Settings) (pool : Pool)
    (targets : List String) :
    respond disk (settings.withStrict true) pool targets =
        respond disk (settings.withStrict false) pool targets ∨
      (∀ name ∈ targets, (pool.file? name).isSome) ∧
        (respond disk (settings.withStrict false) pool targets).error? = none ∧
        hardSkips disk settings.extraction pool targets ≠ [] ∧
        respond disk (settings.withStrict true) pool targets =
          .failed (strictMessage (hardSkips disk settings.extraction pool targets)) := by
  cases hfiles : pool.filesNamed targets with
  | error name => exact .inl (by rw [respond_of_missing hfiles, respond_of_missing hfiles])
  | ok files =>
      have hlenient : respond disk (settings.withStrict false) pool targets =
          .made (targets.filterMap fun name =>
            table? settings.output name (reportOnNamed disk settings.extraction pool name)) :=
        (respond_of_found hfiles).trans (if_neg fun h => by cases h.1)
      by_cases hhard : hardSkips disk settings.extraction pool targets = []
      · left
        rw [hlenient]
        exact (respond_of_found hfiles).trans (if_neg fun h => h.2 hhard)
      · right
        rw [hlenient]
        exact ⟨Pool.isSome_of_filesNamed hfiles, rfl, hhard,
          (respond_of_found hfiles).trans (if_pos ⟨rfl, hhard⟩)⟩

theorem files_of_generate {settings : Settings} {bytes : Wire.Bytes} {response : Response}
    (h : generate disk settings bytes = .ok response) (herror : response.error?.isSome) :
    response.files = [] := by
  cases hread : Request.read bytes with
  | error error =>
      rw [generate_of_unreadable hread] at h
      cases h
  | ok request =>
      cases hsettings : settings.applyParameters (request.parameter?.getD "") with
      | mk settings' error? =>
          cases error? with
          | some error =>
              rw [generate_of_wrong hread hsettings] at h
              rw [← Except.ok.inj h]
              rfl
          | none =>
              rw [generate_of_read hread hsettings] at h
              obtain rfl := Except.ok.inj h
              exact files_of_respond herror

/-- Strictness turns a response without problems into one that reports every hard failure of the
requested files, and changes nothing else. No response holds both a problem and files. -/
theorem generate_withStrict (disk : Disk) (settings : Settings) (bytes : Wire.Bytes) :
    ((∃ error, ∀ strict, generate disk (settings.withStrict strict) bytes = .error error) ∨
      (∃ response, ∀ strict,
        generate disk (settings.withStrict strict) bytes = .ok response) ∨
      ∃ (request : Request) (applied : Settings) (single : String → Report) (lenient : Response),
        Request.read bytes = .ok request ∧
        (settings.withStrict true).applyParameters (request.parameter?.getD "") =
          (applied, none) ∧
        (∀ name ∈ request.targets,
          extract disk applied.extraction request.pool [name] = .ok (single name)) ∧
        generate disk (settings.withStrict false) bytes = .ok lenient ∧ lenient.error? = none ∧
        let hard := request.targets.flatMap fun name => (single name).skipped.filter Skip.isHard
        1 ≤ hard.length ∧
          generate disk (settings.withStrict true) bytes =
            .ok (.failed (s!"{hard.length} method(s) could not be extracted:\n" ++
              String.intercalate "\n" (hard.map Skip.line)))) ∧
    ∀ strict response, generate disk (settings.withStrict strict) bytes = .ok response →
      response.error?.isSome → response.files = [] := by
  refine ⟨?_, fun strict response => files_of_generate⟩
  cases hread : Request.read bytes with
  | error error => exact .inl ⟨error, fun _ => generate_of_unreadable hread⟩
  | ok request =>
      right
      obtain ⟨settings', error?, hequal | happart⟩ := Parameter.applyPairs_withStrict false settings
        (Parameter.pairs (request.parameter?.getD ""))
      · left
        cases error? with
        | some error => exact ⟨_, fun strict => generate_of_wrong hread (hequal strict)⟩
        | none => exact ⟨_, fun strict => generate_of_read hread (hequal strict)⟩
      · cases error? with
        | some error => exact .inl ⟨_, fun strict => generate_of_wrong hread (happart strict)⟩
        | none =>
            have hstrict : generate disk (settings.withStrict true) bytes = .ok (respond disk
                (settings'.withStrict true) request.pool request.targets) :=
              generate_of_read hread (happart true)
            have hlenient : generate disk (settings.withStrict false) bytes = .ok (respond disk
                (settings'.withStrict false) request.pool request.targets) :=
              generate_of_read hread (happart false)
            rcases respond_withStrict disk settings' request.pool request.targets with
              hsame | ⟨hpool, hnone, hhard, hfailed⟩
            · left
              refine ⟨respond disk (settings'.withStrict false) request.pool request.targets,
                fun strict => ?_⟩
              cases strict
              · exact hlenient
              · exact hstrict.trans (congrArg Except.ok hsame)
            · right
              refine ⟨request, _, reportOnNamed disk settings'.extraction request.pool, _, rfl,
                happart true, fun name hname => extract_singleton (hpool name hname), hlenient,
                hnone, List.length_pos_iff.2 hhard, ?_⟩
              exact hstrict.trans (congrArg Except.ok hfailed)

/-- A request for a file with one method. -/
def onceBytes : Wire.Bytes :=
  [0x0a, 1, 0x61, 0x7a, 26, 0x0a, 1, 0x61, 0x22, 3, 0x0a, 1, 0x4d,
    0x32, 16, 0x0a, 1, 0x53, 0x12, 11, 0x0a, 1, 0x46, 0x12, 2, 0x2e, 0x4d, 0x1a, 2, 0x2e, 0x4d]

/-- A file that cannot be read yields no table, and fails a strict run. -/
theorem generate_onceBytes :
    generate .empty (Settings.withStrict {} false) onceBytes = .ok (.made []) ∧
      ∃ response, generate .empty (Settings.withStrict {} true) onceBytes = .ok response ∧
        response.error? = some ("1 method(s) could not be extracted:\n" ++
          "a: S.F: hard [file-read] failed to read proto source ./a: " ++
          "No such file or directory (os error 2) (at start)") ∧ response.files = [] := by
  have hlenient : generate .empty (Settings.withStrict {} false) onceBytes = .ok (.made []) := by
    decide +kernel
  have hstrict : generate .empty (Settings.withStrict {} true) onceBytes =
      .ok (.failed ("1 method(s) could not be extracted:\n" ++
        "a: S.F: hard [file-read] failed to read proto source ./a: " ++
        "No such file or directory (os error 2) (at start)")) := by
    decide +kernel
  exact ⟨hlenient, _, hstrict, rfl, (generate_withStrict .empty {} onceBytes).2 true _ hstrict rfl⟩

end Plugin

end AccessRules
