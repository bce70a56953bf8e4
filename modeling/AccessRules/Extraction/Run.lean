import AccessRules.Extraction.File

/-!
# Extracting several files

The files of a run are extracted one after the other; what is known of their sources is kept.
-/

namespace AccessRules

open Files Schema

/-- The files with the given names, or the first name that no file has. -/
def Schema.Pool.filesNamed (pool : Pool) (names : List String) : Except String (List File) :=
  names.mapM fun name =>
    match pool.file? name with
    | some file => .ok file
    | none => .error name

/-- The files that declare a service. -/
def Schema.Pool.filesWithServices (pool : Pool) : List File :=
  pool.files.filter (!·.services.isEmpty)

/-- The files to extract: those with the given names, or without names all that declare a
service. -/
def Schema.Pool.targets (pool : Pool) (names : List String) : Except String (List File) :=
  if names = [] then .ok pool.filesWithServices else pool.filesNamed names

/-- The reports on some files, one for each. -/
def Extractor.files (extractor : Extractor) (disk : Disk) (cache : Cache) :
    List File → List Report × Cache
  | [] => ([], cache)
  | file :: files =>
    let (report, cache) := extractor.file disk cache file
    let (reports, cache) := extractor.files disk cache files
    (report :: reports, cache)

/-- The reports on some files, extracted with the given settings. -/
def reports (disk : Disk) (settings : ExtractionSettings) (pool : Pool) (files : List File) :
    List Report :=
  let setup := Setup.ofSettings settings
  ((setup.extractor pool).files disk setup.cache files).1

/-- The report on the named files, or on all that declare a service. Fails with the name of a file
that the pool does not have. -/
def extract (disk : Disk) (settings : ExtractionSettings) (pool : Pool) (names : List String) :
    Except String Report := do
  let files ← pool.targets names
  return (reports disk settings pool files).foldl (· ++ ·) {}

/-- The message of a run that is asked for a file that the pool does not have. -/
def missingTarget (name : String) : String :=
  s!"{name} is not in the descriptor set"

end AccessRules
