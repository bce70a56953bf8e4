import AccessRules.CommandLine.Run

/-!
# Files that a run reads

Which files a run reads depends on what stands in some of them: the settings say where to look for
the sources, and the set or the request says which they are.
-/

namespace AccessRules.CommandLine

open Files Schema

/-- The settings files that may count. -/
def settingsPaths (environment : Environment) (flag? : Option String) : List String :=
  let surroundings := environment.surroundings
  flag?.toList ++ surroundings.file?.toList ++ Origin.projectFiles.map (joinPath ".")
    ++ (surroundings.userDirectory?.map (joinPath · Origin.userFile)).toList

/-- The paths under which the sources of the named files may stand. -/
def sourcePaths (settings : ExtractionSettings) (names : List String) : List String :=
  (Cache.ofRoots settings.roots).roots.flatMap fun root => names.map (joinPath root)

/-- The sources of a request. -/
def requestPaths (settings : Settings) (input : Wire.Bytes) : List String :=
  match Request.read input with
  | .error _ => []
  | .ok request =>
    sourcePaths (settings.applyParameters (request.parameter?.getD "")).1.extraction request.targets

/-- The sources of a set. -/
def setPaths (disk : Disk) (settings : ExtractionSettings) (arguments : ExtractArguments) :
    List String :=
  match (disk.read arguments.set).toOption.bind fun bytes => (Pool.ofSet bytes).toOption with
  | none => []
  | some pool =>
    match pool.targets arguments.targets with
    | .error _ => []
    | .ok files => sourcePaths (arguments.apply settings) (files.map (·.name))

/-- The paths that an invocation reads, as far as the disk shows them. -/
def Invocation.paths (disk : Disk) (environment : Environment) (input : Wire.Bytes)
    (invocation : Invocation) : List String :=
  let settings := (loadSettings disk environment invocation.settings?).toOption
  match invocation.command with
  | .init _ => [settingsFile]
  | .answer =>
    settingsPaths environment invocation.settings?
      ++ (settings.map (requestPaths · input)).getD []
  | .extract arguments =>
    settingsPaths environment invocation.settings? ++ [arguments.set]
      ++ (settings.map (setPaths disk ·.extraction arguments)).getD []

end AccessRules.CommandLine
