import AccessRules.Settings.Document

/-!
# Finding the settings

Settings come from the file named on the command line, else from the file named in the environment,
else from a file of the working directory, else from one of the user, else from the defaults. A file
that is named must be there; only the others are looked for.
-/

namespace AccessRules

open Files

/-- Where settings come from. -/
inductive Origin where
  /-- A file named on the command line. -/
  | flag (path : String)
  /-- A file named in the environment. -/
  | environment (path : String)
  /-- A file of the working directory. -/
  | project (path : String)
  /-- A file of the user. -/
  | user (path : String)
  /-- No file. -/
  | defaults
deriving DecidableEq, Repr

/-- What the environment says about settings files. -/
structure Surroundings where
  /-- The file named in the environment. -/
  file? : Option String := none
  /-- The directory of the user's settings. -/
  userDirectory? : Option String := none
deriving DecidableEq, Repr

namespace Origin

/-- The file to load. -/
def path? : Origin → Option String
  | flag path | environment path | project path | user path => some path
  | defaults => none

/-- The kind of origin in one word. -/
def name : Origin → String
  | flag _ => "flag"
  | environment _ => "env"
  | project _ => "project"
  | user _ => "user"
  | defaults => "default"

/-- The origin in words. -/
def message : Origin → String
  | flag path => s!"{path} (--config)"
  | environment path => s!"{path} ($PROTOC_AUTHZ_CONFIG)"
  | project path => s!"{path} (project)"
  | user path => s!"{path} (user)"
  | defaults => "built-in defaults"

/-- The settings files of a project, the first that is there counts. -/
def projectFiles : List String :=
  ["protoc-authz.toml", ".protoc-authz.toml"]

/-- The settings file of a user. -/
def userFile : String := "config.toml"

/-- The origin of the settings for a run in `directory`. -/
def find (disk : Disk) (surroundings : Surroundings) (directory : String) (flag? : Option String) :
    Origin :=
  match flag?, surroundings.file? with
  | some path, _ => flag path
  | none, some path => environment path
  | none, none =>
    match (projectFiles.map (joinPath directory)).find? disk.isFile with
    | some path => project path
    | none =>
      match (surroundings.userDirectory?.map (joinPath · userFile)).filter disk.isFile with
      | some path => user path
      | none => defaults

/-- The settings of an origin. -/
def load (disk : Disk) (origin : Origin) : Except SettingsError Settings :=
  match origin.path? with
  | none => .ok {}
  | some path => Settings.load disk path

end Origin

/-- The message of a run that cannot load its settings. -/
def Origin.failure (origin : Origin) : String :=
  s!"Failed to load config from {origin.message}"

end AccessRules
