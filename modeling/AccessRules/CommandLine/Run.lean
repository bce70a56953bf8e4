import AccessRules.CommandLine.Arguments
import AccessRules.Plugin.Generate
import AccessRules.Settings.Origin
import AccessRules.Settings.Template

/-!
# Runs of the program

A run reads files and standard input, and gives an exit code, what it prints, and at most one file
that it writes.
-/

namespace AccessRules.CommandLine

open Files

/-- The variables of the environment that the program looks at. -/
structure Environment where
  /-- The settings file. -/
  settings? : Option String := none
  /-- The directory of the user's settings. -/
  settingsDirectory? : Option String := none
  home? : Option String := none
deriving DecidableEq, Repr

namespace Environment

/-- The names of the variables. -/
def settingsVariable : String := "PROTOC_AUTHZ_CONFIG"

/-- The variable for the directory of the user's settings. -/
def directoryVariable : String := "PROTOC_AUTHZ_CONFIG_DIR"

/-- The variable for the home of the user. -/
def homeVariable : String := "HOME"

/-- The directory of the user's settings below the home. -/
def homeDirectory : String := ".protoc-authz"

/-- The environment in which the variables have the values that `lookup` gives. -/
def ofLookup (lookup : String → Option String) : Environment where
  settings? := lookup settingsVariable
  settingsDirectory? := lookup directoryVariable
  home? := lookup homeVariable

/-- What the environment says about settings files. Empty variables say nothing. -/
def surroundings (environment : Environment) : Surroundings where
  file? := environment.settings?.filter (· ≠ "")
  userDirectory? := (environment.settingsDirectory?.filter (· ≠ "")).or
    (environment.home?.map (joinPath · homeDirectory))

end Environment

/-- What a run comes to. -/
structure Exit where
  code : Nat := 0
  /-- What is written to standard output. -/
  output : Wire.Bytes := []
  /-- Why the run failed. -/
  failure? : Option String := none
  /-- A file that is written, with its text. -/
  written? : Option (String × String) := none
deriving DecidableEq, Repr

namespace Exit

/-- A run that fails for the given reason. -/
def failed (message : String) : Exit where
  code := 1
  failure? := some message

/-- A run that prints a text and ends with the given code. -/
def printed (text : String) (code : Nat) : Exit where
  code := code
  output := Text.encode text

end Exit

/-- The exit code of a run with wrong arguments. -/
def usageCode : Nat := 2

/-- The name and the version of the program. -/
def versionLine : String := "protoc-gen-authz 0.1.0"

/-- What the program can be asked for. -/
def helpLines : List String := [
  "Extracts HTTP authorization rules from proto service definitions",
  "",
  "Usage: protoc-gen-authz [OPTIONS] [COMMAND]",
  "",
  "Commands:",
  "  extract  Extract rules from a serialized FileDescriptorSet and print a report",
  "  init     Initialize configuration file",
  "",
  "Without a command, answers the CodeGeneratorRequest on standard input."]

/-- The settings of a run. -/
def loadSettings (disk : Disk) (environment : Environment) (flag? : Option String) :
    Except String Settings :=
  let origin := Origin.find disk environment.surroundings "." flag?
  match origin.load disk with
  | .ok settings => .ok settings
  | .error _ => .error origin.failure

/-- Answers the request on standard input. -/
def answer (disk : Disk) (settings : Settings) (input : Wire.Bytes) : Exit :=
  match Plugin.generate disk settings input with
  | .error _ => .failed "Failed to decode CodeGeneratorRequest"
  | .ok response => { output := response.encode }

/-- The settings with the changes that the arguments ask for. -/
def ExtractArguments.apply (arguments : ExtractArguments) (settings : ExtractionSettings) :
    ExtractionSettings :=
  { settings with
    roots := if arguments.roots = [] then settings.roots else arguments.roots
    strict := settings.strict || arguments.strict }

/-- Extracts from a set of definition files and prints the report. -/
def extract (disk : Disk) (settings : ExtractionSettings) (arguments : ExtractArguments) :
    Exit :=
  let settings := arguments.apply settings
  match disk.read arguments.set with
  | .error _ => .failed s!"Failed to read descriptor set: {arguments.set}"
  | .ok bytes =>
    match Schema.Pool.ofSet bytes with
    | .error _ => .failed "Failed to decode descriptor set"
    | .ok pool =>
      match AccessRules.extract disk settings pool arguments.targets with
      | .error name => .failed (missingTarget name)
      | .ok report =>
        .printed (report.print arguments.style)
          (if settings.strict && report.hasHardFailures then 1 else 0)

/-- The settings file that is written. -/
def settingsFile : String := "protoc-authz.toml"

/-- What is printed once the settings file is written. -/
def initLines : List String := [
  "Created protoc-authz.toml",
  "",
  "Next steps:",
  "  1. Edit protoc-authz.toml to match your proto layout",
  "  2. Run: protoc --authz_out=gen -I proto proto/**/*.proto"]

/-- Writes a settings file. -/
def init (disk : Disk) (force : Bool) : Exit :=
  match disk.kind? settingsFile, force with
  | some _, false => .failed
    s!"Configuration file already exists at {settingsFile}. Use --force to overwrite."
  | some .directory, true => .failed ReadError.isDirectory.message
  | _, _ =>
    { Exit.printed (Report.unlines initLines) 0 with
      written? := some (settingsFile, settingsTemplate) }

/-- Runs an invocation. The settings are only loaded where they are needed. -/
def Invocation.run (disk : Disk) (environment : Environment) (input : Wire.Bytes)
    (invocation : Invocation) : Exit :=
  match invocation.command with
  | .init force => init disk force
  | .answer =>
    match loadSettings disk environment invocation.settings? with
    | .error message => .failed message
    | .ok settings => answer disk settings input
  | .extract arguments =>
    match loadSettings disk environment invocation.settings? with
    | .error message => .failed message
    | .ok settings => extract disk settings.extraction arguments

/-- Runs the program with the given arguments. -/
def run (disk : Disk) (environment : Environment) (input : Wire.Bytes) (arguments : List String) :
    Exit :=
  match read arguments with
  | .ok invocation => invocation.run disk environment input
  | .error .help => .printed (Report.unlines helpLines) 0
  | .error .version => .printed (versionLine ++ "\n") 0
  | .error .usage => { code := usageCode }

end AccessRules.CommandLine
