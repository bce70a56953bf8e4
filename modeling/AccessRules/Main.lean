import AccessRules.CommandLine.Reads
import AccessRules.Files.Snapshot

/-!
# The program

Reads the files that a run asks for, runs it, and does what it comes to.
-/

namespace AccessRules.CommandLine

open Files

/-- The error number of the system. -/
def systemCode? : IO.Error → Option UInt32
  | .alreadyExists _ code _ | .invalidArgument _ code _ | .permissionDenied _ code _
  | .resourceExhausted _ code _ | .inappropriateType _ code _ | .noSuchThing _ code _
  | .interrupted _ code _ | .noFileOrDirectory _ code _ | .otherError code _
  | .resourceBusy code _ | .resourceVanished code _ | .unsupportedOperation code _
  | .hardwareFault code _ | .unsatisfiedConstraints code _ | .illegalOperation code _
  | .protocolError code _ | .timeExpired code _ => some code
  | .unexpectedEof | .userError _ => none

/-- Why the system refused to read. -/
def readError (error : IO.Error) : ReadError :=
  match systemCode? error with
  | some code => .system code.toNat
  | none => .other (toString error)

/-- What stands at a path. -/
def readEntry (path : String) : IO Entry := do
  if path.contains '\x00' then return ⟨.error .nulInPath, none⟩
  if path.isEmpty then return ⟨.error .missing, none⟩
  let contents ← try
      let bytes ← IO.FS.readBinFile path
      pure (.ok bytes.toList)
    catch error => pure (.error (readError error))
  let kind? ← try
      let here ← IO.currentDir
      let found ← (here / path).metadata
      pure (match found.type with
        | .file => some Kind.file
        | .dir => some Kind.directory
        | _ => none)
    catch _ => pure none
  return ⟨contents, kind?⟩

/-- Reads the paths that were not read before. -/
def extend (snapshot : Snapshot) (paths : List String) : IO Snapshot :=
  paths.eraseDups.foldlM (fun snapshot path => do
    if (snapshot.lookup path).isSome then return snapshot
    return (path, ← readEntry path) :: snapshot) snapshot

/-- Does what a run comes to, and gives its exit code. -/
def finish (exit : Exit) : IO UInt32 := do
  try
    if let some (path, text) := exit.written? then IO.FS.writeFile path text
    let output ← IO.getStdout
    output.write exit.output.toByteArray
    output.flush
    if let some reason := exit.failure? then IO.eprintln s!"Error: {reason}"
    if exit.code = usageCode then IO.eprint (Report.unlines helpLines)
    return exit.code.toUInt32
  catch error =>
    IO.eprintln s!"Error: {(readError error).message}"
    return 1

end AccessRules.CommandLine

open AccessRules AccessRules.CommandLine AccessRules.Files

/-- Runs the program. -/
def main (arguments : List String) : IO UInt32 := do
  let values ← [Environment.settingsVariable, Environment.directoryVariable,
    Environment.homeVariable].mapM fun name => return (name, ← IO.getEnv name)
  let environment := Environment.ofLookup fun name => (values.lookup name).join
  match read arguments with
  | .error _ => finish (run (Snapshot.disk []) environment [] arguments)
  | .ok invocation =>
    let input ← if invocation.command = .answer then (← IO.getStdin).readBinToEnd else pure .empty
    let input := input.toList
    let first ← extend [] (invocation.paths (Snapshot.disk []) environment input)
    let second ← extend first (invocation.paths first.disk environment input)
    finish (invocation.run second.disk environment input)
