import AccessRules.Extraction.Run
import AccessRules.Plugin.Response
import AccessRules.Schema.Set
import AccessRules.Settings.Parameter

/-!
# Answering requests

A table is generated for each file of a request that yields rules. Problems with the definition
files are reported in the response; only bytes that are no request make the run fail.
-/

namespace AccessRules.Plugin

open Files Schema

/-- The table for a file with the given report, unless there is nothing to put in. -/
def table? (settings : OutputSettings) (name : String) (report : Report) : Option GeneratedFile :=
  if report.rules = [] ∧ ¬settings.emitEmpty then none
  else some {
    name := Table.fileName settings.format name
    content := String.ofList (Table.render settings.format name report.rules) }

/-- The problem with a run in which methods failed for hard reasons. -/
def strictMessage (hard : List Skip) : String :=
  s!"{hard.length} method(s) could not be extracted:\n"
    ++ String.intercalate "\n" (hard.map Skip.line)

/-- The problem with a request for a file that it does not hold. -/
def missingMessage (name : String) : String :=
  s!"{name}: not present in the request"

/-- The response to a request for the named files, with the given settings. -/
def respond (disk : Disk) (settings : Settings) (pool : Pool) (targets : List String) : Response :=
  match pool.filesNamed targets with
  | .error name => .failed (missingMessage name)
  | .ok files =>
    let reports := reports disk settings.extraction pool files
    let hard := reports.flatMap (·.bySeverity .hard)
    if settings.extraction.strict ∧ hard ≠ [] then .failed (strictMessage hard)
    else .made ((targets.zip reports).filterMap fun (name, report) =>
      table? settings.output name report)

/-- The response to an encoded request. The request may change the settings. -/
def generate (disk : Disk) (settings : Settings) (bytes : Wire.Bytes) :
    Except PoolError Response := do
  let request ← Request.read bytes
  match settings.applyParameters (request.parameter?.getD "") with
  | (_, some error) => return .failed error.message
  | (settings, none) => return respond disk settings request.pool request.targets

end AccessRules.Plugin
