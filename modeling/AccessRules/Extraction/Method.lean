import AccessRules.Extraction.Binding
import AccessRules.Extraction.Requirement
import AccessRules.Report.Basic
import AccessRules.Schema.Pool
import AccessRules.Settings.Basic

/-!
# Extracting methods

The rule of a method joins the requirement in the text of its definition file with the binding in
its compiled options. Files that were read once are kept from one method to the next.
-/

namespace AccessRules

open Files Schema

/-- What extraction works with. -/
structure Extractor where
  /-- The name of the access option. -/
  accessOption : String
  /-- The extension that holds bindings, if the pool has it. -/
  extension? : Option Extension
  pool : Pool
deriving Repr

/-- A method as extraction sees it. -/
structure Rpc where
  name : String
  /-- The file that declares the method. -/
  file : String
  options : Message
deriving Repr

/-- A method that yields no rule. -/
structure MethodFailure where
  /-- The last stage that was reached. -/
  stage : Stage
  failure : Failure
deriving DecidableEq, Repr

/-- What is needed to set an extractor up. -/
structure Setup where
  accessOption : String := Source.defaultOption
  bindingExtension : String := defaultBindingExtension
  roots : List String := []
  /-- Texts that are used in place of files. -/
  documents : List (String × String) := []
deriving Repr

namespace Setup

/-- The setup that the settings ask for. -/
def ofSettings (settings : ExtractionSettings) : Setup where
  accessOption := settings.accessOption
  bindingExtension := settings.bindingExtension
  roots := settings.roots

/-- The extractor for the declarations of a pool. The case that no pattern can be made of the name
of the access option, because it would be too large, is left out; there would be no extractor
then. -/
def extractor (setup : Setup) (pool : Pool) : Extractor where
  accessOption := setup.accessOption
  extension? := pool.extensionNamed? setup.bindingExtension
  pool := pool

/-- The source files that are known from the start. -/
def cache (setup : Setup) : Cache :=
  setup.documents.foldl (fun cache (name, text) => cache.insert name ⟨name, text⟩)
    (Cache.ofRoots setup.roots)

end Setup

namespace Extractor

/-- The requirement of a method, and the files known after it was read. -/
def requirement (extractor : Extractor) (disk : Disk) (cache : Cache) (file method : String) :
    Except Failure Requirement × Cache :=
  match cache.load disk file with
  | (.error failure, cache) => (.error failure, cache)
  | (.ok document, cache) =>
    (Requirement.ofDocument extractor.accessOption document method, cache)

/-- The binding of a method. -/
def binding (extractor : Extractor) (rpc : Rpc) : Except Failure Binding :=
  match extractor.extension? with
  | none => .error (.noBinding rpc.name)
  | some extension => Binding.read extractor.pool.toTypes extension rpc.name rpc.options

/-- The rule of a method. The binding is only looked for once the requirement is known. -/
def rule (extractor : Extractor) (disk : Disk) (cache : Cache) (rpc : Rpc) :
    Except MethodFailure Rule × Cache :=
  match extractor.requirement disk cache rpc.file rpc.name with
  | (.error failure, cache) => (.error ⟨.start, failure⟩, cache)
  | (.ok requirement, cache) =>
    match extractor.binding rpc with
    | .error failure => (.error ⟨.requirementRead, failure⟩, cache)
    | .ok binding => (.ok (.of binding requirement), cache)

end Extractor

end AccessRules
