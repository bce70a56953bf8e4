import AccessRules.Json.Basic
import AccessRules.Report.Basic

/-!
# Reports as JSON

Each record is written as an object and read back from an object or from an array of its fields.
-/

namespace AccessRules

/-- A requirement read from JSON. -/
def Requirement.ofJson? (json : Json) : Option Requirement := do
  let [permissions, noAuthRequired] ← json.asRecord? ["permissions", "no_auth_required"] | none
  return ⟨← permissions.asListOf? Json.asString?, ← noAuthRequired.asBool?⟩

/-- A verb read from JSON. -/
def Verb.ofJson? (json : Json) : Option Verb :=
  json.asName?.bind Verb.ofName?

/-- A binding read from JSON. -/
def Binding.ofJson? (json : Json) : Option Binding := do
  let [verb, path] ← json.asRecord? ["method", "path"] | none
  return ⟨← Verb.ofJson? verb, ← path.asString?⟩

namespace Rule

def toJson (rule : Rule) : Json :=
  .object [("http_path", .string rule.path), ("http_method", .string rule.verb.name),
    ("permissions", .ofStrings rule.permissions), ("no_auth_required", .bool rule.noAuthRequired)]

def ofJson? (json : Json) : Option Rule := do
  let [path, verb, permissions, noAuthRequired] ←
    json.asRecord? ["http_path", "http_method", "permissions", "no_auth_required"] | none
  return ⟨← path.asString?, ← Verb.ofJson? verb, ← permissions.asListOf? Json.asString?,
    ← noAuthRequired.asBool?⟩

end Rule

namespace Skip

def toJson (skip : Skip) : Json :=
  .object [("file", .string skip.file), ("service", .string skip.service),
    ("method", .string skip.method), ("stage", .string skip.stage.name),
    ("class", .string skip.severity.name), ("kind", .string skip.kind),
    ("message", .string skip.message)]

def ofJson? (json : Json) : Option Skip := do
  let [file, service, method, stage, severity, kind, message] ←
    json.asRecord? ["file", "service", "method", "stage", "class", "kind", "message"] | none
  return ⟨← file.asString?, ← service.asString?, ← method.asString?,
    ← stage.asName?.bind Stage.ofName?, ← severity.asName?.bind Severity.ofName?,
    ← kind.asString?, ← message.asString?⟩

end Skip

namespace Report

def toJson (report : Report) : Json :=
  .object [("rules", .array (report.rules.map Rule.toJson)),
    ("skipped", .array (report.skipped.map Skip.toJson)),
    ("files_processed", .ofNat report.filesProcessed.toNat),
    ("methods_seen", .ofNat report.methodsSeen.toNat)]

def ofJson? (json : Json) : Option Report := do
  let [rules, skipped, filesProcessed, methodsSeen] ←
    json.asRecord? ["rules", "skipped", "files_processed", "methods_seen"] | none
  return ⟨← rules.asListOf? Rule.ofJson?, ← skipped.asListOf? Skip.ofJson?,
    ← filesProcessed.asCount?, ← methodsSeen.asCount?⟩

end Report

end AccessRules
