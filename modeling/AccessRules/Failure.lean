import AccessRules.Files.ReadError

/-!
# Failures

The reasons why a method yields no rule. Each has a severity, a stable name for reports, a message,
and a diagnostic code with an optional hint.
-/

namespace AccessRules

open Files

/-- How a failure is to be treated. -/
inductive Severity where
  /-- The method has nothing to extract. -/
  | soft
  /-- The input is malformed or cannot be read. -/
  | hard
deriving DecidableEq, Repr

namespace Severity

/-- The name of the severity in reports. -/
def name : Severity → String
  | soft => "soft"
  | hard => "hard"

/-- The severity called `name`. -/
def ofName? (name : String) : Option Severity :=
  [soft, hard].find? (·.name = name)

theorem ofName?_name (severity : Severity) : ofName? severity.name = some severity := by
  cases severity <;> decide

end Severity

/-- Why a method yields no rule. -/
inductive Failure where
  /-- The source text declares no such method. -/
  | methodNotFound (method path : String)
  /-- A brace is never closed. -/
  | unmatchedBraces (context : String)
  /-- The method carries no access option. -/
  | optionNotFound (method : String)
  /-- The compiled options of the method carry no HTTP binding. -/
  | noBinding (method : String)
  /-- The HTTP binding sets no known verb. -/
  | noVerb (method : String)
  /-- The source file cannot be read. -/
  | unreadable (path : String) (cause : ReadError)
  /-- The permissions list cannot be read. -/
  | badPermissions (reason : String)
deriving DecidableEq, Repr

namespace Failure

/-- Only a missing option is to be expected. -/
def severity : Failure → Severity
  | optionNotFound _ => .soft
  | _ => .hard

/-- The stable name of the kind of failure. -/
def kind : Failure → String
  | methodNotFound .. => "method-not-found"
  | unmatchedBraces _ => "unmatched-braces"
  | optionNotFound _ => "authz-options-not-found"
  | noBinding _ => "no-http-annotation"
  | noVerb _ => "no-http-method-found"
  | unreadable .. => "file-read"
  | badPermissions _ => "permissions-parse"

/-- The failure in words. -/
def message : Failure → String
  | methodNotFound method path => s!"method {method} not found in {path}"
  | unmatchedBraces context => s!"unmatched braces in {context}"
  | optionNotFound method => s!"authz options not found for method {method}"
  | noBinding method => s!"no HTTP annotation found on method {method}"
  | noVerb method => s!"no HTTP method found in binding of method {method}"
  | unreadable path cause => s!"failed to read proto source {path}: {cause.message}"
  | badPermissions reason => s!"failed to parse permissions: {reason}"

/-- The diagnostic code. -/
def code : Failure → String
  | methodNotFound .. => "authz::method_not_found"
  | unmatchedBraces _ => "authz::unmatched_braces"
  | optionNotFound _ => "authz::options_not_found"
  | noBinding _ => "authz::no_http_annotation"
  | noVerb _ => "authz::no_http_method"
  | unreadable .. => "authz::file_read"
  | badPermissions _ => "authz::permissions_parse"

/-- What to do about the failure. -/
def help? : Failure → Option String
  | unmatchedBraces _ => some "check the rpc body and option block for a missing `\x7d`"
  | noBinding _ =>
    some "add an `option (google.api.http) = \x7b ... \x7d` binding to the rpc"
  | _ => none

/-- The severity can be told from the kind. -/
theorem severity_eq_soft_iff (failure : Failure) :
    failure.severity = .soft ↔ failure.kind = "authz-options-not-found" := by
  cases failure <;> simp [severity, kind]

end Failure

end AccessRules
