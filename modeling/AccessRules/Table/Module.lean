import AccessRules.Rule
import AccessRules.Text.Digit
import AccessRules.Text.Graphic

/-!
# Rules as a Rust module

The generated module holds the rules as a static slice, in the order of the source, and a function
that looks a rule up.
-/

namespace AccessRules.Table

open AccessRules.Text

/-! ## String literals -/

/-- A character inside a string literal. Characters that cannot stand for themselves are written by
their code point. -/
def literalChar (c : Char) : Text :=
  if c = '\x00' then ['\\', '0']
  else if c = '\t' then ['\\', 't']
  else if c = '\r' then ['\\', 'r']
  else if c = '\n' then ['\\', 'n']
  else if c = '"' then ['\\', '"']
  else if c = '\\' then ['\\', '\\']
  else if isGraphic c then [c]
  else ['\\', 'u', '{'] ++ hexDigits c.toNat ++ ['}']

/-- A string literal. -/
def literal (value : String) : Text :=
  '"' :: value.toList.flatMap literalChar ++ ['"']

/-! ## The module -/

/-- The lines before the types, with the name of the definition file. -/
def moduleHeader (protoFile : String) : Text :=
  "// Code generated by protoc-gen-authz. DO NOT EDIT.\n// source: ".toList ++ protoFile.toList
    ++ ['\n', '\n']

/-- The type of a rule. -/
def moduleTypes : List String := [
  "/// Authorization requirements of one HTTP endpoint.",
  "#[derive(Debug, Clone, Copy, PartialEq, Eq)]",
  "pub struct AuthzRule \x7b",
  "    /// Path template, e.g. `/v1/foo/\x7bfoo_id\x7d`.",
  "    pub path: &'static str,",
  "    /// Uppercase HTTP verb.",
  "    pub method: &'static str,",
  "    /// Required permissions, in declaration order.",
  "    pub permissions: &'static [&'static str],",
  "    /// Whether the endpoint needs no authentication.",
  "    pub no_auth_required: bool,",
  "\x7d",
  "",
  "/// Rules in declaration order.",
  "pub static AUTHZ_RULES: &[AuthzRule] = &["]

/-- The end of the table and the function that looks a rule up. -/
def moduleLookup : List String := [
  "];",
  "",
  "/// Returns the rule for `path` and `method`, if any.",
  "///",
  "/// When several rules share a key the last declared one wins.",
  "#[must_use]",
  "pub fn lookup(path: &str, method: &str) -> Option<&'static AuthzRule> \x7b",
  "    AUTHZ_RULES",
  "        .iter()",
  "        .rev()",
  "        .find(|r| r.path == path && r.method == method)",
  "\x7d"]

/-- The lines as a text, each with a line feed. -/
def linesText (lines : List String) : Text :=
  lines.flatMap fun line => line.toList ++ ['\n']

/-- The entry of a rule in the table. -/
def moduleEntry (rule : Rule) : Text :=
  "    AuthzRule \x7b\n        path: ".toList ++ literal rule.path
    ++ ",\n        method: ".toList ++ literal rule.verb.name
    ++ ",\n        permissions: &[".toList ++ join [',', ' '] (rule.permissions.map literal)
    ++ "],\n        no_auth_required: ".toList
    ++ (if rule.noAuthRequired then "true" else "false").toList ++ ",\n    \x7d,\n".toList

/-- The part of the module that depends on the rules. -/
def moduleBody (rules : List Rule) : Text :=
  linesText moduleTypes ++ rules.flatMap moduleEntry ++ linesText moduleLookup

/-- The text of the module. -/
def renderModule (protoFile : String) (rules : List Rule) : Text :=
  moduleHeader protoFile ++ moduleBody rules

end AccessRules.Table
