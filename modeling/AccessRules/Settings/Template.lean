/-!
# A settings file to start from

The file sets every setting to its default and says what it is for.
-/

namespace AccessRules

/-- The lines of the file. -/
def settingsTemplateLines : List String := [
  "# protoc-authz configuration",
  "# Plugin parameters (--authz_opt=key=value,...) override these values.",
  "",
  "[extractor]",
  "# Method option carrying the authz block, read from the .proto source text",
  "authz_option = \"proto.v1.authz\"",
  "",
  "# Extension carrying the HTTP binding, read from compiled method options",
  "http_extension = \"google.api.http\"",
  "",
  "# Directories searched for the .proto sources named in descriptors.",
  "# Usually the same as protoc's -I paths.",
  "source_roots = [\".\"]",
  "",
  "# Fail generation when a method is skipped for anything other than a",
  "# missing authz block",
  "strict = false",
  "",
  "[output]",
  "# \"json\" writes <stem>.authz.json, \"rust\" writes <stem>_authz.rs",
  "format = \"json\"",
  "",
  "# Generate a file even when a proto file yields no rules",
  "emit_empty = false"]

/-- The text of the file. -/
def settingsTemplate : String :=
  String.join (settingsTemplateLines.map (· ++ "\n"))

end AccessRules
