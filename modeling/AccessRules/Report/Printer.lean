import AccessRules.Json.Printer
import AccessRules.Report.Json

/-!
# Printing reports

A report is printed for people, with colours; as JSON; or with one line for each rule and skip.
-/

namespace AccessRules.Report

/-- How a report is printed. -/
inductive Style where
  | text
  | json
  | compact
deriving DecidableEq, Repr

/-- The style called `name`. -/
def Style.ofName? : String → Option Style
  | "text" => some text
  | "json" => some json
  | "compact" => some compact
  | _ => none

/-- The colours of a terminal. -/
inductive Colour where
  | red
  | green
  | blue

/-- The sequence that switches a terminal to the colour. -/
def Colour.code : Colour → String
  | red => "\x1b[31m"
  | green => "\x1b[32m"
  | blue => "\x1b[34m"

/-- `text` in the given colour. -/
def coloured (colour : Colour) (text : String) : String :=
  colour.code ++ text ++ "\x1b[0m"

/-- `text` with spaces behind it up to `width` characters. -/
def padded (width : Nat) (text : String) : String :=
  text ++ String.ofList (List.replicate (width - text.length) ' ')

/-- The lines of a rule. -/
def ruleLines (rule : Rule) : List String :=
  [s!"{coloured .green (padded 6 rule.verb.name)} {rule.path}", s!"  = {rule.requirementText}"]

/-- The lines of a skipped method, the last of them empty. -/
def skipLines (skip : Skip) : List String :=
  let colour := if skip.isHard then Colour.red else .blue
  [s!"{skip.service}.{skip.method} in {skip.file} [{skip.kind}]",
    s!"  {coloured colour skip.severity.name}: {skip.message} (at {skip.stage.name})", ""]

/-- The line with the counts. -/
def summary (report : Report) : String :=
  coloured (if report.hardCount > 0 then .red else .green)
    (s!"Extracted {report.rules.length} rule(s) from {report.methodsSeen} method(s) in " ++
      s!"{report.filesProcessed} file(s); skipped {report.hardCount} hard, {report.softCount} soft")

/-- The report for people. -/
def textLines (report : Report) : List String :=
  report.rules.flatMap ruleLines ++ (if report.rules = [] then [] else [""])
    ++ report.skipped.flatMap skipLines ++ [report.summary]

/-- The report with one line for each rule and skip. -/
def compactLines (report : Report) : List String :=
  report.rules.map (fun rule => s!"rule {rule.key}: {rule.requirementText}")
    ++ report.skipped.map (fun skip => s!"skip {skip.line}")

/-- The printed lines of the report. -/
def lines (report : Report) : Style → List String
  | .text => report.textLines
  | .json => [String.ofList report.toJson.print]
  | .compact => report.compactLines

/-- The lines, each with a line feed. -/
def unlines (lines : List String) : String :=
  String.join (lines.map (· ++ "\n"))

/-- The printed report. -/
def print (report : Report) (style : Style) : String :=
  unlines (report.lines style)

end AccessRules.Report
