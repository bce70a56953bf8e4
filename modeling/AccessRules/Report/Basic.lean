import AccessRules.Failure
import AccessRules.Rule

/-!
# Reports

A report lists the rules that were extracted and the methods that were skipped, each in the order
of the source, and counts the files and methods it covers. The counts are words of 64 bits, and sums
of them wrap around.
-/

namespace AccessRules

/-- How far a method had come before it failed. -/
inductive Stage where
  /-- Nothing was extracted. -/
  | start
  /-- The requirement was read from the source text. -/
  | requirementRead
  /-- The binding was read from the compiled options. -/
  | bindingRead
  /-- The rule was put together. -/
  | ruleMade
deriving DecidableEq, Repr

namespace Stage

/-- The name of the stage in reports. -/
def name : Stage → String
  | start => "start"
  | requirementRead => "authz-extracted"
  | bindingRead => "http-resolved"
  | ruleMade => "rule-emitted"

/-- The stage called `name`. -/
def ofName? (name : String) : Option Stage :=
  [start, requirementRead, bindingRead, ruleMade].find? (·.name = name)

theorem ofName?_name (stage : Stage) : ofName? stage.name = some stage := by
  cases stage <;> decide

end Stage

/-- A method that yields no rule, and why. -/
structure Skip where
  /-- The file that declares the method. -/
  file : String
  service : String
  method : String
  /-- The last stage that the method reached. -/
  stage : Stage
  severity : Severity
  /-- The stable name of the kind of failure. -/
  kind : String
  message : String
deriving DecidableEq, Repr

namespace Skip

/-- The record of a method that failed. -/
def of (file service method : String) (stage : Stage) (failure : Failure) : Skip where
  file := file
  service := service
  method := method
  stage := stage
  severity := failure.severity
  kind := failure.kind
  message := failure.message

/-- Whether the method failed for a hard reason. -/
def isHard (skip : Skip) : Bool :=
  skip.severity = .hard

/-- The record on one line. -/
def line (skip : Skip) : String :=
  s!"{skip.file}: {skip.service}.{skip.method}: {skip.severity.name} [{skip.kind}] " ++
    s!"{skip.message} (at {skip.stage.name})"

end Skip

/-- The outcome of an extraction over any number of files. -/
structure Report where
  rules : List Rule := []
  skipped : List Skip := []
  /-- How many files were processed. -/
  filesProcessed : UInt64 := 0
  /-- How many methods were visited. -/
  methodsSeen : UInt64 := 0
deriving DecidableEq, Repr, Inhabited

namespace Report

/-- One report after another. -/
def append (first second : Report) : Report where
  rules := first.rules ++ second.rules
  skipped := first.skipped ++ second.skipped
  filesProcessed := first.filesProcessed + second.filesProcessed
  methodsSeen := first.methodsSeen + second.methodsSeen

instance : Append Report := ⟨append⟩

/-- The report with one rule more. -/
def addRule (report : Report) (rule : Rule) : Report :=
  { report with rules := report.rules ++ [rule] }

/-- The report with one skipped method more. -/
def addSkip (report : Report) (skip : Skip) : Report :=
  { report with skipped := report.skipped ++ [skip] }

/-- The skipped methods of the given severity. -/
def bySeverity (report : Report) (severity : Severity) : List Skip :=
  report.skipped.filter (·.severity = severity)

/-- How many methods failed for a hard reason. -/
def hardCount (report : Report) : Nat :=
  report.skipped.countP Skip.isHard

/-- How many methods had nothing to extract. -/
def softCount (report : Report) : Nat :=
  report.skipped.length - report.hardCount

/-- Whether any method failed for a hard reason. -/
def hasHardFailures (report : Report) : Bool :=
  report.skipped.any Skip.isHard

@[simp] theorem append_rules (first second : Report) :
    (first ++ second).rules = first.rules ++ second.rules := rfl

@[simp] theorem append_skipped (first second : Report) :
    (first ++ second).skipped = first.skipped ++ second.skipped := rfl

@[simp] theorem append_filesProcessed (first second : Report) :
    (first ++ second).filesProcessed = first.filesProcessed + second.filesProcessed := rfl

@[simp] theorem append_methodsSeen (first second : Report) :
    (first ++ second).methodsSeen = first.methodsSeen + second.methodsSeen := rfl

end Report

end AccessRules
