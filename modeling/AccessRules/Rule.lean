import AccessRules.Requirement.Basic

/-!
# Rules

An HTTP binding says how a method is called: with a verb, at a path. A rule joins it with what the
caller must present.
-/

namespace AccessRules

/-- An HTTP verb that a method can be bound to. -/
inductive Verb where
  | get
  | post
  | put
  | delete
  | patch
deriving DecidableEq, Repr, Inhabited

namespace Verb

/-- The verb in upper case. -/
def name : Verb → String
  | get => "GET"
  | post => "POST"
  | put => "PUT"
  | delete => "DELETE"
  | patch => "PATCH"

/-- Every verb. -/
def all : List Verb :=
  [get, post, put, delete, patch]

/-- The verb called `name`. -/
def ofName? (name : String) : Option Verb :=
  all.find? (·.name = name)

theorem ofName?_name (verb : Verb) : ofName? verb.name = some verb := by
  cases verb <;> decide

end Verb

/-- How a method is called over HTTP. -/
structure Binding where
  verb : Verb
  /-- The path template, such as `/v1/books/{book_id}`. -/
  path : String
deriving DecidableEq, Repr, Inhabited

/-- The access rule of one method. -/
structure Rule where
  path : String
  verb : Verb
  /-- The required permissions, in the order of the source. -/
  permissions : List String
  /-- Whether the endpoint is exempt from authentication. -/
  noAuthRequired : Bool
deriving DecidableEq, Repr, Inhabited

namespace Rule

/-- The rule that asks for `requirement` at `binding`. -/
def of (binding : Binding) (requirement : Requirement) : Rule where
  path := binding.path
  verb := binding.verb
  permissions := requirement.permissions
  noAuthRequired := requirement.noAuthRequired

/-- The key of the rule in generated tables: the path, a bar and the verb. -/
def key (rule : Rule) : String :=
  s!"{rule.path}|{rule.verb.name}"

/-- What the rule asks for, in words. -/
def requirementText (rule : Rule) : String :=
  if rule.noAuthRequired then "no auth required"
  else if rule.permissions = [] then "authenticated"
  else String.intercalate ", " rule.permissions

end Rule

end AccessRules
