import AccessRules.Files.Cache
import AccessRules.Requirement.Reader
import AccessRules.Source.Declaration
import AccessRules.Source.OptionBlock

/-!
# Requirements of methods

The requirement of a method stands in an option block in the body of its declaration.
-/

namespace AccessRules.Requirement

open Files Source

/-- The requirement of `method` in a document, where `option` is the name of the access option. A
method without a body has no options. -/
def ofDocument (option : String) (document : Document) (method : String) :
    Except Failure Requirement :=
  match locate document.text.toList method.toList with
  | .block body => do Requirement.read (← optionBlock option method body)
  | .bodiless => .error (.optionNotFound method)
  | .notFound => .error (.methodNotFound method document.path)
  | .unmatched => .error (.unmatchedBraces s!"method {method}")

end AccessRules.Requirement
