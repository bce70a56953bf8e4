import AccessRules.Text.Split

/-!
# Access requirements

What a caller of an endpoint must present: permissions, or nothing at all where the endpoint needs
no authentication.
-/

namespace AccessRules

/-- What the access option of a method says. -/
structure Requirement where
  /-- The required permissions, in the order of the source. -/
  permissions : List String := []
  /-- Whether the endpoint is exempt from authentication. -/
  noAuthRequired : Bool := false
deriving DecidableEq, Repr, Inhabited

namespace Requirement

/-- The requirement of the given permissions. -/
def ofPermissions (permissions : List String) : Requirement where
  permissions := permissions

/-- The requirement of an endpoint that needs no authentication. -/
def noAuth : Requirement where
  noAuthRequired := true

/-- The requirement in the notation of an option block. Permissions are put between quotes as they
are. -/
def blockText (requirement : Requirement) : Text :=
  let quoted := requirement.permissions.map fun permission => '"' :: permission.toList ++ ['"']
  "permissions: [".toList ++ Text.join [',', ' '] quoted ++ "]\nno_auth_required: ".toList
    ++ (if requirement.noAuthRequired then "true" else "false").toList

end Requirement

end AccessRules
