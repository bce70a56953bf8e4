import AccessRules.Schema.OptionKind
import AccessRules.Schema.Value

/-!
# Pools

A pool holds what some definition files declare, with the names of types and options resolved.
-/

namespace AccessRules.Schema

/-- A method of a service. -/
structure Method where
  name : String
  options : Message
deriving Repr

/-- A service. -/
structure Service where
  name : String
  methods : List Method
deriving Repr

/-- A definition file. -/
structure File where
  name : String
  services : List Service
  /-- The full names of the extensions that are declared outside of messages. -/
  extensions : List String
deriving Repr

/-- The declarations of some definition files. -/
structure Pool extends Types where
  files : List File := []
deriving Repr, Inhabited

namespace Pool

/-- A full name without the dot that may lead it. -/
def bareName (name : String) : String :=
  match name.toList with
  | '.' :: rest => String.ofList rest
  | _ => name

/-- The file called `name`. -/
def file? (pool : Pool) (name : String) : Option File :=
  pool.files.find? (·.name = name)

/-- The message type called `name`. -/
def messageType? (pool : Pool) (name : String) : Option MessageType :=
  pool.message? (bareName name)

/-- The extension called `name`. -/
def extensionNamed? (pool : Pool) (name : String) : Option Extension :=
  pool.extension? (bareName name)

end Pool

/-- The full name of the type of method options. -/
def methodOptionsName : String := OptionKind.method.typeName

end AccessRules.Schema
