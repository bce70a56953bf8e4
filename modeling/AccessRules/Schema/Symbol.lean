import AccessRules.Schema.Declaration
import AccessRules.Text.Split

/-!
# Symbols

Everything that a definition file declares has a full name. Different things have different full
names, except that files may share a package.
-/

namespace AccessRules.Schema

/-- What a full name stands for. -/
inductive SymbolKind where
  | package
  | message
  | enum
  | enumValue
  | field
  | choice
  | extension
  | service
  | method
deriving DecidableEq, Repr

namespace SymbolKind

/-- Whether other names can be declared inside. -/
def isScope : SymbolKind → Bool
  | package | message | enum | service => true
  | _ => false

end SymbolKind

/-- A full name, with what it stands for and the file that declares it. -/
structure Symbol where
  name : String
  kind : SymbolKind
  file : String
deriving DecidableEq, Repr

/-- The parts of a dotted name. -/
def nameParts (name : String) : List String :=
  (Text.splitAt '.' name.toList).map String.ofList

/-- The names of a package and of the packages around it, the outermost first. -/
def packages (package : String) : List String :=
  let parts := nameParts package
  if package = "" then []
  else ((List.range (parts.length + 1)).drop 1).map fun count =>
    String.intercalate "." (parts.take count)

/-- The symbols of an enumeration in `scope`. Its values are declared beside it. -/
def EnumDecl.symbols (scope : String) (declared : EnumDecl) : List (String × SymbolKind) :=
  (qualify scope declared.name, .enum)
    :: declared.values.map fun value => (qualify scope value.name, .enumValue)

/-- The symbols of a message, without those of the messages inside it. -/
def MessageDecl.symbols (declared : MessageDecl) : List (String × SymbolKind) :=
  (declared.name, .message)
    :: declared.fields.map (fun field => (qualify declared.name field.name, .field))
    ++ declared.choices.map (fun choice => (qualify declared.name choice.name, .choice))
    ++ declared.enums.flatMap (EnumDecl.symbols declared.name)
    ++ declared.extensions.map (fun field => (qualify declared.name field.name, .extension))

/-- The symbols of a service in `scope`. -/
def ServiceDecl.symbols (scope : String) (declared : ServiceDecl) : List (String × SymbolKind) :=
  let name := qualify scope declared.name
  (name, .service) :: declared.methods.map fun method => (qualify name method.name, .method)

/-- The symbols of a file. -/
def FileDecl.symbols (file : FileDecl) : List Symbol :=
  let symbols : List (String × SymbolKind) :=
    (packages file.package).map (fun name => (name, .package))
      ++ file.messages.flatMap MessageDecl.symbols
      ++ file.enums.flatMap (EnumDecl.symbols file.package)
      ++ file.extensions.map (fun field => (qualify file.package field.name, .extension))
      ++ file.services.flatMap (ServiceDecl.symbols file.package)
  symbols.map fun (name, kind) => ⟨name, kind, file.name⟩

/-- Whether two symbols may be declared side by side. -/
def Symbol.agree (first second : Symbol) : Prop :=
  first.name ≠ second.name ∨ first.kind = .package ∧ second.kind = .package

instance (first second : Symbol) : Decidable (first.agree second) :=
  inferInstanceAs (Decidable (_ ∨ _))

end AccessRules.Schema
