import AccessRules.Schema.Symbol

/-!
# Names of types

A file sees what it declares itself, what its imports declare, and what these pass on. A name with a
leading dot is a full name. Any other is looked for from the innermost scope outwards.
-/

namespace AccessRules.Schema

/-! ## What a file sees -/

/-- The imports that a file passes on. -/
def FileDecl.passedOn (file : FileDecl) : List String :=
  file.publicImports.filterMap fun index => file.imports[index.toNat]?

/-- The file called `name`. -/
def fileNamed? (files : List FileDecl) (name : String) : Option FileDecl :=
  files.find? (·.name = name)

/-- The names of the files that are seen once the one called `name` passes its imports on. Of these,
only those that were seen before pass on their own; such chains have at most `limit` links. -/
def passOn (files : List FileDecl) (limit : Nat) (seen : List String) (name : String) :
    List String :=
  match limit with
  | 0 => seen
  | limit + 1 =>
    (((fileNamed? files name).map FileDecl.passedOn).getD []).foldl
      (fun seen next => if next ∈ seen then passOn files limit seen next else next :: seen) seen

/-- The names of the files whose declarations `file` sees. -/
def FileDecl.visible (files : List FileDecl) (file : FileDecl) : List String :=
  file.imports.foldl (fun seen name => passOn files files.length (name :: seen) name) [file.name]

/-! ## Looking names up -/

/-- The scopes around and with `scope`, the innermost first. -/
def enclosing (scope : String) : List String :=
  (packages scope).reverse ++ [""]

/-- What the names in a file can stand for. -/
structure View where
  /-- The symbols of all files. -/
  symbols : List Symbol
  /-- The files whose symbols can be used. -/
  visible : List String
deriving Repr

namespace View

/-- The symbol with a full name. -/
def symbol? (view : View) (name : String) : Option Symbol :=
  view.symbols.find? (·.name = name)

/-- The symbol with a full name, if it is visible and of an accepted kind. -/
def usable? (view : View) (accepts : SymbolKind → Bool) (name : String) : Option Symbol :=
  (view.symbol? name).filter fun symbol => symbol.file ∈ view.visible ∧ accepts symbol.kind

/-- Looks for a relative name with one part. Scopes in which it stands for nothing that can be used
are passed over. -/
def resolveSimple (view : View) (accepts : SymbolKind → Bool) (name : String)
    (scopes : List String) : Option Symbol :=
  scopes.findSome? fun scope => view.usable? accepts (qualify scope name)

/-- Looks for a relative name with several parts. The innermost scope in which the first part can
hold declarations decides, visible or not. -/
def resolveDotted (view : View) (accepts : SymbolKind → Bool) (first name : String)
    (scopes : List String) : Option Symbol := do
  let scope ← scopes.find? fun scope => (view.symbol? (qualify scope first)).any (·.kind.isScope)
  view.usable? accepts (qualify scope name)

/-- The symbol of an accepted kind that `name` stands for in `scope`. -/
def resolve (view : View) (accepts : SymbolKind → Bool) (scope name : String) : Option Symbol :=
  match name.toList with
  | '.' :: full => view.usable? accepts (String.ofList full)
  | _ =>
    match nameParts name with
    | first :: _ :: _ => view.resolveDotted accepts first name (enclosing scope)
    | _ => view.resolveSimple accepts name (enclosing scope)

end View

end AccessRules.Schema
