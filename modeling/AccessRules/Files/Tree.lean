import AccessRules.Files.Disk
import AccessRules.Text.Split

/-!
# Files in memory

A tree of directories and files around a working directory. Paths are followed name by name; what
lies outside the working directory is taken to hold nothing.
-/

namespace AccessRules.Files

/-- What stands at a place of a tree. -/
inductive Node where
  | file (bytes : List UInt8)
  | directory
deriving DecidableEq, Repr

/-- The nodes below the working directory, by the names on the way to them. -/
structure Tree where
  nodes : List (List String × Node) := []
deriving Repr, Inhabited

namespace Tree

/-- Where a path has come to. -/
inductive Place where
  /-- In the working directory or below it. -/
  | inside (names : List String)
  /-- In another directory. -/
  | outside
deriving DecidableEq, Repr

/-- The node at a place. -/
def node? (tree : Tree) : Place → Option Node
  | .inside [] => some .directory
  | .inside names => tree.nodes.lookup names
  | .outside => some .directory

/-- The longest name that a directory can hold, in bytes. -/
def maxName : Nat := 255

/-- Follows one name of a path. -/
def step (tree : Tree) (place : Place) (name : String) : Except ReadError Place :=
  match tree.node? place with
  | none => .error .missing
  | some (.file _) => .error .notDirectory
  | some .directory =>
    if name = "." then .ok place
    else if name = ".." then
      match place with
      | .inside (first :: names) => .ok (.inside (first :: names).dropLast)
      | _ => .ok .outside
    else if maxName < name.utf8ByteSize then .error .nameTooLong
    else
      match place with
      | .outside => .error .missing
      | .inside names =>
        if (tree.nodes.lookup (names ++ [name])).isSome then .ok (.inside (names ++ [name]))
        else .error .missing

/-- The names on a path. A slash at the end asks for a directory, as a dot does. -/
def names (path : String) : List String :=
  let parts := ((Text.splitAt '/' path.toList).filter (· ≠ [])).map String.ofList
  if path.toList.getLast? = some '/' then parts ++ ["."] else parts

/-- Paths must be shorter than this, in bytes. -/
def maxPath : Nat := 4096

/-- The place that a path leads to. -/
def resolve (tree : Tree) (path : String) : Except ReadError Place :=
  if path.toList.contains '\x00' then .error .nulInPath
  else if path = "" then .error .missing
  else if maxPath ≤ path.utf8ByteSize then .error .nameTooLong
  else
    let start := if path.toList.head? = some '/' then Place.outside else .inside []
    (names path).foldlM tree.step start

/-- The tree as a disk. -/
def disk (tree : Tree) : Disk where
  read path := do
    let place ← tree.resolve path
    match tree.node? place with
    | some (.file bytes) => return bytes
    | some .directory => throw .isDirectory
    | none => throw .missing
  kind? path :=
    match tree.resolve path with
    | .error _ => none
    | .ok place =>
      (tree.node? place).map fun
        | .file _ => .file
        | .directory => .directory

/-! ## Changing a tree -/

/-- The names on a path in plain form. -/
def plainNames (path : String) : List String :=
  ((names path).filter (· ≠ ".")).foldl
    (fun names name => if name = ".." then names.dropLast else names ++ [name]) []

/-- Sets the node at a place, without regard to the directories around it. -/
def set (tree : Tree) (names : List String) (node : Node) : Tree where
  nodes := (names, node) :: tree.nodes.filter (·.1 ≠ names)

/-- Puts a node at a path and makes the directories on the way. -/
def put (tree : Tree) (path : String) (node : Node) : Tree :=
  let names := plainNames path
  let parents := (List.range names.length).drop 1 |>.map names.take
  (parents.foldl (fun tree parent => tree.set parent .directory) tree).set names node

/-- Removes what stands at a path, with everything below it. -/
def remove (tree : Tree) (path : String) : Tree where
  nodes := tree.nodes.filter fun node => !(plainNames path).isPrefixOf node.1

end Tree

end AccessRules.Files
