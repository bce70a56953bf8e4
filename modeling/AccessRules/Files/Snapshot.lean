import AccessRules.Files.Disk

/-!
# Files read ahead

What reading some paths gave, as a disk that holds nothing else.
-/

namespace AccessRules.Files

/-- What reading a path gave. -/
structure Entry where
  contents : Except ReadError (List UInt8)
  kind? : Option Kind

/-- The paths that were read. -/
abbrev Snapshot := List (String × Entry)

/-- The paths as a disk. -/
def Snapshot.disk (snapshot : Snapshot) : Disk where
  read path :=
    match snapshot.lookup path with
    | some entry => entry.contents
    | none => .error .missing
  kind? path := (snapshot.lookup path).bind Entry.kind?

end AccessRules.Files
