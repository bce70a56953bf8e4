import AccessRules.Files.Cache

/-!
# Caches that agree with the disk

While the disk does not change, a cache that was filled from it alone keeps what the disk holds
(`Faithful`). So it does not matter for a file what was loaded before it (`Faithful.load_fst`).
-/

namespace AccessRules.Files.Cache

variable {cache : Cache} {disk : Disk}

/-- Whether all that the cache keeps is what the disk holds below its roots. -/
def Faithful (cache : Cache) (disk : Disk) : Prop :=
  ∀ name document, cache.get? name = some document →
    readBelow disk name cache.roots = .ok document

theorem faithful_ofRoots (roots : List String) (disk : Disk) : (ofRoots roots).Faithful disk := by
  intro name document h
  cases h

theorem load_of_get? {name : String} {document : Document} (h : cache.get? name = some document) :
    cache.load disk name = (.ok document, cache) := by
  rw [load, h]

theorem load_of_read {name : String} {document : Document} (h : cache.get? name = none)
    (hread : readBelow disk name cache.roots = .ok document) :
    cache.load disk name = (.ok document, cache.insert name document) := by
  rw [load, h, hread]

theorem load_of_unreadable {name : String} {failure : Failure} (h : cache.get? name = none)
    (hread : readBelow disk name cache.roots = .error failure) :
    cache.load disk name = (.error failure, cache) := by
  rw [load, h, hread]

theorem load_snd_roots (cache : Cache) (disk : Disk) (name : String) :
    (cache.load disk name).2.roots = cache.roots := by
  cases h : cache.get? name with
  | some document => rw [load_of_get? h]
  | none =>
      cases hread : readBelow disk name cache.roots with
      | ok document =>
          rw [load_of_read h hread]
          rfl
      | error failure => rw [load_of_unreadable h hread]

namespace Faithful

theorem load_fst (h : cache.Faithful disk) (name : String) :
    (cache.load disk name).1 = readBelow disk name cache.roots := by
  cases hget : cache.get? name with
  | some document => rw [load_of_get? hget, h name document hget]
  | none =>
      cases hread : readBelow disk name cache.roots with
      | ok document => rw [load_of_read hget hread]
      | error failure => rw [load_of_unreadable hget hread]

theorem insert (h : cache.Faithful disk) {name : String} {document : Document}
    (hread : readBelow disk name cache.roots = .ok document) :
    (cache.insert name document).Faithful disk := by
  intro other found hfound
  by_cases hname : other = name
  · subst hname
    rw [get?_insert_self, Option.some.injEq] at hfound
    rw [← hfound]
    exact hread
  · rw [get?_insert_of_ne cache document hname] at hfound
    exact h other found hfound

theorem load_snd (h : cache.Faithful disk) (name : String) :
    (cache.load disk name).2.Faithful disk := by
  cases hget : cache.get? name with
  | some document => rwa [load_of_get? hget]
  | none =>
      cases hread : readBelow disk name cache.roots with
      | ok document =>
          rw [load_of_read hget hread]
          exact h.insert hread
      | error failure => rwa [load_of_unreadable hget hread]

end Faithful

end AccessRules.Files.Cache
