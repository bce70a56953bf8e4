import AccessRules.Files.Snapshot
import AccessRules.Proofs.Files.Faithful

/-!
# Caches over whole runs

A cache is asked for files and given documents while files are written and removed. What a load
gives is decided by what happened under its name alone (`Alike.after_filter`): a document, once it
was loaded or put there, is given until another one is put in its place, and as long as there is
none each load looks at the disk as it is (`load_after`).
-/

namespace AccessRules.Files

/-! ## Looking below the roots -/

/-- Whether `document` is the file called `name` below the first root that holds a text under that
name. -/
def FoundBelow (disk : Disk) (roots : List String) (name : String) (document : Document) : Prop :=
  ∃ before root after, roots = before ++ root :: after ∧
    (∀ earlier ∈ before, ∃ cause, disk.readText (joinPath earlier name) = .error cause) ∧
    document.path = joinPath root name ∧ disk.readText (joinPath root name) = .ok document.text

/-- Whether no root holds a text under the name. -/
def MissingBelow (disk : Disk) (roots : List String) (name : String) : Prop :=
  ∀ root ∈ roots, ∃ cause, disk.readText (joinPath root name) = .error cause

section

variable {disk : Disk} {name root : String} {roots : List String} {document : Document}

theorem foundBelow_of_text {text : String} (h : disk.readText (joinPath root name) = .ok text) :
    FoundBelow disk (root :: roots) name document ↔ document = ⟨joinPath root name, text⟩ := by
  constructor
  · rintro ⟨before, found, after, hroots, hbefore, hpath, htext⟩
    cases before with
    | nil =>
        obtain ⟨rfl, rfl⟩ := List.cons.inj hroots
        rw [h] at htext
        rw [← hpath, Except.ok.inj htext]
    | cons earlier before =>
        obtain ⟨rfl, -⟩ := List.cons.inj hroots
        obtain ⟨cause, hcause⟩ := hbefore root List.mem_cons_self
        rw [h] at hcause
        cases hcause
  · rintro rfl
    exact ⟨[], root, roots, rfl, by simp, rfl, h⟩

theorem foundBelow_of_error {cause : ReadError}
    (h : disk.readText (joinPath root name) = .error cause) :
    FoundBelow disk (root :: roots) name document ↔ FoundBelow disk roots name document := by
  constructor
  · rintro ⟨before, found, after, hroots, hbefore, hfound⟩
    cases before with
    | nil =>
        obtain ⟨rfl, -⟩ := List.cons.inj hroots
        rw [h] at hfound
        cases hfound.2
    | cons earlier before =>
        obtain ⟨-, rfl⟩ := List.cons.inj hroots
        exact ⟨before, found, after, rfl, (List.forall_mem_cons.1 hbefore).2, hfound⟩
  · rintro ⟨before, found, after, rfl, hbefore, hfound⟩
    exact ⟨root :: before, found, after, rfl, List.forall_mem_cons.2 ⟨⟨cause, h⟩, hbefore⟩, hfound⟩

theorem missingBelow_cons : MissingBelow disk (root :: roots) name ↔
    (∃ cause, disk.readText (joinPath root name) = .error cause) ∧ MissingBelow disk roots name :=
  List.forall_mem_cons

namespace Cache

theorem roots_ofRoots_ne_nil (roots : List String) : (Cache.ofRoots roots).roots ≠ [] := by
  rw [ofRoots]
  split
  · exact List.cons_ne_nil _ _
  · assumption

theorem readBelow_of_text {text : String} (h : disk.readText (joinPath root name) = .ok text) :
    readBelow disk name (root :: roots) = .ok ⟨joinPath root name, text⟩ := by
  unfold readBelow
  simp only [h]

/-- A root without the file is passed over, unless it is the last. -/
theorem readBelow_of_error {cause : ReadError}
    (h : disk.readText (joinPath root name) = .error cause) :
    readBelow disk name (root :: roots) =
      if roots = [] then .error (.unreadable (joinPath root name) cause)
      else readBelow disk name roots := by
  conv => lhs; unfold readBelow
  cases roots <;> simp [h]

theorem readBelow_eq_ok_iff :
    readBelow disk name roots = .ok document ↔ FoundBelow disk roots name document := by
  induction roots with
  | nil => simp [readBelow, FoundBelow]
  | cons root roots ih =>
      cases h : disk.readText (joinPath root name) with
      | ok text => rw [readBelow_of_text h, foundBelow_of_text h, Except.ok.injEq, eq_comm]
      | error cause =>
          rw [foundBelow_of_error h, ← ih, readBelow_of_error h]
          cases roots with
          | nil => simp [readBelow]
          | cons next roots => rfl

/-- The failure names the path below the last root, and why that could not be read. -/
theorem exists_readBelow_eq_error (h : MissingBelow disk roots name) (hne : roots ≠ []) :
    ∃ cause, disk.readText (joinPath (roots.getLast hne) name) = .error cause ∧
      readBelow disk name roots =
        .error (.unreadable (joinPath (roots.getLast hne) name) cause) := by
  induction roots with
  | nil => exact absurd rfl hne
  | cons root roots ih =>
      obtain ⟨⟨cause, hcause⟩, hroots⟩ := missingBelow_cons.1 h
      rw [readBelow_of_error hcause]
      cases roots with
      | nil => exact ⟨cause, hcause, rfl⟩
      | cons next roots => exact ih hroots (List.cons_ne_nil next roots)

end Cache

end

/-! ## Runs -/

/-- What happens to a cache, or to the disk that it reads from. -/
inductive Event where
  /-- The file called `name` is asked for. -/
  | load (name : String)
  /-- A document is put under a name. -/
  | insert (name : String) (document : Document)
  /-- Files are written or removed, which makes the disk this one. -/
  | change (disk : Disk)

/-- Whether the event can change what is known under the name, or what the disk holds. -/
def Event.concerns (name : String) : Event → Bool
  | .load other => other = name
  | .insert other _ => other = name
  | .change _ => true

/-- A cache in use, with the disk that it reads from. -/
structure Session where
  cache : Cache
  disk : Disk

namespace Session

/-- A new cache below the given roots. -/
def start (roots : List String) (disk : Disk) : Session :=
  ⟨.ofRoots roots, disk⟩

/-- What a load of the name gives. -/
def load (session : Session) (name : String) : Except Failure Document :=
  (session.cache.load session.disk name).1

/-- The session after an event. -/
def step (session : Session) : Event → Session
  | .load name => { session with cache := (session.cache.load session.disk name).2 }
  | .insert name document => { session with cache := session.cache.insert name document }
  | .change disk => { session with disk }

/-- The session after some events. -/
def after (session : Session) (events : List Event) : Session :=
  events.foldl step session

/-- What the cache keeps under the name. -/
def known? (session : Session) (name : String) : Option Document :=
  session.cache.get? name

variable {session : Session} {name : String} {document : Document}

theorem step_roots (event : Event) : (session.step event).cache.roots = session.cache.roots := by
  cases event with
  | load other => exact Cache.load_snd_roots session.cache session.disk other
  | insert other document => rfl
  | change disk => rfl

theorem after_roots (events : List Event) :
    (session.after events).cache.roots = session.cache.roots := by
  induction events generalizing session with
  | nil => rfl
  | cons event events ih => exact ih.trans (step_roots event)

/-! ### Names that are known -/

theorem load_of_known (h : session.known? name = some document) :
    session.load name = .ok document :=
  congrArg Prod.fst (Cache.load_of_get? h)

theorem load_of_unknown (h : session.known? name = none) :
    session.load name = Cache.readBelow session.disk name session.cache.roots := by
  rw [load]
  cases hread : Cache.readBelow session.disk name session.cache.roots with
  | ok document => rw [Cache.load_of_read h hread]
  | error failure => rw [Cache.load_of_unreadable h hread]

theorem known?_step_insert (session : Session) (name : String) (document : Document) :
    (session.step (.insert name document)).known? name = some document :=
  Cache.get?_insert_self session.cache name document

/-- A load keeps what it gives. -/
theorem known?_step_load (session : Session) (name : String) :
    (session.step (.load name)).known? name = (session.load name).toOption := by
  cases hknown : session.known? name with
  | some known =>
      rw [load_of_known hknown, step, Cache.load_of_get? hknown]
      exact hknown
  | none =>
      rw [load_of_unknown hknown]
      cases hread : Cache.readBelow session.disk name session.cache.roots with
      | ok document =>
          rw [step, Cache.load_of_read hknown hread]
          exact Cache.get?_insert_self session.cache name document
      | error failure =>
          rw [step, Cache.load_of_unreadable hknown hread]
          exact hknown

theorem known?_step_load_of_ne {other : String} (h : name ≠ other) :
    (session.step (.load other)).known? name = session.known? name := by
  cases hknown : session.known? other with
  | some known => rw [step, Cache.load_of_get? hknown]
  | none =>
      cases hread : Cache.readBelow session.disk other session.cache.roots with
      | ok document =>
          rw [step, Cache.load_of_read hknown hread]
          exact Cache.get?_insert_of_ne session.cache document h
      | error failure => rw [step, Cache.load_of_unreadable hknown hread]

/-- A load that fails leaves everything as it was. -/
theorem step_load_of_error {failure : Failure} (h : session.load name = .error failure) :
    session.step (.load name) = session := by
  cases hknown : session.known? name with
  | some known =>
      rw [load_of_known hknown] at h
      cases h
  | none =>
      rw [load_of_unknown hknown] at h
      rw [step, Cache.load_of_unreadable hknown h]

theorem known?_step_of_known {event : Event} (h : session.known? name = some document)
    (hevent : ∀ other, event ≠ .insert name other) :
    (session.step event).known? name = some document := by
  cases event with
  | load other =>
      by_cases hname : name = other
      · subst hname
        rw [known?_step_load, load_of_known h]
        rfl
      · rw [known?_step_load_of_ne hname, h]
  | insert other new =>
      have hname : name ≠ other := by
        rintro rfl
        exact hevent new rfl
      exact (Cache.get?_insert_of_ne session.cache new hname).trans h
  | change disk => exact h

/-- What is known stays so, until another document is put in its place. -/
theorem known?_after_of_known {events : List Event} (h : session.known? name = some document)
    (hevents : ∀ other, .insert name other ∉ events) :
    (session.after events).known? name = some document := by
  induction events generalizing session with
  | nil => exact h
  | cons event events ih =>
      refine ih (known?_step_of_known h fun other hevent => ?_) fun other hmem => ?_
      · exact hevents other (hevent ▸ List.mem_cons_self)
      · exact hevents other (List.mem_cons_of_mem event hmem)

/-! ### Names that are not known -/

/-- Whether the events leave the name without a document: none is put there, and each load of it
fails. -/
def Unobtained (session : Session) (name : String) (events : List Event) : Prop :=
  ∀ before event behind, events = before ++ event :: behind →
    (∀ document, event ≠ .insert name document) ∧
      (event = .load name → ∃ failure, (session.after before).load name = .error failure)

theorem known?_step_of_unknown {event : Event} (h : session.known? name = none)
    (hinsert : ∀ document, event ≠ .insert name document)
    (hload : event = .load name → ∃ failure, session.load name = .error failure) :
    (session.step event).known? name = none := by
  cases event with
  | load other =>
      by_cases hname : name = other
      · subst hname
        obtain ⟨failure, hfailure⟩ := hload rfl
        rw [known?_step_load, hfailure]
        rfl
      · rw [known?_step_load_of_ne hname, h]
  | insert other new =>
      have hname : name ≠ other := by
        rintro rfl
        exact hinsert new rfl
      exact (Cache.get?_insert_of_ne session.cache new hname).trans h
  | change disk => exact h

theorem unobtained_nil : session.Unobtained name [] := by
  intro before event behind h
  cases before <;> cases h

theorem unobtained_cons {event : Event} {events : List Event} :
    session.Unobtained name (event :: events) ↔
      ((∀ document, event ≠ .insert name document) ∧
        (event = .load name → ∃ failure, session.load name = .error failure)) ∧
      (session.step event).Unobtained name events := by
  constructor
  · intro h
    exact ⟨h [] event events rfl, fun before next behind hevents =>
      h (event :: before) next behind (congrArg (event :: ·) hevents)⟩
  · rintro ⟨hevent, hevents⟩ before next behind h
    cases before with
    | nil =>
        obtain ⟨rfl, -⟩ := List.cons.inj h
        exact hevent
    | cons first before =>
        obtain ⟨rfl, htail⟩ := List.cons.inj h
        exact hevents before next behind htail

theorem Unobtained.known?_after {events : List Event} (h : session.Unobtained name events)
    (hunknown : session.known? name = none) : (session.after events).known? name = none := by
  induction events generalizing session with
  | nil => exact hunknown
  | cons event events ih =>
      obtain ⟨⟨hinsert, hload⟩, hevents⟩ := unobtained_cons.1 h
      exact ih hevents (known?_step_of_unknown hunknown hinsert hload)

/-! ### Names beside each other -/

/-- Whether two sessions have the same disk and roots, and know the same under the name. -/
structure Alike (name : String) (first second : Session) : Prop where
  disk : first.disk = second.disk
  roots : first.cache.roots = second.cache.roots
  known : first.known? name = second.known? name

namespace Alike

variable {first second : Session}

theorem load_eq (h : Alike name first second) : first.load name = second.load name := by
  cases hknown : second.known? name with
  | some document => rw [load_of_known hknown, load_of_known (h.known.trans hknown)]
  | none =>
      rw [load_of_unknown hknown, load_of_unknown (h.known.trans hknown), h.disk, h.roots]

/-- Both sessions go through the event. -/
theorem step {event : Event} (h : Alike name first second) (hevent : event.concerns name) :
    Alike name (first.step event) (second.step event) := by
  have hroots := (step_roots event).trans (h.roots.trans (step_roots event).symm)
  cases event with
  | load other =>
      obtain rfl : other = name := of_decide_eq_true hevent
      exact ⟨h.disk, hroots, by rw [known?_step_load, known?_step_load, h.load_eq]⟩
  | insert other document =>
      obtain rfl : other = name := of_decide_eq_true hevent
      exact ⟨h.disk, hroots, by rw [known?_step_insert, known?_step_insert]⟩
  | change disk => exact ⟨rfl, hroots, h.known⟩

/-- Only the first session goes through an event that is about another name. -/
theorem step_left {event : Event} (h : Alike name first second)
    (hevent : event.concerns name = false) : Alike name (first.step event) second := by
  have hroots := (step_roots event).trans h.roots
  cases event with
  | load other =>
      have hname : name ≠ other := fun hname => of_decide_eq_false hevent hname.symm
      exact ⟨h.disk, hroots, (known?_step_load_of_ne hname).trans h.known⟩
  | insert other document =>
      have hname : name ≠ other := fun hname => of_decide_eq_false hevent hname.symm
      exact ⟨h.disk, hroots, (Cache.get?_insert_of_ne first.cache document hname).trans h.known⟩
  | change disk => cases hevent

theorem after_filter (h : Alike name first second) (events : List Event) :
    Alike name (first.after events) (second.after (events.filter (·.concerns name))) := by
  induction events generalizing first second with
  | nil => exact h
  | cons event events ih =>
      cases hevent : event.concerns name with
      | true =>
          rw [List.filter_cons_of_pos hevent]
          exact ih (h.step hevent)
      | false =>
          rw [List.filter_cons_of_neg (Bool.not_eq_true _ ▸ hevent)]
          exact ih (h.step_left hevent)

end Alike

/-- A document that was loaded or put under a name is given from then on, whatever the disk holds,
until another one is put there. As long as there is none, a load gives the file below the first root
that has it, or fails with the path below the last root and changes nothing. What happens under
other names makes no difference. -/
theorem load_after (roots : List String) (disk : Disk) (events : List Event) (name : String) :
    let searched := if roots = [] then ["."] else roots
    let session := (start roots disk).after events
    (∀ document later, (∀ other, .insert name other ∉ later) →
      session.load name = .ok document →
        ((session.step (.load name)).after later).load name = .ok document) ∧
    (∀ document later, (∀ other, .insert name other ∉ later) →
      ((session.step (.insert name document)).after later).load name = .ok document) ∧
    ((start roots disk).Unobtained name events →
      (∀ document,
        session.load name = .ok document ↔ FoundBelow session.disk searched name document) ∧
      (MissingBelow session.disk searched name →
        (∃ last cause, searched.getLast? = some last ∧
          session.disk.readText (joinPath last name) = .error cause ∧
          session.load name = .error (.unreadable (joinPath last name) cause)) ∧
        session.step (.load name) = session ∧
        ∀ disk' document, FoundBelow disk' searched name document →
          ((session.step (.load name)).step (.change disk')).load name = .ok document)) ∧
    session.load name =
      ((start roots disk).after (events.filter (·.concerns name))).load name := by
  intro searched session
  have hroots : session.cache.roots = searched := after_roots events
  have hsearched : searched ≠ [] := Cache.roots_ofRoots_ne_nil roots
  refine ⟨fun document later hlater hload => ?_, fun document later hlater => ?_,
    fun hunobtained => ?_, ?_⟩
  · refine load_of_known (known?_after_of_known ?_ hlater)
    rw [known?_step_load, hload]
    rfl
  · exact load_of_known (known?_after_of_known (known?_step_insert session name document) hlater)
  · have hunknown : session.known? name = none := hunobtained.known?_after rfl
    have hload := load_of_unknown hunknown
    rw [hroots] at hload
    refine ⟨fun document => by rw [hload, Cache.readBelow_eq_ok_iff], fun hmissing => ?_⟩
    obtain ⟨cause, hcause, hread⟩ := Cache.exists_readBelow_eq_error hmissing hsearched
    have hstep := step_load_of_error (hload.trans hread)
    refine ⟨⟨_, cause, List.getLast?_eq_some_getLast hsearched, hcause, hload.trans hread⟩, hstep,
      fun disk' document hfound => ?_⟩
    have hchanged : (session.step (.change disk')).known? name = none := hunknown
    rw [hstep, load_of_unknown hchanged, step_roots, hroots]
    exact Cache.readBelow_eq_ok_iff.2 hfound
  · exact (Alike.after_filter ⟨rfl, rfl, rfl⟩ events).load_eq

/-- A file that is not there at first is loaded once it appears, and is known after its removal. -/
theorem load_after_removal :
    let empty := Snapshot.disk []
    let filled := Snapshot.disk [("b/x", ⟨.ok [0x78], some .file⟩)]
    let session := (start ["a", "b"] empty).after
      [.load "x", .insert "y" ⟨"y", ""⟩, .change filled]
    session.load "x" = .ok ⟨"b/x", "x"⟩ ∧
      ((session.step (.load "x")).after [.change empty, .load "x"]).load "x" =
        .ok ⟨"b/x", "x"⟩ := by
  intro empty filled session
  obtain ⟨hkept, -, hnew, -⟩ :=
    load_after ["a", "b"] empty [.load "x", .insert "y" ⟨"y", ""⟩, .change filled] "x"
  have hfound : session.load "x" = .ok ⟨"b/x", "x"⟩ := by
    refine ((hnew ?_).1 _).2 ⟨["a"], "b", [], rfl, ?_, rfl, rfl⟩
    · have hfails : (start ["a", "b"] empty).load "x" =
          .error (.unreadable "b/x" .missing) := rfl
      simp [unobtained_cons, unobtained_nil, hfails]
    · simpa using ⟨.missing, rfl⟩
  exact ⟨hfound, hkept _ _ (by simp) hfound⟩

end Session

end AccessRules.Files
