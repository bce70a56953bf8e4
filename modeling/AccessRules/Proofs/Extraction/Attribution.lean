import AccessRules.Proofs.Extraction.FileText
import AccessRules.Proofs.Extraction.KnownText
import AccessRules.Proofs.Extraction.Visit

/-!
# The declaration behind a rule

The compiled file says to which service a method belongs, but its requirement is looked for by the
name of the method only. So the rule of a method states what the first declaration of that name in
the file asks for: the one in its own service, unless a service further up has a method of that name
(`rules_attributed`).
-/

namespace AccessRules

open Files Source Text Requirement Schema

/-! ## Methods of the text and of the compiled file -/

namespace FileText

/-- Whether a compiled file has the services and the methods of the text, in the same order. -/
def Matches (f : FileText) (file : Schema.File) : Prop :=
  file.services.map (fun service => (service.name, service.methods.map Method.name)) =
    f.services.map fun s =>
      (String.ofList s.name.text, s.methods.map fun m => String.ofList m.name.text)

variable {f : FileText} {file : Schema.File} {own : MethodText}

theorem Matches.rpcs_eq (h : f.Matches file) :
    file.rpcs.map (fun entry => (entry.1, entry.2.name)) = f.declared.map fun entry =>
      (String.ofList entry.1.name.text, String.ofList entry.2.name.text) := by
  have hflat := congrArg (List.flatMap fun entry : String × List String =>
    entry.2.map fun name => (entry.1, name)) h
  simp only [List.flatMap_map, List.map_map] at hflat
  simp only [File.rpcs, Service.rpcs, declared, List.map_flatMap, List.map_map]
  exact hflat

theorem methods_eq : f.methods = f.declared.map Prod.snd := by
  simp [methods, declared, List.map_flatMap, Function.comp_def]

theorem exists_first? (h : own ∈ f.methods) : ∃ first, f.first? own.name.text = some first ∧
    first.name.text = own.name.text := by
  have hsome : (f.first? own.name.text).isSome := List.find?_isSome.2 ⟨own, h, by simp⟩
  obtain ⟨first, hfirst⟩ := Option.isSome_iff_exists.1 hsome
  exact ⟨first, hfirst, by simpa using List.find?_some hfirst⟩

end FileText

/-! ## Rules -/

namespace Extractor

/-- Whether the rule of a method is what a declaration asks for: no other rule is extracted, and
where the braces of the declaration are balanced, that one is for every binding. -/
structure TakesFrom (extractor : Extractor) (disk : Disk) (cache : Cache) (service : String)
    (rpc : Rpc) (m : MethodText) : Prop where
  eq_of_rule : ∀ rule, (extractor.visit disk cache service rpc).1 = .ok rule →
    ∃ binding, extractor.binding rpc = .ok binding ∧ rule = .of binding m.requirement
  rule_eq : m.Braced → ∀ binding, extractor.binding rpc = .ok binding →
    (extractor.visit disk cache service rpc).1 = .ok (.of binding m.requirement)

variable {extractor : Extractor} {disk : Disk} {cache : Cache} {f : FileText} {path : String}

/-- The rule of a method is what the first declaration of its name asks for. -/
theorem takesFrom_first {rpc : Rpc} {m : MethodText}
    (hload : (cache.load disk rpc.file).1 = .ok ⟨path, String.ofList f.text⟩)
    (hwell : f.WellFormed extractor.accessOption) (hfirst : f.first? m.name.text = some m)
    (hname : String.ofList m.name.text = rpc.name) (service : String) :
    extractor.TakesFrom disk cache service rpc m where
  eq_of_rule rule hrule := by
    rw [extractor.visit_eq disk service hload, outcome, ← hname] at hrule
    cases hread : Requirement.ofDocument extractor.accessOption ⟨path, String.ofList f.text⟩
      (String.ofList m.name.text) with
    | error failure => simp [hread] at hrule
    | ok requirement =>
        obtain rfl := FileText.eq_of_ofDocument hwell hfirst hread
        cases hbinding : extractor.binding rpc with
        | error failure => simp [hread, hbinding] at hrule
        | ok binding =>
            simp only [hread, hbinding, Except.ok.injEq] at hrule
            exact ⟨binding, rfl, hrule.symm⟩
  rule_eq hbraced binding hbinding := by
    rw [extractor.visit_eq disk service hload, outcome, ← hname,
      FileText.ofDocument_eq hwell hfirst hbraced, hbinding]

end Extractor

/-- The rules of a file are those of its methods, in their order. The rule of the method that is
declared at a place states what the first declaration with its name asks for, and that one is its
own if no method in front of it has the name. -/
theorem rules_attributed {extractor : Extractor} {disk : Disk} {cache : Cache} {f : FileText}
    {file : Schema.File} {path : String}
    (hload : (cache.load disk file.name).1 = .ok ⟨path, String.ofList f.text⟩)
    (hwell : f.WellFormed extractor.accessOption) (hmatches : f.Matches file) :
    (extractor.file disk cache file).1.rules = file.rpcs.filterMap (fun entry =>
        (extractor.visit disk cache entry.1 entry.2).1.rule?) ∧
      ∀ (i : Nat) (service : String) (rpc : Rpc), file.rpcs[i]? = some (service, rpc) →
        ∃ block own first, f.declared[i]? = some (block, own) ∧
          String.ofList block.name.text = service ∧ String.ofList own.name.text = rpc.name ∧
          f.first? own.name.text = some first ∧
          extractor.TakesFrom disk cache service rpc first ∧
          ((∀ other ∈ f.methods.take i, other.name.text ≠ own.name.text) → first = own) := by
  refine ⟨extractor.file_rules_eq disk hload, fun i service rpc hi => ?_⟩
  have hentry : (f.declared.map fun entry =>
      (String.ofList entry.1.name.text, String.ofList entry.2.name.text))[i]? =
        some (service, rpc.name) := by
    rw [← hmatches.rpcs_eq, List.getElem?_map, hi]
    rfl
  rw [List.getElem?_map, Option.map_eq_some_iff] at hentry
  obtain ⟨⟨block, own⟩, hdeclared, hnames⟩ := hentry
  obtain ⟨hservice, hname⟩ := Prod.mk.inj hnames
  have hown : f.methods[i]? = some own := by
    rw [FileText.methods_eq, List.getElem?_map, hdeclared]
    rfl
  obtain ⟨first, hfirst, hsame⟩ := FileText.exists_first? (List.mem_of_getElem? hown)
  have hfile : rpc.file = file.name :=
    Extractor.file_rpcs file _ (List.mem_of_getElem? hi)
  refine ⟨block, own, first, hdeclared, hservice, hname, hfirst,
    Extractor.takesFrom_first (hfile ▸ hload) hwell (hsame ▸ hfirst) (hsame ▸ hname) service,
    fun hnone => ?_⟩
  exact Option.some.inj (hfirst.symm.trans (FileText.first?_eq_self hown hnone))

/-! ## Two services -/

/-- A method that asks for one permission. -/
def askFor (name : Word) (permission : String) (h : Plain permission.toList) : MethodText where
  before := ⟨_, .gap .space⟩
  signature := .spaced name ⟨['A'], by decide, by decide⟩ ⟨['B'], by decide, by decide⟩
  lead := ⟨_, .gap .space⟩
  head := accessHead
  beforeBlock := .space
  requirement := ⟨[permission], false⟩
  readable := read_blockText (by simpa using h)
  afterBlock := .space
  tail := ⟨_, .ended [] .space (.inl rfl)⟩

theorem braced_askFor {name : Word} {permission : String} (h : Plain permission.toList) :
    (askFor name permission h).Braced :=
  MethodText.braced_of_parts (balanced_gap .space)
    (AccessBody.balanced_block (by simpa [askFor, MethodText.body] using h))
    (.plain (by decide) (by decide) (balanced_gap .space))

theorem plain_letters : Plain "a".toList ∧ Plain "b".toList :=
  ⟨⟨by decide, by decide, by unfold flagName; decide +kernel⟩,
    ⟨by decide, by decide, by unfold flagName; decide +kernel⟩⟩

/-- A file with two services, each with one method. -/
def twoServices (first second : Word) : FileText where
  services := [
    ⟨⟨_, .gap .none⟩, .space, ⟨"First".toList, by decide, by decide⟩, .space,
      [askFor first "a" plain_letters.1], ⟨_, .gap .space⟩⟩,
    ⟨⟨_, .gap .space⟩, .space, ⟨"Second".toList, by decide, by decide⟩, .space,
      [askFor second "b" plain_letters.2], ⟨_, .gap .space⟩⟩]
  after := ⟨_, .gap .none⟩

/-- The extension that holds bindings. -/
def bindingExtension : Extension where
  name := defaultBindingExtension
  extendee := methodOptionsName
  field := ⟨"http", 72295728, .message "google.api.HttpRule", false, true, none, none⟩

/-- A pool in which methods can be bound to paths. -/
def bindingPool : Pool where
  messages :=
    [⟨"google.api.HttpRule", [⟨"get", 2, .scalar .text, false, true, none, some 0⟩], false⟩]
  extensions := [bindingExtension]

/-- The options of a method that is bound to a path. -/
def boundOptions (path : String) : Message where
  type := methodOptionsName
  fields := [(72295728, .message "google.api.HttpRule" [(2, .datum (.text path))])]

/-- The compiled file of two services. -/
def twoServicesFile (first second : Word) : Schema.File where
  name := "two.proto"
  services := [⟨"First", [⟨String.ofList first.text, boundOptions "/a"⟩]⟩,
    ⟨"Second", [⟨String.ofList second.text, boundOptions "/b"⟩]⟩]
  extensions := []

/-- The setup that has the text of two services. -/
def twoServicesSetup (first second : Word) : Setup :=
  Setup.withText {} defaultOption "two.proto" (twoServices first second).text

section

variable (first second : Word)

theorem eq_of_mem_twoServices {m : MethodText} (h : m ∈ (twoServices first second).methods) :
    m = askFor first "a" plain_letters.1 ∨ m = askFor second "b" plain_letters.2 := by
  simpa [twoServices, FileText.methods] using h

theorem wellFormed_twoServices (h : '/' ∉ (twoServices first second).text) :
    (twoServices first second).WellFormed defaultOption where
  uncommented := uncommented_of_not_mem h
  option_eq := by
    intro m hm
    rcases eq_of_mem_twoServices first second hm with rfl | rfl <;> rfl
  first := by
    intro m hm
    have hlead : '{' ∉ Gap.space.text := by decide
    rcases eq_of_mem_twoServices first second hm with rfl | rfl
    · exact OptionName.not_standsIn_of_not_mem hlead
    · exact OptionName.not_standsIn_of_not_mem hlead
  unmentioned := by
    have hparts : (twoServices first second).parts.map Part.inner =
        (twoServices ⟨['A'], by decide, by decide⟩ ⟨['A'], by decide, by decide⟩).parts.map
          Part.inner := rfl
    have hall : ∀ w ∈ (twoServices ⟨['A'], by decide, by decide⟩
        ⟨['A'], by decide, by decide⟩).parts.map Part.inner, ¬ "rpc".toList <:+: w := by
      decide +kernel
    intro m _ part hpart
    have hinner : part.inner ∈ (twoServices first second).parts.map Part.inner :=
      List.mem_map_of_mem ((List.takeWhile_sublist _).subset hpart)
    exact not_mentions_of_not_infix (hall _ (hparts ▸ hinner))

theorem matches_twoServices :
    (twoServices first second).Matches (twoServicesFile first second) := by
  rfl

/-- Where both methods give a rule, these are the rules of the file. -/
theorem filterMap_twoServicesFile {outcome : String × Rpc → Outcome} {rule rule' : Rule}
    (h : outcome ("First", ⟨String.ofList first.text, "two.proto", boundOptions "/a"⟩) = .ok rule)
    (h' : outcome ("Second", ⟨String.ofList second.text, "two.proto", boundOptions "/b"⟩) =
      .ok rule') :
    (twoServicesFile first second).rpcs.filterMap (fun entry => (outcome entry).rule?) =
      [rule, rule'] := by
  have hrpcs : (twoServicesFile first second).rpcs =
      [("First", ⟨String.ofList first.text, "two.proto", boundOptions "/a"⟩),
        ("Second", ⟨String.ofList second.text, "two.proto", boundOptions "/b"⟩)] := rfl
  simp [hrpcs, h, h', Outcome.rule?]

theorem load_twoServices (disk : Disk) :
    ((twoServicesSetup first second).cache.load disk (twoServicesFile first second).name).1 =
      .ok ⟨"two.proto", String.ofList (twoServices first second).text⟩ := by
  rw [twoServicesSetup, twoServicesFile, Setup.load_withText]

theorem binding_boundOptions (name path : String) :
    ((twoServicesSetup first second).extractor bindingPool).binding
      ⟨name, "two.proto", boundOptions path⟩ = .ok ⟨.get, path⟩ := by
  have hextension : bindingPool.extensionNamed? defaultBindingExtension =
      some bindingExtension := by
    decide +kernel
  have hextractor : (twoServicesSetup first second).extractor bindingPool =
      ⟨defaultOption, some bindingExtension, bindingPool⟩ := by
    rw [← hextension]
    rfl
  rw [Extractor.binding, hextractor]
  simp [Binding.read, Binding.ofMessage?, Binding.verbFields, Binding.path?, boundOptions,
    bindingExtension, bindingPool, Message.get?, Types.message?, MessageType.fieldNamed?,
    Value.asMessage?, Value.asText?]

end

/-- Each of two services with different methods has the rule that it asks for. -/
theorem rules_differentNames :
    let first : Word := ⟨['A'], by decide, by decide⟩
    let second : Word := ⟨['B'], by decide, by decide⟩
    let setup := twoServicesSetup first second
    (twoServices first second).text =
        "service First \x7b rpc A(A) returns (B) \x7b option (proto.v1.authz) = \x7b ".toList ++
          "permissions: [\"a\"]\nno_auth_required: false \x7d; \x7d \x7d ".toList ++
        "service Second \x7b rpc B(A) returns (B) \x7b option (proto.v1.authz) = \x7b ".toList ++
          "permissions: [\"b\"]\nno_auth_required: false \x7d; \x7d \x7d".toList ∧
      ((setup.extractor bindingPool).file .empty setup.cache
          (twoServicesFile first second)).1.rules =
        [⟨"/a", .get, ["a"], false⟩, ⟨"/b", .get, ["b"], false⟩] := by
  intro first second setup
  obtain ⟨hrules, hall⟩ := @rules_attributed (setup.extractor bindingPool) .empty setup.cache
    (twoServices first second) (twoServicesFile first second) _
    (load_twoServices first second .empty)
    (wellFormed_twoServices first second (by decide +kernel)) (matches_twoServices first second)
  obtain ⟨_, _, m, hm, -, -, -, htakes, hown⟩ := hall 0 "First"
    ⟨String.ofList first.text, "two.proto", boundOptions "/a"⟩ rfl
  obtain ⟨_, _, m', hm', -, -, -, htakes', hown'⟩ := hall 1 "Second"
    ⟨String.ofList second.text, "two.proto", boundOptions "/b"⟩ rfl
  cases hm
  cases hm'
  obtain rfl := hown (by decide +kernel)
  obtain rfl := hown' (by decide +kernel)
  have hfirst := htakes.rule_eq (braced_askFor _) _ (binding_boundOptions first second _ _)
  have hsecond := htakes'.rule_eq (braced_askFor _) _ (binding_boundOptions first second _ _)
  refine ⟨by decide +kernel, ?_⟩
  rw [hrules]
  exact filterMap_twoServicesFile first second hfirst hsecond

/-- Of two services with a method of the same name, the second one gets what the first one asks
for. -/
theorem rules_sameName :
    let name : Word := ⟨"Get".toList, by decide, by decide⟩
    let setup := twoServicesSetup name name
    (twoServices name name).WellFormed defaultOption ∧
      (twoServices name name).Matches (twoServicesFile name name) ∧
      (twoServices name name).declared.map (fun entry =>
          (String.ofList entry.1.name.text, entry.2.requirement)) =
        [("First", ⟨["a"], false⟩), ("Second", ⟨["b"], false⟩)] ∧
      ((setup.extractor bindingPool).file .empty setup.cache (twoServicesFile name name)).1.rules =
        [⟨"/a", .get, ["a"], false⟩, ⟨"/b", .get, ["a"], false⟩] := by
  intro name setup
  have hwell := wellFormed_twoServices name name (by decide +kernel)
  have hload : (setup.cache.load .empty (twoServicesFile name name).name).1 = _ :=
    load_twoServices name name .empty
  have htakes : ∀ service path, (setup.extractor bindingPool).TakesFrom .empty setup.cache service
      ⟨String.ofList name.text, "two.proto", boundOptions path⟩ (askFor name "a" plain_letters.1) :=
    fun service path => Extractor.takesFrom_first hload hwell rfl rfl service
  have hrule := fun service path => (htakes service path).rule_eq (braced_askFor _) _
    (binding_boundOptions name name _ path)
  refine ⟨hwell, matches_twoServices name name, by decide +kernel, ?_⟩
  rw [Extractor.file_rules_eq _ _ hload]
  exact filterMap_twoServicesFile name name (hrule "First" "/a") (hrule "Second" "/b")

end AccessRules
