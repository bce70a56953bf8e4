import AccessRules.Proofs.Requirement.AccessBody
import AccessRules.Proofs.Source.Parts
import AccessRules.Proofs.Source.Statement
import AccessRules.Extraction.Requirement

/-!
# Files with services

A definition file as it is written, with any services and any methods in them; two services may
have methods with the same name. What is read for a name is what its first declaration in the file
states, whichever service that one belongs to (`FileText.eq_of_ofDocument`,
`FileText.ofDocument_eq`).
-/

namespace AccessRules

open Files Source Text Requirement

/-- A method that states its requirement in an access option, and what stands in front of it. -/
structure MethodText where
  before : Statements
  signature : Signature
  lead : Statements
  head : OptionHead
  beforeBlock : Gap
  requirement : Requirement
  /-- The requirement can be read back from its notation. -/
  readable : Requirement.read requirement.blockText = .ok requirement
  afterBlock : Gap
  tail : Statements

/-- A service, and what stands in front of it and behind its last method. -/
structure ServiceBlock where
  before : Statements
  afterService : Gap
  name : Word
  afterName : Gap
  methods : List MethodText
  after : Statements

/-- A definition file. -/
structure FileText where
  services : List ServiceBlock
  after : Statements

namespace MethodText

variable (m : MethodText)

/-- The name of the method. -/
def name : Word :=
  m.signature.name

/-- What stands between the braces of the method. -/
def body : AccessBody where
  lead := m.lead.text
  head := m.head
  beforeBlock := m.beforeBlock
  requirement := m.requirement
  afterBlock := m.afterBlock
  tail := m.tail.text

/-- The method as a part of the file. -/
def part : Part :=
  .method m.signature m.body.text

/-- Whether the braces are balanced in the body, and in the block of the access option. -/
def Braced : Prop :=
  Balanced m.body.text ∧ Balanced m.body.block

end MethodText

namespace ServiceBlock

variable (s : ServiceBlock)

/-- What stands in front of the methods. -/
def opening : Text :=
  s.before.text ++ ("service".toList ++ (s.afterService.text ++ (s.name.text ++
    (s.afterName.text ++ ['{']))))

/-- The service in parts. -/
def parts : List Part :=
  .between s.opening :: (s.methods.flatMap (fun m => [.between m.before.text, m.part]) ++
    [.between (s.after.text ++ ['}'])])

end ServiceBlock

namespace FileText

variable (f : FileText)

/-- The methods of the file, each with its service. -/
def declared : List (ServiceBlock × MethodText) :=
  f.services.flatMap fun s => s.methods.map fun m => (s, m)

/-- The methods of the file. -/
def methods : List MethodText :=
  f.services.flatMap ServiceBlock.methods

/-- The first method of the file that is called `name`. -/
def first? (name : Text) : Option MethodText :=
  f.methods.find? (·.name.text = name)

/-- The file in parts. -/
def parts : List Part :=
  f.services.flatMap ServiceBlock.parts ++ [.between f.after.text]

/-- The file as it is written. -/
def text : Text :=
  written f.parts

/-- Whether the file has no comments, states its requirements in the access option, and holds
nothing that is read in the place of them: no head of the option in front of it in a body, and no
head of a method in front of its first declaration. Texts inside quotes are read like any other. -/
structure WellFormed (option : String) : Prop where
  uncommented : Uncommented f.text
  option_eq : ∀ m ∈ f.methods, option.toList = m.head.name.text
  first : ∀ m ∈ f.methods, ¬ m.head.name.StandsIn m.lead.text
  unmentioned : ∀ m ∈ f.methods, ∀ part ∈ f.parts.takeWhile (!·.declares m.name.text),
    ¬ Mentions m.name.text part.inner

end FileText

/-! ## Methods -/

namespace MethodText

theorem braced_of_parts {m : MethodText} (hlead : Balanced m.lead.text)
    (hblock : Balanced m.body.block) (htail : Balanced m.tail.text) : m.Braced := by
  have htext : m.body.text =
      m.lead.text ++ (m.head.stem ++ '{' :: (m.body.block ++ '}' :: m.tail.text)) := by
    simp [AccessBody.text, body, OptionHead.text]
  refine ⟨?_, hblock⟩
  rw [htext]
  exact hlead.append (m.head.balanced_stem.append (.braces hblock htail))

theorem firstOption {m : MethodText} (h : ¬ m.head.name.StandsIn m.lead.text) :
    m.body.FirstOption :=
  fun _ => m.lead.complete.misses_optionHead h [] _

theorem complete_body (m : MethodText) : Complete m.body.text := by
  have htext : m.body.text =
      (m.lead.text ++ (m.head.text ++ m.body.block)) ++ '}' :: m.tail.text := by
    simp [AccessBody.text, body]
  rw [htext]
  exact .of_append_cons _ (by simp) m.tail.complete

end MethodText

/-! ## First declarations -/

section

variable {name : Text}

@[simp] theorem MethodText.declares_part (m : MethodText) :
    m.part.declares name = decide (m.name.text = name) := rfl

theorem find?_methods (methods : List MethodText) :
    (methods.flatMap fun m => [Part.between m.before.text, m.part]).find? (·.declares name) =
      (methods.find? (·.name.text = name)).map MethodText.part := by
  induction methods with
  | nil => rfl
  | cons m methods ih =>
      rw [List.flatMap_cons, List.find?_append, ih]
      by_cases h : m.name.text = name <;> simp [h]

theorem ServiceBlock.find?_parts (s : ServiceBlock) : s.parts.find? (·.declares name) =
    (s.methods.find? (·.name.text = name)).map MethodText.part := by
  rw [parts, List.find?_cons_of_neg (by simp), List.find?_append, find?_methods]
  simp

/-- The first part that declares a name is the first method with that name. -/
theorem FileText.find?_parts (f : FileText) (name : Text) :
    f.parts.find? (·.declares name) = (f.first? name).map MethodText.part := by
  have hservices : ∀ services : List ServiceBlock,
      (services.flatMap ServiceBlock.parts).find? (·.declares name) =
        ((services.flatMap ServiceBlock.methods).find? (·.name.text = name)).map
          MethodText.part := by
    intro services
    induction services with
    | nil => rfl
    | cons s services ih =>
        rw [List.flatMap_cons, List.find?_append, s.find?_parts, ih, List.flatMap_cons,
          List.find?_append, Option.map_or]
  rw [parts, List.find?_append, hservices, first?, methods]
  simp

end

namespace FileText

variable {f : FileText} {option : String} {m : MethodText}

theorem first?_eq_self {i : Nat} (hi : f.methods[i]? = some m)
    (h : ∀ other ∈ f.methods.take i, other.name.text ≠ m.name.text) :
    f.first? m.name.text = some m := by
  obtain ⟨hlt, rfl⟩ := List.getElem?_eq_some_iff.1 hi
  refine List.find?_eq_some_iff_append.2 ⟨decide_eq_true rfl, f.methods.take i,
    f.methods.drop (i + 1), ?_, fun other hother => by simpa using h other hother⟩
  rw [← List.drop_eq_getElem_cons hlt, List.take_append_drop]

theorem complete_parts (f : FileText) : ∀ part ∈ f.parts, Complete part.inner := by
  intro part hpart
  simp only [parts, List.mem_append, List.mem_flatMap, List.mem_singleton] at hpart
  rcases hpart with ⟨s, -, hpart⟩ | rfl
  · simp only [ServiceBlock.parts, List.mem_cons, List.mem_append, List.mem_flatMap,
      List.not_mem_nil, or_false] at hpart
    rcases hpart with rfl | ⟨m, -, rfl | rfl⟩ | rfl
    · have htext : s.opening = (s.before.text ++ ("service".toList ++ (s.afterService.text ++
          (s.name.text ++ s.afterName.text)))) ++ ['{'] := by
        unfold ServiceBlock.opening
        simp only [List.append_assoc]
      rw [Part.inner, htext]
      exact .ended _ .none (by simp)
    · exact m.before.complete
    · exact m.complete_body
    · exact .ended _ .none (by simp)
  · exact f.after.complete

/-- No part in front of the first method with a name reads as a method with that name. -/
theorem exists_parts (hwell : f.WellFormed option) (hfirst : f.first? m.name.text = some m) :
    ∃ pre post, f.parts = pre ++ .method m.signature m.body.text :: post ∧
      (∀ part ∈ pre, part.Silent m.name) ∧ Boundary (written pre) := by
  have hfind := f.find?_parts m.name.text
  rw [hfirst, Option.map_some] at hfind
  obtain ⟨hm, pre, post, hparts, hpre⟩ := List.find?_eq_some_iff_append.1 hfind
  have hbefore : f.parts.takeWhile (!·.declares m.name.text) = pre := by
    rw [hparts, List.takeWhile_append_of_pos hpre, List.takeWhile_cons_of_neg (by simp [hm]),
      List.append_nil]
  have hunmentioned := hwell.unmentioned m (List.mem_of_find?_eq_some hfirst)
  rw [hbefore] at hunmentioned
  have hcomplete : ∀ part ∈ pre, Complete part.inner := fun part hpart =>
    f.complete_parts part (by simp [hparts, hpart])
  refine ⟨pre, post, hparts, fun part hpart => ?_, boundary_written fun part hpart =>
    Part.boundary_of_complete (hcomplete part hpart)⟩
  exact Part.silent_of_complete (hcomplete part hpart) (by simpa using hpre part hpart)
    (hunmentioned part hpart)

/-- A name that no method has, and that no part mentions, is not found. -/
theorem ofDocument_eq_error {name : Word} (hname : ∀ m ∈ f.methods, m.name.text ≠ name.text)
    (h : ∀ part ∈ f.parts, ¬ Mentions name.text part.inner) (option path : String) :
    Requirement.ofDocument option ⟨path, String.ofList f.text⟩ (String.ofList name.text) =
      .error (.methodNotFound (String.ofList name.text) path) := by
  have hfirst : f.first? name.text = none :=
    List.find?_eq_none.2 fun m hm => by simpa using hname m hm
  have hfind := f.find?_parts name.text
  rw [hfirst, Option.map_none, List.find?_eq_none] at hfind
  have hsilent : ∀ part ∈ f.parts, part.Silent name := fun part hpart =>
    Part.silent_of_complete (f.complete_parts part hpart) (by simpa using hfind part hpart)
      (h part hpart)
  have hlocate : locate f.text name.text = .notFound :=
    locate_eq_notFound (headless_written hsilent [])
  rw [Requirement.ofDocument, String.toList_ofList, String.toList_ofList, hlocate]

/-- Whatever is read for a name is what its first declaration states. -/
theorem eq_of_ofDocument (hwell : f.WellFormed option) (hfirst : f.first? m.name.text = some m)
    {path : String} {requirement : Requirement}
    (hread : Requirement.ofDocument option ⟨path, String.ofList f.text⟩
      (String.ofList m.name.text) = .ok requirement) : requirement = m.requirement := by
  have hm := List.mem_of_find?_eq_some hfirst
  obtain ⟨pre, post, hparts, hsilent, hboundary⟩ := exists_parts hwell hfirst
  have hu := hwell.uncommented
  rw [text, hparts] at hu
  rw [Requirement.ofDocument, String.toList_ofList, String.toList_ofList, text, hparts,
    MethodText.name, locate_written hsilent hboundary (by rw [hu.ofText]; rfl)] at hread
  cases hn : closingIndex? 0 (m.body.text ++ '}' :: written post) with
  | none => simp [hn] at hread
  | some n =>
      obtain ⟨s, hs⟩ := exists_of_closingIndex? hn
      rw [hn] at hread
      have hbody : Uncommented ((m.body.text ++ '}' :: written post).take n) := by
        refine hu.part ((List.take_prefix n _).isInfix.trans ?_)
        exact ⟨written pre ++ (m.signature.text ++ ['{']), [], by simp [Part.text]⟩
      exact AccessBody.eq_of_read_body (MethodText.firstOption (hwell.first m hm))
        (hwell.option_eq m hm) m.readable hbody hs hread

/-- Where the braces of the first declaration are balanced, what it states is read. -/
theorem ofDocument_eq (hwell : f.WellFormed option) (hfirst : f.first? m.name.text = some m)
    (hbraced : m.Braced) (path : String) :
    Requirement.ofDocument option ⟨path, String.ofList f.text⟩ (String.ofList m.name.text) =
      .ok m.requirement := by
  have hm := List.mem_of_find?_eq_some hfirst
  obtain ⟨pre, post, hparts, hsilent, hboundary⟩ := exists_parts hwell hfirst
  have hu := hwell.uncommented
  rw [text, hparts] at hu
  have hbody : Uncommented m.body.text := by
    refine hu.part ⟨written pre ++ (m.signature.text ++ ['{']), '}' :: written post, ?_⟩
    simp [Part.text]
  rw [Requirement.ofDocument, String.toList_ofList, String.toList_ofList, text, hparts,
    MethodText.name, locate_eq_block hsilent hboundary (by rw [hu.ofText]; rfl) hbraced.1]
  exact (AccessBody.read_text (MethodText.firstOption (hwell.first m hm)) (hwell.option_eq m hm) _
    hbody hbraced.2).trans m.readable

/-- Inside quotes, a head of the access option takes the place of the option behind it. -/
example : Requirement.ofDocument "x" ⟨"a.proto",
    "rpc A() returns () \x7b option (y) = \"option (x) = \x7b permissions: [c] \x7d\"; " ++
      "option (x) = \x7b permissions: [\"a\"] \x7d; \x7d"⟩ "A" = .ok ⟨["c"], false⟩ := by
  decide +kernel

/-- Inside quotes, a head of a method takes the place of its declaration further down. -/
example : Requirement.ofDocument "x" ⟨"a.proto",
    "rpc A() returns () \x7b option (y) = \"rpc B() returns () \x7b\"; " ++
      "option (x) = \x7b permissions: [\"a\"] \x7d; \x7d " ++
      "rpc B() returns () \x7b option (x) = \x7b permissions: [\"b\"] \x7d; \x7d"⟩ "B" =
    .ok ⟨["a"], false⟩ := by
  decide +kernel

end FileText

end AccessRules
