import AccessRules.Proofs.Extraction.FileText
import AccessRules.Proofs.Extraction.KnownText

/-!
# Services as they are written

A service whose methods state plain requirements, with any gaps between its tokens. An extractor
that has the service as the text of a file gives every method its own requirement, and no other name
any (`ServiceText.requirement_eq`).
-/

namespace AccessRules

open Files Source Text Requirement Schema

/-- The type of a message as it is written, with `stream` in front of it or without. -/
structure TypeText where
  text : Text
  chars : ∀ c ∈ text, isWord c = true ∨ isBlank c = true ∨ c = '.'

theorem TypeText.not_mem (t : TypeText) {c : Char}
    (hc : isWord c = false ∧ isBlank c = false ∧ c ≠ '.') : c ∉ t.text := by
  intro h
  rcases t.chars c h with hw | hb | rfl
  · simp [hw] at hc
  · simp [hb] at hc
  · exact hc.2.2 rfl

/-- A message type between parentheses. -/
def TypeText.argument (t : TypeText) : Argument where
  text := t.text
  not_opens := t.not_mem (by decide)
  not_closes := t.not_mem (by decide)

/-- A method that states a plain requirement, and the gap in front of it. -/
structure AccessMethod where
  before : Gap
  afterRpc : Gap
  afterRpc_ne_nil : afterRpc.text ≠ []
  name : Word
  afterName : Gap
  request : TypeText
  afterRequest : Gap
  afterReturns : Gap
  response : TypeText
  afterResponse : Gap
  beforeOption : Gap
  head : OptionHead
  beforeBlock : Gap
  requirement : Requirement
  plain : ∀ permission ∈ requirement.permissions, Plain permission.toList
  afterBlock : Gap
  afterOption : Gap
  afterStatement : Gap

namespace AccessMethod

/-- The signature of the method. -/
def signature (m : AccessMethod) : Signature where
  afterRpc := m.afterRpc
  afterRpc_ne_nil := m.afterRpc_ne_nil
  name := m.name
  afterName := m.afterName
  request := m.request.argument
  afterRequest := m.afterRequest
  afterReturns := m.afterReturns
  response := m.response.argument
  afterResponse := m.afterResponse

/-- The method as it stands in a file. -/
def methodText (m : AccessMethod) : MethodText where
  before := ⟨m.before.text, .gap m.before⟩
  signature := m.signature
  lead := ⟨m.beforeOption.text, .gap m.beforeOption⟩
  head := m.head
  beforeBlock := m.beforeBlock
  requirement := m.requirement
  readable := read_blockText m.plain
  afterBlock := m.afterBlock
  tail := ⟨m.afterOption.text ++ ';' :: m.afterStatement.text, .ended _ _ (.inl rfl)⟩

end AccessMethod

/-- A service as it is written, all of whose methods state plain requirements. -/
structure ServiceText where
  option : OptionName
  afterService : Gap
  name : Word
  afterName : Gap
  methods : List AccessMethod
  afterMethods : Gap
  option_eq : ∀ m ∈ methods, m.head.name = option
  distinct : (methods.map fun m => m.name.text).Nodup

namespace ServiceText

/-- The service as the only one in a file. -/
def fileText (s : ServiceText) : FileText where
  services := [{
    before := ⟨[], .gap .none⟩
    afterService := s.afterService
    name := s.name
    afterName := s.afterName
    methods := s.methods.map AccessMethod.methodText
    after := ⟨s.afterMethods.text, .gap s.afterMethods⟩ }]
  after := ⟨[], .gap .none⟩

/-- The service as it is written. -/
def text (s : ServiceText) : Text :=
  s.fileText.text

end ServiceText

/-! ## Methods -/

namespace AccessMethod

variable (m : AccessMethod)

theorem not_mem_block {d : Char} (hd : isWord d = false ∧ d ≠ '.' ∧ d ≠ ':' ∧ d ≠ '-')
    (hmark : isBlank d = false ∧ d ≠ '[' ∧ d ≠ ']' ∧ d ≠ ',' ∧ d ≠ '"') :
    d ∉ m.methodText.body.block :=
  AccessBody.not_mem_block m.plain hd hmark

theorem braced : m.methodText.Braced := by
  have htail : Balanced (m.afterOption.text ++ ';' :: m.afterStatement.text) :=
    (balanced_gap _).append (.plain (by decide) (by decide) (balanced_gap _))
  exact MethodText.braced_of_parts (balanced_gap _) (AccessBody.balanced_block m.plain) htail

theorem not_mentions_body (name : Word) : ¬ Mentions name.text m.methodText.body.text := by
  have htail : Headless name.text ((m.afterOption.text ++ [';']) ++ m.afterStatement.text) [] :=
    headless_append.2 ⟨headless_closed (m.afterOption.not_mem (by decide)) (by decide),
      headless_gap _ _ _⟩
  have hclosed : Headless name.text (m.methodText.body.block ++ ['}'])
      (((m.afterOption.text ++ [';']) ++ m.afterStatement.text) ++ []) :=
    headless_closed (m.not_mem_block (by decide) (by decide)) (by decide)
  have htext : m.methodText.body.text = m.beforeOption.text ++ (m.head.text ++
      ((m.methodText.body.block ++ ['}']) ++
        ((m.afterOption.text ++ [';']) ++ m.afterStatement.text))) := by
    simp [AccessBody.text, MethodText.body, methodText]
  rw [htext]
  exact not_mentions_of_headless (headless_append.2 ⟨headless_gap _ _ _,
    headless_append.2 ⟨m.head.headless name _, headless_append.2 ⟨hclosed, htail⟩⟩⟩)

theorem slash_not_mem_part : '/' ∉ m.methodText.part.text := by
  have hgap : ∀ g : Gap, '/' ∉ g.text := fun g => g.not_mem (by decide)
  have htype : ∀ t : TypeText, '/' ∉ t.argument.text := fun t => t.not_mem (by decide)
  have hsignature : '/' ∉ m.signature.text :=
    Signature.not_mem_text (by decide) (by decide) (htype _) (htype _)
  have hoption : '/' ∉ m.head.text := by
    simp [OptionHead.text, OptionHead.stem_eq, hgap, m.head.name.not_mem (c := '/') (by decide)]
  have hblock : '/' ∉ m.methodText.body.block := m.not_mem_block (by decide) (by decide)
  have hbody : '/' ∉ m.methodText.body.text := by
    simp only [AccessBody.text, List.mem_append, List.mem_cons, not_or]
    exact ⟨hgap _, hoption, hblock, by decide, by simp [MethodText.body, methodText, hgap]⟩
  rw [MethodText.part, Part.text]
  simp only [List.mem_append, List.mem_cons, List.not_mem_nil, or_false, not_or]
  exact ⟨hsignature, by decide, hbody, by decide⟩

end AccessMethod

/-! ## Services -/

namespace ServiceText

variable (s : ServiceText)

theorem methods_fileText : s.fileText.methods = s.methods.map AccessMethod.methodText := by
  simp [FileText.methods, fileText]

/-- A part of a service is one of its methods, or holds neither a parenthesis nor a slash. -/
theorem mem_parts {part : Part} (h : part ∈ s.fileText.parts) :
    (∃ m : AccessMethod, part = m.methodText.part) ∨
      ∃ text, part = .between text ∧ '(' ∉ text ∧ '/' ∉ text := by
  have hservice : '(' ∉ "service".toList ∧ '/' ∉ "service".toList := by decide +kernel
  have hgap : ∀ g : Gap, '(' ∉ g.text ∧ '/' ∉ g.text := fun g =>
    ⟨g.not_mem (by decide), g.not_mem (by decide)⟩
  have hname : '(' ∉ s.name.text ∧ '/' ∉ s.name.text :=
    ⟨s.name.not_mem (by decide), s.name.not_mem (by decide)⟩
  simp only [FileText.parts, fileText, ServiceBlock.parts, List.flatMap_cons, List.flatMap_nil,
    List.append_nil, List.mem_append, List.mem_cons, List.mem_flatMap, List.mem_map,
    List.not_mem_nil, or_false] at h
  rcases h with (rfl | ⟨_, ⟨m, -, rfl⟩, rfl | rfl⟩ | rfl) | rfl
  · refine .inr ⟨_, rfl, ?_⟩
    unfold ServiceBlock.opening
    simp only [List.mem_append, List.mem_cons, List.not_mem_nil, or_false, not_or]
    exact ⟨⟨not_false, hservice.1, (hgap _).1, hname.1, (hgap _).1, by decide⟩,
      not_false, hservice.2, (hgap _).2, hname.2, (hgap _).2, by decide⟩
  · exact .inr ⟨_, rfl, hgap _⟩
  · exact .inl ⟨m, rfl⟩
  · refine .inr ⟨_, rfl, ?_⟩
    simp [hgap]
  · exact .inr ⟨_, rfl, by simp⟩

theorem not_mentions (name : Word) :
    ∀ part ∈ s.fileText.parts, ¬ Mentions name.text part.inner := by
  intro part hpart
  rcases s.mem_parts hpart with ⟨m, rfl⟩ | ⟨text, rfl, hopens, -⟩
  · exact m.not_mentions_body name
  · exact not_mentions_of_not_mem hopens

theorem uncommented : Uncommented s.text := by
  refine uncommented_of_not_mem fun h => ?_
  obtain ⟨part, hpart, hslash⟩ := List.mem_flatMap.1 h
  rcases s.mem_parts hpart with ⟨m, rfl⟩ | ⟨text, rfl, -, htext⟩
  · exact m.slash_not_mem_part hslash
  · exact htext hslash

theorem wellFormed : s.fileText.WellFormed (String.ofList s.option.text) where
  uncommented := s.uncommented
  option_eq := by
    rw [methods_fileText, List.forall_mem_map]
    intro m hm
    rw [String.toList_ofList, ← s.option_eq m hm]
    rfl
  first := by
    rw [methods_fileText, List.forall_mem_map]
    exact fun m _ => OptionName.not_standsIn_of_not_mem (m.beforeOption.not_mem (by decide))
  unmentioned := fun m _ part hpart =>
    s.not_mentions m.name part ((List.takeWhile_sublist _).subset hpart)

/-- Every method is the first one with its name. -/
theorem first?_eq_some {m : AccessMethod} (hm : m ∈ s.methods) :
    s.fileText.first? m.methodText.name.text = some m.methodText := by
  obtain ⟨pre, post, hmethods⟩ := List.append_of_mem hm
  have hdistinct := s.distinct
  rw [hmethods, List.map_append, List.map_cons, List.nodup_append] at hdistinct
  have hpre : ∀ other ∈ pre, other.name.text ≠ m.name.text := fun other hother =>
    hdistinct.2.2 _ (List.mem_map_of_mem hother) _ List.mem_cons_self
  rw [FileText.first?, methods_fileText, hmethods, List.map_append, List.map_cons]
  refine List.find?_eq_some_iff_append.2 ⟨decide_eq_true rfl, _, _, rfl, ?_⟩
  exact List.forall_mem_map.2 fun other hother =>
    congrArg not (decide_eq_false (hpre other hother))

end ServiceText

/-! ## Extraction -/

/-- A setup for the access option of a service that has the service as the text of a file. -/
def ServiceText.setup (s : ServiceText) (base : Setup) (file : String) : Setup :=
  base.withText (String.ofList s.option.text) file s.text

/-- From a written service every method gets the requirement that it states, and no other name is
found. -/
theorem ServiceText.requirement_eq (s : ServiceText) (base : Setup) (pool : Pool) (disk : Disk)
    (file : String) :
    (∀ m ∈ s.methods,
      ((s.setup base file).extractor pool).requirement disk (s.setup base file).cache file
          (String.ofList m.name.text) =
        (.ok m.requirement, (s.setup base file).cache)) ∧
    ∀ name : Word, (∀ m ∈ s.methods, m.name.text ≠ name.text) →
      ((s.setup base file).extractor pool).requirement disk (s.setup base file).cache file
          (String.ofList name.text) =
        (.error (.methodNotFound (String.ofList name.text) file), (s.setup base file).cache) := by
  constructor
  · intro m hm
    rw [setup, Setup.requirement_withText]
    exact congrArg (·, _) (FileText.ofDocument_eq s.wellFormed (s.first?_eq_some hm) m.braced file)
  · intro name hname
    have hmethods : ∀ m ∈ s.fileText.methods, m.name.text ≠ name.text := by
      rw [methods_fileText]
      exact List.forall_mem_map.2 hname
    rw [setup, Setup.requirement_withText]
    exact congrArg (·, _) (FileText.ofDocument_eq_error hmethods (s.not_mentions name) _ file)

/-- A method written with single spaces. -/
def AccessMethod.spaced (option : OptionName) (name : Word) (request response : TypeText)
    (requirement : Requirement)
    (plain : ∀ permission ∈ requirement.permissions, Plain permission.toList) : AccessMethod where
  before := .space
  afterRpc := .space
  afterRpc_ne_nil := Gap.space_ne_nil
  name := name
  afterName := .none
  request := request
  afterRequest := .space
  afterReturns := .space
  response := response
  afterResponse := .space
  beforeOption := .space
  head := .spaced option
  beforeBlock := .space
  requirement := requirement
  plain := plain
  afterBlock := .space
  afterOption := .none
  afterStatement := .space

/-- A method that asks for two permissions. -/
def getMethod : AccessMethod :=
  .spaced ⟨"a.b".toList, by decide, by decide⟩ ⟨"Get".toList, by decide, by decide⟩
    ⟨"Id".toList, by decide⟩ ⟨"Book".toList, by decide⟩ ⟨["book:get", "a-b"], false⟩ (by
      simp only [List.forall_mem_cons]
      exact ⟨⟨by decide, by decide, by unfold flagName; decide +kernel⟩,
        ⟨by decide, by decide, by unfold flagName; decide +kernel⟩, by simp⟩)

/-- A method that needs no authentication. -/
def getAllMethod : AccessMethod :=
  .spaced ⟨"a.b".toList, by decide, by decide⟩ ⟨"GetAll".toList, by decide, by decide⟩
    ⟨"All".toList, by decide⟩ ⟨"stream Book".toList, by decide⟩ ⟨[], true⟩ (by simp)

/-- A service in which the name of one method begins with that of the other. -/
def bookService : ServiceText where
  option := ⟨"a.b".toList, by decide, by decide⟩
  afterService := .space
  name := ⟨['S'], by decide, by decide⟩
  afterName := .space
  methods := [getMethod, getAllMethod]
  afterMethods := .space
  option_eq := by simp [getMethod, getAllMethod, AccessMethod.spaced, OptionHead.spaced]
  distinct := by decide

/-- Both methods of the service get their own requirements, and a part of their names gets none. -/
theorem requirement_bookService :
    let setup := bookService.setup {} "book.proto"
    let requirement := (setup.extractor {}).requirement .empty setup.cache "book.proto"
    bookService.text = "service S \x7b ".toList ++
        "rpc Get(Id) returns (Book) \x7b option (a.b) = \x7b ".toList ++
          "permissions: [\"book:get\", \"a-b\"]\nno_auth_required: false \x7d; \x7d ".toList ++
        "rpc GetAll(All) returns (stream Book) \x7b option (a.b) = \x7b ".toList ++
          "permissions: []\nno_auth_required: true \x7d; \x7d \x7d".toList ∧
      requirement "Get" = (.ok ⟨["book:get", "a-b"], false⟩, setup.cache) ∧
      requirement "GetAll" = (.ok ⟨[], true⟩, setup.cache) ∧
      requirement "Ge" = (.error (.methodNotFound "Ge" "book.proto"), setup.cache) := by
  intro setup requirement
  obtain ⟨hlisted, hother⟩ := bookService.requirement_eq {} {} .empty "book.proto"
  have hget := hlisted getMethod List.mem_cons_self
  have hall := hlisted getAllMethod (List.mem_cons_of_mem _ List.mem_cons_self)
  have hpart := hother ⟨"Ge".toList, by decide, by decide⟩ (by decide)
  have hgetName : String.ofList getMethod.name.text = "Get" := String.ofList_toList
  have hallName : String.ofList getAllMethod.name.text = "GetAll" := String.ofList_toList
  rw [hgetName] at hget
  rw [hallName] at hall
  rw [String.ofList_toList] at hpart
  exact ⟨by decide +kernel, hget, hall, hpart⟩

end AccessRules
