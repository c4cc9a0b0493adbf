/-
Writing a problem definition as YAML, and reading it back
(soj_shared/problem_schema.py).

`DefinitionFields` has the fields of a definition before they are validated, and
`DefinitionFields.build` validates them.  PyYAML and pydantic are parameters, as
in `ProblemSchema`; `Yaml.Documented` has what is known of them.

* `build_eq_some` — a definition is built from its own fields and from no others;
* `constructUniqueMapping_builds` — the constructor of the loader builds a mapping
  like the one of PyYAML, where no key comes twice;
* `parse_dump_iff` — which definitions come back.
-/
import ShellgeiOnlineJudge.ProblemSchema
import ShellgeiOnlineJudge.YamlScalar

namespace ProblemDump

open Utf8 Problem ProblemData ProblemSchema
open Json (Value)
open Yaml (Style Emitter nextLine)

deriving instance DecidableEq for FixtureDefinition

/-! ### Definitions and their fields -/

/-- `Literal[...]`: the member that has this name -/
def literal {α : Type} (members : List α) (name : α → Text) (text : Text) : Option α :=
  members.find? fun member => name member = text

theorem literal_eq_some {α : Type} {members : List α} {name : α → Text} {text : Text} {a : α}
    (hmembers : ∀ a, a ∈ members) (hname : Function.Injective name) :
    literal members name text = some a ↔ name a = text := by
  constructor
  · intro h
    simpa using List.find?_some h
  · rintro rfl
    obtain ⟨b, hb⟩ := Option.isSome_iff_exists.1
      (List.find?_isSome (p := fun member => decide (name member = name a)) |>.2
        ⟨a, hmembers a, by simp⟩)
    have hnames : name b = name a := by simpa using List.find?_some hb
    rw [literal, hb, hname hnames]

/-- The values of `ProblemCategory` -/
def categories : List ProblemCategory := [.standard, .practice, .image, .regex]

/-- The values of the exit code policy. -/
def exitCodePolicies : List ExitCodePolicy := [.ignore, .zero]

/-- The text of an exit code policy. -/
def ExitCodePolicy.value : ExitCodePolicy → Text
  | .ignore => "ignore".toList
  | .zero => "zero".toList

/-- The values of the policy for standard error. -/
def stderrPolicies : List StderrPolicy := [.merge, .ignore, .mustBeEmpty]

/-- The text of a policy for standard error. -/
def StderrPolicy.value : StderrPolicy → Text
  | .merge => "merge".toList
  | .ignore => "ignore".toList
  | .mustBeEmpty => "must_be_empty".toList

/-- The values of the media type. -/
def imageMediaTypes : List ImageMediaType := [.jpeg, .gif]

/-- The only comparison of images. -/
def exactPixels : Text := "exact_pixels".toList

/-- The fields of a judge; its type says which ones it has. -/
inductive JudgeFields
  | text (expectedOutput : Text)
  | image (comparison path mediaType : Text) (maxBytes : ℤ)
  deriving DecidableEq

/-- The fields of a definition. -/
structure DefinitionFields where
  schemaVersion : ℤ
  id : Text
  category : Text
  titleJa : Text
  titleEn : Text
  statementJa : Text
  statementEn : Text
  referenceSolution : Text
  stdin : Text
  /-- with the path and the content of each -/
  fixtures : List (Text × Text)
  exitCode : Text
  stderr : Text
  judge : JudgeFields
  deriving DecidableEq

/-- The members of a judge. -/
def JudgeSpecification.fields : JudgeSpecification → JudgeFields
  | .text specification => .text specification.expectedOutput
  | .image artifact =>
    .image exactPixels artifact.path artifact.mediaType.value artifact.maxBytes

/-- The fields of a definition that was validated. -/
def fields (definition : ProblemDefinitionV3) : DefinitionFields where
  schemaVersion := problemSchemaVersion
  id := definition.id
  category := definition.category.text
  titleJa := definition.title.ja
  titleEn := definition.title.en
  statementJa := definition.statement.ja
  statementEn := definition.statement.en
  referenceSolution := definition.referenceSolution
  stdin := definition.execution.stdin
  fixtures := definition.execution.archiveFixtures
  exitCode := ExitCodePolicy.value definition.execution.exitCode
  stderr := StderrPolicy.value definition.execution.stderr
  judge := JudgeSpecification.fields definition.judge

/-- Pydantic, on a localized text. -/
def buildLocalizedText (ja en : Text) : Option LocalizedText :=
  if h : LocalizedText.validateLocalizedText ja = .ok ja ∧
      LocalizedText.validateLocalizedText en = .ok en then
    some ⟨ja, en, h.1, h.2⟩
  else none

/-- Pydantic, on a fixture. -/
def buildFixture (fixture : Text × Text) : Option FixtureDefinition :=
  if h : FixtureDefinition.validatePath fixture.1 = .ok fixture.1 ∧
      FixtureDefinition.validateContent fixture.2 = .ok fixture.2 then
    some ⟨fixture.1, fixture.2, h.1, h.2⟩
  else none

/-- Pydantic, on an execution. -/
def buildExecution (stdin : Text) (fixtures : List (Text × Text)) (exitCode stderr : Text) :
    Option ExecutionSpecification := do
  let built ← fixtures.mapM buildFixture
  let exitCodePolicy ← literal exitCodePolicies ExitCodePolicy.value exitCode
  let stderrPolicy ← literal stderrPolicies StderrPolicy.value stderr
  if h : validateTextBytes stdin "stdin" maxStdinBytes = .ok stdin ∧
      built.length ≤ maxFixtures ∧
      ExecutionSpecification.validateFixtures built = .ok built then
    some ⟨stdin, built, exitCodePolicy, stderrPolicy, h.1, h.2.1, h.2.2⟩
  else none

/-- Pydantic, on an artifact. -/
def buildArtifact (path mediaType : Text) (maxBytes : ℤ) : Option ImageArtifactSpecification := do
  let imageMediaType ← literal imageMediaTypes ImageMediaType.value mediaType
  if h : validateRelativePath path "artifact path" = .ok path ∧
      (0 < maxBytes.toNat ∧ maxBytes.toNat ≤ maxArtifactBytes) ∧
      imageMediaType.suffix <:+ path then
    some ⟨path, imageMediaType, maxBytes.toNat, h.1, h.2.1, h.2.2⟩
  else none

/-- Pydantic, on a judge, by its type. -/
def buildJudge : JudgeFields → Option JudgeSpecification
  | .text expectedOutput =>
    if h : validateTextBytes expectedOutput "expected output" maxProblemTextBytes =
        .ok expectedOutput then
      some (.text ⟨expectedOutput, h⟩)
    else none
  | .image comparison path mediaType maxBytes =>
    if comparison = exactPixels then (buildArtifact path mediaType maxBytes).map .image else none

/-- `ProblemDefinitionV3.model_validate`, unless it raises `ValidationError` -/
def DefinitionFields.build (definition : DefinitionFields) : Option ProblemDefinitionV3 := do
  let category ← literal categories ProblemCategory.text definition.category
  let title ← buildLocalizedText definition.titleJa definition.titleEn
  let statement ← buildLocalizedText definition.statementJa definition.statementEn
  let execution ← buildExecution definition.stdin definition.fixtures definition.exitCode
    definition.stderr
  let judge ← buildJudge definition.judge
  if h : definition.schemaVersion = problemSchemaVersion ∧
      validateProblemId definition.id = .ok definition.id ∧
      validateTextBytes definition.referenceSolution "reference solution"
        maxReferenceSolutionBytes = .ok definition.referenceSolution ∧
      (definition.id.splitOn '-').head? = some category.text ∧
      judge.fits category = true then
    some ⟨definition.id, category, title, statement, definition.referenceSolution, execution,
      judge, h.2.1, h.2.2.1, h.2.2.2.1, h.2.2.2.2⟩
  else none

theorem literal_category {text : Text} {category : ProblemCategory} :
    literal categories ProblemCategory.text text = some category ↔ category.text = text := by
  refine literal_eq_some ?_ ?_
  · intro a
    cases a <;> decide
  · intro a b h
    cases a <;> cases b <;> first | rfl | exact absurd h (by decide)

theorem literal_exitCode {text : Text} {policy : ExitCodePolicy} :
    literal exitCodePolicies ExitCodePolicy.value text = some policy ↔
      ExitCodePolicy.value policy = text := by
  refine literal_eq_some ?_ ?_
  · intro a
    cases a <;> decide
  · intro a b h
    cases a <;> cases b <;> first | rfl | exact absurd h (by decide)

theorem literal_stderr {text : Text} {policy : StderrPolicy} :
    literal stderrPolicies StderrPolicy.value text = some policy ↔
      StderrPolicy.value policy = text := by
  refine literal_eq_some ?_ ?_
  · intro a
    cases a <;> decide
  · intro a b h
    cases a <;> cases b <;> first | rfl | exact absurd h (by decide)

theorem literal_mediaType {text : Text} {mediaType : ImageMediaType} :
    literal imageMediaTypes ImageMediaType.value text = some mediaType ↔
      mediaType.value = text := by
  refine literal_eq_some ?_ ?_
  · intro a
    cases a <;> decide
  · intro a b h
    cases a <;> cases b <;> first | rfl | exact absurd h (by decide)

/-! ### Each part is built from its own fields -/

theorem buildLocalizedText_eq_some {ja en : Text} {text : LocalizedText} :
    buildLocalizedText ja en = some text ↔ text.ja = ja ∧ text.en = en := by
  rw [buildLocalizedText]
  constructor
  · intro h
    split at h
    · obtain rfl := Option.some.inj h
      exact ⟨rfl, rfl⟩
    · cases h
  · rintro ⟨rfl, rfl⟩
    exact dif_pos ⟨text.ja_valid, text.en_valid⟩

theorem buildFixture_eq_some {fixture : Text × Text} {built : FixtureDefinition} :
    buildFixture fixture = some built ↔ (built.path, built.content) = fixture := by
  rw [buildFixture]
  constructor
  · intro h
    split at h
    · obtain rfl := Option.some.inj h
      rfl
    · cases h
  · rintro rfl
    exact dif_pos ⟨built.path_valid, built.content_valid⟩

theorem mapM_buildFixture {fixtures : List (Text × Text)} {built : List FixtureDefinition} :
    fixtures.mapM buildFixture = some built ↔
      built.map (fun fixture => (fixture.path, fixture.content)) = fixtures := by
  induction fixtures generalizing built with
  | nil =>
    rw [List.mapM_nil, List.map_eq_nil_iff]
    show some [] = some built ↔ built = []
    rw [Option.some.injEq, eq_comm]
  | cons fixture rest ih =>
    rw [List.mapM_cons]
    constructor
    · intro h
      obtain ⟨first, hfirst, h⟩ := Option.bind_eq_some_iff.1 h
      obtain ⟨others, hothers, h⟩ := Option.bind_eq_some_iff.1 h
      obtain rfl := Option.some.inj h
      rw [List.map_cons, buildFixture_eq_some.1 hfirst, ih.1 hothers]
    · intro h
      obtain ⟨first, others, rfl, hfirst, hothers⟩ := List.map_eq_cons_iff.1 h
      refine Option.bind_eq_some_iff.2 ⟨first, buildFixture_eq_some.2 hfirst, ?_⟩
      exact Option.bind_eq_some_iff.2 ⟨others, ih.2 hothers, rfl⟩

theorem buildExecution_eq_some {stdin exitCode stderr : Text} {fixtures : List (Text × Text)}
    {execution : ExecutionSpecification} :
    buildExecution stdin fixtures exitCode stderr = some execution ↔
      execution.stdin = stdin ∧ execution.archiveFixtures = fixtures ∧
        ExitCodePolicy.value execution.exitCode = exitCode ∧
        StderrPolicy.value execution.stderr = stderr := by
  rw [buildExecution]
  constructor
  · intro h
    obtain ⟨built, hbuilt, h⟩ := Option.bind_eq_some_iff.1 h
    obtain ⟨exitCodePolicy, hexit, h⟩ := Option.bind_eq_some_iff.1 h
    obtain ⟨stderrPolicy, hstderr, h⟩ := Option.bind_eq_some_iff.1 h
    split at h
    · obtain rfl := Option.some.inj h
      exact ⟨rfl, mapM_buildFixture.1 hbuilt, literal_exitCode.1 hexit, literal_stderr.1 hstderr⟩
    · cases h
  · rintro ⟨rfl, hfixtures, hexit, hstderr⟩
    refine Option.bind_eq_some_iff.2 ⟨_, mapM_buildFixture.2 hfixtures, ?_⟩
    refine Option.bind_eq_some_iff.2 ⟨_, literal_exitCode.2 hexit, ?_⟩
    refine Option.bind_eq_some_iff.2 ⟨_, literal_stderr.2 hstderr, ?_⟩
    exact dif_pos ⟨execution.stdin_valid, execution.fixtures_length, execution.fixtures_valid⟩

theorem buildArtifact_eq_some {path mediaType : Text} {maxBytes : ℤ}
    {artifact : ImageArtifactSpecification} :
    buildArtifact path mediaType maxBytes = some artifact ↔
      artifact.path = path ∧ artifact.mediaType.value = mediaType ∧
        (artifact.maxBytes : ℤ) = maxBytes := by
  rw [buildArtifact]
  constructor
  · intro h
    obtain ⟨imageMediaType, hmedia, h⟩ := Option.bind_eq_some_iff.1 h
    split at h
    · next hvalid =>
      obtain rfl := Option.some.inj h
      refine ⟨rfl, literal_mediaType.1 hmedia, ?_⟩
      show (maxBytes.toNat : ℤ) = maxBytes
      have hpos := hvalid.2.1.1
      omega
    · cases h
  · rintro ⟨rfl, hmedia, rfl⟩
    refine Option.bind_eq_some_iff.2 ⟨_, literal_mediaType.2 hmedia, ?_⟩
    exact dif_pos ⟨artifact.path_valid, artifact.max_bytes_valid, artifact.suffix_valid⟩

theorem buildJudge_eq_some {judge : JudgeFields} {built : JudgeSpecification} :
    buildJudge judge = some built ↔ JudgeSpecification.fields built = judge := by
  cases judge with
  | text expectedOutput =>
    rw [buildJudge]
    constructor
    · intro h
      split at h
      · obtain rfl := Option.some.inj h
        rfl
      · cases h
    · intro h
      cases built with
      | text specification =>
        obtain rfl := JudgeFields.text.inj h
        exact dif_pos specification.expected_output_valid
      | image artifact => cases h
  | image comparison path mediaType maxBytes =>
    rw [buildJudge]
    constructor
    · intro h
      split at h
      · next hcomparison =>
        obtain ⟨artifact, hartifact, rfl⟩ := Option.map_eq_some_iff.1 h
        obtain ⟨rfl, rfl, rfl⟩ := buildArtifact_eq_some.1 hartifact
        rw [hcomparison]
        rfl
      · cases h
    · intro h
      cases built with
      | text specification => cases h
      | image artifact =>
        obtain ⟨rfl, rfl, rfl, rfl⟩ := JudgeFields.image.inj h
        rw [if_pos rfl, buildArtifact_eq_some.2 ⟨rfl, rfl, rfl⟩]
        rfl

/-- **A definition is built from its own fields, and from no others.** -/
theorem build_eq_some {given : DefinitionFields} {definition : ProblemDefinitionV3} :
    given.build = some definition ↔ fields definition = given := by
  rw [DefinitionFields.build]
  constructor
  · intro h
    -- each part is built from its own fields
    obtain ⟨category, hcategory, h⟩ := Option.bind_eq_some_iff.1 h
    obtain ⟨title, htitle, h⟩ := Option.bind_eq_some_iff.1 h
    obtain ⟨statement, hstatement, h⟩ := Option.bind_eq_some_iff.1 h
    obtain ⟨execution, hexecution, h⟩ := Option.bind_eq_some_iff.1 h
    obtain ⟨judge, hjudge, h⟩ := Option.bind_eq_some_iff.1 h
    split at h
    · next hvalid =>
      obtain rfl := Option.some.inj h
      obtain ⟨htitleJa, htitleEn⟩ := buildLocalizedText_eq_some.1 htitle
      obtain ⟨hstatementJa, hstatementEn⟩ := buildLocalizedText_eq_some.1 hstatement
      obtain ⟨hstdin, hfixtures, hexit, hstderr⟩ := buildExecution_eq_some.1 hexecution
      rw [fields, hvalid.1.symm, literal_category.1 hcategory, htitleJa, htitleEn, hstatementJa,
        hstatementEn, hstdin, hfixtures, hexit, hstderr, buildJudge_eq_some.1 hjudge]
    · cases h
  · rintro rfl
    refine Option.bind_eq_some_iff.2 ⟨_, literal_category.2 rfl, ?_⟩
    refine Option.bind_eq_some_iff.2 ⟨_, buildLocalizedText_eq_some.2 ⟨rfl, rfl⟩, ?_⟩
    refine Option.bind_eq_some_iff.2 ⟨_, buildLocalizedText_eq_some.2 ⟨rfl, rfl⟩, ?_⟩
    refine Option.bind_eq_some_iff.2 ⟨_, buildExecution_eq_some.2 ⟨rfl, rfl, rfl, rfl⟩, ?_⟩
    refine Option.bind_eq_some_iff.2 ⟨_, buildJudge_eq_some.2 rfl, ?_⟩
    exact dif_pos ⟨rfl, definition.id_valid, definition.reference_solution_valid,
      definition.category_valid, definition.judge_valid⟩

/-! ### The texts of a definition -/

/-- The texts of a judge, in the order of the file. -/
def JudgeFields.texts : JudgeFields → List Text
  | .text expectedOutput => [expectedOutput]
  | .image comparison path mediaType _ => [comparison, path, mediaType]

/-- Replace each text of a judge. -/
def JudgeFields.map (f : Text → Text) : JudgeFields → JudgeFields
  | .text expectedOutput => .text (f expectedOutput)
  | .image comparison path mediaType maxBytes =>
    .image (f comparison) (f path) (f mediaType) maxBytes

/-- The texts of a definition, in the order of the file. -/
def DefinitionFields.texts (definition : DefinitionFields) : List Text :=
  [definition.id, definition.category, definition.titleJa, definition.titleEn,
    definition.statementJa, definition.statementEn, definition.referenceSolution,
    definition.stdin] ++
  definition.fixtures.flatMap (fun fixture => [fixture.1, fixture.2]) ++
  [definition.exitCode, definition.stderr] ++ definition.judge.texts

/-- Replace each text of a definition. -/
def DefinitionFields.map (f : Text → Text) (definition : DefinitionFields) : DefinitionFields where
  schemaVersion := definition.schemaVersion
  id := f definition.id
  category := f definition.category
  titleJa := f definition.titleJa
  titleEn := f definition.titleEn
  statementJa := f definition.statementJa
  statementEn := f definition.statementEn
  referenceSolution := f definition.referenceSolution
  stdin := f definition.stdin
  fixtures := definition.fixtures.map fun fixture => (f fixture.1, f fixture.2)
  exitCode := f definition.exitCode
  stderr := f definition.stderr
  judge := definition.judge.map f

theorem JudgeFields.map_eq_self {f : Text → Text} {judge : JudgeFields} :
    judge.map f = judge ↔ ∀ text ∈ judge.texts, f text = text := by
  cases judge <;> simp [map, texts]

theorem map_fixtures_eq_self {f : Text → Text} {fixtures : List (Text × Text)} :
    fixtures.map (fun fixture => (f fixture.1, f fixture.2)) = fixtures ↔
      ∀ text ∈ fixtures.flatMap (fun fixture => [fixture.1, fixture.2]), f text = text := by
  induction fixtures with
  | nil => simp
  | cons fixture rest ih =>
    rw [List.map_cons, List.cons.injEq, ih, List.flatMap_cons, List.forall_mem_append,
      Prod.ext_iff]
    simp only [List.forall_mem_cons, List.not_mem_nil, false_implies, implies_true, and_true]

/-- Fields are kept exactly when each text is. -/
theorem DefinitionFields.map_eq_self {f : Text → Text} {definition : DefinitionFields} :
    definition.map f = definition ↔ ∀ text ∈ definition.texts, f text = text := by
  obtain ⟨version, id, category, titleJa, titleEn, statementJa, statementEn, solution, stdin,
    fixtures, exitCode, stderr, judge⟩ := definition
  simp only [map, texts, mk.injEq, JudgeFields.map_eq_self, map_fixtures_eq_self,
    List.forall_mem_append, List.forall_mem_cons, List.not_mem_nil, false_implies, implies_true,
    true_and, and_true, and_assoc]

/-! ### Dumping -/

/-- `model_dump` of a localized text -/
def localizedTextData (ja en : Text) : Value :=
  .object [("ja".toList, .string ja), ("en".toList, .string en)]

/-- `model_dump` of a fixture -/
def fixtureData (fixture : Text × Text) : Value :=
  .object [("path".toList, .string fixture.1), ("content".toList, .string fixture.2)]

/-- `model_dump` of a judge -/
def JudgeFields.data : JudgeFields → Value
  | .text expectedOutput =>
    .object
      [("type".toList, .string "text".toList),
        ("expected_output".toList, .string expectedOutput)]
  | .image comparison path mediaType maxBytes =>
    .object
      [("type".toList, .string "image".toList),
        ("comparison".toList, .string comparison),
        ("artifact".toList, .object
          [("path".toList, .string path),
            ("media_type".toList, .string mediaType),
            ("max_bytes".toList, .int maxBytes)])]

/-- The fields in the order of the models: `definition.model_dump(mode="json")`. -/
def DefinitionFields.data (definition : DefinitionFields) : Value :=
  .object
    [("schema_version".toList, .int definition.schemaVersion),
      ("id".toList, .string definition.id),
      ("category".toList, .string definition.category),
      ("title".toList, localizedTextData definition.titleJa definition.titleEn),
      ("statement".toList, localizedTextData definition.statementJa definition.statementEn),
      ("reference_solution".toList, .string definition.referenceSolution),
      ("execution".toList, .object
        [("stdin".toList, .string definition.stdin),
          ("fixtures".toList, .array (definition.fixtures.map fixtureData)),
          ("exit_code".toList, .string definition.exitCode),
          ("stderr".toList, .string definition.stderr)]),
      ("judge".toList, definition.judge.data)]

/-- `_represent_problem_string`: the style that it asks for -/
def representProblemString (value : Text) : Option Style :=
  if '\n' ∈ value then some .literal else none

section BuildsMappings

variable (libraries : PyYaml)

/-- The objects of these pairs, when they are constructed from left to right. -/
inductive Constructs : List (libraries.Node × libraries.Node) → libraries.State →
    List (libraries.Object × libraries.Object) → libraries.State → Prop
  | nil (state : libraries.State) : Constructs [] state [] state
  | cons {keyNode valueNode : libraries.Node} {key value : libraries.Object}
      {rest : List (libraries.Node × libraries.Node)}
      {objects : List (libraries.Object × libraries.Object)}
      {state₀ state₁ state₂ state₃ : libraries.State}
      (hkey : libraries.constructObject keyNode state₀ = .ok (key, state₁))
      (hhashable : libraries.hashable key = true)
      (hvalue : libraries.constructObject valueNode state₁ = .ok (value, state₂))
      (hrest : Constructs rest state₂ objects state₃) :
      Constructs ((keyNode, valueNode) :: rest) state₀ ((key, value) :: objects) state₃

/-- A constructor for mappings that PyYAML can be given: where the keys are distinct
it builds what the constructor of PyYAML builds. -/
def BuildsMappings
    (construct : List (libraries.Node × libraries.Node) → libraries.State →
      Except (Raised YamlError)
        (List (libraries.Object × libraries.Object) × libraries.State)) : Prop :=
  ∀ pairs state flattened state₀ objects state₁,
    libraries.flattenMapping pairs state = .ok (flattened, state₀) →
    Constructs libraries flattened state₀ objects state₁ →
    objects.Pairwise (fun a b => libraries.same b.1 a.1 = false) →
    construct pairs state = .ok (objects, state₁)

end BuildsMappings

theorem constructPairs_of_constructs {libraries : Libraries}
    {mapping objects : List (libraries.Object × libraries.Object)}
    {pairs : List (libraries.Node × libraries.Node)} {state state' : libraries.State}
    (h : Constructs libraries.toPyYaml pairs state objects state')
    (hdistinct : DistinctKeys libraries (mapping ++ objects)) :
    constructPairs libraries mapping pairs state = .ok (mapping ++ objects, state') := by
  induction h generalizing mapping with
  | nil state => rw [constructPairs, List.append_nil]
  | cons hkey hhashable hvalue hrest ih =>
    next keyNode valueNode key value rest objects state₀ state₁ state₂ state₃ =>
    rw [constructPairs, hkey]
    -- the key is new
    have hnew : ¬ (mapping.any fun member => libraries.same key member.1) = true := by
      intro hany
      obtain ⟨member, hmember, hsame⟩ := List.any_eq_true.1 hany
      have hkeys := (List.pairwise_append.1 hdistinct).2.2 member hmember (key, value)
        List.mem_cons_self
      rw [hkeys] at hsame
      cases hsame
    have happend : mapping ++ (key, value) :: objects = (mapping ++ [(key, value)]) ++ objects := by
      rw [List.append_assoc, List.singleton_append]
    rw [happend] at hdistinct ⊢
    simp only [hhashable, not_true_eq_false, if_false, if_neg hnew, hvalue]
    exact ih hdistinct

/-- **The constructor of the loader builds mappings.** -/
theorem constructUniqueMapping_builds (libraries : Libraries) :
    BuildsMappings libraries.toPyYaml (constructUniqueMapping libraries) := by
  intro pairs state flattened state₀ objects state₁ hflatten hobjects hdistinct
  rw [constructUniqueMapping, hflatten]
  exact constructPairs_of_constructs hobjects hdistinct

/-- The packages with which definitions are written as well. -/
structure YamlLibraries extends Libraries where
  emitter : Emitter
  /-- `yaml.dump(data, allow_unicode=True, sort_keys=False, width=1_000)` with this
  representer for texts -/
  dump : (Text → Option Style) → Value → Text
  /-- the object of PyYAML that holds this data -/
  object : Value → Object

/-- The fields as they are read back from YAML. -/
def YamlLibraries.readBack (libraries : YamlLibraries) (definition : DefinitionFields) :
    DefinitionFields :=
  definition.map fun text => libraries.emitter.readBack (representProblemString text) text

/-- What PyYAML and pydantic are documented to do with the data of a definition. -/
structure YamlLibraries.Documented (libraries : YamlLibraries) : Prop where
  emitter : libraries.emitter.Documented
  /-- a carriage return is escaped, and lines end with a line feed -/
  dump_lines : ∀ definition : DefinitionFields,
    '\r' ∉ libraries.dump representProblemString definition.data
  /-- the structure that is dumped is loaded, with the texts as they are read back -/
  load_dump : ∀ construct (definition : DefinitionFields),
    BuildsMappings libraries.toPyYaml construct →
    libraries.load construct (libraries.dump representProblemString definition.data) =
      .ok (libraries.object (libraries.readBack definition).data)
  isMapping_object : ∀ definition : DefinitionFields,
    libraries.isMapping (libraries.object definition.data) = true
  /-- pydantic runs the validators on fields of the declared types -/
  validateDefinition_object : ∀ definition : DefinitionFields,
    libraries.validateDefinition (libraries.object definition.data) = definition.build

/-- `dump_problem_definition` -/
def dumpProblemDefinition (libraries : YamlLibraries) (definition : ProblemDefinitionV3) : Text :=
  libraries.dump representProblemString (fields definition).data

/-! ### What comes back -/

/-- What is written of a definition is no larger than a file may be. -/
def WithinLimit (libraries : YamlLibraries) (definition : ProblemDefinitionV3) : Prop :=
  (encode (dumpProblemDefinition libraries definition)).length ≤ maxProblemSchemaFileBytes

/-- A text can only be written in double quotes: it has a special character or a blank
before a line break; or, as a literal, a blank at its end; or, where it has no line
feed, a blank after a line break. -/
def NeedsDoubleQuotes (text : Text) : Prop :=
  (if '\n' ∈ text then Yaml.allowsLiteral text else Yaml.allowsSingleQuoted text) = false

instance (text : Text) : Decidable (NeedsDoubleQuotes text) :=
  inferInstanceAs (Decidable (_ = false))

/-- Each text with a next line (U+0085) can only be written in double quotes. -/
def NextLinesEscaped (definition : ProblemDefinitionV3) : Prop :=
  ∀ text ∈ (fields definition).texts, nextLine ∈ text → NeedsDoubleQuotes text

instance (definition : ProblemDefinitionV3) : Decidable (NextLinesEscaped definition) :=
  List.decidableBAll (fun text : Text => nextLine ∈ text → NeedsDoubleQuotes text)
    (fields definition).texts

variable {libraries : YamlLibraries}

theorem readBack_eq_self (h : libraries.emitter.Documented) {text : Text} :
    libraries.emitter.readBack (representProblemString text) text = text ↔
      (nextLine ∈ text → NeedsDoubleQuotes text) := by
  rw [representProblemString, NeedsDoubleQuotes]
  by_cases hline : '\n' ∈ text
  · rw [if_pos hline, if_pos hline]
    exact h.readBack_literal_iff
  · rw [if_neg hline, if_neg hline]
    exact h.readBack_none_iff

/-- The fields are read back exactly when the next lines are escaped. -/
theorem readBack_fields_iff (h : libraries.emitter.Documented)
    (definition : ProblemDefinitionV3) :
    fields definition = libraries.readBack (fields definition) ↔ NextLinesEscaped definition := by
  rw [eq_comm, YamlLibraries.readBack, DefinitionFields.map_eq_self, NextLinesEscaped]
  simp only [readBack_eq_self h]

/-- What the parser makes of a definition that was dumped. -/
theorem parse_dump (h : libraries.Documented) (definition parsed : ProblemDefinitionV3)
    (source : FileName) :
    parseProblemDefinition libraries.toLibraries (dumpProblemDefinition libraries definition)
        source = .ok parsed ↔
      WithinLimit libraries definition ∧
        fields parsed = libraries.readBack (fields definition) := by
  rw [parseProblemDefinition, WithinLimit]
  by_cases hlarge : maxProblemSchemaFileBytes <
      (encode (dumpProblemDefinition libraries definition)).length
  · rw [if_pos hlarge]
    refine iff_of_false (by simp) ?_
    rintro ⟨hle, -⟩
    omega
  rw [if_neg hlarge, ← build_eq_some, and_iff_right (by omega)]
  have hload : yamlLoad libraries.toLibraries (dumpProblemDefinition libraries definition) = _ :=
    h.load_dump _ (fields definition) (constructUniqueMapping_builds libraries.toLibraries)
  simp only [loadYamlMapping, hload, h.isMapping_object, if_true, h.validateDefinition_object]
  cases DefinitionFields.build _ with
  | none => simp
  | some built => simp

/-- **A definition comes back exactly when it is small enough and its next lines are
escaped.** -/
theorem parse_dump_iff (h : libraries.Documented) (definition : ProblemDefinitionV3)
    (source : FileName) :
    parseProblemDefinition libraries.toLibraries (dumpProblemDefinition libraries definition)
        source = .ok definition ↔
      WithinLimit libraries definition ∧ NextLinesEscaped definition := by
  rw [parse_dump h, readBack_fields_iff h.emitter]

/-! ### Packages that write JSON -/

/-- The fixture of a node. -/
def fixtureOf : Value → Option (Text × Text)
  | .object [(_, .string path), (_, .string content)] => some (path, content)
  | _ => none

/-- The judge of a node. -/
def judgeOf : Value → Option JudgeFields
  | .object [_, (_, .string expectedOutput)] => some (.text expectedOutput)
  | .object [_, (_, .string comparison),
      (_, .object [(_, .string path), (_, .string mediaType), (_, .number maxBytes)])] =>
    some (.image comparison path mediaType maxBytes.mantissa)
  | _ => none

/-- The fields in the data of a definition. -/
def fieldsOf : Value → Option DefinitionFields
  | .object [(_, .number version), (_, .string id), (_, .string category),
      (_, .object [(_, .string titleJa), (_, .string titleEn)]),
      (_, .object [(_, .string statementJa), (_, .string statementEn)]),
      (_, .string referenceSolution),
      (_, .object [(_, .string stdin), (_, .array fixtures), (_, .string exitCode),
        (_, .string stderr)]),
      (_, judge)] => do
    let fixtures ← fixtures.mapM fixtureOf
    let judge ← judgeOf judge
    some ⟨version.mantissa, id, category, titleJa, titleEn, statementJa, statementEn,
      referenceSolution, stdin, fixtures, exitCode, stderr, judge⟩
  | _ => none

theorem fieldsOf_data (definition : DefinitionFields) :
    fieldsOf definition.data = some definition := by
  have hfixtures : (definition.fixtures.map fixtureData).mapM fixtureOf =
      some definition.fixtures := by
    induction definition.fixtures with
    | nil => rfl
    | cons fixture rest ih =>
      rw [List.map_cons, List.mapM_cons, ih]
      rfl
  have hjudge : judgeOf definition.judge.data = some definition.judge := by
    cases definition.judge <;> rfl
  show ((definition.fixtures.map fixtureData).mapM fixtureOf).bind (fun _ =>
    (judgeOf definition.judge.data).bind _) = _
  rw [hfixtures, hjudge]
  rfl

/-- Texts that are written of some definitions in place of JSON. -/
structure KnownTexts where
  entries : List (DefinitionFields × Text)
  nodup : (entries.map Prod.snd).Nodup
  not_json : ∀ entry ∈ entries, entry.2.head? ≠ some '\x7b'
  lines : ∀ entry ∈ entries, '\r' ∉ entry.2

namespace KnownTexts

variable (known : KnownTexts)

/-- The definition with every text as it is read again. -/
def readBack (definition : DefinitionFields) : DefinitionFields :=
  definition.map fun text => Emitter.unfolded.readBack (representProblemString text) text

/-- The emitter writes a known definition as listed, and any other one as JSON. -/
def write (definition : DefinitionFields) : Text :=
  match known.entries.find? fun entry => entry.1 = definition with
  | some entry => entry.2
  | none => (readBack definition).data.write

/-- What is read from a text that the emitter wrote. -/
def parse (text : Text) : Option Value :=
  match known.entries.find? fun entry => entry.2 = text with
  | some entry => some (readBack entry.1).data
  | none => Json.parse text

/-- The text of a definition is a known one, or JSON. -/
theorem write_cases (definition : DefinitionFields) :
    (∃ entry ∈ known.entries, entry.1 = definition ∧ known.write definition = entry.2) ∨
      known.write definition = (readBack definition).data.write := by
  rw [write]
  cases hfind : known.entries.find? fun entry => entry.1 = definition with
  | none => exact .inr rfl
  | some entry =>
    have hentry : entry.1 = definition := by simpa using List.find?_some hfind
    exact .inl ⟨entry, List.mem_of_find?_eq_some hfind, hentry, rfl⟩

theorem parse_of_mem {entry : DefinitionFields × Text} (h : entry ∈ known.entries) :
    known.parse entry.2 = some (readBack entry.1).data := by
  have hsome : (known.entries.find? fun other => decide (other.2 = entry.2)).isSome :=
    List.find?_isSome.2 ⟨entry, h, by simp⟩
  obtain ⟨found, hfind⟩ := Option.isSome_iff_exists.1 hsome
  have htext : found.2 = entry.2 := by simpa using List.find?_some hfind
  have heq : found = entry :=
    List.inj_on_of_nodup_map known.nodup (List.mem_of_find?_eq_some hfind) h htext
  rw [parse, hfind, heq]

theorem parse_write (definition : DefinitionFields) :
    known.parse (known.write definition) = some (readBack definition).data := by
  rcases known.write_cases definition with ⟨entry, hentry, rfl, htext⟩ | htext
  · rw [htext]
    exact known.parse_of_mem hentry
  · have hnone : known.entries.find? (fun entry => entry.2 = known.write definition) = none := by
      rw [List.find?_eq_none]
      intro entry hentry heq
      have hhead := known.not_json entry hentry
      rw [of_decide_eq_true heq, htext] at hhead
      exact hhead rfl
    rw [parse, hnone, htext]
    exact Json.parse_write _

theorem write_lines (definition : DefinitionFields) : '\r' ∉ known.write definition := by
  rcases known.write_cases definition with ⟨entry, hentry, -, htext⟩ | htext
  · rw [htext]
    exact known.lines entry hentry
  · rw [htext]
    intro hmem
    exact absurd (Json.Value.noControl_write _ _ hmem) (by decide)

/-- The pairs of a mapping with these members. -/
def pairs (members : List (Text × Value)) : List (Value × Value) :=
  members.map fun member => (.string member.1, member.2)

/-- A member with a text as its key. -/
def memberOf : Value × Value → Option (Text × Value)
  | (.string key, value) => some (key, value)
  | _ => none

/-- The constructor builds the mapping at the top. -/
def construct (build : List (Value × Value) → Unit →
    Except (Raised YamlError) (List (Value × Value) × Unit)) :
    Value → Except (Raised YamlError) Value
  | .object members => do
    let built ← build (pairs members) ()
    .ok (.object (built.1.filterMap memberOf))
  | value => .ok value

/-- Packages whose objects are JSON values. -/
def packages : YamlLibraries where
  Node := Value
  Object := Value
  State := Unit
  flattenMapping pairs state := .ok (pairs, state)
  constructObject node state := .ok (node, state)
  hashable
    | .array _ => false
    | .object _ => false
    | _ => true
  same a b := a.write = b.write
  printable _ := true
  isMapping
    | .object _ => true
    | _ => false
  load build text :=
    match known.parse text with
    | none => .error (.documented .pyYaml)
    | some value => construct build value
  validateDefinition object := (fieldsOf object).bind DefinitionFields.build
  validateManifest _ := none
  tooDeep _ := false
  emitter := .unfolded
  dump _ data :=
    match fieldsOf data with
    | some definition => known.write definition
    | none => data.write
  object data := data

theorem constructs_pairs (members : List (Text × Value)) :
    Constructs known.packages.toPyYaml (pairs members) () (pairs members) () := by
  induction members with
  | nil => exact .nil _
  | cons member rest ih => exact .cons rfl rfl rfl ih

theorem filterMap_pairs (members : List (Text × Value)) :
    (pairs members).filterMap memberOf = members := by
  rw [pairs, List.filterMap_map]
  exact List.filterMap_some

/-- A mapping with distinct keys is constructed as it is. -/
theorem construct_object {build : List (Value × Value) → Unit →
      Except (Raised YamlError) (List (Value × Value) × Unit)}
    (hbuild : BuildsMappings known.packages.toPyYaml build) {members : List (Text × Value)}
    (hnodup : (members.map Prod.fst).Nodup) :
    construct build (.object members) = .ok (.object members) := by
  have hpairs : build (pairs members) () = .ok (pairs members, ()) := by
    refine hbuild _ () _ () _ () rfl (known.constructs_pairs members) ?_
    refine List.pairwise_map.2 ((List.pairwise_map.1 hnodup).imp ?_)
    intro a b hab
    show decide (Value.write (.string b.1) = Value.write (.string a.1)) = false
    rw [decide_eq_false_iff_not]
    intro hwrite
    exact hab (Value.string.inj (Json.write_injective hwrite)).symm
  rw [construct, hpairs]
  show Except.ok (Value.object ((pairs members).filterMap memberOf)) = _
  rw [filterMap_pairs]

/-- The keys of a definition. -/
def dataKeys : List Text :=
  ["schema_version".toList, "id".toList, "category".toList, "title".toList, "statement".toList,
    "reference_solution".toList, "execution".toList, "judge".toList]

theorem dataKeys_nodup : dataKeys.Nodup := by decide

theorem packages_documented : known.packages.Documented where
  emitter := Emitter.unfolded_documented
  dump_lines definition := by
    show '\r' ∉ (match fieldsOf definition.data with | some _ => _ | none => _)
    rw [fieldsOf_data]
    exact known.write_lines definition
  load_dump build definition hbuild := by
    have hdump : known.packages.dump representProblemString definition.data =
        known.write definition := by
      show (match fieldsOf definition.data with | some _ => _ | none => _) = _
      rw [fieldsOf_data]
    show (match known.parse (known.packages.dump representProblemString definition.data) with
      | none => _
      | some value => construct build value) = _
    rw [hdump, known.parse_write]
    exact known.construct_object hbuild dataKeys_nodup
  isMapping_object _ := rfl
  validateDefinition_object definition := by
    show (fieldsOf definition.data).bind _ = _
    rw [fieldsOf_data]
    rfl

end KnownTexts

end ProblemDump
