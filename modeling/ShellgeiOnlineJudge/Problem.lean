/-
The problem schema (soj_shared/models/problem.py, input_validation.py and the
record of problem_repository.py).

A field validator of the source returns its value or raises `ValueError`; here
it returns it or the text of the error.  A model of the source is a structure
that carries the proof that its validators accepted it.

* `validateRelativePath_eq_ok` — what the path check accepts;
* `FixtureDefinition.parts`, `ExecutionSpecification.nodup` — what the accepted
  fixtures are like.
-/
import Mathlib.Data.List.Dedup
import ShellgeiOnlineJudge.Utf8

namespace Problem

open Utf8

/-- `MAX_PROBLEM_TEXT_BYTES` -/
def maxProblemTextBytes : ℕ := 256_000

/-- `MAX_REFERENCE_SOLUTION_BYTES` -/
def maxReferenceSolutionBytes : ℕ := 64_000

/-- `MAX_STDIN_BYTES` -/
def maxStdinBytes : ℕ := 1_000_000

/-- `MAX_FIXTURE_BYTES` -/
def maxFixtureBytes : ℕ := 1_000_000

/-- `MAX_TOTAL_FIXTURE_BYTES` -/
def maxTotalFixtureBytes : ℕ := 1_000_000

/-- `MAX_FIXTURES` -/
def maxFixtures : ℕ := 16

/-- `MAX_PROBLEM_PATH_BYTES` -/
def maxProblemPathBytes : ℕ := 255

/-- `MAX_ARTIFACT_BYTES` -/
def maxArtifactBytes : ℕ := 750_000

/-- `ExitCodePolicy`: whether the exit code of the command must be zero. -/
inductive ExitCodePolicy
  | ignore
  | zero
  deriving DecidableEq

/-- `StderrPolicy`: what becomes of the standard error in the comparison. -/
inductive StderrPolicy
  | merge
  | ignore
  | mustBeEmpty
  deriving DecidableEq

/-- `ImageMediaType` -/
inductive ImageMediaType
  | jpeg
  | gif
  deriving DecidableEq

/-! ### Paths -/

/-- `value.split("/")` -/
def splitSlash (value : Text) : List Text := value.splitOn '/'

/-- A parsed `PurePosixPath`: its root and the parts behind it. -/
structure PurePosixPath where
  root : Text
  tail : List Text

/-- `posixpath.splitroot`: exactly two slashes are a root of their own. -/
def splitroot : Text → Text × Text
  | '/' :: '/' :: '/' :: rel => (['/'], '/' :: '/' :: rel)
  | '/' :: '/' :: rel => (['/', '/'], rel)
  | '/' :: rel => (['/'], rel)
  | rel => ([], rel)

/-- `PurePosixPath(value)` -/
def PurePosixPath.parse (value : Text) : PurePosixPath where
  root := (splitroot value).1
  tail := (splitSlash (splitroot value).2).filter fun part => part ≠ [] ∧ part ≠ ['.']

/-- `is_absolute` -/
def PurePosixPath.isAbsolute (path : PurePosixPath) : Bool := path.root ≠ []

/-- `as_posix` -/
def PurePosixPath.asPosix (path : PurePosixPath) : Text :=
  let text := path.root ++ ['/'].intercalate path.tail
  if text = [] then ['.'] else text

/-- The parts that no path may have. -/
def badParts : List Text := [[], ['.'], ['.', '.']]

/-- `_validate_relative_path` -/
def validateRelativePath (value : Text) (field : String) : Except String Text :=
  if value = [] ∨ '\x00' ∈ value ∨ '\\' ∈ value then
    .error s!"{field} must be a non-empty POSIX path"
  else if maxProblemPathBytes < (encode value).length then
    .error s!"{field} exceeds the {maxProblemPathBytes}-byte limit"
  else
    let path := PurePosixPath.parse value
    if path.isAbsolute ∨ ∃ part ∈ splitSlash value, part ∈ badParts then
      .error s!"{field} must be a normalized relative path"
    else if path.asPosix ≠ value then
      .error s!"{field} must be a normalized relative path"
    else .ok value

theorem splitSlash_ne_nil (value : Text) : splitSlash value ≠ [] :=
  List.splitOn_ne_nil '/' value

theorem intercalate_splitSlash (value : Text) : ['/'].intercalate (splitSlash value) = value :=
  List.intercalate_splitOn '/'

theorem splitSlash_injective {p q : Text} (h : splitSlash p = splitSlash q) : p = q := by
  rw [← intercalate_splitSlash p, h, intercalate_splitSlash]

theorem splitSlash_append (p q : Text) :
    splitSlash (p ++ '/' :: q) = splitSlash p ++ splitSlash q :=
  List.splitOn_append_cons_self p q

/-- A path without an empty part has no root. -/
theorem splitroot_of_parts {value : Text} (h : ∀ part ∈ splitSlash value, part ∉ badParts) :
    splitroot value = ([], value) := by
  match value with
  | [] => rfl
  | c :: rest =>
    by_cases hc : c = '/'
    · -- a leading slash leaves an empty part before it
      subst hc
      have hsplit : splitSlash ('/' :: rest) = [] :: splitSlash rest := splitSlash_append [] rest
      refine absurd ?_ (h [] ?_)
      · simp [badParts]
      · rw [hsplit]
        exact List.mem_cons_self
    · unfold splitroot
      split <;> simp_all

/-- The root and the spelling of a path with good parts need no check. -/
theorem parse_of_parts {value : Text} (hne : value ≠ [])
    (h : ∀ part ∈ splitSlash value, part ∉ badParts) :
    (PurePosixPath.parse value).isAbsolute = false ∧
      (PurePosixPath.parse value).asPosix = value := by
  have htail : (splitSlash value).filter (fun part => part ≠ [] ∧ part ≠ ['.']) =
      splitSlash value := by
    refine List.filter_eq_self.2 ?_
    intro part hpart
    have hbad := h part hpart
    simp only [badParts, List.mem_cons, not_or] at hbad
    simp [hbad.1, hbad.2.1]
  refine ⟨?_, ?_⟩
  · simp [PurePosixPath.isAbsolute, PurePosixPath.parse, splitroot_of_parts h]
  · simp only [PurePosixPath.asPosix, PurePosixPath.parse, splitroot_of_parts h, htail,
      intercalate_splitSlash, List.nil_append, if_neg hne]

/-- What the path check accepts. -/
theorem validateRelativePath_eq_ok {value validated : Text} {field : String} :
    validateRelativePath value field = .ok validated ↔
      validated = value ∧ value ≠ [] ∧ '\x00' ∉ value ∧ '\\' ∉ value ∧
        (encode value).length ≤ maxProblemPathBytes ∧
        ∀ part ∈ splitSlash value, part ∉ badParts := by
  unfold validateRelativePath
  -- the three checks, in their order
  by_cases h1 : value = [] ∨ '\x00' ∈ value ∨ '\\' ∈ value
  · rw [if_pos h1]
    refine iff_of_false (by simp) ?_
    rintro ⟨-, hne, hnul, hback, -⟩
    rcases h1 with h1 | h1 | h1
    · exact hne h1
    · exact hnul h1
    · exact hback h1
  rw [if_neg h1]
  obtain ⟨hne, hnul, hback⟩ : value ≠ [] ∧ '\x00' ∉ value ∧ '\\' ∉ value := by
    simpa only [not_or] using h1
  by_cases h2 : maxProblemPathBytes < (encode value).length
  · rw [if_pos h2]
    refine iff_of_false (by simp) ?_
    rintro ⟨-, -, -, -, hlength, -⟩
    omega
  rw [if_neg h2]
  by_cases h3 : ∀ part ∈ splitSlash value, part ∉ badParts
  · -- good parts make a relative path that is its own normal form
    obtain ⟨habsolute, hposix⟩ := parse_of_parts hne h3
    have h3' : ¬ ∃ part ∈ splitSlash value, part ∈ badParts := by
      rintro ⟨part, hpart, hbad⟩
      exact h3 part hpart hbad
    simp only [habsolute, hposix, h3', ne_eq, not_true_eq_false, if_false, Bool.false_eq_true,
      or_self, Except.ok.injEq]
    exact ⟨fun h => ⟨h.symm, hne, hnul, hback, by omega, h3⟩, fun h => h.1.symm⟩
  · have h3' : ∃ part ∈ splitSlash value, part ∈ badParts := by
      simpa only [not_forall, not_not, exists_prop] using h3
    simp only [h3', or_true, if_true]
    exact iff_of_false (by simp) (fun h => h3 h.2.2.2.2.2)

/-! ### Fixtures and the execution -/

/-- `_validate_text_bytes` -/
def validateTextBytes (value : Text) (field : String) (maximum : ℕ) : Except String Text :=
  if '\x00' ∈ value then .error s!"{field} must not contain NUL bytes"
  else if maximum < (encode value).length then .error s!"{field} exceeds the {maximum}-byte limit"
  else .ok value

/-- The name that the command has in the archive. -/
def commandPath : Text := "z.bash".toList

/-- `FixtureDefinition.validate_path` -/
def FixtureDefinition.validatePath (value : Text) : Except String Text := do
  let validated ← validateRelativePath value "fixture path"
  if validated = commandPath then
    .error "fixture path z.bash is reserved for the submitted command"
  else .ok validated

/-- `FixtureDefinition.validate_content` -/
def FixtureDefinition.validateContent (value : Text) : Except String Text :=
  if value = [] then .error "fixture content must not be empty"
  else validateTextBytes value "fixture content" maxFixtureBytes

/-- `FixtureDefinition` -/
structure FixtureDefinition where
  path : Text
  content : Text
  path_valid : FixtureDefinition.validatePath path = .ok path
  content_valid : FixtureDefinition.validateContent content = .ok content

/-- `ExecutionSpecification.validate_fixtures` -/
def ExecutionSpecification.validateFixtures (value : List FixtureDefinition) :
    Except String (List FixtureDefinition) :=
  let paths := value.map (·.path)
  if paths.length ≠ paths.dedup.length then .error "fixture paths must be unique"
  else if maxTotalFixtureBytes < (value.map fun f => (encode f.content).length).sum then
    .error s!"fixture contents exceed the {maxTotalFixtureBytes}-byte total limit"
  else .ok value

/-- `ExecutionSpecification` -/
structure ExecutionSpecification where
  stdin : Text
  fixtures : List FixtureDefinition
  exitCode : ExitCodePolicy
  stderr : StderrPolicy
  stdin_valid : validateTextBytes stdin "stdin" maxStdinBytes = .ok stdin
  fixtures_length : fixtures.length ≤ maxFixtures
  fixtures_valid : ExecutionSpecification.validateFixtures fixtures = .ok fixtures

theorem FixtureDefinition.validatePath_ok {value validated : Text}
    (h : FixtureDefinition.validatePath value = .ok validated) :
    validateRelativePath value "fixture path" = .ok value ∧ value ≠ commandPath := by
  rw [FixtureDefinition.validatePath] at h
  cases hv : validateRelativePath value "fixture path" with
  | error message => rw [hv] at h; cases h
  | ok path =>
    obtain rfl := (validateRelativePath_eq_ok.1 hv).1
    refine ⟨rfl, fun heq => ?_⟩
    rw [hv] at h
    change (if path = commandPath then _ else _) = _ at h
    rw [if_pos heq] at h
    cases h

/-- The parts of a fixture path are proper names. -/
theorem FixtureDefinition.parts (fixture : FixtureDefinition) :
    ∀ part ∈ splitSlash fixture.path, part ∉ badParts :=
  (validateRelativePath_eq_ok.1 (validatePath_ok fixture.path_valid).1).2.2.2.2.2

/-- No fixture has the name of the command. -/
theorem FixtureDefinition.path_ne (fixture : FixtureDefinition) : fixture.path ≠ commandPath :=
  (validatePath_ok fixture.path_valid).2

/-- The fixtures of a specification have distinct paths. -/
theorem ExecutionSpecification.nodup (spec : ExecutionSpecification) :
    (spec.fixtures.map (·.path)).Nodup := by
  have h := spec.fixtures_valid
  rw [ExecutionSpecification.validateFixtures] at h
  by_cases hlength : (spec.fixtures.map (·.path)).length = (spec.fixtures.map (·.path)).dedup.length
  · have hsub := List.dedup_sublist (spec.fixtures.map (·.path))
    exact List.dedup_eq_self.1 (hsub.eq_of_length hlength.symm)
  · simp only [hlength, ne_eq, not_false_eq_true, if_true] at h
    cases h

/-! ### Judges and problems -/

/-- `TextJudgeSpecification` -/
structure TextJudgeSpecification where
  expectedOutput : Text
  expected_output_valid :
    validateTextBytes expectedOutput "expected output" maxProblemTextBytes = .ok expectedOutput

/-- The text of a media type. -/
def ImageMediaType.value : ImageMediaType → Text
  | .jpeg => "image/jpeg".toList
  | .gif => "image/gif".toList

/-- The suffix that `validate_media_type_matches_path` expects. -/
def ImageMediaType.suffix : ImageMediaType → Text
  | .jpeg => ".jpg".toList
  | .gif => ".gif".toList

/-- `ImageArtifactSpecification` -/
structure ImageArtifactSpecification where
  path : Text
  mediaType : ImageMediaType
  maxBytes : ℕ
  path_valid : validateRelativePath path "artifact path" = .ok path
  max_bytes_valid : 0 < maxBytes ∧ maxBytes ≤ maxArtifactBytes
  suffix_valid : mediaType.suffix <:+ path

theorem output_jpg_path : validateRelativePath "media/output.jpg".toList "artifact path" =
    .ok "media/output.jpg".toList := by rfl

theorem output_jpg_suffix : ImageMediaType.jpeg.suffix <:+ "media/output.jpg".toList := by decide

/-- `JudgeSpecification`; the image judge compares `exact_pixels`. -/
inductive JudgeSpecification
  | text (specification : TextJudgeSpecification)
  | image (artifact : ImageArtifactSpecification)

/-- `ProblemCategory` -/
inductive ProblemCategory
  | standard
  | practice
  | image
  | regex
  deriving DecidableEq

/-- The text of a category. -/
def ProblemCategory.text : ProblemCategory → Text
  | .standard => "STANDARD".toList
  | .practice => "PRACTICE".toList
  | .image => "IMAGE".toList
  | .regex => "REGEX".toList

/-- `MAX_PROBLEM_ID_CHARS` -/
def maxProblemIdChars : ℕ := 64

/-- `[A-Za-z0-9]` -/
def isAlphanumeric (c : Char) : Bool :=
  ('A' ≤ c && c ≤ 'Z') || ('a' ≤ c && c ≤ 'z') || ('0' ≤ c && c ≤ '9')

/-- `PROBLEM_ID_PATTERN.fullmatch` -/
def matchesProblemIdPattern (problemId : Text) : Bool :=
  (problemId.splitOn '-').all fun group => group ≠ [] && group.all isAlphanumeric

/-- `validate_problem_id` -/
def validateProblemId (problemId : Text) : Except String Text :=
  if ¬ (1 ≤ problemId.length ∧ problemId.length ≤ maxProblemIdChars) then
    .error s!"problem_id must be between 1 and {maxProblemIdChars} characters"
  else if ¬ matchesProblemIdPattern problemId then
    .error "problem_id must contain only letters, numbers, and hyphens"
  else .ok problemId

/-- `validate_category_matches_id` -/
def JudgeSpecification.fits (category : ProblemCategory) : JudgeSpecification → Bool
  | .text _ => category ≠ .image
  | .image _ => category = .image

/-- `LocalizedText.validate_localized_text` -/
def LocalizedText.validateLocalizedText (value : Text) : Except String Text :=
  if value = [] then .error "localized text must not be empty"
  else validateTextBytes value "localized text" maxProblemTextBytes

/-- `LocalizedText` -/
structure LocalizedText where
  ja : Text
  en : Text
  ja_valid : LocalizedText.validateLocalizedText ja = .ok ja
  en_valid : LocalizedText.validateLocalizedText en = .ok en

/-- Its `schema_version` is 3. -/
structure ProblemDefinitionV3 where
  id : Text
  category : ProblemCategory
  title : LocalizedText
  statement : LocalizedText
  referenceSolution : Text
  execution : ExecutionSpecification
  judge : JudgeSpecification
  id_valid : validateProblemId id = .ok id
  reference_solution_valid :
    validateTextBytes referenceSolution "reference solution" maxReferenceSolutionBytes =
      .ok referenceSolution
  category_valid : (id.splitOn '-').head? = some category.text
  judge_valid : judge.fits category = true

/-- `ProblemRecord`: a definition with the image of its answer. -/
structure ProblemRecord where
  definition : ProblemDefinitionV3
  answerImage : Bytes

/-- `ProblemRecord.fixtures`, of the specification -/
def ExecutionSpecification.archiveFixtures (execution : ExecutionSpecification) :
    List (Text × Text) :=
  execution.fixtures.map fun fixture => (fixture.path, fixture.content)

/-- `ProblemRecord.fixtures` -/
def ProblemRecord.fixtures (record : ProblemRecord) : List (Text × Text) :=
  record.definition.execution.archiveFixtures

/-- The loaded records; a repository has one for each ID. -/
abbrev ProblemRepository := List ProblemRecord

/-- `ProblemRepository.get` -/
def ProblemRepository.get (repository : ProblemRepository) (problemId : Text) :
    Option ProblemRecord :=
  repository.find? fun record => record.definition.id = problemId

/-- A registered ID is well formed. -/
theorem ProblemRepository.validateProblemId_of_get {repository : ProblemRepository}
    {problemId : Text} {record : ProblemRecord} (h : repository.get problemId = some record) :
    validateProblemId problemId = .ok problemId := by
  have hid : record.definition.id = problemId := by
    simpa using List.find?_some h
  rw [← hid]
  exact record.definition.id_valid

theorem dash_valid : LocalizedText.validateLocalizedText ['-'] = .ok ['-'] := by rfl

theorem nil_stdin_valid : validateTextBytes [] "stdin" maxStdinBytes = .ok [] := by rfl

theorem nil_fixtures_length : ([] : List FixtureDefinition).length ≤ maxFixtures := by decide

theorem nil_fixtures_valid : ExecutionSpecification.validateFixtures [] = .ok [] := by rfl

theorem colon_solution_valid :
    validateTextBytes [':'] "reference solution" maxReferenceSolutionBytes = .ok [':'] := by rfl

theorem standard_one_valid :
    validateProblemId "STANDARD-1".toList = .ok "STANDARD-1".toList := by rfl

theorem standard_one_category :
    ("STANDARD-1".toList.splitOn '-').head? = some ProblemCategory.standard.text := by decide

theorem standard_two_valid :
    validateProblemId "STANDARD-2".toList = .ok "STANDARD-2".toList := by rfl

/-- A text problem without fixtures that expects no output. -/
def silentProblem : ProblemRecord where
  definition :=
    { id := "STANDARD-1".toList
      category := .standard
      title := ⟨['-'], ['-'], dash_valid, dash_valid⟩
      statement := ⟨['-'], ['-'], dash_valid, dash_valid⟩
      referenceSolution := [':']
      execution :=
        { stdin := []
          fixtures := []
          exitCode := .zero
          stderr := .merge
          stdin_valid := nil_stdin_valid
          fixtures_length := nil_fixtures_length
          fixtures_valid := nil_fixtures_valid }
      judge := .text { expectedOutput := [], expected_output_valid := by rfl }
      id_valid := standard_one_valid
      reference_solution_valid := colon_solution_valid
      category_valid := standard_one_category
      judge_valid := by decide }
  answerImage := []

/-! ### Requests (submission_request.py) -/

/-- `MAX_SHELLGEI_CHARS` -/
def maxShellgeiChars : ℕ := 1000

/-- `ShellgeiData.normalize_shellgei` -/
def normalizeShellgei (value : Text) : Text := value.filter (· ≠ '\r')

/-- A validated command. -/
structure ShellgeiData where
  shellgei : Text
  problemId : Text
  normalized : normalizeShellgei shellgei = shellgei
  length_valid : 1 ≤ shellgei.length ∧ shellgei.length ≤ maxShellgeiChars
  no_nul : '\x00' ∉ shellgei
  problem_id_valid : validateProblemId problemId = .ok problemId

theorem colon_normalized : normalizeShellgei [':'] = [':'] := by decide

theorem colon_length : 1 ≤ [':'].length ∧ [':'].length ≤ maxShellgeiChars := by decide

theorem colon_no_nul : '\x00' ∉ [':'] := by decide

end Problem
