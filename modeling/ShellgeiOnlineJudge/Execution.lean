/-
The execution result (soj_shared/models/execution.py), the value that the
runner builds and the backend judges.

A pydantic model is built from its fields: the field checks come first, each
with the errors of its field, and the model validator only runs when there are
none.  `ExecutionArtifact` and `ExecutionResult` are the values that were
built, so they carry the acceptance of their fields.

* `ExecutionArtifact.errors_eq_nil_iff`, `ResultFields.errors_eq_nil_iff` —
  what the two models accept.
-/
import Mathlib.Data.Int.Notation
import ShellgeiOnlineJudge.Problem

namespace Execution

open Utf8 Problem

/-- `MAX_CAPTURED_OUTPUT_CHARS` -/
def maxCapturedOutputChars : ℕ := 1_000

/-- `MAX_EXECUTION_ERROR_CHARS` -/
def maxExecutionErrorChars : ℕ := 1_000

/-- `MAX_RUNNER_IMAGE_BASE64_CHARS` -/
def maxRunnerImageBase64Chars : ℕ := 1_000_000

/-- `DISPLAY_GIF_PATH` -/
def displayGifPath : Text := "media/output.gif".toList

/-- `ExecutionStatus` -/
inductive ExecutionStatus
  | completed
  | timedOut
  | outputLimit
  | error
  deriving DecidableEq

/-- The text of a status. -/
def ExecutionStatus.value : ExecutionStatus → Text
  | .completed => "completed".toList
  | .timedOut => "timed_out".toList
  | .outputLimit => "output_limit".toList
  | .error => "error".toList

/-! ### Field errors -/

/-- Why pydantic refuses a value. -/
inductive FieldError
  | tooLong (maximum : ℕ)
  | tooShort (minimum : ℕ)
  | lessThan (minimum : ℤ)
  | notGreater (bound : ℤ)
  | pattern
  | valueError (message : String)
  deriving DecidableEq

/-- An error with the field it is about; the model validator has no field. -/
structure ErrorAt where
  field : Option String
  error : FieldError
  deriving DecidableEq

/-- `Field(max_length=...)` -/
def checkMaxLength (field : String) (maximum : ℕ) (value : Text) : List ErrorAt :=
  if maximum < value.length then [⟨some field, .tooLong maximum⟩] else []

theorem checkMaxLength_eq_nil {field : String} {maximum : ℕ} {value : Text} :
    checkMaxLength field maximum value = [] ↔ value.length ≤ maximum := by
  unfold checkMaxLength
  split
  · exact iff_of_false (by simp) (by omega)
  · exact iff_of_true rfl (by omega)

/-! ### Artifacts -/

/-- `ExecutionArtifact.validate_path` -/
def ExecutionArtifact.validatePath (value : Text) : Except String Text :=
  let path := PurePosixPath.parse value
  if value = [] ∨ '\\' ∈ value ∨ path.isAbsolute ∨
      (∃ part ∈ splitSlash value, part ∈ badParts) ∨ path.asPosix ≠ value then
    .error "artifact path must be a normalized relative POSIX path"
  else .ok value

/-- The errors of `ExecutionArtifact(path=..., media_type=..., data=...)`; the
validator of the path only runs when its length is fine. -/
def ExecutionArtifact.errors (path data : Text) : List ErrorAt :=
  let pathErrors :=
    if maxProblemPathBytes < path.length then checkMaxLength "path" maxProblemPathBytes path
    else match ExecutionArtifact.validatePath path with
      | .error message => [⟨some "path", .valueError message⟩]
      | .ok _ => []
  pathErrors ++ checkMaxLength "data" maxRunnerImageBase64Chars data

/-- `ExecutionArtifact` -/
structure ExecutionArtifact where
  path : Text
  mediaType : ImageMediaType
  data : Text
  valid : ExecutionArtifact.errors path data = []
  deriving DecidableEq

/-- `ExecutionArtifact(...)` -/
def ExecutionArtifact.build (path : Text) (mediaType : ImageMediaType) (data : Text) :
    Except (List ErrorAt) ExecutionArtifact :=
  if h : ExecutionArtifact.errors path data = [] then .ok ⟨path, mediaType, data, h⟩
  else .error (ExecutionArtifact.errors path data)

theorem ExecutionArtifact.validatePath_ok {value : Text} :
    (∃ path, ExecutionArtifact.validatePath value = .ok path) ↔
      value ≠ [] ∧ '\\' ∉ value ∧ ∀ part ∈ splitSlash value, part ∉ badParts := by
  unfold ExecutionArtifact.validatePath
  by_cases hparts : ∀ part ∈ splitSlash value, part ∉ badParts
  · have hbad : ¬ ∃ part ∈ splitSlash value, part ∈ badParts := by
      rintro ⟨part, hpart, hbad⟩
      exact hparts part hpart hbad
    by_cases hne : value = []
    · simp [hne]
    · obtain ⟨habsolute, hposix⟩ := parse_of_parts hne hparts
      by_cases hback : '\\' ∈ value
      · simp [hback]
      · simp only [hne, hback, habsolute, hposix, hbad]
        simpa using ⟨hne, hparts⟩
  · have hbad : ∃ part ∈ splitSlash value, part ∈ badParts := by
      simpa only [not_forall, not_not, exists_prop] using hparts
    refine iff_of_false ?_ (fun h => hparts h.2.2)
    rintro ⟨path, hpath⟩
    simp only [hbad, true_or, or_true, if_true] at hpath
    cases hpath

/-- What an artifact may be. -/
theorem ExecutionArtifact.errors_eq_nil_iff {path data : Text} :
    ExecutionArtifact.errors path data = [] ↔
      path.length ≤ maxProblemPathBytes ∧ path ≠ [] ∧ '\\' ∉ path ∧
        (∀ part ∈ splitSlash path, part ∉ badParts) ∧
        data.length ≤ maxRunnerImageBase64Chars := by
  unfold ExecutionArtifact.errors
  rw [List.append_eq_nil_iff, checkMaxLength_eq_nil]
  -- a path that is too long is not validated further
  by_cases hlength : maxProblemPathBytes < path.length
  · rw [if_pos hlength, checkMaxLength_eq_nil]
    constructor
    · intro h
      omega
    · intro h
      omega
  · rw [if_neg hlength]
    have hvalid := @ExecutionArtifact.validatePath_ok path
    cases hpath : ExecutionArtifact.validatePath path with
    | error message =>
      have hno := mt hvalid.2 (by rw [hpath]; simp)
      refine iff_of_false (by simp) ?_
      rintro ⟨-, hne, hback, hparts, -⟩
      exact hno ⟨hne, hback, hparts⟩
    | ok value =>
      obtain ⟨hne, hback, hparts⟩ := hvalid.1 ⟨value, hpath⟩
      constructor
      · rintro ⟨-, hdata⟩
        exact ⟨by omega, hne, hback, hparts, hdata⟩
      · rintro ⟨-, -, -, -, hdata⟩
        exact ⟨rfl, hdata⟩

theorem ExecutionArtifact.build_eq_ok {path data : Text} {mediaType : ImageMediaType}
    (h : ExecutionArtifact.errors path data = []) :
    ExecutionArtifact.build path mediaType data = .ok ⟨path, mediaType, data, h⟩ := by
  rw [ExecutionArtifact.build, dif_pos h]

theorem ExecutionArtifact.data_of_build {path : Text} {mediaType : ImageMediaType} {data : Text}
    {artifact : ExecutionArtifact}
    (h : ExecutionArtifact.build path mediaType data = .ok artifact) :
    artifact.data = data := by
  rw [ExecutionArtifact.build] at h
  split at h
  · rw [← Except.ok.inj h]
  · cases h

/-! ### Results -/

/-- The fields that an `ExecutionResult` is built from. -/
structure ResultFields where
  status : ExecutionStatus
  stdout : Text
  stderr : Text
  exitCode : Option ℤ
  timedOut : Bool
  truncated : Bool
  durationMs : ℤ
  artifact : Option ExecutionArtifact
  error : Option Text
  displayArtifact : Option ExecutionArtifact
  deriving DecidableEq

/-- What pydantic refuses in the single fields. -/
def ResultFields.fieldErrors (result : ResultFields) : List ErrorAt :=
  checkMaxLength "stdout" maxCapturedOutputChars result.stdout ++
  checkMaxLength "stderr" maxCapturedOutputChars result.stderr ++
  (if result.durationMs < 0 then [⟨some "duration_ms", .lessThan 0⟩] else []) ++
  checkMaxLength "error" maxExecutionErrorChars (result.error.getD [])

/-- The artifacts that are there. -/
def ResultFields.artifacts (result : ResultFields) : List ExecutionArtifact :=
  result.artifact.toList ++ result.displayArtifact.toList

/-- `if c: raise ValueError(message)` -/
def raiseIf (c : Prop) [Decidable c] (message : String) : Except String Unit :=
  if c then .error message else .ok ()

/-- The check of the status against the flags. -/
def ResultFields.validateStatus (result : ResultFields) : Except String Unit :=
  match result.status with
  | .completed =>
    raiseIf (result.exitCode = none ∨ result.timedOut ∨ result.truncated ∨ result.error ≠ none)
      "completed execution result is inconsistent"
  | .timedOut => raiseIf (¬ result.timedOut) "timed out execution result is inconsistent"
  | .outputLimit =>
    raiseIf (result.timedOut ∨ ¬ result.truncated)
      "output limited execution result is inconsistent"
  | .error =>
    raiseIf (result.timedOut ∨ result.error.getD [] = [])
      "failed execution result is inconsistent"

/-- `ExecutionResult.validate_consistent_outcome` -/
def ResultFields.validateConsistentOutcome (result : ResultFields) : Except String Unit := do
  raiseIf (maxCapturedOutputChars < result.stdout.length + result.stderr.length)
    "combined execution output exceeds the character limit"
  result.validateStatus
  raiseIf (maxRunnerImageBase64Chars < (result.artifacts.map (·.data.length)).sum)
    "combined artifact data exceeds the limit"
  raiseIf (∃ display ∈ result.displayArtifact,
      display.path ≠ displayGifPath ∨ display.mediaType ≠ .gif)
    "display artifact must be the fixed GIF output"
  raiseIf (result.status ≠ .completed ∧ result.artifacts ≠ [])
    "incomplete execution result must not contain an artifact"

/-- The errors of `ExecutionResult(...)`. -/
def ResultFields.errors (result : ResultFields) : List ErrorAt :=
  if result.fieldErrors ≠ [] then result.fieldErrors
  else match result.validateConsistentOutcome with
    | .error message => [⟨none, .valueError message⟩]
    | .ok () => []

/-- `ExecutionResult` -/
structure ExecutionResult extends ResultFields where
  valid : toResultFields.errors = []

/-- `ExecutionResult(...)` -/
def ExecutionResult.build (fields : ResultFields) : Except (List ErrorAt) ExecutionResult :=
  if h : fields.errors = [] then .ok ⟨fields, h⟩ else .error fields.errors

/-- The status against the flags, as the consumers of a result rely on it. -/
def ResultFields.StatusFits (result : ResultFields) : Prop :=
  match result.status with
  | .completed =>
    result.exitCode ≠ none ∧ result.timedOut = false ∧ result.truncated = false ∧
      result.error = none
  | .timedOut => result.timedOut = true
  | .outputLimit => result.timedOut = false ∧ result.truncated = true
  | .error => result.timedOut = false ∧ ∃ message, result.error = some message ∧ message ≠ []

/-- What the fields of a result satisfy. -/
structure ResultFields.Consistent (result : ResultFields) : Prop where
  output : result.stdout.length + result.stderr.length ≤ maxCapturedOutputChars
  duration : 0 ≤ result.durationMs
  error_length : (result.error.getD []).length ≤ maxExecutionErrorChars
  status : result.StatusFits
  data : (result.artifacts.map (·.data.length)).sum ≤ maxRunnerImageBase64Chars
  display : ∀ display ∈ result.displayArtifact,
    display.path = displayGifPath ∧ display.mediaType = .gif
  incomplete : result.status ≠ .completed → result.artifact = none ∧ result.displayArtifact = none

theorem ResultFields.fieldErrors_eq_nil {result : ResultFields} :
    result.fieldErrors = [] ↔ result.stdout.length ≤ maxCapturedOutputChars ∧
      result.stderr.length ≤ maxCapturedOutputChars ∧ 0 ≤ result.durationMs ∧
      (result.error.getD []).length ≤ maxExecutionErrorChars := by
  have hduration : (if result.durationMs < 0 then
      [(⟨some "duration_ms", .lessThan 0⟩ : ErrorAt)] else []) = [] ↔ 0 ≤ result.durationMs := by
    split
    · exact iff_of_false (by simp) (by omega)
    · exact iff_of_true rfl (by omega)
  simp only [ResultFields.fieldErrors, List.append_eq_nil_iff, checkMaxLength_eq_nil, hduration,
    and_assoc]

theorem ResultFields.artifacts_eq_nil {result : ResultFields} :
    result.artifacts = [] ↔ result.artifact = none ∧ result.displayArtifact = none := by
  rw [ResultFields.artifacts, List.append_eq_nil_iff, Option.toList_eq_nil_iff,
    Option.toList_eq_nil_iff]

theorem raiseIf_eq_ok {c : Prop} [Decidable c] {message : String} :
    raiseIf c message = .ok () ↔ ¬ c := by
  unfold raiseIf
  by_cases h : c
  · rw [if_pos h]
    exact iff_of_false (by simp) (not_not.2 h)
  · rw [if_neg h]
    exact iff_of_true rfl h

/-- A computation that is bound has its value when both parts have theirs. -/
theorem bind_eq_ok {ε α β : Type} {x : Except ε α} {f : α → Except ε β} {b : β} :
    x >>= f = .ok b ↔ ∃ a, x = .ok a ∧ f a = .ok b := by
  cases x with
  | error e => exact iff_of_false (fun h => nomatch h) (fun ⟨_, h, _⟩ => nomatch h)
  | ok a =>
    constructor
    · intro h
      exact ⟨a, rfl, h⟩
    · rintro ⟨_, h, hf⟩
      obtain rfl := Except.ok.inj h
      exact hf

/-- Checks in a row pass when each of them does. -/
theorem seq_eq_ok {check rest : Except String Unit} :
    (do check; rest) = .ok () ↔ check = .ok () ∧ rest = .ok () := by
  cases check with
  | error message => exact iff_of_false (by rintro ⟨⟩) (by rintro ⟨⟨⟩, -⟩)
  | ok u => exact ⟨fun h => ⟨rfl, h⟩, fun h => h.2⟩

theorem ResultFields.validateStatus_eq_ok {result : ResultFields} :
    result.validateStatus = .ok () ↔ result.StatusFits := by
  unfold ResultFields.validateStatus ResultFields.StatusFits
  match result.status with
  | .completed => simp [raiseIf_eq_ok, not_or]
  | .timedOut => simp [raiseIf_eq_ok]
  | .outputLimit => simp [raiseIf_eq_ok, not_or]
  | .error =>
    cases result.error with
    | none => simp [raiseIf_eq_ok]
    | some message => simp [raiseIf_eq_ok, not_or]

theorem ResultFields.validateConsistentOutcome_eq_ok {result : ResultFields} :
    result.validateConsistentOutcome = .ok () ↔
      result.stdout.length + result.stderr.length ≤ maxCapturedOutputChars ∧
      result.StatusFits ∧
      (result.artifacts.map (·.data.length)).sum ≤ maxRunnerImageBase64Chars ∧
      (∀ display ∈ result.displayArtifact,
        display.path = displayGifPath ∧ display.mediaType = .gif) ∧
      (result.status ≠ .completed → result.artifact = none ∧ result.displayArtifact = none) := by
  rw [ResultFields.validateConsistentOutcome, seq_eq_ok, seq_eq_ok, seq_eq_ok, seq_eq_ok,
    raiseIf_eq_ok, raiseIf_eq_ok, raiseIf_eq_ok, raiseIf_eq_ok,
    ResultFields.validateStatus_eq_ok, Nat.not_lt, Nat.not_lt]
  refine and_congr Iff.rfl (and_congr Iff.rfl (and_congr Iff.rfl (and_congr ?_ ?_)))
  · simp only [not_exists, not_and, not_or, not_not]
  · rw [not_and, not_not, ResultFields.artifacts_eq_nil]

/-- What the model accepts. -/
theorem ResultFields.errors_eq_nil_iff {result : ResultFields} :
    result.errors = [] ↔ result.Consistent := by
  unfold ResultFields.errors
  -- the validator runs when no field is refused
  by_cases hfields : result.fieldErrors = []
  · rw [if_neg (not_not.2 hfields)]
    obtain ⟨-, -, hduration, herror⟩ := ResultFields.fieldErrors_eq_nil.1 hfields
    have hvalid := @ResultFields.validateConsistentOutcome_eq_ok result
    cases houtcome : result.validateConsistentOutcome with
    | error message =>
      rw [houtcome] at hvalid
      refine iff_of_false (by simp) ?_
      intro h
      exact absurd (hvalid.2 ⟨h.output, h.status, h.data, h.display, h.incomplete⟩) (by simp)
    | ok u =>
      obtain ⟨h1, h2, h3, h4, h5⟩ := hvalid.1 houtcome
      exact iff_of_true rfl ⟨h1, hduration, herror, h2, h3, h4, h5⟩
  · rw [if_pos hfields]
    refine iff_of_false hfields ?_
    intro h
    refine hfields (ResultFields.fieldErrors_eq_nil.2 ⟨?_, ?_, h.duration, h.error_length⟩)
    · have := h.output
      omega
    · have := h.output
      omega

theorem ExecutionResult.consistent (result : ExecutionResult) :
    result.toResultFields.Consistent :=
  ResultFields.errors_eq_nil_iff.1 result.valid

theorem ExecutionResult.build_of_consistent {fields : ResultFields} (h : fields.Consistent) :
    ∃ result, ExecutionResult.build fields = .ok result ∧ result.toResultFields = fields := by
  rw [ExecutionResult.build, dif_pos (ResultFields.errors_eq_nil_iff.2 h)]
  exact ⟨_, rfl, rfl⟩

theorem ExecutionResult.fields_of_build {fields : ResultFields} {result : ExecutionResult}
    (h : ExecutionResult.build fields = .ok result) : result.toResultFields = fields := by
  rw [ExecutionResult.build] at h
  split at h
  · rw [← Except.ok.inj h]
  · cases h

/-! ### The output as the legacy API shows it -/

/-- `ExecutionResult.legacy_output` -/
def ResultFields.legacyOutput (result : ResultFields) (limitChars : ℕ) : Text :=
  let combined := result.stdout ++ result.stderr
  match result.status with
  | .timedOut =>
    let suffix := "\n[Timed out]".toList
    combined.take (limitChars - suffix.length) ++ suffix
  | .outputLimit => combined.take limitChars ++ "...".toList
  | .error => ("Error during execution: ".toList ++ result.error.getD "None".toList).take limitChars
  | .completed =>
    if limitChars < combined.length then combined.take limitChars ++ "...".toList else combined

/-- Three dots are the most that is added to the limit. -/
theorem ResultFields.length_legacyOutput_le (result : ResultFields) {limitChars : ℕ}
    (hlimit : 12 ≤ limitChars) : (result.legacyOutput limitChars).length ≤ limitChars + 3 := by
  -- what may be put behind the output
  have hsuffix : "\n[Timed out]".toList.length = 12 := by decide
  have hdots : "...".toList.length = 3 := by decide
  unfold ResultFields.legacyOutput
  cases result.status with
  | completed =>
    show (if _ then _ else _ : Text).length ≤ _
    split
    · rw [List.length_append, List.length_take, hdots]
      omega
    · omega
  | timedOut =>
    show (List.take _ _ ++ _).length ≤ _
    rw [List.length_append, List.length_take, hsuffix]
    omega
  | outputLimit =>
    show (List.take _ _ ++ _).length ≤ _
    rw [List.length_append, List.length_take, hdots]
    omega
  | error =>
    show (List.take _ _).length ≤ _
    rw [List.length_take]
    omega

end Execution
