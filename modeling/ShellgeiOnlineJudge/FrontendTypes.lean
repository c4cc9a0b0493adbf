/-
What the browser reads of a response (frontend/src/api/types.ts).

A record is what `JSON.parse` makes of an object; reading a name that it does
not have gives `undefined`, here `none`.  Numbers that are not written as small
integers, and dates, are left to the engine of the browser.

* `decodes_encoded` — what the backend writes is read as it was, and what is
  read keeps the rules of the backend.
-/
import ShellgeiOnlineJudge.JsonValue
import ShellgeiOnlineJudge.PublicApi

namespace FrontendTypes

open Utf8 Json Execution Problem Judge Submission PublicApi

/-! ### Values -/

/-- A plain object: its own properties, in order. -/
abbrev Record := List (Text × Value)

/-- `record.key`; of members with one name the last one counts. -/
def property : Record → Text → Option Value
  | [], _ => none
  | (name, value) :: rest, key =>
    match property rest key with
    | some found => some found
    | none => if name = key then some value else none

/-- A number is an integer for `Number.isInteger`, or it is not. -/
inductive Number
  | integer (n : ℤ)
  | other

/-- What the engine of the browser decides: the number next to a decimal that is
not a small integer, and `Date.parse`, where `none` is `NaN`. -/
structure Engine where
  round : Decimal → Number
  dateParse : Text → Option ℤ

/-- The integers up to this bound are numbers of their own. -/
def maxExactInteger : ℕ := 2 ^ 53

/-- The number that a literal of JSON reads as. -/
def Engine.number (engine : Engine) (d : Decimal) : Number :=
  if d.exponent = 0 ∧ d.mantissa.natAbs < maxExactInteger then .integer d.mantissa
  else engine.round d

/-- `typeof value === "number" && Number.isInteger(value)`, with the integer -/
def Engine.integer (engine : Engine) : Option Value → Option ℤ
  | some (.number d) =>
    match engine.number d with
    | .integer n => some n
    | .other => none
  | _ => none

/-! ### Tables -/

/-- `JUDGE_VERDICTS` -/
def judgeVerdicts : List Text :=
  ["accepted".toList, "wrong_answer".toList, "wrong_image".toList, "wrong_text_and_image".toList,
    "execution_failure".toList, "judge_error".toList]

/-- `JUDGE_REASONS` -/
def judgeReasons : List Text :=
  ["output_mismatch".toList, "image_mismatch".toList, "output_and_image_mismatch".toList,
    "artifact_missing".toList, "artifact_path_mismatch".toList,
    "artifact_media_type_mismatch".toList, "artifact_invalid".toList, "non_zero_exit".toList,
    "stderr_not_empty".toList, "timed_out".toList, "output_truncated".toList,
    "execution_error".toList, "invalid_problem_id".toList, "problem_not_found".toList]

/-- `EXECUTION_STATUSES` -/
def executionStatuses : List Text :=
  ["completed".toList, "timed_out".toList, "output_limit".toList, "error".toList]

/-- `ARTIFACT_MEDIA_TYPES` -/
def artifactMediaTypes : List Text := ["image/jpeg".toList, "image/gif".toList]

/-- `PERSISTENCE_STATUSES` -/
def persistenceStatuses : List Text := ["saved".toList, "unavailable".toList]

/-! ### Readers

An error is the message of its `ApiContractError`. -/

/-- `recordValue` -/
def recordValue (value : Option Value) (name : String) : Except String Record :=
  match value with
  | some (.object members) => .ok members
  | _ => .error (name ++ " must be an object")

/-- `stringValue` -/
def stringValue (value : Option Value) (name : String) : Except String Text :=
  match value with
  | some (.string text) => .ok text
  | _ => .error (name ++ " must be a string")

/-- `booleanValue` -/
def booleanValue (value : Option Value) (name : String) : Except String Bool :=
  match value with
  | some (.bool b) => .ok b
  | _ => .error (name ++ " must be a boolean")

/-- `nonNegativeInteger` -/
def Engine.nonNegativeInteger (engine : Engine) (value : Option Value) (name : String) :
    Except String ℤ :=
  match engine.integer value with
  | some n => if n < 0 then .error (name ++ " must be a non-negative integer") else .ok n
  | none => .error (name ++ " must be a non-negative integer")

/-- `enumValue` -/
def enumValue (value : Option Value) (allowed : List Text) (name : String) : Except String Text :=
  match value with
  | some (.string text) =>
    if text ∈ allowed then .ok text else .error (name ++ " is not supported")
  | _ => .error (name ++ " is not supported")

/-- `null`, or an integer that is accepted. -/
def Engine.integerOrNull (engine : Engine) (accepted : ℤ → Bool) (value : Option Value)
    (message : String) : Except String (Option ℤ) :=
  match value with
  | some .null => .ok none
  | value =>
    match engine.integer value with
    | some n => if accepted n then .ok (some n) else .error message
    | none => .error message

/-- `ExecutionResultV3` -/
structure ExecutionResultV3 where
  status : Text
  stdout : Text
  stderr : Text
  exitCode : Option ℤ
  timedOut : Bool
  truncated : Bool
  durationMs : ℤ
  deriving DecidableEq

/-- `SubmissionArtifactV3` -/
structure SubmissionArtifactV3 where
  mediaType : Text
  data : Text
  deriving DecidableEq

/-- `SubmissionResponseV3` -/
structure SubmissionResponseV3 where
  apiVersion : ℤ
  submissionId : Option ℤ
  submittedAt : Text
  verdict : Text
  reason : Option Text
  execution : ExecutionResultV3
  artifact : Option SubmissionArtifactV3
  persistence : Text
  deriving DecidableEq

/-- `parseExecution` -/
def Engine.parseExecution (engine : Engine) (value : Option Value) :
    Except String ExecutionResultV3 := do
  let execution ← recordValue value "execution"
  let exitCode ← engine.integerOrNull (fun _ => true) (property execution "exit_code".toList)
    "execution.exit_code must be an integer or null"
  let status ← enumValue (property execution "status".toList) executionStatuses "execution.status"
  let stdout ← stringValue (property execution "stdout".toList) "execution.stdout"
  let stderr ← stringValue (property execution "stderr".toList) "execution.stderr"
  let timedOut ← booleanValue (property execution "timed_out".toList) "execution.timed_out"
  let truncated ← booleanValue (property execution "truncated".toList) "execution.truncated"
  let durationMs ← engine.nonNegativeInteger (property execution "duration_ms".toList)
    "execution.duration_ms"
  return { status, stdout, stderr, exitCode, timedOut, truncated, durationMs }

/-- `parseArtifact` -/
def parseArtifact (value : Option Value) : Except String (Option SubmissionArtifactV3) :=
  match value with
  | some .null => .ok none
  | value => do
    let artifact ← recordValue value "artifact"
    let mediaType ← enumValue (property artifact "media_type".toList) artifactMediaTypes
      "artifact.media_type"
    let data ← stringValue (property artifact "data".toList) "artifact.data"
    return some { mediaType, data }

/-- The pattern `(?:Z|[+-]\d{2}:\d{2})$`. -/
def endsWithZone (text : Text) : Bool :=
  match text.reverse with
  | 'Z' :: _ => true
  | m1 :: m10 :: ':' :: h1 :: h10 :: sign :: _ =>
    (sign = '+' || sign = '-') && h10.isDigit && h1.isDigit && m10.isDigit && m1.isDigit
  | _ => false

/-- `null`, or a reason. -/
def parseReason (value : Option Value) : Except String (Option Text) :=
  match value with
  | some .null => .ok none
  | value => (enumValue value judgeReasons "submission reason").map some

/-- `parseSubmissionResponse` -/
def Engine.parseSubmissionResponse (engine : Engine) (value : Option Value) :
    Except String SubmissionResponseV3 := do
  let response ← recordValue value "submission response"
  if engine.integer (property response "api_version".toList) ≠ some 3 then
    throw "submission response api_version must be 3"
  let submissionId ← engine.integerOrNull (fun n => 0 < n)
    (property response "submission_id".toList) "submission_id must be a positive integer or null"
  let submittedAt ← stringValue (property response "submitted_at".toList) "submitted_at"
  if endsWithZone submittedAt = false ∨ engine.dateParse submittedAt = none then
    throw "submitted_at must be an RFC 3339 timestamp"
  let reason ← parseReason (property response "reason".toList)
  let persistence ← enumValue (property response "persistence".toList) persistenceStatuses
    "persistence"
  if persistence = "saved".toList ∧ submissionId = none ∨
      persistence = "unavailable".toList ∧ submissionId ≠ none then
    throw "submission_id and persistence are inconsistent"
  let verdict ← enumValue (property response "verdict".toList) judgeVerdicts "submission verdict"
  let execution ← engine.parseExecution (property response "execution".toList)
  let artifact ← parseArtifact (property response "artifact".toList)
  return { apiVersion := 3, submissionId, submittedAt, verdict, reason, execution, artifact,
           persistence }

/-! ### What the backend writes, as values -/

/-- The value of a member that may be null. -/
def optionValue {α : Type} (value : α → Value) : Option α → Value
  | none => .null
  | some a => value a

/-- The object that an execution is read as. -/
def executionRecord (execution : PublicExecutionFields) : Record :=
  [("status".toList, .string execution.status.value),
    ("stdout".toList, .string execution.stdout),
    ("stderr".toList, .string execution.stderr),
    ("exit_code".toList, optionValue Value.int execution.exitCode),
    ("timed_out".toList, .bool execution.timedOut),
    ("truncated".toList, .bool execution.truncated),
    ("duration_ms".toList, .int execution.durationMs)]

/-- The object that an artifact is read as. -/
def artifactRecord (artifact : PublicArtifactV3) : Record :=
  [("media_type".toList, .string artifact.mediaType.value),
    ("data".toList, .string artifact.data)]

/-- The object that a response is read as. -/
def responseRecord (response : ResponseFields) : Record :=
  [("api_version".toList, .int 3),
    ("submission_id".toList, optionValue Value.int response.submissionId),
    ("submitted_at".toList, .string (isoText response.submittedAt)),
    ("verdict".toList, .string response.verdict.value),
    ("reason".toList, optionValue (fun reason => .string reason.value) response.reason),
    ("execution".toList, .object (executionRecord response.execution.toPublicExecutionFields)),
    ("artifact".toList,
      optionValue (fun artifact => .object (artifactRecord artifact)) response.artifact),
    ("persistence".toList, .string response.persistence.value)]

theorem write_int (n : ℤ) : (Value.int n).write = Json.int n := rfl

theorem write_optionValue {α : Type} {value : α → Value} {text : α → Text}
    (h : ∀ a, (value a).write = text a) (o : Option α) :
    (optionValue value o).write = optionJson text o := by
  cases o with
  | none => rfl
  | some a => exact h a

theorem write_executionRecord (execution : PublicExecutionFields) :
    (Value.object (executionRecord execution)).write = execution.json := by
  have hexit := write_optionValue write_int execution.exitCode
  show Json.object (writeMembers (executionRecord execution)) = _
  rw [PublicExecutionFields.json, ← hexit]
  rfl

theorem write_artifactRecord (artifact : PublicArtifactV3) :
    (Value.object (artifactRecord artifact)).write = artifact.json := rfl

/-- The JSON of a response is its record, written. -/
theorem write_responseRecord (response : ResponseFields) :
    (Value.object (responseRecord response)).write = response.json := by
  have hid := write_optionValue write_int response.submissionId
  have hreason : (optionValue (fun reason => .string reason.value) response.reason).write =
      optionJson (fun reason => Json.string reason.value) response.reason :=
    write_optionValue (fun _ => rfl) response.reason
  have hexecution := write_executionRecord response.execution.toPublicExecutionFields
  have hartifact := write_optionValue write_artifactRecord response.artifact
  show Json.object (writeMembers (responseRecord response)) = _
  rw [ResponseFields.json, ← hid, ← hreason, ← hexecution, ← hartifact]
  rfl

/-- `JSON.parse` of a response is its record. -/
theorem parse_json (response : ResponseFields) :
    Json.parse response.json = some (.object (responseRecord response)) := by
  rw [← write_responseRecord]
  exact parse_write _

/-! ### What a reader accepts -/

theorem recordValue_eq_ok {value : Option Value} {name : String} {record : Record}
    (h : recordValue value name = .ok record) : value = some (.object record) := by
  rw [recordValue.eq_def] at h
  split at h
  next members =>
    cases h
    rfl
  next => cases h

theorem enumValue_eq_ok {value : Option Value} {allowed : List Text} {name : String} {text : Text}
    (h : enumValue value allowed name = .ok text) :
    value = some (.string text) ∧ text ∈ allowed := by
  rw [enumValue.eq_def] at h
  split at h
  next text' =>
    split at h
    next hmem =>
      cases h
      exact ⟨rfl, hmem⟩
    next => cases h
  next => cases h

theorem enumValue_of_mem {allowed : List Text} {text : Text} (h : text ∈ allowed) (name : String) :
    enumValue (some (.string text)) allowed name = .ok text := by
  show (if text ∈ allowed then Except.ok text else _) = _
  rw [if_pos h]

theorem Engine.integer_int (engine : Engine) {n : ℤ} (h : n.natAbs < maxExactInteger) :
    engine.integer (some (.int n)) = some n := by
  show (match engine.number ⟨n, 0⟩ with
    | .integer n => some n
    | .other => none) = some n
  rw [Engine.number, if_pos ⟨rfl, h⟩]

theorem Engine.nonNegativeInteger_int (engine : Engine) {n : ℤ} (h : n.natAbs < maxExactInteger)
    (hn : 0 ≤ n) (name : String) : engine.nonNegativeInteger (some (.int n)) name = .ok n := by
  rw [Engine.nonNegativeInteger, engine.integer_int h]
  show (if n < 0 then Except.error _ else Except.ok n) = _
  rw [if_neg (by omega)]

theorem Engine.integerOrNull_optionValue (engine : Engine) {accepted : ℤ → Bool} {o : Option ℤ}
    (h : ∀ n, o = some n → n.natAbs < maxExactInteger ∧ accepted n = true) (message : String) :
    engine.integerOrNull accepted (some (optionValue Value.int o)) message = .ok o := by
  cases o with
  | none => rfl
  | some n =>
    obtain ⟨hn, haccepted⟩ := h n rfl
    show (match engine.integer (some (.int n)) with
      | some n => if accepted n then Except.ok (some n) else .error message
      | none => .error message) = _
    rw [engine.integer_int hn]
    show (if accepted n then Except.ok (some n) else .error message) = _
    rw [if_pos haccepted]

theorem Engine.integerOrNull_eq_ok {engine : Engine} {accepted : ℤ → Bool} {value : Option Value}
    {message : String} {o : Option ℤ} (h : engine.integerOrNull accepted value message = .ok o) :
    value = some .null ∧ o = none ∨
      ∃ n, engine.integer value = some n ∧ accepted n = true ∧ o = some n := by
  rw [Engine.integerOrNull.eq_def] at h
  split at h
  next =>
    cases h
    exact .inl ⟨rfl, rfl⟩
  next =>
    split at h
    next n hn =>
      split at h
      next haccepted =>
        cases h
        exact .inr ⟨n, hn, haccepted, rfl⟩
      next => cases h
    next => cases h

/-! ### The tables of the two sides -/

/-- A table holds the values of an enumeration. -/
def Lists {α : Type} (allowed : List Text) (value : α → Text) : Prop :=
  ∀ text, text ∈ allowed ↔ ∃ a, value a = text

/-- A table written from members of an enumeration that has no others. -/
theorem lists_of_map {α : Type} {allowed : List Text} (value : α → Text) (members : List α)
    (heq : members.map value = allowed) (h : ∀ a, a ∈ members) : Lists allowed value := by
  intro text
  rw [← heq, List.mem_map]
  constructor
  · rintro ⟨a, -, ha⟩
    exact ⟨a, ha⟩
  · rintro ⟨a, ha⟩
    exact ⟨a, h a, ha⟩

theorem lists_judgeVerdicts : Lists judgeVerdicts JudgeVerdict.value := by
  refine lists_of_map _ [.accepted, .wrongAnswer, .wrongImage, .wrongTextAndImage,
    .executionFailure, .judgeError] rfl ?_
  intro verdict
  cases verdict <;> decide

theorem lists_judgeReasons : Lists judgeReasons JudgeReason.value := by
  refine lists_of_map _ [.outputMismatch, .imageMismatch, .outputAndImageMismatch,
    .artifactMissing, .artifactPathMismatch, .artifactMediaTypeMismatch, .artifactInvalid,
    .nonZeroExit, .stderrNotEmpty, .timedOut, .outputTruncated, .executionError,
    .invalidProblemId, .problemNotFound] rfl ?_
  intro reason
  cases reason <;> decide

theorem lists_executionStatuses : Lists executionStatuses ExecutionStatus.value := by
  refine lists_of_map _ [.completed, .timedOut, .outputLimit, .error] rfl ?_
  intro status
  cases status <;> decide

theorem lists_artifactMediaTypes : Lists artifactMediaTypes ImageMediaType.value := by
  refine lists_of_map _ [.jpeg, .gif] rfl ?_
  intro mediaType
  cases mediaType <;> decide

theorem lists_persistenceStatuses :
    Lists persistenceStatuses PublicPersistenceStatusV3.value := by
  refine lists_of_map _ [.saved, .unavailable] rfl ?_
  intro persistence
  cases persistence <;> decide

/-- A value of the enumeration is read. -/
theorem Lists.read {α : Type} {allowed : List Text} {value : α → Text} (h : Lists allowed value)
    (a : α) (name : String) : enumValue (some (.string (value a))) allowed name = .ok (value a) :=
  enumValue_of_mem ((h (value a)).mpr ⟨a, rfl⟩) name

/-- What is read is a value of the enumeration. -/
theorem Lists.of_read {α : Type} {allowed : List Text} {value : α → Text} (h : Lists allowed value)
    {v : Option Value} {name : String} {text : Text} (hread : enumValue v allowed name = .ok text) :
    ∃ a, v = some (.string (value a)) := by
  obtain ⟨hv, hmem⟩ := enumValue_eq_ok hread
  obtain ⟨a, rfl⟩ := (h text).mp hmem
  exact ⟨a, hv⟩

/-! ### Reading what the backend writes -/

/-- An execution of the backend, as the browser has it. -/
def ExecutionResultV3.ofBackend (execution : PublicExecutionFields) : ExecutionResultV3 where
  status := execution.status.value
  stdout := execution.stdout
  stderr := execution.stderr
  exitCode := execution.exitCode
  timedOut := execution.timedOut
  truncated := execution.truncated
  durationMs := execution.durationMs

/-- An artifact as the frontend holds it. -/
def SubmissionArtifactV3.ofBackend (artifact : PublicArtifactV3) : SubmissionArtifactV3 where
  mediaType := artifact.mediaType.value
  data := artifact.data

/-- A response as the frontend holds it. -/
def SubmissionResponseV3.ofBackend (response : ResponseFields) : SubmissionResponseV3 where
  apiVersion := 3
  submissionId := response.submissionId
  submittedAt := isoText response.submittedAt
  verdict := response.verdict.value
  reason := response.reason.map JudgeReason.value
  execution := ExecutionResultV3.ofBackend response.execution.toPublicExecutionFields
  artifact := response.artifact.map SubmissionArtifactV3.ofBackend
  persistence := response.persistence.value

theorem ok_bind {ε α β : Type} (a : α) (f : α → Except ε β) : (Except.ok a >>= f) = f a := rfl

/-- The integers of a response are below the bound. -/
structure SmallIntegers (response : ResponseFields) : Prop where
  submissionId : ∀ n, response.submissionId = some n → n.natAbs < maxExactInteger
  exitCode : ∀ n, response.execution.exitCode = some n → n.natAbs < maxExactInteger
  durationMs : response.execution.durationMs.natAbs < maxExactInteger

theorem Engine.parseExecution_record (engine : Engine) (execution : PublicExecutionResultV3)
    (hexit : ∀ n, execution.exitCode = some n → n.natAbs < maxExactInteger)
    (hduration : execution.durationMs.natAbs < maxExactInteger) :
    engine.parseExecution (some (.object (executionRecord execution.toPublicExecutionFields))) =
      .ok (ExecutionResultV3.ofBackend execution.toPublicExecutionFields) := by
  obtain ⟨hnonneg, -⟩ := PublicExecutionFields.errors_eq_nil_iff.1 execution.valid
  have hcode : engine.integerOrNull (fun _ => true)
      (property (executionRecord execution.toPublicExecutionFields) "exit_code".toList)
      "execution.exit_code must be an integer or null" = .ok execution.exitCode :=
    engine.integerOrNull_optionValue (fun n hn => ⟨hexit n hn, rfl⟩) _
  have hstatus : enumValue
      (property (executionRecord execution.toPublicExecutionFields) "status".toList)
      executionStatuses "execution.status" = .ok execution.status.value :=
    lists_executionStatuses.read execution.status _
  have hmillis : engine.nonNegativeInteger
      (property (executionRecord execution.toPublicExecutionFields) "duration_ms".toList)
      "execution.duration_ms" = .ok execution.durationMs :=
    engine.nonNegativeInteger_int hduration hnonneg _
  simp only [Engine.parseExecution, recordValue, ok_bind, hcode, hstatus, hmillis]
  rfl

theorem parseArtifact_record (artifact : Option PublicArtifactV3) :
    parseArtifact
        (some (optionValue (fun artifact => .object (artifactRecord artifact)) artifact)) =
      .ok (artifact.map SubmissionArtifactV3.ofBackend) := by
  cases artifact with
  | none => rfl
  | some artifact =>
    have hmediaType := lists_artifactMediaTypes.read artifact.mediaType "artifact.media_type"
    show (do
      let mediaType ← enumValue (some (.string artifact.mediaType.value)) artifactMediaTypes
        "artifact.media_type"
      return some ({ mediaType, data := artifact.data } : SubmissionArtifactV3)) = _
    rw [hmediaType]
    rfl

theorem parseReason_optionValue (reason : Option JudgeReason) :
    parseReason (some (optionValue (fun reason => .string reason.value) reason)) =
      .ok (reason.map JudgeReason.value) := by
  cases reason with
  | none => rfl
  | some reason =>
    have hread := lists_judgeReasons.read reason "submission reason"
    show (enumValue (some (.string reason.value)) judgeReasons "submission reason").map some = _
    rw [hread]
    rfl

/-- The time of a valid response is written with its offset. -/
theorem endsWithZone_isoText {time : Datetime} (h : time.utcoffset ≠ none) :
    endsWithZone (isoText time) = true := by
  obtain ⟨clock, zone⟩ := time
  cases zone with
  | none => exact absurd rfl h
  | some zone =>
    cases zone
    rw [endsWithZone, isoText, List.reverse_append]
    rfl

/-- What a valid response satisfies. -/
theorem valid_response (response : PublicApi.SubmitSolutionResponseV3) :
    (∀ n, response.submissionId = some n → 0 < n) ∧ response.submittedAt.utcoffset ≠ none ∧
      (response.persistence = .saved ↔ response.submissionId ≠ none) := by
  have hvalid := response.valid
  rw [ResponseFields.errors] at hvalid
  -- the fields are checked before the model is
  have hpositive : checkPositive "submission_id" response.submissionId = [] := by
    by_contra hne
    rw [if_pos hne] at hvalid
    exact hne hvalid
  rw [if_neg (not_not.2 hpositive)] at hvalid
  have hchecks : response.validatePersistence = .ok () := by
    cases hcheck : response.validatePersistence with
    | ok u => rfl
    | error message =>
      rw [hcheck] at hvalid
      exact absurd hvalid (List.cons_ne_nil _ _)
  rw [ResponseFields.validatePersistence, seq_eq_ok, raiseIf_eq_ok] at hchecks
  obtain ⟨hzone, hid⟩ := hchecks
  refine ⟨?_, hzone, ?_⟩
  · intro n hn
    by_contra hle
    rw [checkPositive, if_pos ⟨n, hn, by omega⟩] at hpositive
    exact List.cons_ne_nil _ _ hpositive
  · by_cases hsaved : response.persistence = .saved
    · rw [if_pos hsaved, raiseIf_eq_ok] at hid
      exact iff_of_true hsaved hid
    · rw [if_neg hsaved, raiseIf_eq_ok] at hid
      exact iff_of_false hsaved hid

/-- **A valid response is read as it is**, field by field. -/
theorem parseSubmissionResponse_record (engine : Engine)
    (response : PublicApi.SubmitSolutionResponseV3)
    (hsmall : SmallIntegers response.toResponseFields)
    (hdate : engine.dateParse (isoText response.submittedAt) ≠ none) :
    engine.parseSubmissionResponse (some (.object (responseRecord response.toResponseFields))) =
      .ok (SubmissionResponseV3.ofBackend response.toResponseFields) := by
  obtain ⟨hpositive, hzone, hsaved⟩ := valid_response response
  have hversion : engine.integer
      (property (responseRecord response.toResponseFields) "api_version".toList) = some 3 :=
    engine.integer_int (show (3 : ℤ).natAbs < maxExactInteger by decide)
  -- the guards, in the order in which the browser takes them
  have hid : engine.integerOrNull (fun n => 0 < n)
      (property (responseRecord response.toResponseFields) "submission_id".toList)
      "submission_id must be a positive integer or null" = .ok response.submissionId :=
    engine.integerOrNull_optionValue
      (fun n hn => ⟨hsmall.submissionId n hn, decide_eq_true (hpositive n hn)⟩) _
  have hsubmitted : stringValue
      (property (responseRecord response.toResponseFields) "submitted_at".toList) "submitted_at" =
      .ok (isoText response.submittedAt) := rfl
  have htime : ¬ (endsWithZone (isoText response.submittedAt) = false ∨
      engine.dateParse (isoText response.submittedAt) = none) := by
    rintro (hends | hnone)
    · rw [endsWithZone_isoText hzone] at hends
      cases hends
    · exact hdate hnone
  -- the model of the backend has checked the same
  have hconsistent : ¬ (response.persistence.value = "saved".toList ∧
      response.submissionId = none ∨
      response.persistence.value = "unavailable".toList ∧ response.submissionId ≠ none) := by
    rcases hcase : response.persistence with _ | _
    · have hsome := hsaved.1 hcase
      rintro (⟨-, hnone⟩ | ⟨hother, -⟩)
      · exact hsome hnone
      · exact absurd hother (by decide)
    · rintro (⟨hother, -⟩ | ⟨-, hsome⟩)
      · exact absurd hother (by decide)
      · rw [hsaved.2 hsome] at hcase
        cases hcase
  have hreason : parseReason
      (property (responseRecord response.toResponseFields) "reason".toList) =
      .ok (response.reason.map JudgeReason.value) := parseReason_optionValue response.reason
  have hpersistence : enumValue
      (property (responseRecord response.toResponseFields) "persistence".toList)
      persistenceStatuses "persistence" = .ok response.persistence.value :=
    lists_persistenceStatuses.read response.persistence _
  have hverdict : enumValue
      (property (responseRecord response.toResponseFields) "verdict".toList)
      judgeVerdicts "submission verdict" = .ok response.verdict.value :=
    lists_judgeVerdicts.read response.verdict _
  have hexecution : engine.parseExecution
      (property (responseRecord response.toResponseFields) "execution".toList) =
      .ok (ExecutionResultV3.ofBackend response.execution.toPublicExecutionFields) :=
    engine.parseExecution_record response.execution hsmall.exitCode hsmall.durationMs
  have hartifact : parseArtifact
      (property (responseRecord response.toResponseFields) "artifact".toList) =
      .ok (response.artifact.map SubmissionArtifactV3.ofBackend) :=
    parseArtifact_record response.artifact
  simp only [Engine.parseSubmissionResponse, recordValue, ok_bind, hversion, hid, hsubmitted,
    if_neg htime, hreason, hpersistence, if_neg hconsistent, hverdict, hexecution, hartifact]
  rfl

/-! ### What is read -/

/-- A value keeps the rules of the backend: a value of the enumeration in every
enum field, and an ID when it is saved, and only then. -/
structure KeepsRules (engine : Engine) (response : Record) : Prop where
  verdict : ∃ verdict : JudgeVerdict,
    property response "verdict".toList = some (.string verdict.value)
  reason : property response "reason".toList = some .null ∨ ∃ reason : JudgeReason,
    property response "reason".toList = some (.string reason.value)
  status : ∃ execution, property response "execution".toList = some (.object execution) ∧
    ∃ status : ExecutionStatus,
      property execution "status".toList = some (.string status.value)
  media_type : property response "artifact".toList = some .null ∨
    ∃ artifact, property response "artifact".toList = some (.object artifact) ∧
      ∃ mediaType : ImageMediaType,
        property artifact "media_type".toList = some (.string mediaType.value)
  persistence : ∃ persistence : PublicPersistenceStatusV3,
    property response "persistence".toList = some (.string persistence.value)
  submission_id : property response "submission_id".toList = some .null ∨
    ∃ n, engine.integer (property response "submission_id".toList) = some n ∧ 0 < n
  saved_iff : property response "submission_id".toList ≠ some .null ↔
    property response "persistence".toList =
      some (.string PublicPersistenceStatusV3.saved.value)

/-- A check that throws has passed when what follows it has a value. -/
theorem unless_throw_eq_ok {α : Type} {c : Prop} [Decidable c] {message : String}
    {f : PUnit → Except String α} {x : Except String α} {a : α} :
    (if c then (throw message : Except String PUnit) >>= f else x) = .ok a ↔ ¬ c ∧ x = .ok a := by
  by_cases hc : c
  · rw [if_pos hc]
    refine iff_of_false ?_ (fun h => h.1 hc)
    intro h
    cases h
  · rw [if_neg hc]
    exact (and_iff_right hc).symm

theorem status_of_parseExecution {engine : Engine} {value : Option Value}
    {parsed : ExecutionResultV3} (h : engine.parseExecution value = .ok parsed) :
    ∃ execution, value = some (.object execution) ∧ ∃ status : ExecutionStatus,
      property execution "status".toList = some (.string status.value) := by
  simp only [Engine.parseExecution, bind_eq_ok] at h
  obtain ⟨execution, hrecord, exitCode, -, status, hstatus, -⟩ := h
  exact ⟨execution, recordValue_eq_ok hrecord, lists_executionStatuses.of_read hstatus⟩

theorem mediaType_of_parseArtifact {value : Option Value} {parsed : Option SubmissionArtifactV3}
    (h : parseArtifact value = .ok parsed) :
    value = some .null ∨ ∃ artifact, value = some (.object artifact) ∧
      ∃ mediaType : ImageMediaType,
        property artifact "media_type".toList = some (.string mediaType.value) := by
  rw [parseArtifact.eq_def] at h
  split at h
  next => exact .inl rfl
  next =>
    simp only [bind_eq_ok] at h
    obtain ⟨artifact, hrecord, mediaType, hmediaType, -⟩ := h
    exact .inr ⟨artifact, recordValue_eq_ok hrecord, lists_artifactMediaTypes.of_read hmediaType⟩

theorem reason_of_parseReason {value : Option Value} {parsed : Option Text}
    (h : parseReason value = .ok parsed) :
    value = some .null ∨ ∃ reason : JudgeReason, value = some (.string reason.value) := by
  rw [parseReason.eq_def] at h
  split at h
  next => exact .inl rfl
  next =>
    cases hread : enumValue value judgeReasons "submission reason" with
    | ok text => exact .inr (lists_judgeReasons.of_read hread)
    | error message =>
      rw [hread] at h
      cases h

theorem keepsRules_of_parse {engine : Engine} {value : Value} {parsed : SubmissionResponseV3}
    (h : engine.parseSubmissionResponse (some value) = .ok parsed) :
    ∃ response, value = .object response ∧ KeepsRules engine response := by
  simp only [Engine.parseSubmissionResponse, bind_eq_ok, unless_throw_eq_ok] at h
  obtain ⟨response, hrecord, -, submissionId, hid, submittedAt, -, -, reason, hreason,
    persistence, hpersistence, hconsistent, verdict, hverdict, execution, hexecution, artifact,
    hartifact, -⟩ := h
  obtain ⟨hvalue, hmem⟩ := enumValue_eq_ok hpersistence
  have hnumber : ∀ {n}, engine.integer (property response "submission_id".toList) = some n →
      property response "submission_id".toList ≠ some .null := by
    intro n hn hnull
    rw [hnull] at hn
    cases hn
  refine ⟨response, Option.some.inj (recordValue_eq_ok hrecord), ?_⟩
  exact {
    verdict := lists_judgeVerdicts.of_read hverdict
    reason := reason_of_parseReason hreason
    status := status_of_parseExecution hexecution
    media_type := mediaType_of_parseArtifact hartifact
    persistence := lists_persistenceStatuses.of_read hpersistence
    submission_id := by
      rcases Engine.integerOrNull_eq_ok hid with ⟨hnull, -⟩ | ⟨n, hn, hpositive, -⟩
      · exact .inl hnull
      · exact .inr ⟨n, hn, of_decide_eq_true hpositive⟩
    saved_iff := by
      rw [hvalue, Option.some.injEq, Value.string.injEq]
      rw [not_or, not_and, not_and, not_not] at hconsistent
      rcases Engine.integerOrNull_eq_ok hid with ⟨hnull, hnone⟩ | ⟨n, hn, -, hsome⟩
      · refine iff_of_false (not_not.2 hnull) ?_
        intro hsaved
        exact hconsistent.1 hsaved hnone
      · refine iff_of_true (hnumber hn) ?_
        -- of the two values the other one is refused next to an ID
        rcases List.mem_cons.1 hmem with hsaved | hother
        · exact hsaved
        · have hnone := hconsistent.2 (List.mem_singleton.1 hother)
          rw [hsome] at hnone
          cases hnone }

/-- **The browser decodes what the backend encodes.**  The JSON of a valid
response is read as it was, and every value that is read keeps the rules of the
backend. -/
theorem decodes_encoded (engine : Engine) :
    (∀ response : PublicApi.SubmitSolutionResponseV3, SmallIntegers response.toResponseFields →
      engine.dateParse (isoText response.submittedAt) ≠ none →
      (Json.parse response.json).map (fun value => engine.parseSubmissionResponse (some value)) =
        some (.ok (SubmissionResponseV3.ofBackend response.toResponseFields))) ∧
    ∀ value parsed, engine.parseSubmissionResponse (some value) = .ok parsed →
      ∃ response, value = .object response ∧ KeepsRules engine response := by
  constructor
  · intro response hsmall hdate
    rw [parse_json]
    exact congrArg some (parseSubmissionResponse_record engine response hsmall hdate)
  · intro value parsed h
    exact keepsRules_of_parse h

/-- A response to a solution that printed one character. -/
def savedResponse : PublicApi.SubmitSolutionResponseV3 where
  submissionId := some 1
  submittedAt := currentJapanTime noon
  verdict := .accepted
  reason := none
  execution :=
    { status := .completed, stdout := ['a'], stderr := [], exitCode := some 0, timedOut := false,
      truncated := false, durationMs := 12, valid := by decide }
  artifact := none
  persistence := .saved
  valid := by rfl

/-- An engine that knows one date, in milliseconds since 1970. -/
def noonEngine : Engine where
  round := fun _ => .other
  dateParse := fun text =>
    if text = "2026-01-02T12:00:00+09:00".toList then some 1_767_322_800_000 else none

theorem decodes_encoded_saved :
    (Json.parse savedResponse.json).map
        (fun value => noonEngine.parseSubmissionResponse (some value)) =
      some (.ok {
        apiVersion := 3
        submissionId := some 1
        submittedAt := "2026-01-02T12:00:00+09:00".toList
        verdict := "accepted".toList
        reason := none
        execution := {
          status := "completed".toList, stdout := ['a'], stderr := [], exitCode := some 0,
          timedOut := false, truncated := false, durationMs := 12 }
        artifact := none
        persistence := "saved".toList }) := by
  have hsmall : SmallIntegers savedResponse.toResponseFields := by
    refine ⟨?_, ?_, by decide⟩
    · intro n hn
      obtain rfl := Option.some.inj hn
      decide
    · intro n hn
      obtain rfl := Option.some.inj hn
      decide
  exact (decodes_encoded noonEngine).1 savedResponse hsmall (by decide)

end FrontendTypes
