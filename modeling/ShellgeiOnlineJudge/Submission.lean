/-
The submission of a command (soj_backend/submit_solution.py, with
models/submission.py and models/execution_log.py).

The borders of the service are parameters: what the runner returns or raises
for a command, what saving a log entry leads to, and the clock.  A model that
does not accept its fields raises their errors.

* `ExecutionLogEntry.fromResults_ok` — every judged result makes a log entry;
* `submit_of_execution` — what a submission returns when its command has run.
-/
import ShellgeiOnlineJudge.Json
import ShellgeiOnlineJudge.Judge

namespace Submission

open Utf8 Problem Execution Judge

/-- What a request of the backend raises. -/
inductive Raised
  | validation (model : String) (errors : List ErrorAt)
  | valueError (message : String)
  | runtimeError (message : String)
  | http (statusCode : ℕ) (detail : String)
  | runnerConfiguration
  deriving DecidableEq

/-- The errors of a model are raised under its name. -/
def validated {α : Type} (model : String) : Except (List ErrorAt) α → Except Raised α
  | .ok value => .ok value
  | .error errors => .error (.validation model errors)

/-! ### Times -/

/-- A reading of the clock. -/
structure WallClock where
  year : ℕ
  month : ℕ
  day : ℕ
  hour : ℕ
  minute : ℕ
  second : ℕ
  microsecond : ℕ
  year_valid : 1000 ≤ year ∧ year ≤ 9999
  day_valid : month ≤ 12 ∧ day ≤ 31
  time_valid : hour ≤ 23 ∧ minute ≤ 59 ∧ second ≤ 59
  microsecond_valid : microsecond ≤ 999_999

/-- The time zones that the code attaches. -/
inductive TimeZone
  | asiaTokyo

/-- A `datetime`, which has a time zone or is naive. -/
structure Datetime extends WallClock where
  zone : Option TimeZone

/-- `datetime.utcoffset`, in minutes -/
def Datetime.utcoffset (time : Datetime) : Option ℤ := time.zone.map fun .asiaTokyo => 540

/-- `current_japan_time` -/
def currentJapanTime (clock : WallClock) : Datetime := ⟨clock, some .asiaTokyo⟩

/-! ### Log entries (models/execution_log.py) -/

/-- `Field(min_length=...)` -/
def checkMinLength (field : String) (minimum : ℕ) (value : Text) : List ErrorAt :=
  if value.length < minimum then [⟨some field, .tooShort minimum⟩] else []

/-- The constraints of a `ProblemId`; its validator comes after them. -/
def checkProblemId (problemId : Text) : List ErrorAt :=
  if problemId.length < 1 then [⟨some "problem_id", .tooShort 1⟩]
  else if maxProblemIdChars < problemId.length then
    [⟨some "problem_id", .tooLong maxProblemIdChars⟩]
  else if ¬ matchesProblemIdPattern problemId then [⟨some "problem_id", .pattern⟩]
  else match validateProblemId problemId with
    | .error message => [⟨some "problem_id", .valueError message⟩]
    | .ok _ => []

/-- The fields of `ExecutionLogEntry` -/
structure LogFields where
  problemId : Text
  shellgei : Text
  legacyOutput : Text
  legacyJudge : Text
  executionStatus : ExecutionStatus
  stdout : Text
  stderr : Text
  exitCode : Option ℤ
  timedOut : Bool
  truncated : Bool
  durationMs : ℤ
  verdict : JudgeVerdict
  judgeReason : Option JudgeReason

/-- What pydantic refuses in the single fields. -/
def LogFields.fieldErrors (entry : LogFields) : List ErrorAt :=
  checkProblemId entry.problemId ++
  checkMinLength "shellgei" 1 entry.shellgei ++
  checkMaxLength "shellgei" 1_000 entry.shellgei ++
  checkMaxLength "legacy_output" (maxCapturedOutputChars + 3) entry.legacyOutput ++
  checkMinLength "legacy_judge" 1 entry.legacyJudge ++
  checkMaxLength "legacy_judge" 1 entry.legacyJudge ++
  checkMaxLength "stdout" maxCapturedOutputChars entry.stdout ++
  checkMaxLength "stderr" maxCapturedOutputChars entry.stderr ++
  (if entry.durationMs < 0 then [⟨some "duration_ms", .lessThan 0⟩] else [])

/-- `ExecutionLogEntry.validate_execution_fields` -/
def LogFields.validateExecutionFields (entry : LogFields) : Except String Unit := do
  raiseIf (maxCapturedOutputChars < entry.stdout.length + entry.stderr.length)
    "combined execution log output exceeds the limit"
  match entry.executionStatus with
  | .completed =>
    raiseIf (entry.exitCode = none ∨ entry.timedOut ∨ entry.truncated)
      "completed execution log is inconsistent"
  | .timedOut => raiseIf (¬ entry.timedOut) "timed out execution log is inconsistent"
  | .outputLimit =>
    raiseIf (entry.timedOut ∨ ¬ entry.truncated) "output limited execution log is inconsistent"
  | .error => raiseIf (entry.timedOut : Prop) "failed execution log is inconsistent"

/-- The errors of `ExecutionLogEntry(...)`. -/
def LogFields.errors (entry : LogFields) : List ErrorAt :=
  if entry.fieldErrors ≠ [] then entry.fieldErrors
  else match entry.validateExecutionFields with
    | .error message => [⟨none, .valueError message⟩]
    | .ok () => []

/-- `ExecutionLogEntry` -/
structure ExecutionLogEntry extends LogFields where
  valid : toLogFields.errors = []

/-- `ExecutionLogEntry(...)` -/
def ExecutionLogEntry.build (fields : LogFields) : Except (List ErrorAt) ExecutionLogEntry :=
  if h : fields.errors = [] then .ok ⟨fields, h⟩ else .error fields.errors

/-- What `ExecutionLogEntry.from_results` passes to the model. -/
def LogFields.ofResults (problemId shellgei : Text) (execution : ResultFields)
    (judge : JudgeResult) : LogFields where
  problemId := problemId
  shellgei := shellgei
  legacyOutput :=
    if execution.status = .error then "Error during execution".toList
    else execution.legacyOutput maxCapturedOutputChars
  legacyJudge := judge.legacyCode
  executionStatus := execution.status
  stdout := execution.stdout
  stderr := execution.stderr
  exitCode := execution.exitCode
  timedOut := execution.timedOut
  truncated := execution.truncated
  durationMs := execution.durationMs
  verdict := judge.verdict
  judgeReason := judge.reason

/-- `ExecutionLogEntry.from_results` -/
def ExecutionLogEntry.fromResults (problemId shellgei : Text) (execution : ExecutionResult)
    (judge : JudgeResult) : Except (List ErrorAt) ExecutionLogEntry :=
  ExecutionLogEntry.build (LogFields.ofResults problemId shellgei execution.toResultFields judge)

theorem checkMinLength_eq_nil {field : String} {minimum : ℕ} {value : Text}
    (h : minimum ≤ value.length) : checkMinLength field minimum value = [] :=
  if_neg (by omega)

theorem checkProblemId_eq_nil {problemId : Text} (h : validateProblemId problemId = .ok problemId) :
    checkProblemId problemId = [] := by
  have hvalid := h
  rw [validateProblemId] at h
  by_cases hlength : 1 ≤ problemId.length ∧ problemId.length ≤ maxProblemIdChars
  swap
  · rw [if_pos hlength] at h
    cases h
  by_cases hpattern : matchesProblemIdPattern problemId = true
  swap
  · rw [if_neg (not_not.2 hlength), if_pos hpattern] at h
    cases h
  rw [checkProblemId, if_neg (by omega), if_neg (by omega), if_neg (not_not.2 hpattern), hvalid]

theorem JudgeResult.length_legacyCode (result : JudgeResult) : result.legacyCode.length = 1 := by
  unfold JudgeResult.legacyCode
  cases result.verdict <;> rfl

theorem LogFields.fieldErrors_ofResults {problemId shellgei : Text} (execution : ExecutionResult)
    (judge : JudgeResult) (hid : validateProblemId problemId = .ok problemId)
    (hshellgei : 1 ≤ shellgei.length ∧ shellgei.length ≤ maxShellgeiChars) :
    (LogFields.ofResults problemId shellgei execution.toResultFields judge).fieldErrors = [] := by
  have hconsistent := execution.consistent
  have houtput := hconsistent.output
  have hduration := hconsistent.duration
  have hcode := JudgeResult.length_legacyCode judge
  have hlegacy : (if execution.status = .error then "Error during execution".toList
      else execution.legacyOutput maxCapturedOutputChars).length ≤ maxCapturedOutputChars + 3 := by
    split
    · decide
    · exact ResultFields.length_legacyOutput_le _ (by decide)
  simp only [LogFields.fieldErrors, LogFields.ofResults, List.append_eq_nil_iff,
    checkMaxLength_eq_nil]
  refine ⟨⟨⟨⟨⟨⟨⟨⟨?_, ?_⟩, ?_⟩, ?_⟩, ?_⟩, ?_⟩, ?_⟩, ?_⟩, ?_⟩
  · exact checkProblemId_eq_nil hid
  · exact checkMinLength_eq_nil hshellgei.1
  · exact hshellgei.2
  · exact hlegacy
  · exact checkMinLength_eq_nil (by omega)
  · omega
  · omega
  · omega
  · exact if_neg (by omega)

theorem LogFields.validate_ofResults (problemId shellgei : Text) (execution : ExecutionResult)
    (judge : JudgeResult) :
    (LogFields.ofResults problemId shellgei execution.toResultFields judge).validateExecutionFields
      = .ok () := by
  have hconsistent := execution.consistent
  have hfits := hconsistent.status
  have houtput := hconsistent.output
  unfold ResultFields.StatusFits at hfits
  rw [LogFields.validateExecutionFields, seq_eq_ok, raiseIf_eq_ok]
  refine ⟨Nat.not_lt.2 houtput, ?_⟩
  simp only [LogFields.ofResults]
  cases hstatus : execution.status with
  | completed =>
    rw [hstatus] at hfits
    obtain ⟨hexit, htimed, htruncated, -⟩ := hfits
    simp [raiseIf_eq_ok, hexit, htimed, htruncated]
  | timedOut =>
    rw [hstatus] at hfits
    simpa [raiseIf_eq_ok] using hfits
  | outputLimit =>
    rw [hstatus] at hfits
    simpa [raiseIf_eq_ok] using hfits
  | error =>
    rw [hstatus] at hfits
    obtain ⟨htimed, -⟩ := hfits
    exact raiseIf_eq_ok.2 (by rw [htimed]; exact Bool.false_ne_true)

/-- The entry of a judged result is accepted: the checks of the entry are the
checks that the result has passed, and the legacy output fits in its column. -/
theorem ExecutionLogEntry.fromResults_ok {problemId shellgei : Text} (execution : ExecutionResult)
    (judge : JudgeResult) (hid : validateProblemId problemId = .ok problemId)
    (hshellgei : 1 ≤ shellgei.length ∧ shellgei.length ≤ maxShellgeiChars) :
    ∃ entry, ExecutionLogEntry.fromResults problemId shellgei execution judge = .ok entry := by
  have herrors :
      (LogFields.ofResults problemId shellgei execution.toResultFields judge).errors = [] := by
    rw [LogFields.errors,
      if_neg (not_not.2 (LogFields.fieldErrors_ofResults execution judge hid hshellgei)),
      LogFields.validate_ofResults]
  rw [ExecutionLogEntry.fromResults, ExecutionLogEntry.build, dif_pos herrors]
  exact ⟨_, rfl⟩

/-! ### Results (models/submission.py) -/

/-- `SubmissionStatus` -/
inductive SubmissionStatus
  | completed
  | problemNotFound
  | runnerBusy
  | runnerUnavailable
  deriving DecidableEq

/-- `SubmissionPersistenceStatus` -/
inductive SubmissionPersistenceStatus
  | saved
  | unavailable
  | notAttempted
  deriving DecidableEq

/-- The fields of `SubmissionResult` -/
structure SubmissionFields where
  status : SubmissionStatus
  submittedAt : Datetime
  execution : Option ExecutionResult
  judgment : Option JudgeResult
  logId : Option ℤ
  persistence : SubmissionPersistenceStatus

/-- `Field(gt=0)`, of an ID that may be missing -/
def checkPositive (field : String) (value : Option ℤ) : List ErrorAt :=
  if ∃ n ∈ value, n ≤ 0 then [⟨some field, .notGreater 0⟩] else []

/-- `SubmissionResult.validate_consistent_result` -/
def SubmissionFields.validateConsistentResult (result : SubmissionFields) :
    Except String Unit := do
  raiseIf (result.submittedAt.utcoffset = none) "submission timestamp must include a timezone"
  if result.status = .completed then do
    raiseIf (result.execution.isNone ∨ result.judgment.isNone)
      "completed submission must contain results"
    match result.persistence with
    | .saved => raiseIf (result.logId = none) "saved submission must contain a log ID"
    | .unavailable => raiseIf (result.logId ≠ none) "unsaved submission must not contain a log ID"
    | .notAttempted => .error "completed submission must attempt persistence"
  else
    raiseIf (result.execution.isSome ∨ result.judgment.isSome ∨ result.logId ≠ none ∨
        result.persistence ≠ .notAttempted)
      "rejected submission must not contain execution results"

/-- The errors of `SubmissionResult(...)`. -/
def SubmissionFields.errors (result : SubmissionFields) : List ErrorAt :=
  if checkPositive "log_id" result.logId ≠ [] then checkPositive "log_id" result.logId
  else match result.validateConsistentResult with
    | .error message => [⟨none, .valueError message⟩]
    | .ok () => []

/-- `SubmissionResult` -/
structure SubmissionResult extends SubmissionFields where
  valid : toSubmissionFields.errors = []

/-- `SubmissionResult(...)` -/
def SubmissionResult.build (fields : SubmissionFields) :
    Except (List ErrorAt) SubmissionResult :=
  if h : fields.errors = [] then .ok ⟨fields, h⟩ else .error fields.errors

/-! ### The service -/

/-- What the runner client raises. -/
inductive RunnerError
  | busy
  | unavailable
  | configuration

/-- Python neither reads nor writes an integer of more decimal digits. -/
def maxIntDigits : ℕ := 4300

/-- An ID that the database has assigned. -/
structure LogId where
  value : ℤ
  positive : 0 < value
  printable : (Json.digits value).length ≤ maxIntDigits

/-- What saving an entry leads to: its row is committed, or an
`ExecutionLogRepositoryError` is raised. -/
inductive SaveOutcome
  | saved (logId : LogId)
  | repositoryError

/-- `SubmitSolutionService._record_result`: the safe event has a duration that is not negative. -/
def recordResult (result : SubmissionResult) : Except Raised SubmissionResult :=
  if ∃ execution ∈ result.execution, execution.durationMs < 0 then
    .error (.validation "SafeLogEvent" [⟨some "duration_ms", .lessThan 0⟩])
  else .ok result

/-- `SubmitSolutionService._rejected` -/
def rejected (status : SubmissionStatus) (submittedAt : Datetime) :
    Except Raised SubmissionResult :=
  validated "SubmissionResult" <| SubmissionResult.build
    { status, submittedAt, execution := none, judgment := none, logId := none,
      persistence := .notAttempted }

/-- `SubmitSolutionService._submit`; `submit` records what it raises and raises it again. -/
def submit (pillow : Bytes → Option PillowImage) (repository : ProblemRepository)
    (runner : Text → Text → Except RunnerError ExecutionResult)
    (save : ExecutionLogEntry → SaveOutcome) (clock : WallClock) (shellgei problemId : Text) :
    Except Raised SubmissionResult :=
  let submittedAt := currentJapanTime clock
  match repository.get problemId with
  | none => rejected .problemNotFound submittedAt >>= recordResult
  | some _ =>
    match runner shellgei problemId with
    | .error .busy => rejected .runnerBusy submittedAt >>= recordResult
    | .error .unavailable => rejected .runnerUnavailable submittedAt >>= recordResult
    | .error .configuration => .error .runnerConfiguration
    | .ok execution =>
      let judgment := judge pillow repository execution problemId
      validated "ExecutionLogEntry"
        (ExecutionLogEntry.fromResults problemId shellgei execution judgment) >>= fun entry =>
      match save entry with
      | .repositoryError =>
        validated "SubmissionResult" (SubmissionResult.build
          { status := .completed, submittedAt, execution := some execution,
            judgment := some judgment, logId := none, persistence := .unavailable }) >>=
          recordResult
      | .saved logId =>
        validated "SubmissionResult" (SubmissionResult.build
          { status := .completed, submittedAt, execution := some execution,
            judgment := some judgment, logId := some logId.value, persistence := .saved }) >>=
          recordResult

/-- The fields of a submission that has run: its row has an ID when it is saved. -/
structure Completed (result : SubmissionFields) (submittedAt : Datetime)
    (execution : ExecutionResult) (judgment : JudgeResult) : Prop where
  status : result.status = .completed
  submitted_at : result.submittedAt = submittedAt
  execution : result.execution = some execution
  judgment : result.judgment = some judgment
  persistence : (result.persistence = .saved ∧ ∃ logId : LogId, result.logId = some logId.value) ∨
    (result.persistence = .unavailable ∧ result.logId = none)

section Completed

variable {fields : SubmissionFields} {clock : WallClock} {execution : ExecutionResult}
  {judgment : JudgeResult}

theorem Completed.utcoffset_ne_none
    (h : Completed fields (currentJapanTime clock) execution judgment) :
    fields.submittedAt.utcoffset ≠ none := by
  rw [h.submitted_at]
  exact Option.some_ne_none _

theorem Completed.checkPositive_eq_nil {submittedAt : Datetime}
    (h : Completed fields submittedAt execution judgment) (field : String) :
    checkPositive field fields.logId = [] := by
  refine if_neg ?_
  rintro ⟨n, hn, hle⟩
  rcases h.persistence with ⟨-, logId, hid⟩ | ⟨-, hid⟩
  · obtain rfl := Option.some.inj (hid.symm.trans hn)
    have := logId.positive
    omega
  · rw [hid] at hn
    cases hn

/-- A completed submission is accepted by its model. -/
theorem Completed.errors_eq_nil
    (h : Completed fields (currentJapanTime clock) execution judgment) : fields.errors = [] := by
  have hvalid : fields.validateConsistentResult = .ok () := by
    rw [SubmissionFields.validateConsistentResult, seq_eq_ok, raiseIf_eq_ok, if_pos h.status,
      seq_eq_ok, raiseIf_eq_ok, h.execution, h.judgment]
    refine ⟨h.utcoffset_ne_none, by simp, ?_⟩
    rcases h.persistence with ⟨hsaved, logId, hlog⟩ | ⟨hunavailable, hlog⟩
    · rw [hsaved, hlog]
      exact raiseIf_eq_ok.2 (Option.some_ne_none _)
    · rw [hunavailable, hlog]
      exact raiseIf_eq_ok.2 (not_not.2 rfl)
  rw [SubmissionFields.errors, if_neg (not_not.2 (h.checkPositive_eq_nil "log_id")), hvalid]

/-- A completed submission is recorded. -/
theorem Completed.build_ok (h : Completed fields (currentJapanTime clock) execution judgment) :
    ∃ result, (validated "SubmissionResult" (SubmissionResult.build fields) >>= recordResult) =
      .ok result ∧ result.toSubmissionFields = fields := by
  refine ⟨⟨fields, h.errors_eq_nil⟩, ?_, rfl⟩
  rw [SubmissionResult.build, dif_pos h.errors_eq_nil]
  refine if_neg ?_
  rintro ⟨recorded, hrecorded, hnegative⟩
  obtain rfl : execution = recorded := Option.some.inj (h.execution.symm.trans hrecorded)
  have := execution.consistent.duration
  omega

end Completed

/-- The fields of the result of a command that has run, from what saving its entry led to. -/
def completedFields (submittedAt : Datetime) (execution : ExecutionResult)
    (judgment : JudgeResult) (outcome : SaveOutcome) : SubmissionFields :=
  match outcome with
  | .repositoryError =>
    { status := .completed, submittedAt, execution := some execution, judgment := some judgment,
      logId := none, persistence := .unavailable }
  | .saved logId =>
    { status := .completed, submittedAt, execution := some execution, judgment := some judgment,
      logId := some logId.value, persistence := .saved }

theorem completed_completedFields (submittedAt : Datetime) (execution : ExecutionResult)
    (judgment : JudgeResult) (outcome : SaveOutcome) :
    Completed (completedFields submittedAt execution judgment outcome) submittedAt execution
      judgment := by
  cases outcome with
  | repositoryError => exact ⟨rfl, rfl, rfl, rfl, .inr ⟨rfl, rfl⟩⟩
  | saved logId => exact ⟨rfl, rfl, rfl, rfl, .inl ⟨rfl, logId, rfl⟩⟩

/-- A command that has run is judged, its entry is saved, and its result says
what saving led to. -/
theorem submit_eq (pillow : Bytes → Option PillowImage) {repository : ProblemRepository}
    {runner : Text → Text → Except RunnerError ExecutionResult}
    (save : ExecutionLogEntry → SaveOutcome) (clock : WallClock) (data : ShellgeiData)
    {record : ProblemRecord} (hget : repository.get data.problemId = some record)
    {execution : ExecutionResult} (hrun : runner data.shellgei data.problemId = .ok execution) :
    ∃ entry result, ExecutionLogEntry.fromResults data.problemId data.shellgei execution
        (judge pillow repository execution data.problemId) = .ok entry ∧
      submit pillow repository runner save clock data.shellgei data.problemId = .ok result ∧
      result.toSubmissionFields = completedFields (currentJapanTime clock) execution
        (judge pillow repository execution data.problemId) (save entry) := by
  obtain ⟨entry, hentry⟩ := ExecutionLogEntry.fromResults_ok execution
    (judge pillow repository execution data.problemId) data.problem_id_valid data.length_valid
  obtain ⟨result, hresult, hfields⟩ := (completed_completedFields (currentJapanTime clock) execution
    (judge pillow repository execution data.problemId) (save entry)).build_ok
  refine ⟨entry, result, hentry, ?_, hfields⟩
  rw [← hresult]
  unfold submit
  simp only [hget, hrun, hentry]
  show (match save entry with
    | .repositoryError => _
    | .saved logId => _) = _
  cases save entry <;> rfl

/-- A submission whose command has run is completed, whatever becomes of its log entry. -/
theorem submit_of_execution (pillow : Bytes → Option PillowImage) {repository : ProblemRepository}
    {runner : Text → Text → Except RunnerError ExecutionResult}
    (save : ExecutionLogEntry → SaveOutcome) (clock : WallClock) (data : ShellgeiData)
    {record : ProblemRecord} (hget : repository.get data.problemId = some record)
    {execution : ExecutionResult} (hrun : runner data.shellgei data.problemId = .ok execution) :
    ∃ result, submit pillow repository runner save clock data.shellgei data.problemId =
        .ok result ∧
      Completed result.toSubmissionFields (currentJapanTime clock) execution
        (judge pillow repository execution data.problemId) := by
  obtain ⟨entry, result, -, hresult, hfields⟩ := submit_eq pillow save clock data hget hrun
  exact ⟨result, hresult, hfields ▸ completed_completedFields _ _ _ _⟩

end Submission
