/-
From the outcome of an execution to the result that the runner sends
(`_decode_output`, `_to_execution_result` and `exec_shellgei` of
soj_runner/run_shellgei.py).

* `toExecutionResult_spec` — the conversion of an outcome builds a result, with
  no check of `ExecutionArtifact` or `ExecutionResult` in its way;
* `execute_total` — an execution with its conversion is total and fails closed;
* `execShellgei_total` — so `exec_shellgei` always returns a result.
-/
import ShellgeiOnlineJudge.Base64
import ShellgeiOnlineJudge.SandboxExecutor

namespace ExecShellgei

open Utf8 Problem Execution SandboxExecutor

/-- `_decode_output` -/
def decodeOutput (outcome : SandboxExecutionOutcome) (limitChars : ℕ) : Text × Text × Bool :=
  let stdout := decode outcome.stdout
  let stderr := decode outcome.stderr
  let stdoutLimited := stdout.take limitChars
  let stderrLimit := limitChars - stdoutLimited.length
  let stderrLimited := stderr.take stderrLimit
  let truncated :=
    outcome.truncated || decide (stdoutLimited.length < stdout.length) ||
      decide (stderrLimited.length < stderr.length)
  (stdoutLimited, stderrLimited, truncated)

/-- The status after the decoding: output that was cut there is limited too. -/
def decodedStatus (outcome : SandboxExecutionOutcome) (truncated : Bool) : ExecutionStatus :=
  if truncated ∧ outcome.status = .completed then .outputLimit else outcome.status

/-- The artifact to judge, of a completed execution of an image problem. -/
def resultArtifact (status : ExecutionStatus) (judge : JudgeSpecification)
    (artifact : Option Bytes) : Except (List ErrorAt) (Option ExecutionArtifact) :=
  match status, judge, artifact with
  | .completed, .image specification, some payload => do
    let artifact ← ExecutionArtifact.build specification.path specification.mediaType
      (Base64.encode payload)
    .ok (some artifact)
  | _, _, _ => .ok none

/-- The display artifact of a completed execution. -/
def resultDisplayArtifact (status : ExecutionStatus) (artifact : Option Bytes) :
    Except (List ErrorAt) (Option ExecutionArtifact) :=
  match status, artifact with
  | .completed, some payload => do
    let artifact ← ExecutionArtifact.build displayGifPath .gif (Base64.encode payload)
    .ok (some artifact)
  | _, _ => .ok none

/-- The error text of a result: an error status always has one. -/
def resultError (status : ExecutionStatus) (error : Option Text) : Option Text :=
  if status = .error then
    let message := match error with
      | none => "sandbox execution failed".toList
      | some [] => "sandbox execution failed".toList
      | some message => message
    some (message.take maxExecutionErrorChars)
  else error.map fun message => message.take maxExecutionErrorChars

/-- The fields that the result is built from. -/
def resultFields (outcome : SandboxExecutionOutcome) (limitChars : ℕ)
    (artifact displayArtifact : Option ExecutionArtifact) : ResultFields where
  status := decodedStatus outcome (decodeOutput outcome limitChars).2.2
  stdout := (decodeOutput outcome limitChars).1
  stderr := (decodeOutput outcome limitChars).2.1
  exitCode := outcome.exitCode
  timedOut := outcome.timedOut
  truncated := (decodeOutput outcome limitChars).2.2
  durationMs := outcome.durationMs
  artifact := artifact
  error := resultError (decodedStatus outcome (decodeOutput outcome limitChars).2.2) outcome.error
  displayArtifact := displayArtifact

/-- `_to_execution_result` -/
def toExecutionResult (outcome : SandboxExecutionOutcome) (record : ProblemRecord)
    (limitChars : ℕ) : Except (List ErrorAt) ExecutionResult := do
  let status := decodedStatus outcome (decodeOutput outcome limitChars).2.2
  let artifact ← resultArtifact status record.definition.judge outcome.artifact
  let displayArtifact ← resultDisplayArtifact status outcome.displayArtifact
  ExecutionResult.build (resultFields outcome limitChars artifact displayArtifact)

/-- `_error_result` -/
def errorResult (message : Text) (durationMs : ℤ := 0) :
    Except (List ErrorAt) ExecutionResult :=
  ExecutionResult.build
    { status := .error
      stdout := []
      stderr := []
      exitCode := none
      timedOut := false
      truncated := false
      durationMs := durationMs
      artifact := none
      error := some (message.take maxExecutionErrorChars)
      displayArtifact := none }

/-- `exec_shellgei`; `describe` is the text of a pydantic error. -/
def execShellgei (describe : List ErrorAt → Text) (repository : ProblemRepository)
    (faults : Faults) (shellgei problemId : Text) (limitChars : ℕ) :
    Except (List ErrorAt) ExecutionResult :=
  match validateProblemId problemId with
  | .error _ => errorResult "invalid problem ID".toList
  | .ok _ =>
    match repository.get problemId with
    | none => errorResult "problem not found".toList
    | some record =>
      match (execute faults record shellgei limitChars).1 with
      | .error exc => errorResult ("failed to get container: ".toList ++ exc)
      | .ok outcome =>
        match toExecutionResult outcome record limitChars with
        | .ok result => .ok result
        | .error errors => errorResult (describe errors)

/-! ### The fields of a result -/

section Fields

variable {outcome : SandboxExecutionOutcome} {limitChars : ℕ}

theorem decodeOutput_length :
    (decodeOutput outcome limitChars).1.length +
      (decodeOutput outcome limitChars).2.1.length ≤ limitChars := by
  simp only [decodeOutput, List.length_take]
  omega

/-- The Base64 of a payload within the limit makes an artifact of a good path. -/
theorem build_artifact {path : Text} {mediaType : ImageMediaType} {payload : Bytes}
    (hlength : path.length ≤ maxProblemPathBytes) (hne : path ≠ []) (hback : '\\' ∉ path)
    (hparts : ∀ part ∈ splitSlash path, part ∉ badParts)
    (hsize : 4 * ((payload.length + 2) / 3) ≤ maxRunnerImageBase64Chars) :
    ∃ artifact, ExecutionArtifact.build path mediaType (Base64.encode payload) = .ok artifact ∧
      artifact.path = path ∧ artifact.mediaType = mediaType ∧
      artifact.data = Base64.encode payload := by
  have herrors : ExecutionArtifact.errors path (Base64.encode payload) = [] := by
    rw [ExecutionArtifact.errors_eq_nil_iff, Base64.length_encode]
    exact ⟨hlength, hne, hback, hparts, hsize⟩
  exact ⟨_, ExecutionArtifact.build_eq_ok herrors, rfl, rfl, rfl⟩

/-- The artifact of an image problem is built, under the path of the problem. -/
theorem resultArtifact_ok {status : ExecutionStatus} {judge : JudgeSpecification}
    {payload : Option Bytes}
    (hsize : 4 * (((payload.getD []).length + 2) / 3) ≤ maxRunnerImageBase64Chars) :
    ∃ artifact, resultArtifact status judge payload = .ok artifact ∧
      (status ≠ .completed → artifact = none) ∧
      (artifact.toList.map (·.data.length)).sum ≤ 4 * (((payload.getD []).length + 2) / 3) := by
  match status, judge, payload with
  | .completed, .image specification, some payload =>
    obtain ⟨-, hne, -, hback, hlength, hparts⟩ :=
      validateRelativePath_eq_ok.1 specification.path_valid
    have hchars := length_le_length_encode specification.path
    obtain ⟨artifact, hbuild, -, -, hdata⟩ :=
      @build_artifact specification.path specification.mediaType payload (by omega) hne hback
        hparts hsize
    refine ⟨some artifact, ?_, by simp, ?_⟩
    · rw [resultArtifact, hbuild]
      rfl
    · simp [hdata, Base64.length_encode]
  | .completed, .image specification, none => exact ⟨none, rfl, by simp, by simp⟩
  | .completed, .text specification, payload => exact ⟨none, rfl, by simp, by simp⟩
  | .timedOut, judge, payload => exact ⟨none, rfl, by simp, by simp⟩
  | .outputLimit, judge, payload => exact ⟨none, rfl, by simp, by simp⟩
  | .error, judge, payload => exact ⟨none, rfl, by simp, by simp⟩

theorem displayGifPath_valid :
    displayGifPath.length ≤ maxProblemPathBytes ∧ displayGifPath ≠ [] ∧ '\\' ∉ displayGifPath ∧
      ∀ part ∈ splitSlash displayGifPath, part ∉ badParts := by
  decide

/-- The display artifact is built, as the fixed GIF. -/
theorem resultDisplayArtifact_ok {status : ExecutionStatus} {payload : Option Bytes}
    (hsize : 4 * (((payload.getD []).length + 2) / 3) ≤ maxRunnerImageBase64Chars) :
    ∃ artifact, resultDisplayArtifact status payload = .ok artifact ∧
      (status ≠ .completed → artifact = none) ∧
      (∀ display ∈ artifact, display.path = displayGifPath ∧ display.mediaType = .gif) ∧
      (artifact.toList.map (·.data.length)).sum ≤ 4 * (((payload.getD []).length + 2) / 3) := by
  match status, payload with
  | .completed, some payload =>
    obtain ⟨hlength, hne, hback, hparts⟩ := displayGifPath_valid
    obtain ⟨artifact, hbuild, hpath, hmedia, hdata⟩ :=
      @build_artifact displayGifPath .gif payload hlength hne hback hparts hsize
    refine ⟨some artifact, ?_, by simp, ?_, ?_⟩
    · rw [resultDisplayArtifact, hbuild]
      rfl
    · rintro display ⟨rfl⟩
      exact ⟨hpath, hmedia⟩
    · simp [hdata, Base64.length_encode]
  | .completed, none => exact ⟨none, rfl, by simp, by simp, by simp⟩
  | .timedOut, payload => exact ⟨none, rfl, by simp, by simp, by simp⟩
  | .outputLimit, payload => exact ⟨none, rfl, by simp, by simp, by simp⟩
  | .error, payload => exact ⟨none, rfl, by simp, by simp, by simp⟩

theorem resultError_length (status : ExecutionStatus) (error : Option Text) :
    ((resultError status error).getD []).length ≤ maxExecutionErrorChars := by
  unfold resultError
  split
  · simp only [Option.getD_some, List.length_take]
    omega
  · cases error with
    | none => simp
    | some message =>
      simp only [Option.map_some, Option.getD_some, List.length_take]
      omega

/-- An error status has a text that is not empty. -/
theorem resultError_error (error : Option Text) :
    ∃ message, resultError .error error = some message ∧ message ≠ [] := by
  unfold resultError
  rw [if_pos rfl]
  refine ⟨_, rfl, ?_⟩
  match error with
  | none => decide
  | some [] => decide
  | some (c :: rest) => simp [maxExecutionErrorChars]

theorem resultError_none {status : ExecutionStatus} (h : status ≠ .error) :
    resultError status none = none := by
  rw [resultError, if_neg h]
  rfl

theorem decodedStatus_eq_completed {truncated : Bool}
    (h : decodedStatus outcome truncated = .completed) :
    outcome.status = .completed ∧ truncated = false := by
  unfold decodedStatus at h
  split at h
  · cases h
  · rename_i hcut
    refine ⟨h, ?_⟩
    cases truncated with
    | false => rfl
    | true => exact absurd ⟨rfl, h⟩ hcut

end Fields

/-! ### The conversion -/

section Conversion

variable {faults : Faults} {record : ProblemRecord} {shellgei : Text} {limitChars : ℕ}
  {outcome : SandboxExecutionOutcome} {watchdog : Watchdog}

/-- The status of a result fits its flags and its error. -/
theorem resultFields_statusFits (h : Outcome faults record.definition.judge outcome watchdog)
    (artifact displayArtifact : Option ExecutionArtifact) :
    (resultFields outcome limitChars artifact displayArtifact).StatusFits := by
  -- only a timeout raises the flag of the timeout
  have hnot : outcome.status ≠ .timedOut → outcome.timedOut = false := by
    intro hne
    cases hflag : outcome.timedOut with
    | false => rfl
    | true => exact absurd (h.timedOut.1 hflag) hne
  have hkept : outcome.truncated = true → (decodeOutput outcome limitChars).2.2 = true := by
    intro htrue
    simp [decodeOutput, htrue]
  unfold ResultFields.StatusFits resultFields
  cases hout : outcome.status with
  | completed =>
    cases hcut : (decodeOutput outcome limitChars).2.2 with
    | false =>
      obtain ⟨hcode, -, hnone, -⟩ := h.completed hout
      rw [decodedStatus, if_neg (by simp), hout, hnone]
      exact ⟨hcode, hnot (by rw [hout]; simp), rfl, @resultError_none .completed (by simp)⟩
    | true =>
      rw [decodedStatus, if_pos ⟨rfl, hout⟩]
      exact ⟨hnot (by rw [hout]; simp), rfl⟩
  | timedOut =>
    rw [decodedStatus, if_neg (by simp [hout]), hout]
    exact h.timedOut.2 hout
  | outputLimit =>
    rw [decodedStatus, if_neg (by simp [hout]), hout]
    exact ⟨hnot (by rw [hout]; simp), hkept (h.outputLimit hout)⟩
  | error =>
    rw [decodedStatus, if_neg (by simp [hout]), hout]
    exact ⟨hnot (by rw [hout]; simp), resultError_error outcome.error⟩

/-- The conversion of an outcome builds a result from it. -/
theorem toExecutionResult_spec (hlimit : limitChars ≤ maxCapturedOutputChars)
    (h : Outcome faults record.definition.judge outcome watchdog) :
    ∃ result artifact displayArtifact,
      toExecutionResult outcome record limitChars = .ok result ∧
      result.toResultFields = resultFields outcome limitChars artifact displayArtifact := by
  have hsize := h.size
  obtain ⟨artifact, hartifact, hincomplete, hdata⟩ :=
    @resultArtifact_ok (decodedStatus outcome (decodeOutput outcome limitChars).2.2)
      record.definition.judge outcome.artifact (by omega)
  obtain ⟨displayArtifact, hdisplay, hincomplete', hfixed, hdata'⟩ :=
    @resultDisplayArtifact_ok (decodedStatus outcome (decodeOutput outcome limitChars).2.2)
      outcome.displayArtifact (by omega)
  have hdata'' : ((resultFields outcome limitChars artifact displayArtifact).artifacts.map
      (·.data.length)).sum ≤ maxRunnerImageBase64Chars := by
    simp only [ResultFields.artifacts, resultFields, List.map_append, List.sum_append]
    omega
  have hconsistent : (resultFields outcome limitChars artifact displayArtifact).Consistent :=
    ⟨Nat.le_trans decodeOutput_length hlimit, h.duration, resultError_length _ _,
      resultFields_statusFits h artifact displayArtifact, hdata'', hfixed,
      fun hne => ⟨hincomplete hne, hincomplete' hne⟩⟩
  obtain ⟨result, hbuild, hresult⟩ := ExecutionResult.build_of_consistent hconsistent
  refine ⟨result, artifact, displayArtifact, ?_, hresult⟩
  rw [toExecutionResult, hartifact, hdisplay]
  exact hbuild

/-- What the status of a result says about its other fields. -/
theorem timedOut_iff_status (result : ExecutionResult) :
    result.timedOut = true ↔ result.status = .timedOut := by
  have hstatus := result.consistent.status
  constructor
  · intro htimed
    unfold ResultFields.StatusFits at hstatus
    cases hr : result.status with
    | timedOut => rfl
    | completed => rw [hr] at hstatus; simp [htimed] at hstatus
    | outputLimit => rw [hr] at hstatus; simp [htimed] at hstatus
    | error => rw [hr] at hstatus; simp [htimed] at hstatus
  · intro hr
    rw [ResultFields.StatusFits, hr] at hstatus
    exact hstatus

theorem truncated_of_outputLimit {result : ExecutionResult} (h : result.status = .outputLimit) :
    result.truncated = true := by
  have hstatus := result.consistent.status
  rw [ResultFields.StatusFits, h] at hstatus
  exact hstatus.2

theorem message_of_error {result : ExecutionResult} (h : result.status = .error) :
    ∃ message, result.error = some message ∧ message ≠ [] ∧
      message.length ≤ maxExecutionErrorChars := by
  have hstatus := result.consistent.status
  rw [ResultFields.StatusFits, h] at hstatus
  obtain ⟨-, message, hmessage, hne⟩ := hstatus
  have hlength := result.consistent.error_length
  rw [hmessage] at hlength
  exact ⟨message, hmessage, hne, hlength⟩

/-- An execution and its conversion are total and fail closed. -/
theorem execute_total (faults : Faults) (record : ProblemRecord) (shellgei : Text)
    {limitChars : ℕ} (hpos : 1 ≤ limitChars) (hlimit : limitChars ≤ maxCapturedOutputChars) :
    (∃ exc, faults.getContainer = .error exc ∧
      (execute faults record shellgei limitChars).1 = .error exc ∧
      (execute faults record shellgei limitChars).2.releases = []) ∨
    ∃ outcome stopped result, faults.getContainer = .ok () ∧
      (execute faults record shellgei limitChars).1 = .ok outcome ∧
      (execute faults record shellgei limitChars).2.releases = [stopped] ∧
      toExecutionResult outcome record limitChars = .ok result ∧
      (result.status = .completed →
        Undisturbed faults result.exitCode
          (execute faults record shellgei limitChars).2.watchdog ∧
        result.exitCode ≠ none ∧ result.truncated = false) ∧
      (result.artifact ≠ none ∨ result.displayArtifact ≠ none → result.status = .completed) ∧
      (result.timedOut = true ↔ result.status = .timedOut) ∧
      (result.status = .outputLimit → result.truncated = true) ∧
      (result.status = .error → ∃ message, result.error = some message ∧ message ≠ [] ∧
        message.length ≤ maxExecutionErrorChars) := by
  rcases @execute_spec faults record shellgei limitChars hpos with
    ⟨exc, hget, hexc, hreleases⟩ | ⟨outcome, stopped, hget, houtcome, hreleases, -, hspec⟩
  · exact Or.inl ⟨exc, hget, hexc, hreleases⟩
  · obtain ⟨result, artifact, displayArtifact, hresult, hfields⟩ :=
      toExecutionResult_spec hlimit hspec
    have hconsistent := result.consistent
    have hstatus := hconsistent.status
    refine Or.inr ⟨outcome, stopped, result, hget, houtcome, hreleases, hresult, ?_, ?_, ?_, ?_, ?_⟩
    · intro hcompleted
      -- a completed result comes from a completed outcome
      have hexit : result.exitCode = outcome.exitCode := by
        rw [hfields]
        rfl
      have hdecoded : decodedStatus outcome (decodeOutput outcome limitChars).2.2 =
          .completed := by
        rw [← hcompleted, hfields]
        rfl
      obtain ⟨hout, -⟩ := decodedStatus_eq_completed hdecoded
      obtain ⟨hcode, -, -, hundisturbed⟩ := hspec.completed hout
      rw [ResultFields.StatusFits, hcompleted] at hstatus
      rw [hexit]
      exact ⟨hundisturbed, hcode, hstatus.2.2.1⟩
    · intro hartifacts
      by_contra hne
      -- the conversion drops the artifacts of a result that is not completed
      obtain ⟨hnone, hnone'⟩ := hconsistent.incomplete hne
      rcases hartifacts with hartifact | hdisplay
      · exact hartifact hnone
      · exact hdisplay hnone'
    · exact timedOut_iff_status result
    · exact truncated_of_outputLimit
    · exact message_of_error

end Conversion

/-- An execution of a command that prints `hi` and exits with 0. -/
def printsHi : Faults where
  getContainer := .ok ()
  prepare := .ok (some 0)
  timerStart := .ok ()
  timer := none
  execCreate := .ok (some ['1'])
  execStart := .ok { chunks := [(some [104, 105], none)], failure := none, close := some (.ok ()) }
  execInspect := .ok (.code 0)
  readArtifact := .error []
  readDisplayArtifact := .error []
  terminateKill := .ok ()
  stopKill := .ok ()
  startedAt := 0
  now := 5_000_000

theorem execute_total_printsHi :
    ∃ outcome stopped result, printsHi.getContainer = .ok () ∧
      (execute printsHi silentProblem "printf hi".toList 1000).1 = .ok outcome ∧
      (execute printsHi silentProblem "printf hi".toList 1000).2.releases = [stopped] ∧
      toExecutionResult outcome silentProblem 1000 = .ok result := by
  rcases execute_total printsHi silentProblem "printf hi".toList (by decide : 1 ≤ 1000)
    (by decide) with ⟨exc, hget, -⟩ | ⟨outcome, stopped, result, hget, hout, hrel, hres, -⟩
  · cases hget
  · exact ⟨outcome, stopped, result, hget, hout, hrel, hres⟩

/-! ### `exec_shellgei` -/

/-- A message that is not empty makes an error result. -/
theorem errorResult_ok {message : Text} (h : message ≠ []) :
    ∃ result, errorResult message = .ok result := by
  have hne : message.take maxExecutionErrorChars ≠ [] := by
    cases message with
    | nil => exact absurd rfl h
    | cons c rest => simp [maxExecutionErrorChars]
  refine (ExecutionResult.build_of_consistent ?_).imp fun result hresult => hresult.1
  refine ⟨by simp, Int.le_refl 0, ?_, ⟨rfl, _, rfl, hne⟩, by simp [ResultFields.artifacts],
    by simp, fun _ => ⟨rfl, rfl⟩⟩
  simp only [Option.getD_some, List.length_take]
  omega

/-- Whatever the problem ID, the problem and the faults, `exec_shellgei` returns a result. -/
theorem execShellgei_total (describe : List ErrorAt → Text) (repository : ProblemRepository)
    (faults : Faults) (shellgei problemId : Text) {limitChars : ℕ} (hpos : 1 ≤ limitChars)
    (hlimit : limitChars ≤ maxCapturedOutputChars) :
    ∃ result, execShellgei describe repository faults shellgei problemId limitChars =
      .ok result := by
  unfold execShellgei
  cases validateProblemId problemId with
  | error message => exact errorResult_ok (by decide)
  | ok id =>
    cases repository.get problemId with
    | none => exact errorResult_ok (by decide)
    | some record =>
      rcases @execute_spec faults record shellgei limitChars hpos with
        ⟨exc, -, hexc, -⟩ | ⟨outcome, stopped, -, houtcome, -, -, hspec⟩
      · simp only [hexc]
        exact errorResult_ok (by simp)
      · obtain ⟨result, -, -, hresult, -⟩ := toExecutionResult_spec hlimit hspec
        simp only [houtcome, hresult]
        exact ⟨result, rfl⟩

end ExecShellgei
