/-
The structured logs of a submission (soj_shared/structured_logging.py), along
`SubmitSolutionService.submit`, `RunnerClient.execute`, `execute_shellgei` of the
runner and `save_execution_log_async`.

The four are programs whose actions are the calls that leave them, so that every
action may be answered by anything.  A worker runs where it is waited for; the
runner handles a request before the reply comes.  What of an answer decides on a
branch is `seen`: it has no text of a user, no message and no judgment.

* `submit_twin` — two submissions are twins, and log only valid events;
* `logs_carry_no_user_data` — their logs are the same, byte for byte.
-/
import ShellgeiOnlineJudge.ProgTwin
import ShellgeiOnlineJudge.PublicApi
import ShellgeiOnlineJudge.RunnerProtocol
import ShellgeiOnlineJudge.Sha256

namespace StructuredLogging

open Utf8 Problem Execution Judge Submission RunnerProtocol

/-! ### Events -/

/-- `LogComponent` -/
inductive LogComponent
  | backendHttp
  | submission
  | runner
  | executionLog
  deriving DecidableEq

/-- The text of a component. -/
def LogComponent.value : LogComponent → Text
  | .backendHttp => "backend_http".toList
  | .submission => "submission".toList
  | .runner => "runner".toList
  | .executionLog => "execution_log".toList

/-- `LogEvent` -/
inductive LogEvent
  | httpRequestCompleted
  | submissionCompleted
  | submissionFailed
  | runnerClientFailed
  | runnerExecutionCompleted
  | executionLogSaveCompleted
  | executionLogSaveFailed
  | executionLogRollbackFailed
  | executionLogSessionCloseFailed
  deriving DecidableEq

/-- The text of an event. -/
def LogEvent.value : LogEvent → Text
  | .httpRequestCompleted => "http_request_completed".toList
  | .submissionCompleted => "submission_completed".toList
  | .submissionFailed => "submission_failed".toList
  | .runnerClientFailed => "runner_client_failed".toList
  | .runnerExecutionCompleted => "runner_execution_completed".toList
  | .executionLogSaveCompleted => "execution_log_save_completed".toList
  | .executionLogSaveFailed => "execution_log_save_failed".toList
  | .executionLogRollbackFailed => "execution_log_rollback_failed".toList
  | .executionLogSessionCloseFailed => "execution_log_session_close_failed".toList

/-- `LogEndpoint` -/
inductive LogEndpoint
  | legacySubmission
  | v3Submission
  deriving DecidableEq

/-- The text of an endpoint. -/
def LogEndpoint.value : LogEndpoint → Text
  | .legacySubmission => "legacy_submission".toList
  | .v3Submission => "v3_submission".toList

/-- The text of `SubmissionStatus` -/
def submissionStatusValue : SubmissionStatus → Text
  | .completed => "completed".toList
  | .problemNotFound => "problem_not_found".toList
  | .runnerBusy => "runner_busy".toList
  | .runnerUnavailable => "runner_unavailable".toList

/-- The text of `SubmissionPersistenceStatus` -/
def persistenceStatusValue : SubmissionPersistenceStatus → Text
  | .saved => "saved".toList
  | .unavailable => "unavailable".toList
  | .notAttempted => "not_attempted".toList

/-- The fields that `log_safe_event` is called with. -/
structure LogFields where
  event : LogEvent
  component : LogComponent
  requestId : Option Text := none
  endpoint : Option LogEndpoint := none
  httpStatus : Option ℤ := none
  durationMs : Option ℤ := none
  submissionStatus : Option SubmissionStatus := none
  executionStatus : Option ExecutionStatus := none
  persistenceStatus : Option SubmissionPersistenceStatus := none
  deriving DecidableEq

/-- The fields whose values `SafeLogEvent` does not accept. -/
def LogFields.refused (fields : LogFields) : List String :=
  (if ∀ text ∈ fields.requestId, text.length = requestIdLength ∧ text.all isLowerHex = true
    then [] else ["request_id"]) ++
  (if ∀ code ∈ fields.httpStatus, 100 ≤ code ∧ code ≤ 599 then [] else ["http_status"]) ++
  (if ∀ duration ∈ fields.durationMs, 0 ≤ duration then [] else ["duration_ms"])

/-- `SafeLogEvent`: fields that no validator refuses. -/
structure SafeLogEvent extends LogFields where
  valid : toLogFields.refused = []

/-- Pydantic builds the event or names the fields it refuses. -/
def SafeLogEvent.build (fields : LogFields) : Except (List String) SafeLogEvent :=
  if h : fields.refused = [] then .ok ⟨fields, h⟩ else .error fields.refused

/-- `payload.model_dump_json(exclude_none=True)` -/
def SafeLogEvent.json (payload : SafeLogEvent) : Text :=
  let members : List (String × Option Text) :=
    [("event", some (Json.string payload.event.value)),
      ("component", some (Json.string payload.component.value)),
      ("request_id", payload.requestId.map Json.string),
      ("endpoint", payload.endpoint.map fun endpoint => Json.string endpoint.value),
      ("http_status", payload.httpStatus.map Json.int),
      ("duration_ms", payload.durationMs.map Json.int),
      ("submission_status",
        payload.submissionStatus.map fun status => Json.string (submissionStatusValue status)),
      ("execution_status",
        payload.executionStatus.map fun status => Json.string status.value),
      ("persistence_status",
        payload.persistenceStatus.map fun status => Json.string (persistenceStatusValue status))]
  Json.object (members.filterMap fun m => m.2.map fun value => (m.1.toList, value))

/-- The level of a log line. -/
inductive Level
  | info
  | warning
  | error
  deriving DecidableEq

/-- The process whose logger is used. -/
inductive Process
  | backend
  | runner
  deriving DecidableEq

/-! ### Exceptions -/

/-- What the handlers of the four tell apart. -/
inductive ExcClass
  | runnerBusy
  | runnerUnavailable
  | runnerConfiguration
  | executionLogRepository
  | sandboxBusy
  | httpError (code : ℕ)
  | osError
  /-- any other `Exception` -/
  | exception
  /-- `asyncio.CancelledError` and what else is not an `Exception` -/
  | baseException
  deriving DecidableEq

/-- An exception that a call raises. -/
structure Failure where
  cls : ExcClass
  message : Text

/-- What is raised while a submission is served. -/
inductive Exc
  | raised (failure : Failure)
  /-- an `HTTPException`, which `execute_shellgei` alone raises -/
  | http (statusCode : ℕ) (detail : Text)

/-- Whether `except Exception` catches it. -/
def Exc.isException : Exc → Bool
  | .raised failure => failure.cls ≠ .baseException
  | .http _ _ => true

/-- Raise an error with a message. -/
def raise (cls : ExcClass) (message : String) : Exc := .raised ⟨cls, message.toList⟩

/-! ### Actions -/

/-- A reply that a worker of the client gets. -/
inductive Reply
  | raised (failure : Failure)
  /-- more bytes than the limit -/
  | tooLarge
  /-- no valid `RunnerExecutionResponse` -/
  | invalid
  | response (response : RunnerExecutionResponse)

/-- What serving a submission asks of its surroundings: the clocks, the queues, the database, the
connection to the runner, and the log. -/
inductive Action
  -- of a submission
  | currentRequestId
  | tokenHex
  | clock
  | findProblem (problemId : Text)
  | judge (execution : ExecutionResult) (problemId : Text)
  -- of the runner client
  | acquireSlot
  | submitExecuteSync (data : ShellgeiData)
  | executeSyncStarts
  | sharedSecret
  | problemRevision
  | sendRequest (request : RunnerExecutionRequest)
  | receiveReply (request : RunnerExecutionRequest)
  | waitForRunner
  -- of the runner
  | getRepository (request : RunnerExecutionRequest)
  | getRecord (problemId : Text)
  | tryAcquire
  | runWithTimeout (shellgei problemId : Text)
  -- of the execution log
  | monotonicNs
  | submitSave (entry : ExecutionLogEntry)
  | saveStarts
  | openSession
  | writeLog (entry : ExecutionLogEntry)
  | rollback
  | closeSession
  | waitForSave
  -- of every log
  | logSafeEvent (fields : LogFields)
  | log (process : Process) (level : Level) (line : Text)

/-- The bytes of `secrets.token_hex(REQUEST_ID_BYTES)`. -/
abbrev RequestIdBytes := { bytes : Bytes // bytes.length = 16 }

/-- What the surroundings answer to an action. -/
abbrev Action.Response : Action → Type
  | currentRequestId => Option RequestId
  | tokenHex => RequestIdBytes
  | clock => Except Failure WallClock
  | findProblem _ => Except Failure (Option ProblemRecord)
  | judge _ _ => Except Failure JudgeResult
  | acquireSlot => Bool
  | submitExecuteSync _ => Except Failure Unit
  | executeSyncStarts => Bool
  | sharedSecret => Except Failure Unit
  | problemRevision => Except Failure ProblemRevision
  | sendRequest _ => Bool
  | receiveReply _ => Reply
  | waitForRunner => Except Failure Unit
  | getRepository _ => Except Failure ProblemRevision
  | getRecord _ => Except Failure (Option ProblemRecord)
  | tryAcquire => Except Failure Bool
  | runWithTimeout _ _ => Except Failure ExecutionResult
  | monotonicNs => ℤ
  | submitSave _ => Except Failure Unit
  | saveStarts => Bool
  | openSession => Except Failure Unit
  | writeLog _ => Except Failure LogId
  | rollback => Except Failure Unit
  | closeSession => Except Failure Unit
  | waitForSave => Except Failure Unit
  | logSafeEvent _ => Unit
  | log _ _ _ => Unit

/-- A part of serving a submission. -/
abbrev M (α : Type) := Prog Action Action.Response Exc α

/-- Do an action. -/
abbrev perform (a : Action) : M a.Response := Prog.perform a

/-- Go on with what a call has returned, or raise what it has raised. -/
def attempt {α : Type} : Except Failure α → M α
  | .ok a => pure a
  | .error failure => throw (.raised failure)

/-- The outcome of a program, as a value. -/
def capture {α : Type} (p : M α) : M (Except Exc α) := p.handle fun r => .done (.ok r)

/-- The outcome of an item that a worker starts, unless it is cancelled before: the
`CancelledError` of `concurrent.futures` is an `Exception`. -/
def outcomeOf {α : Type} (starts : Bool) (p : M α) : M (Except Exc α) :=
  if starts then capture p else pure (.error (raise .exception "cancelled"))

/-- `log_safe_event`; its call is an action, so that a run tells what it was called with. -/
def logSafeEvent (process : Process) (level : Level) (fields : LogFields) : M Unit := do
  perform (.logSafeEvent fields)
  match SafeLogEvent.build fields with
  | .ok payload => perform (.log process level payload.json)
  | .error _ => throw (raise .exception "validation error for SafeLogEvent")

/-- `new_request_id` -/
def newRequestId (bytes : RequestIdBytes) : RequestId where
  text := bytes.val.flatMap Sha256.hexByte
  length_eq := by
    rw [Sha256.length_flatMap_hexByte, bytes.property]
    rfl
  hex _ hc := by
    obtain ⟨n, hn, rfl⟩ := Sha256.hex_flatMap_hexByte hc
    exact isLowerHex_digitChar hn

/-- `current_request_id() or new_request_id()`; a bound ID has been validated. -/
def requestIdOr (current : Option RequestId) : M RequestId :=
  match current with
  | some requestId => pure requestId
  | none => do
    let bytes : RequestIdBytes ← perform .tokenHex
    pure (newRequestId bytes)

/-! ### The runner (soj_runner/main.py) -/

/-- `_log_runner_completion` -/
def logRunnerCompletion (request : RunnerExecutionRequest) (httpStatus : ℕ)
    (executionStatus : Option ExecutionStatus) (durationMs : Option ℤ) : M Unit :=
  logSafeEvent .runner (if httpStatus < 500 then .info else .error)
    { event := .runnerExecutionCompleted
      component := .runner
      requestId := some request.requestId.text
      httpStatus := some httpStatus
      executionStatus := executionStatus
      durationMs := durationMs }

/-- The outer `try` block of `execute_shellgei`: the revision and the result. -/
def tryExecute (request : RunnerExecutionRequest) : M (ProblemRevision × ExecutionResult) := do
  let repository : Except Failure ProblemRevision ← perform (.getRepository request)
  let revision ← attempt repository
  if request.problemRevision ≠ revision then throw (.http 409 "Problem revision mismatch".toList)
  else do
    let found : Except Failure (Option ProblemRecord) ← perform (.getRecord request.problemId)
    let record ← attempt found
    if record.isNone then throw (.http 404 "Problem not found".toList)
    else do
      let acquired : Except Failure Bool ← perform .tryAcquire
      let acquired ← attempt acquired
      if acquired = false then throw (.http 429 "Runner is busy".toList)
      else do
        let run : Except Failure ExecutionResult ←
          perform (.runWithTimeout request.shellgei request.problemId)
        match run with
        | .ok result => pure (revision, result)
        | .error failure =>
          if failure.cls = .sandboxBusy then throw (.http 429 "Runner is busy".toList)
          else throw (.raised failure)

/-- `execute_shellgei` -/
def executeShellgei (request : RunnerExecutionRequest) : M RunnerExecutionResponse := do
  let outcome ← capture (tryExecute request)
  match outcome with
  | .ok (revision, result) => do
    logRunnerCompletion request 200 (some result.status) (some result.durationMs)
    pure { requestId := request.requestId, problemRevision := revision, result := result }
  -- `except HTTPException`
  | .error (.http statusCode detail) => do
    logRunnerCompletion request statusCode none none
    throw (.http statusCode detail)
  | .error (.raised failure) =>
    -- `except Exception`
    if failure.cls ≠ .baseException then do
      logRunnerCompletion request 500 none none
      throw (.raised failure)
    else throw (.raised failure)

/-! ### The runner client (soj_backend/runner_client.py) -/

/-- What `_execute_sync` makes of a reply. -/
def receive (request : RunnerExecutionRequest) : Reply → M ExecutionResult
  | .raised failure =>
    match failure.cls with
    | .httpError code =>
      if code = 429 then throw (raise .runnerBusy "runner execution capacity reached")
      else if code = 409 then throw (raise .runnerUnavailable "runner problem revision mismatch")
      else throw (raise .runnerUnavailable s!"runner returned HTTP status {code}")
    | .osError => throw (raise .runnerUnavailable "runner request failed")
    | _ => throw (.raised failure)
  | .tooLarge => throw (raise .runnerUnavailable "runner response exceeded the limit")
  | .invalid => throw (raise .runnerUnavailable "runner returned an invalid response")
  | .response response =>
    if response.problemRevision ≠ request.problemRevision then
      throw (raise .runnerUnavailable "runner returned a different problem revision")
    else if response.requestId ≠ request.requestId then
      throw (raise .runnerUnavailable "runner returned a different request ID")
    else pure response.result

/-- `_execute_sync`; the runner may get the request, and handles it. -/
def executeSync (data : ShellgeiData) (requestId : RequestId) : M ExecutionResult := do
  let secret : Except Failure Unit ← perform .sharedSecret
  attempt secret
  let revision : Except Failure ProblemRevision ← perform .problemRevision
  let problemRevision ← attempt revision
  let request : RunnerExecutionRequest := { toShellgeiData := data, requestId, problemRevision }
  let delivered : Bool ← perform (.sendRequest request)
  if delivered then do
    let _ ← capture (executeShellgei request)
    let reply : Reply ← perform (.receiveReply request)
    receive request reply
  else do
    let reply : Reply ← perform (.receiveReply request)
    receive request reply

/-- The inner `try` block of `execute`: the item is submitted and waited for; the
wait raises the exception of the item, or one of its own. -/
def submitAndWait (data : ShellgeiData) (requestId : RequestId) : M ExecutionResult := do
  let submitted : Except Failure Unit ← perform (.submitExecuteSync data)
  attempt submitted
  let starts : Bool ← perform .executeSyncStarts
  let outcome ← outcomeOf starts (executeSync data requestId)
  let waited : Except Failure Unit ← perform .waitForRunner
  attempt waited
  Prog.unwrap outcome

/-- `except Exception` of `execute`; another exception goes on. -/
def logClientFailure (requestId : RequestId) (exc : Exc) : M ExecutionResult :=
  if exc.isException then do
    logSafeEvent .backend .warning
      { event := .runnerClientFailed
        component := .submission
        requestId := some requestId.text }
    throw (raise .runnerUnavailable "runner request failed")
  else throw exc

/-- `RunnerClient.execute` under the current request ID -/
def execute (current : Option RequestId) (data : ShellgeiData) : M ExecutionResult := do
  let acquired : Bool ← perform .acquireSlot
  if acquired = false then throw (raise .runnerBusy "runner client capacity reached")
  else do
    let requestId ← requestIdOr current
    tryCatch (submitAndWait data requestId) fun exc =>
      match exc with
      | .raised ⟨.runnerBusy, message⟩ => throw (.raised ⟨.runnerBusy, message⟩)
      | .raised ⟨.runnerConfiguration, message⟩ => throw (.raised ⟨.runnerConfiguration, message⟩)
      | .raised ⟨.runnerUnavailable, message⟩ => throw (.raised ⟨.runnerUnavailable, message⟩)
      | exc => logClientFailure requestId exc

/-! ### The execution log (soj_backend/execution_log_repository.py) -/

/-- The error of a save that failed. -/
def repositoryError : Exc := raise .executionLogRepository "execution log persistence failed"

/-- An exception of a cleanup is logged and dropped. -/
def orLog (event : LogEvent) (done : Except Failure Unit) : M Unit :=
  match done with
  | .ok () => pure ()
  | .error failure =>
    if failure.cls ≠ .baseException then
      logSafeEvent .backend .error { event := event, component := .executionLog }
    else throw (.raised failure)

/-- The `try` block of `save` on an open session, with its handler. -/
def writeOrRollback (entry : ExecutionLogEntry) : M LogId := do
  let written : Except Failure LogId ← perform (.writeLog entry)
  match written with
  | .ok logId => pure logId
  | .error failure =>
    -- `except Exception`
    if failure.cls ≠ .baseException then do
      let rolledBack : Except Failure Unit ← perform .rollback
      orLog .executionLogRollbackFailed rolledBack
      throw repositoryError
    else throw (.raised failure)

/-- `ExecutionLogRepo.save` -/
def save (entry : ExecutionLogEntry) : M LogId := do
  let opened : Except Failure Unit ← perform .openSession
  match opened with
  | .error failure =>
    -- the session could not be opened
    if failure.cls ≠ .baseException then throw repositoryError else throw (.raised failure)
  | .ok () =>
    (writeOrRollback entry).finally' do
      let closed : Except Failure Unit ← perform .closeSession
      orLog .executionLogSessionCloseFailed closed

/-- The `try` block of `save_execution_log_async`. -/
def submitSaveAndWait (entry : ExecutionLogEntry) : M LogId := do
  let submitted : Except Failure Unit ← perform (.submitSave entry)
  attempt submitted
  let starts : Bool ← perform .saveStarts
  let outcome ← outcomeOf starts (save entry)
  let waited : Except Failure Unit ← perform .waitForSave
  attempt waited
  Prog.unwrap outcome

/-- The event of a save that has taken from `started` to `now`. -/
def logSave (level : Level) (event : LogEvent) (requestId : RequestId) (started now : ℤ) : M Unit :=
  logSafeEvent .backend level
    { event := event
      component := .executionLog
      requestId := some requestId.text
      durationMs := some (max 0 ((now - started) / 1_000_000)) }

/-- `save_execution_log_async` -/
def saveExecutionLogAsync (entry : ExecutionLogEntry) (requestId : RequestId) : M LogId := do
  let started : ℤ ← perform .monotonicNs
  let outcome ← capture (submitSaveAndWait entry)
  match outcome with
  | .ok logId => do
    let now : ℤ ← perform .monotonicNs
    logSave .info .executionLogSaveCompleted requestId started now
    pure logId
  | .error exc =>
    if exc.isException then do
      let now : ℤ ← perform .monotonicNs
      logSave .warning .executionLogSaveFailed requestId started now
      -- both handlers log; the first raises the same exception again
      match exc with
      | .raised ⟨.executionLogRepository, message⟩ =>
        throw (.raised ⟨.executionLogRepository, message⟩)
      | _ => throw repositoryError
    else throw exc

/-! ### The submission (soj_backend/submit_solution.py) -/

/-- A model that does not accept its fields raises a `ValidationError`. -/
def valid {α : Type} : Except (List ErrorAt) α → M α
  | .ok a => pure a
  | .error _ => throw (raise .exception "validation error")

/-- `_record_result` -/
def recordResult (result : SubmissionResult) (requestId : RequestId) (level : Level) :
    M SubmissionResult := do
  logSafeEvent .backend level
    { event := .submissionCompleted
      component := .submission
      requestId := some requestId.text
      submissionStatus := some result.status
      executionStatus := result.execution.map (·.status)
      durationMs := result.execution.map (·.durationMs)
      persistenceStatus := some result.persistence }
  pure result

/-- `_rejected` -/
def rejectedFields (status : SubmissionStatus) (submittedAt : Datetime) : SubmissionFields where
  status := status
  submittedAt := submittedAt
  execution := none
  judgment := none
  logId := none
  persistence := .notAttempted

/-- Reject a submission, and record that. -/
def reject (status : SubmissionStatus) (submittedAt : Datetime) (requestId : RequestId) :
    M SubmissionResult := do
  let result ← valid (SubmissionResult.build (rejectedFields status submittedAt))
  recordResult result requestId .info

/-- Save a log entry; only an `ExecutionLogRepositoryError` is handled. -/
def trySave (entry : ExecutionLogEntry) (requestId : RequestId) : M SaveOutcome :=
  tryCatch (do
      let logId ← saveExecutionLogAsync entry requestId
      pure (.saved logId)) fun exc =>
    match exc with
    | .raised ⟨.executionLogRepository, _⟩ => pure .repositoryError
    | exc => throw exc

/-- Judge an execution, save its log entry and record the result. -/
def complete (data : ShellgeiData) (submittedAt : Datetime) (requestId : RequestId)
    (execution : ExecutionResult) : M SubmissionResult := do
  let judged : Except Failure JudgeResult ← perform (.judge execution data.problemId)
  let judgment ← attempt judged
  let entry ← valid
    (ExecutionLogEntry.fromResults data.problemId data.shellgei execution judgment)
  let saved ← trySave entry requestId
  let result ← valid (SubmissionResult.build
    (completedFields submittedAt execution judgment saved))
  recordResult result requestId (match saved with
    | .repositoryError => .warning
    | .saved _ => .info)

/-- Run a command, or give the status of a submission that the runner rejects. -/
def tryRun (data : ShellgeiData) (requestId : RequestId) :
    M (Except SubmissionStatus ExecutionResult) :=
  tryCatch (do
      let execution ← execute (some requestId) data
      pure (.ok execution)) fun exc =>
    match exc with
    | .raised ⟨.runnerBusy, _⟩ => pure (.error .runnerBusy)
    | .raised ⟨.runnerUnavailable, _⟩ => pure (.error .runnerUnavailable)
    | exc => throw exc

/-- `_submit` -/
def submitUnder (data : ShellgeiData) (requestId : RequestId) : M SubmissionResult := do
  let read : Except Failure WallClock ← perform .clock
  let clock ← attempt read
  let submittedAt := currentJapanTime clock
  let found : Except Failure (Option ProblemRecord) ← perform (.findProblem data.problemId)
  let record ← attempt found
  if record.isNone then reject .problemNotFound submittedAt requestId
  else do
    let run : Except SubmissionStatus ExecutionResult ← tryRun data requestId
    match run with
    | .error status => reject status submittedAt requestId
    | .ok execution => complete data submittedAt requestId execution

/-- `SubmitSolutionService.submit` -/
def submit (data : ShellgeiData) : M SubmissionResult := do
  let current : Option RequestId ← perform .currentRequestId
  let requestId ← requestIdOr current
  tryCatch (submitUnder data requestId) fun exc =>
    -- `except Exception`
    if exc.isException then do
      logSafeEvent .backend .error
        { event := .submissionFailed
          component := .submission
          requestId := some requestId.text }
      throw exc
    else throw exc

/-! ### What decides on a branch -/

/-- An action without its data; of a log all of it is there. -/
inductive Kind
  | currentRequestId
  | tokenHex
  | clock
  | findProblem
  | judge
  | acquireSlot
  | submitExecuteSync
  | executeSyncStarts
  | sharedSecret
  | problemRevision
  | sendRequest
  | receiveReply
  | waitForRunner
  | getRepository
  | getRecord
  | tryAcquire
  | runWithTimeout
  | monotonicNs
  | submitSave
  | saveStarts
  | openSession
  | writeLog
  | rollback
  | closeSession
  | waitForSave
  | logSafeEvent (fields : LogFields)
  | log (process : Process) (level : Level) (line : Text)

/-- The action without the texts it carries: what an observer of the actions sees. -/
def Action.kind : Action → Kind
  | .currentRequestId => .currentRequestId
  | .tokenHex => .tokenHex
  | .clock => .clock
  | .findProblem _ => .findProblem
  | .judge _ _ => .judge
  | .acquireSlot => .acquireSlot
  | .submitExecuteSync _ => .submitExecuteSync
  | .executeSyncStarts => .executeSyncStarts
  | .sharedSecret => .sharedSecret
  | .problemRevision => .problemRevision
  | .sendRequest _ => .sendRequest
  | .receiveReply _ => .receiveReply
  | .waitForRunner => .waitForRunner
  | .getRepository _ => .getRepository
  | .getRecord _ => .getRecord
  | .tryAcquire => .tryAcquire
  | .runWithTimeout _ _ => .runWithTimeout
  | .monotonicNs => .monotonicNs
  | .submitSave _ => .submitSave
  | .saveStarts => .saveStarts
  | .openSession => .openSession
  | .writeLog _ => .writeLog
  | .rollback => .rollback
  | .closeSession => .closeSession
  | .waitForSave => .waitForSave
  | .logSafeEvent fields => .logSafeEvent fields
  | .log process level line => .log process level line

/-- What is seen of a response: the request ID, readings of the monotonic clock,
whether something was found, accepted or the same, the class of an exception, and
the status and duration of an execution. -/
inductive Seen
  | nothing
  | flag (b : Bool)
  | requestId (current : Option RequestId)
  | token (bytes : RequestIdBytes)
  | instant (ns : ℤ)
  | execution (status : ExecutionStatus) (durationMs : ℤ)
  | refused
  | returned (value : Seen)
  | raised (cls : ExcClass)

/-- Whether something was found. -/
def Seen.found {α : Type} (found : Option α) : Seen := .flag found.isSome

/-- The status and the duration of an execution. -/
def Seen.result (result : ExecutionResult) : Seen := .execution result.status result.durationMs

/-- Of an exception only its class is seen. -/
def Seen.of {α : Type} (f : α → Seen) : Except Failure α → Seen
  | .ok a => .returned (f a)
  | .error failure => .raised failure.cls

/-- Of a reply that is refused only that is seen. -/
def Seen.ofReply (request : RunnerExecutionRequest) : Reply → Seen
  | .raised failure => .raised failure.cls
  | .tooLarge => .refused
  | .invalid => .refused
  | .response r =>
    if r.problemRevision = request.problemRevision ∧ r.requestId = request.requestId then
      .result r.result
    else .refused

/-- What of an answer the code may branch on or log. -/
def Action.seen : (a : Action) → a.Response → Seen
  | .currentRequestId, r => .requestId r
  | .tokenHex, r => .token r
  | .clock, r => .of (fun _ => .nothing) r
  | .findProblem _, r => .of .found r
  | .judge _ _, r => .of (fun _ => .nothing) r
  | .acquireSlot, r => .flag r
  | .submitExecuteSync _, r => .of (fun _ => .nothing) r
  | .executeSyncStarts, r => .flag r
  | .sharedSecret, r => .of (fun _ => .nothing) r
  | .problemRevision, r => .of (fun _ => .nothing) r
  | .sendRequest _, r => .flag r
  | .receiveReply request, r => .ofReply request r
  | .waitForRunner, r => .of (fun _ => .nothing) r
  | .getRepository request, r => .of (fun revision => .flag (request.problemRevision = revision)) r
  | .getRecord _, r => .of .found r
  | .tryAcquire, r => .of .flag r
  | .runWithTimeout _ _, r => .of .result r
  | .monotonicNs, r => .instant r
  | .submitSave _, r => .of (fun _ => .nothing) r
  | .saveStarts, r => .flag r
  | .openSession, r => .of (fun _ => .nothing) r
  | .writeLog _, r => .of (fun _ => .nothing) r
  | .rollback, r => .of (fun _ => .nothing) r
  | .closeSession, r => .of (fun _ => .nothing) r
  | .waitForSave, r => .of (fun _ => .nothing) r
  | .logSafeEvent _, _ => .nothing
  | .log _ _ _, _ => .nothing

/-- An event must be one that `SafeLogEvent` accepts. -/
def Action.allowed : Action → Prop
  | .logSafeEvent fields => fields.refused = []
  | _ => True

/-- Two runs look the same where their actions are of the same kinds and their answers show the
same. -/
def view : Prog.View Action Action.Response Kind Seen where
  kind := Action.kind
  seen := Action.seen
  allowed := Action.allowed

/-- Exceptions of one class; the status of an `HTTPException` can be logged. -/
def Exc.Like : Exc → Exc → Prop
  | .raised failure, .raised failure' => failure.cls = failure'.cls
  | .http statusCode _, .http statusCode' _ =>
    statusCode = statusCode' ∧ 100 ≤ statusCode ∧ statusCode ≤ 599
  | _, _ => False

/-- Two programs that look the same, with related results. -/
abbrev Twins {α β : Type} (value : α → β → Prop) (p : M α) (q : M β) : Prop :=
  Prog.Twin view (Prog.Paired Exc.Like value) p q

/-! ### Twins -/

section Twins

variable {α β : Type}

theorem raise_like (cls : ExcClass) (message message' : String) :
    (raise cls message).Like (raise cls message') := by
  show cls = cls
  rfl

theorem http_like {statusCode : ℕ} (hcode : 100 ≤ statusCode ∧ statusCode ≤ 599)
    (detail detail' : Text) : (Exc.http statusCode detail).Like (.http statusCode detail') :=
  ⟨rfl, hcode⟩

/-- Responses of which the same is seen. -/
theorem seen_of_cases {f g : α → Seen} {r s : Except Failure α} (h : Seen.of f r = Seen.of g s) :
    (∃ a b, r = .ok a ∧ s = .ok b ∧ f a = g b) ∨
      ∃ failure failure', r = .error failure ∧ s = .error failure' ∧
        failure.cls = failure'.cls := by
  cases r with
  | ok a =>
    cases s with
    | ok b => exact .inl ⟨a, b, rfl, rfl, Seen.returned.inj h⟩
    | error failure => cases h
  | error failure =>
    cases s with
    | ok b => cases h
    | error failure' => exact .inr ⟨failure, failure', rfl, rfl, Seen.raised.inj h⟩

theorem Exc.Like.cases {e e' : Exc} (h : e.Like e') :
    (∃ failure failure', e = .raised failure ∧ e' = .raised failure' ∧
      failure.cls = failure'.cls) ∨
    ∃ statusCode detail detail', e = .http statusCode detail ∧ e' = .http statusCode detail' ∧
      100 ≤ statusCode ∧ statusCode ≤ 599 := by
  cases e with
  | raised failure =>
    cases e' with
    | raised failure' => exact .inl ⟨failure, failure', rfl, rfl, h⟩
    | http _ _ => exact h.elim
  | http statusCode detail =>
    cases e' with
    | raised _ => exact h.elim
    | http statusCode' detail' =>
      obtain ⟨rfl, hcode⟩ := h
      exact .inr ⟨statusCode, detail, detail', rfl, rfl, hcode⟩

theorem Exc.Like.isException {e e' : Exc} (h : e.Like e') : e.isException = e'.isException := by
  rcases h.cases with ⟨failure, failure', rfl, rfl, hcls⟩ | ⟨_, _, _, rfl, rfl, -⟩
  · rw [Exc.isException, Exc.isException, hcls]
  · rfl

theorem twins_attempt {f g : α → Seen} {r s : Except Failure α} (h : Seen.of f r = Seen.of g s) :
    Twins (fun a b => f a = g b) (attempt r) (attempt s) := by
  rcases seen_of_cases h with ⟨a, b, rfl, rfl, hab⟩ | ⟨failure, failure', rfl, rfl, hcls⟩
  · exact .pure hab
  · exact .throw hcls

/-- A call of which nothing is seen unless it raises. -/
theorem twins_attempt_nothing {r s : Except Failure α}
    (h : Seen.of (fun _ => .nothing) r = Seen.of (fun _ => .nothing) s) :
    Twins (fun _ _ => True) (attempt r) (attempt s) := by
  refine (twins_attempt h).mono fun r s hrs => ?_
  rcases Prog.paired_cases hrs with ⟨_, _, rfl, rfl, -⟩ | ⟨e, e', rfl, rfl, he⟩
  · exact trivial
  · exact he

theorem Twins.capture {value : α → β → Prop} {p : M α} {q : M β} (h : Twins value p q) :
    Twins (Prog.Paired Exc.Like value) (capture p) (capture q) :=
  h.handle fun _ _ hrs => .done hrs

theorem Twins.outcomeOf {value : α → β → Prop} {p : M α} {q : M β} (h : Twins value p q)
    (starts : Bool) :
    Twins (Prog.Paired Exc.Like value) (outcomeOf starts p) (outcomeOf starts q) := by
  cases starts with
  | true => exact h.capture
  | false => exact .pure (raise_like _ _ _)

theorem twins_unwrap {value : α → β → Prop} {r : Except Exc α} {s : Except Exc β}
    (h : Prog.Paired Exc.Like value r s) : Twins value (Prog.unwrap r) (Prog.unwrap s) := .done h

/-- The same event, that `SafeLogEvent` accepts. -/
theorem twins_logSafeEvent {process : Process} {level : Level} {fields : LogFields}
    (h : fields.refused = []) :
    Twins (fun _ _ => True) (logSafeEvent process level fields)
      (logSafeEvent process level fields) := by
  refine Prog.Twin.perform_bind rfl h fun _ _ _ => ?_
  have hbuild : SafeLogEvent.build fields = .ok ⟨fields, h⟩ := dif_pos h
  rw [hbuild]
  exact .act rfl trivial fun _ _ _ => .pure trivial

theorem twins_requestIdOr (current : Option RequestId) :
    Twins (fun a b => a = b) (requestIdOr current) (requestIdOr current) := by
  cases current with
  | some requestId => exact .pure rfl
  | none =>
    refine Prog.Twin.perform_bind rfl trivial fun r s hrs => ?_
    obtain rfl : r = s := Seen.token.inj hrs
    exact .pure rfl

/-- The fields of an event are accepted when each of them is. -/
theorem refused_eq_nil {fields : LogFields}
    (hid : ∀ text ∈ fields.requestId, ∃ requestId : RequestId, requestId.text = text)
    (hstatus : ∀ code ∈ fields.httpStatus, 100 ≤ code ∧ code ≤ 599)
    (hduration : ∀ duration ∈ fields.durationMs, 0 ≤ duration) : fields.refused = [] := by
  have hid' : ∀ text ∈ fields.requestId,
      text.length = requestIdLength ∧ text.all isLowerHex = true := by
    intro text htext
    obtain ⟨requestId, rfl⟩ := hid text htext
    exact ⟨requestId.length_eq, List.all_eq_true.2 requestId.hex⟩
  rw [LogFields.refused, if_pos hid', if_pos hstatus, if_pos hduration]
  rfl

/-- The text of a request ID, as a field. -/
theorem text_of_mem {requestId : RequestId} {text : Text} (h : text ∈ some requestId.text) :
    ∃ requestId : RequestId, requestId.text = text :=
  ⟨requestId, Option.some.inj h⟩

/-- What was found or not, was or was not found. -/
theorem isNone_of_found {found found' : Option α} (h : Seen.found found = Seen.found found') :
    found.isNone = found'.isNone := by
  have h : found.isSome = found'.isSome := Seen.flag.inj h
  rw [← Option.not_isSome, ← Option.not_isSome, h]

/-- What is not an `Exception` is not handled. -/
theorem twins_handled {value : α → β → Prop} {failure failure' : Failure}
    (hcls : failure.cls = failure'.cls) {p : M α} {q : M β} (h : Twins value p q) :
    Twins value (if failure.cls ≠ .baseException then p else throw (.raised failure))
      (if failure'.cls ≠ .baseException then q else throw (.raised failure')) := by
  rw [hcls]
  by_cases hbase : failure'.cls ≠ .baseException
  · rw [if_pos hbase, if_pos hbase]
    exact h
  · rw [if_neg hbase, if_neg hbase]
    exact .throw hcls

theorem twins_exception {value : α → β → Prop} {e e' : Exc} (he : e.Like e') {p : M α} {q : M β}
    (h : Twins value p q) :
    Twins value (if e.isException then p else throw e)
      (if e'.isException then q else throw e') := by
  rw [he.isException]
  by_cases hexc : e'.isException = true
  · rw [if_pos hexc, if_pos hexc]
    exact h
  · rw [if_neg hexc, if_neg hexc]
    exact .throw he

theorem not_mem_none {a : α} {P : Prop} (h : a ∈ (none : Option α)) : P := by cases h

end Twins

/-! ### The runner -/

section Runner

variable {request request' : RunnerExecutionRequest}

theorem twins_logRunnerCompletion (hid : request.requestId = request'.requestId) {httpStatus : ℕ}
    (hstatus : 100 ≤ httpStatus ∧ httpStatus ≤ 599) {executionStatus : Option ExecutionStatus}
    {durationMs : Option ℤ} (hduration : ∀ duration ∈ durationMs, 0 ≤ duration) :
    Twins (fun _ _ => True) (logRunnerCompletion request httpStatus executionStatus durationMs)
      (logRunnerCompletion request' httpStatus executionStatus durationMs) := by
  rw [logRunnerCompletion, logRunnerCompletion, ← hid]
  refine twins_logSafeEvent (refused_eq_nil (fun _ h => text_of_mem h) (fun code hcode => ?_)
    hduration)
  obtain rfl := Option.some.inj hcode
  omega

/-- Requests of any command, problem and revision, if the revision matches in both
runs or in neither. -/
theorem twins_tryExecute :
    Twins (fun a b => Seen.result a.2 = Seen.result b.2) (tryExecute request)
      (tryExecute request') := by
  refine Prog.Twin.perform_bind rfl trivial fun r s hrs => ?_
  refine (twins_attempt hrs).bind fun revision revision' hrevision => ?_
  have hiff : request.problemRevision ≠ revision ↔ request'.problemRevision ≠ revision' :=
    not_congr (decide_eq_decide.1 (Seen.flag.inj hrevision))
  -- 409, 404 and 429 are raised in both runs or in neither
  by_cases hmatch : request'.problemRevision ≠ revision'
  · rw [if_pos hmatch, if_pos (hiff.2 hmatch)]
    exact .throw (http_like (by omega) _ _)
  rw [if_neg hmatch, if_neg (hiff.not.2 hmatch)]
  refine Prog.Twin.perform_bind rfl trivial fun r s hrs => ?_
  refine (twins_attempt hrs).bind fun record record' hfound => ?_
  rw [isNone_of_found hfound]
  by_cases hnone : record'.isNone = true
  · rw [if_pos hnone, if_pos hnone]
    exact .throw (http_like (by omega) _ _)
  rw [if_neg hnone, if_neg hnone]
  refine Prog.Twin.perform_bind rfl trivial fun r s hrs => ?_
  refine (twins_attempt hrs).bind fun acquired acquired' hacquired => ?_
  obtain rfl : acquired = acquired' := Seen.flag.inj hacquired
  by_cases hbusy : acquired = false
  · rw [if_pos hbusy, if_pos hbusy]
    exact .throw (http_like (by omega) _ _)
  rw [if_neg hbusy, if_neg hbusy]
  refine Prog.Twin.perform_bind rfl trivial fun r s hrs => ?_
  rcases seen_of_cases hrs with
    ⟨result, result', rfl, rfl, hresult⟩ | ⟨failure, failure', rfl, rfl, hcls⟩
  · exact .pure hresult
  · show Twins _ (if failure.cls = .sandboxBusy then _ else _)
      (if failure'.cls = .sandboxBusy then _ else _)
    rw [hcls]
    -- the sandbox is busy, or the exception goes on
    by_cases hsandbox : failure'.cls = .sandboxBusy
    · rw [if_pos hsandbox, if_pos hsandbox]
      exact .throw (http_like (by omega) _ _)
    · rw [if_neg hsandbox, if_neg hsandbox]
      exact .throw hcls

/-- Whatever the outcome is, it is logged in the same way. -/
theorem twins_executeShellgei (hid : request.requestId = request'.requestId) :
    Twins (fun _ _ => True) (executeShellgei request) (executeShellgei request') := by
  refine twins_tryExecute.capture.bind fun r s hrs => ?_
  rcases Prog.paired_cases hrs with ⟨a, b, rfl, rfl, hab⟩ | ⟨e, e', rfl, rfl, he⟩
  · obtain ⟨revision, result⟩ := a
    obtain ⟨revision', result'⟩ := b
    -- of the result, status and duration are logged
    obtain ⟨hstatus, hduration⟩ := Seen.execution.inj hab
    show Twins _ (logRunnerCompletion request 200 (some result.status) (some result.durationMs) >>=
      _) (logRunnerCompletion request' 200 (some result'.status) (some result'.durationMs) >>= _)
    rw [← hstatus, ← hduration]
    refine (twins_logRunnerCompletion hid (by omega) fun duration h => ?_).bind
      fun _ _ _ => .pure trivial
    obtain rfl := Option.some.inj h
    exact result.consistent.duration
  · rcases he.cases with
      ⟨failure, failure', rfl, rfl, hcls⟩ | ⟨statusCode, detail, detail', rfl, rfl, hcode⟩
    · refine twins_handled hcls ?_
      refine (twins_logRunnerCompletion hid (by omega) fun _ h => not_mem_none h).bind
        fun _ _ _ => ?_
      exact .throw hcls
    · refine (twins_logRunnerCompletion hid hcode fun _ h => not_mem_none h).bind fun _ _ _ => ?_
      exact .throw (http_like hcode _ _)

end Runner

/-! ### The runner client -/

section Client

variable {data data' : ShellgeiData} {requestId : RequestId}
  {request request' : RunnerExecutionRequest}

/-- An exception of the opener goes on under a name for its class. -/
theorem twins_receive_raised {failure failure' : Failure} (h : failure.cls = failure'.cls) :
    Twins (fun a b => Seen.result a = Seen.result b) (receive request (.raised failure))
      (receive request' (.raised failure')) := by
  obtain ⟨cls, message⟩ := failure
  obtain ⟨cls', message'⟩ := failure'
  obtain rfl : cls = cls' := h
  cases cls with
  | httpError code =>
    simp only [receive]
    -- the code decides on the class, the message is not seen
    by_cases h429 : code = 429
    · rw [if_pos h429]
      exact .throw (raise_like _ _ _)
    rw [if_neg h429]
    by_cases h409 : code = 409
    · rw [if_pos h409]
      exact .throw (raise_like _ _ _)
    rw [if_neg h409]
    exact .throw (raise_like _ _ _)
  | osError => exact .throw (raise_like _ _ _)
  | _ => exact .throw (show _ = _ from rfl)

theorem receive_cases (request : RunnerExecutionRequest) (reply : Reply) :
    (∃ failure, reply = .raised failure) ∨
      (∃ message, receive request reply = throw (raise .runnerUnavailable message) ∧
        Seen.ofReply request reply = .refused) ∨
      ∃ result, receive request reply = pure result ∧
        Seen.ofReply request reply = .result result := by
  cases reply with
  | raised failure => exact .inl ⟨failure, rfl⟩
  | tooLarge => exact .inr (.inl ⟨_, rfl, rfl⟩)
  | invalid => exact .inr (.inl ⟨_, rfl, rfl⟩)
  | response response =>
    rw [receive, Seen.ofReply]
    by_cases hrevision : response.problemRevision = request.problemRevision
    · by_cases hid : response.requestId = request.requestId
      · rw [if_neg (not_not.2 hrevision), if_neg (not_not.2 hid), if_pos ⟨hrevision, hid⟩]
        exact .inr (.inr ⟨_, rfl, rfl⟩)
      · rw [if_neg (not_not.2 hrevision), if_pos hid, if_neg fun h => hid h.2]
        exact .inr (.inl ⟨_, rfl, rfl⟩)
    · rw [if_pos hrevision, if_neg fun h => hrevision h.1]
      exact .inr (.inl ⟨_, rfl, rfl⟩)

/-- What is seen of a reply says what is made of it. -/
theorem twins_receive {reply reply' : Reply}
    (h : Seen.ofReply request reply = Seen.ofReply request' reply') :
    Twins (fun a b => Seen.result a = Seen.result b) (receive request reply)
      (receive request' reply') := by
  rcases receive_cases request reply with
    ⟨failure, rfl⟩ | ⟨_, hreceive, hseen⟩ | ⟨result, hreceive, hseen⟩
  · rcases receive_cases request' reply' with
      ⟨failure', rfl⟩ | ⟨_, -, hseen'⟩ | ⟨result', -, hseen'⟩
    · exact twins_receive_raised (Seen.raised.inj h)
    · cases h.trans hseen'
    · cases h.trans hseen'
  · rcases receive_cases request' reply' with
      ⟨failure', rfl⟩ | ⟨_, hreceive', -⟩ | ⟨result', -, hseen'⟩
    · cases hseen.symm.trans h
    · rw [hreceive, hreceive']
      exact .throw (raise_like _ _ _)
    · cases (hseen.symm.trans h).trans hseen'
  · rcases receive_cases request' reply' with
      ⟨failure', rfl⟩ | ⟨_, -, hseen'⟩ | ⟨result', hreceive', hseen'⟩
    · cases hseen.symm.trans h
    · cases (hseen.symm.trans h).trans hseen'
    · rw [hreceive, hreceive']
      exact .pure ((hseen.symm.trans h).trans hseen')

theorem twins_executeSync :
    Twins (fun a b => Seen.result a = Seen.result b) (executeSync data requestId)
      (executeSync data' requestId) := by
  refine Prog.Twin.perform_bind rfl trivial fun r s hrs => ?_
  refine (twins_attempt_nothing hrs).bind fun _ _ _ => ?_
  refine Prog.Twin.perform_bind rfl trivial fun r s hrs => ?_
  refine (twins_attempt_nothing hrs).bind fun revision revision' _ => ?_
  refine Prog.Twin.perform_bind rfl trivial fun delivered delivered' hdelivered => ?_
  obtain rfl : delivered = delivered' := Seen.flag.inj hdelivered
  have hreply (request request' : RunnerExecutionRequest) :
      Twins (fun a b => Seen.result a = Seen.result b)
        (perform (.receiveReply request) >>= fun reply => receive request reply)
        (perform (.receiveReply request') >>= fun reply => receive request' reply) :=
    Prog.Twin.perform_bind rfl trivial fun _ _ hrs => twins_receive hrs
  -- only a request that is delivered is logged by the runner
  by_cases hsent : delivered = true
  · rw [if_pos hsent, if_pos hsent]
    have hrunner : Twins (fun _ _ => True)
        (executeShellgei { toShellgeiData := data, requestId, problemRevision := revision })
        (executeShellgei { toShellgeiData := data', requestId, problemRevision := revision' }) :=
      twins_executeShellgei rfl
    exact hrunner.capture.bind fun _ _ _ => hreply _ _
  · rw [if_neg hsent, if_neg hsent]
    exact hreply _ _

theorem twins_submitAndWait :
    Twins (fun a b => Seen.result a = Seen.result b) (submitAndWait data requestId)
      (submitAndWait data' requestId) := by
  refine Prog.Twin.perform_bind rfl trivial fun r s hrs => ?_
  refine (twins_attempt_nothing hrs).bind fun _ _ _ => ?_
  refine Prog.Twin.perform_bind rfl trivial fun starts starts' hstarts => ?_
  obtain rfl : starts = starts' := Seen.flag.inj hstarts
  refine (twins_executeSync.outcomeOf starts).bind fun outcome outcome' houtcome => ?_
  refine Prog.Twin.perform_bind rfl trivial fun r s hrs => ?_
  refine (twins_attempt_nothing hrs).bind fun _ _ _ => ?_
  exact twins_unwrap houtcome

/-- An event with a request ID and no other value. -/
theorem refused_of_requestId {event : LogEvent} {component : LogComponent} :
    ({ event, component, requestId := some requestId.text } : LogFields).refused = [] :=
  refused_eq_nil (fun _ h => text_of_mem h) (fun _ h => not_mem_none h) fun _ h => not_mem_none h

theorem twins_logClientFailure {e e' : Exc} (h : e.Like e') :
    Twins (fun a b => Seen.result a = Seen.result b) (logClientFailure requestId e)
      (logClientFailure requestId e') := by
  refine twins_exception h ?_
  refine (twins_logSafeEvent refused_of_requestId).bind fun _ _ _ => ?_
  exact .throw (raise_like _ _ _)

theorem twins_execute (current : Option RequestId) :
    Twins (fun a b => Seen.result a = Seen.result b) (execute current data)
      (execute current data') := by
  refine Prog.Twin.perform_bind rfl trivial fun acquired acquired' hacquired => ?_
  obtain rfl : acquired = acquired' := Seen.flag.inj hacquired
  by_cases hbusy : acquired = false
  · rw [if_pos hbusy, if_pos hbusy]
    exact .throw (raise_like _ _ _)
  rw [if_neg hbusy, if_neg hbusy]
  refine (twins_requestIdOr current).bind fun requestId requestId' hid => ?_
  obtain rfl := hid
  refine twins_submitAndWait.tryCatch (fun _ _ h => h) fun e e' he => ?_
  rcases he.cases with ⟨⟨cls, message⟩, ⟨cls', message'⟩, rfl, rfl, hcls⟩ | ⟨_, _, _, rfl, rfl, -⟩
  · obtain rfl : cls = cls' := hcls
    cases cls with
    | runnerBusy => exact .throw he
    | runnerConfiguration => exact .throw he
    | runnerUnavailable => exact .throw he
    | _ => exact twins_logClientFailure he
  · exact twins_logClientFailure he

end Client

/-! ### The execution log -/

section Save

variable {entry entry' : ExecutionLogEntry} {requestId : RequestId}

theorem twins_orLog (event : LogEvent) {r s : Except Failure Unit}
    (h : Seen.of (fun _ => .nothing) r = Seen.of (fun _ => .nothing) s) :
    Twins (fun _ _ => True) (orLog event r) (orLog event s) := by
  rcases seen_of_cases h with
    ⟨_, _, rfl, rfl, -⟩ | ⟨failure, failure', rfl, rfl, hcls⟩
  · exact .pure trivial
  · exact twins_handled hcls (twins_logSafeEvent (refused_eq_nil (fun _ h => not_mem_none h)
      (fun _ h => not_mem_none h) fun _ h => not_mem_none h))

theorem twins_writeOrRollback :
    Twins (fun _ _ => True) (writeOrRollback entry) (writeOrRollback entry') := by
  refine Prog.Twin.perform_bind rfl trivial fun r s hrs => ?_
  rcases seen_of_cases hrs with
    ⟨logId, logId', rfl, rfl, -⟩ | ⟨failure, failure', rfl, rfl, hcls⟩
  · exact .pure trivial
  · refine twins_handled hcls ?_
    refine Prog.Twin.perform_bind rfl trivial fun r s hrs => ?_
    refine (twins_orLog _ hrs).bind fun _ _ _ => ?_
    exact .throw (raise_like _ _ _)

theorem twins_save : Twins (fun _ _ => True) (save entry) (save entry') := by
  refine Prog.Twin.perform_bind rfl trivial fun r s hrs => ?_
  rcases seen_of_cases hrs with
    ⟨_, _, rfl, rfl, -⟩ | ⟨failure, failure', rfl, rfl, hcls⟩
  · refine twins_writeOrRollback.finally' ?_
    exact Prog.Twin.perform_bind rfl trivial fun r s hrs => twins_orLog _ hrs
  · exact twins_handled hcls (.throw (raise_like _ _ _))

theorem twins_submitSaveAndWait :
    Twins (fun _ _ => True) (submitSaveAndWait entry) (submitSaveAndWait entry') := by
  refine Prog.Twin.perform_bind rfl trivial fun r s hrs => ?_
  refine (twins_attempt_nothing hrs).bind fun _ _ _ => ?_
  refine Prog.Twin.perform_bind rfl trivial fun starts starts' hstarts => ?_
  obtain rfl : starts = starts' := Seen.flag.inj hstarts
  refine (twins_save.outcomeOf starts).bind fun outcome outcome' houtcome => ?_
  refine Prog.Twin.perform_bind rfl trivial fun r s hrs => ?_
  refine (twins_attempt_nothing hrs).bind fun _ _ _ => ?_
  exact twins_unwrap houtcome

/-- The duration of a save is never negative. -/
theorem twins_logSave (level : Level) (event : LogEvent) (started now : ℤ) :
    Twins (fun _ _ => True) (logSave level event requestId started now)
      (logSave level event requestId started now) := by
  refine twins_logSafeEvent (refused_eq_nil (fun _ h => text_of_mem h)
    (fun _ h => not_mem_none h) fun duration h => ?_)
  obtain rfl := Option.some.inj h
  exact Int.le_max_left 0 _

theorem twins_saveExecutionLogAsync :
    Twins (fun _ _ => True) (saveExecutionLogAsync entry requestId)
      (saveExecutionLogAsync entry' requestId) := by
  refine Prog.Twin.perform_bind rfl trivial fun started started' hstarted => ?_
  obtain rfl : started = started' := Seen.instant.inj hstarted
  refine twins_submitSaveAndWait.capture.bind fun r s hrs => ?_
  rcases Prog.paired_cases hrs with ⟨logId, logId', rfl, rfl, -⟩ | ⟨e, e', rfl, rfl, he⟩
  · refine Prog.Twin.perform_bind rfl trivial fun now now' hnow => ?_
    obtain rfl : now = now' := Seen.instant.inj hnow
    exact (twins_logSave _ _ _ _).bind fun _ _ _ => .pure trivial
  · refine twins_exception he ?_
    refine Prog.Twin.perform_bind rfl trivial fun now now' hnow => ?_
    obtain rfl : now = now' := Seen.instant.inj hnow
    refine (twins_logSave _ _ _ _).bind fun _ _ _ => ?_
    -- the two handlers log alike; they differ in what they raise
    rcases he.cases with
      ⟨⟨cls, message⟩, ⟨cls', message'⟩, rfl, rfl, hcls⟩ | ⟨_, _, _, rfl, rfl, -⟩
    · obtain rfl : cls = cls' := hcls
      cases cls with
      | executionLogRepository => exact .throw he
      | _ => exact .throw (raise_like _ _ _)
    · exact .throw (raise_like _ _ _)

end Save

/-! ### The submission -/

section Submit

variable {data data' : ShellgeiData} {requestId : RequestId} {clock clock' : WallClock}

theorem map_of_seen {x y : Option ExecutionResult} (h : x.map Seen.result = y.map Seen.result) :
    x.map (·.status) = y.map (·.status) ∧ x.map (·.durationMs) = y.map (·.durationMs) := by
  cases x with
  | none =>
    cases y with
    | none => exact ⟨rfl, rfl⟩
    | some _ => cases h
  | some execution =>
    cases y with
    | none => cases h
    | some execution' =>
      obtain ⟨hstatus, hduration⟩ := Seen.execution.inj (Option.some.inj h)
      exact ⟨congrArg some hstatus, congrArg some hduration⟩

/-- Results that only differ in what is not recorded. -/
theorem twins_recordResult {result result' : SubmissionResult} (level : Level)
    (hstatus : result.status = result'.status)
    (hexecution : result.execution.map Seen.result = result'.execution.map Seen.result)
    (hpersistence : result.persistence = result'.persistence) :
    Twins (fun _ _ => True) (recordResult result requestId level)
      (recordResult result' requestId level) := by
  obtain ⟨hexecutionStatus, hduration⟩ := map_of_seen hexecution
  rw [recordResult, recordResult, ← hstatus, ← hexecutionStatus, ← hduration, ← hpersistence]
  refine (twins_logSafeEvent (refused_eq_nil (fun _ h => text_of_mem h)
    (fun _ h => not_mem_none h) fun duration h => ?_)).bind fun _ _ _ => .pure trivial
  obtain ⟨execution, -, rfl⟩ := Option.mem_map.1 h
  exact execution.consistent.duration

theorem errors_rejectedFields {status : SubmissionStatus} (hstatus : status ≠ .completed)
    (clock : WallClock) : (rejectedFields status (currentJapanTime clock)).errors = [] := by
  cases status with
  | completed => exact absurd rfl hstatus
  | _ => rfl

theorem twins_reject {status : SubmissionStatus} (hstatus : status ≠ .completed) :
    Twins (fun _ _ => True) (reject status (currentJapanTime clock) requestId)
      (reject status (currentJapanTime clock') requestId) := by
  rw [reject, reject, SubmissionResult.build, SubmissionResult.build,
    dif_pos (errors_rejectedFields hstatus clock), dif_pos (errors_rejectedFields hstatus clock')]
  exact twins_recordResult _ rfl rfl rfl

/-- Outcomes of two saves of which none or both have an ID. -/
def SavedAlike : SaveOutcome → SaveOutcome → Prop
  | .saved _, .saved _ => True
  | .repositoryError, .repositoryError => True
  | _, _ => False

theorem twins_trySave {entry entry' : ExecutionLogEntry} :
    Twins SavedAlike (trySave entry requestId) (trySave entry' requestId) := by
  have hsave : Twins SavedAlike
      (saveExecutionLogAsync entry requestId >>= fun logId => pure (.saved logId))
      (saveExecutionLogAsync entry' requestId >>= fun logId => pure (.saved logId)) :=
    twins_saveExecutionLogAsync.bind fun _ _ _ => .pure trivial
  refine hsave.tryCatch (fun _ _ h => h) fun e e' he => ?_
  rcases he.cases with ⟨⟨cls, message⟩, ⟨cls', message'⟩, rfl, rfl, hcls⟩ | ⟨_, _, _, rfl, rfl, -⟩
  · obtain rfl : cls = cls' := hcls
    cases cls with
    | executionLogRepository => exact .pure trivial
    | _ => exact .throw he
  · exact .throw he

theorem twins_complete {execution execution' : ExecutionResult}
    (h : Seen.result execution = Seen.result execution') :
    Twins (fun _ _ => True) (complete data (currentJapanTime clock) requestId execution)
      (complete data' (currentJapanTime clock') requestId execution') := by
  refine Prog.Twin.perform_bind rfl trivial fun r s hrs => ?_
  refine (twins_attempt_nothing hrs).bind fun judgment judgment' _ => ?_
  -- neither the entry nor the result is refused, whatever was printed
  obtain ⟨entry, hentry⟩ := ExecutionLogEntry.fromResults_ok execution judgment
    data.problem_id_valid data.length_valid
  obtain ⟨entry', hentry'⟩ := ExecutionLogEntry.fromResults_ok execution' judgment'
    data'.problem_id_valid data'.length_valid
  rw [hentry, hentry']
  refine twins_trySave.bind fun saved saved' hsaved => ?_
  have herrors := (completed_completedFields (currentJapanTime clock) execution judgment
    saved).errors_eq_nil
  have herrors' := (completed_completedFields (currentJapanTime clock') execution' judgment'
    saved').errors_eq_nil
  rw [SubmissionResult.build, SubmissionResult.build, dif_pos herrors, dif_pos herrors']
  cases saved with
  | saved logId =>
    cases saved' with
    | saved logId' => exact twins_recordResult .info rfl (congrArg some h) rfl
    | repositoryError => exact hsaved.elim
  | repositoryError =>
    cases saved' with
    | saved logId' => exact hsaved.elim
    | repositoryError => exact twins_recordResult .warning rfl (congrArg some h) rfl

/-- The status of a rejection, or what is seen of an execution. -/
abbrev RunAlike : Except SubmissionStatus ExecutionResult →
    Except SubmissionStatus ExecutionResult → Prop :=
  Prog.Paired (fun status status' => status = status' ∧ status ≠ .completed)
    fun execution execution' => Seen.result execution = Seen.result execution'

theorem twins_tryRun : Twins RunAlike (tryRun data requestId) (tryRun data' requestId) := by
  have hrun : Twins RunAlike
      (execute (some requestId) data >>= fun execution => pure (.ok execution))
      (execute (some requestId) data' >>= fun execution => pure (.ok execution)) :=
    (twins_execute _).bind fun _ _ h => .pure h
  refine hrun.tryCatch (fun _ _ h => h) fun e e' he => ?_
  rcases he.cases with ⟨⟨cls, message⟩, ⟨cls', message'⟩, rfl, rfl, hcls⟩ | ⟨_, _, _, rfl, rfl, -⟩
  · obtain rfl : cls = cls' := hcls
    cases cls with
    | runnerBusy => exact .pure ⟨rfl, by decide⟩
    | runnerUnavailable => exact .pure ⟨rfl, by decide⟩
    | _ => exact .throw he
  · exact .throw he

theorem twins_submitUnder :
    Twins (fun _ _ => True) (submitUnder data requestId) (submitUnder data' requestId) := by
  refine Prog.Twin.perform_bind rfl trivial fun r s hrs => ?_
  refine (twins_attempt_nothing hrs).bind fun clock clock' _ => ?_
  refine Prog.Twin.perform_bind rfl trivial fun r s hrs => ?_
  refine (twins_attempt hrs).bind fun record record' hfound => ?_
  rw [isNone_of_found hfound]
  by_cases hnone : record'.isNone = true
  · rw [if_pos hnone, if_pos hnone]
    exact twins_reject (by decide)
  rw [if_neg hnone, if_neg hnone]
  refine twins_tryRun.bind fun run run' hrun => ?_
  rcases Prog.paired_cases hrun with ⟨a, b, rfl, rfl, hab⟩ | ⟨status, _, rfl, rfl, rfl, hstatus⟩
  · exact twins_complete hab
  · exact twins_reject hstatus

/-- Two submissions under one request ID. -/
theorem submit_twin : Twins (fun _ _ => True) (submit data) (submit data') := by
  refine Prog.Twin.perform_bind rfl trivial fun current current' hcurrent => ?_
  obtain rfl := Seen.requestId.inj hcurrent
  refine (twins_requestIdOr current).bind fun requestId requestId' hid => ?_
  obtain rfl := hid
  refine twins_submitUnder.tryCatch (fun _ _ _ => trivial) fun e e' he => ?_
  exact twins_exception he
    ((twins_logSafeEvent refused_of_requestId).bind fun _ _ _ => .throw he)

end Submit

/-! ### Logs -/

/-- A line of the log of a process. -/
structure LogLine where
  process : Process
  level : Level
  text : Text

/-- The log line of an action of this kind. -/
def Kind.line : Kind → Option LogLine
  | .log process level text => some ⟨process, level, text⟩
  | _ => none

/-- The actions of a run with their answers. -/
abbrev Events := List (Prog.Event Action Action.Response)

/-- The lines that have been logged, in their order. -/
def logged (events : Events) : List LogLine := events.filterMap fun e => e.1.kind.line

theorem logged_eq {events events' : Events}
    (h : List.Forall₂ (Prog.LooksAlike view) events events') : logged events = logged events' := by
  induction h with
  | nil => rfl
  | @cons e e' _ _ hlike _ ih =>
    -- of an action the kind alone is logged
    have hkind : e.1.kind = e'.1.kind := hlike.kind
    simp only [logged, List.filterMap_cons, hkind] at ih ⊢
    rw [ih]

theorem allowed_of_mem {events events' : Events}
    (h : List.Forall₂ (Prog.LooksAlike view) events events') {e : Prog.Event Action Action.Response}
    (he : e ∈ events) : e.1.allowed := by
  induction h with
  | nil => cases he
  | cons hlike _ ih =>
    rcases List.mem_cons.1 he with rfl | he
    · exact hlike.allowed
    · exact ih he

/-- The branches that are taken in two runs are the same. -/
def SameBranches (events events' : Events) : Prop := Prog.Agree view events events'

/-- No event of a submission is refused, and what is logged of it does not depend on
its command, its problem, its output, its verdict or the text of an exception. -/
theorem logs_carry_no_user_data {data data' : ShellgeiData} {events events' : Events}
    {r r' : Except Exc SubmissionResult} (h : Prog.Ends (submit data) events r)
    (h' : Prog.Ends (submit data') events' r') :
    (∀ fields answer, ⟨.logSafeEvent fields, answer⟩ ∈ events →
      ∃ payload, SafeLogEvent.build fields = .ok payload) ∧
    (SameBranches events events' → logged events = logged events') := by
  refine ⟨fun fields answer hmem => ?_, fun hagree => ?_⟩
  · -- a run is a twin of itself
    have hself : Twins (fun _ _ => True) (submit data) (submit data) := submit_twin
    have hvalid : fields.refused = [] :=
      allowed_of_mem (hself.ends h h (Prog.agree_refl view events)).1 hmem
    exact ⟨⟨fields, hvalid⟩, dif_pos hvalid⟩
  · have htwin : Twins (fun _ _ => True) (submit data) (submit data') := submit_twin
    exact logged_eq (htwin.ends h h' hagree).1

/-- The answers of a run whose command prints `result`, and whose log entry is
not written. -/
def unsavedAnswers (result : ExecutionResult) (judgment : JudgeResult) (message : String) :
    (a : Action) → a.Response
  | .currentRequestId => none
  | .tokenHex => ⟨List.replicate 16 0, rfl⟩
  | .clock => .ok PublicApi.noon
  | .findProblem _ => .ok (some silentProblem)
  | .judge _ _ => .ok judgment
  | .acquireSlot => true
  | .submitExecuteSync _ => .ok ()
  | .executeSyncStarts => true
  | .sharedSecret => .ok ()
  | .problemRevision => .ok ⟨List.replicate 64 '0', length_zeros, isLowerHex_zeros⟩
  | .sendRequest _ => true
  | .receiveReply request => .response ⟨request.requestId, request.problemRevision, result⟩
  | .waitForRunner => .ok ()
  | .getRepository request => .ok request.problemRevision
  | .getRecord _ => .ok (some silentProblem)
  | .tryAcquire => .ok true
  | .runWithTimeout _ _ => .ok result
  | .monotonicNs => 0
  | .submitSave _ => .ok ()
  | .saveStarts => true
  | .openSession => .ok ()
  | .writeLog _ => .error ⟨.exception, message.toList⟩
  | .rollback => .error ⟨.osError, message.toList⟩
  | .closeSession => .ok ()
  | .waitForSave => .ok ()
  | .logSafeEvent _ => ()
  | .log _ _ _ => ()

/-- What is seen of them is the same for every result of this status and duration. -/
def unsavedSeen : Kind → Seen
  | .currentRequestId => .requestId none
  | .tokenHex => .token ⟨List.replicate 16 0, rfl⟩
  | .acquireSlot | .executeSyncStarts | .sendRequest | .saveStarts => .flag true
  | .findProblem | .getRepository | .getRecord | .tryAcquire => .returned (.flag true)
  | .receiveReply => .execution .completed 5
  | .runWithTimeout => .returned (.execution .completed 5)
  | .monotonicNs => .instant 0
  | .writeLog => .raised .exception
  | .rollback => .raised .osError
  | .logSafeEvent _ | .log _ _ _ => .nothing
  | _ => .returned .nothing

theorem seen_unsavedAnswers {result : ExecutionResult}
    (hresult : Seen.result result = .execution .completed 5) (judgment : JudgeResult)
    (message : String) (a : Action) :
    view.seen a (unsavedAnswers result judgment message a) = unsavedSeen (view.kind a) := by
  cases a with
  | receiveReply request => exact (if_pos ⟨rfl, rfl⟩).trans hresult
  | runWithTimeout shellgei problemId => exact congrArg Seen.returned hresult
  | getRepository request =>
    show Seen.returned (.flag (decide (_ = _))) = .returned (.flag true)
    rw [decide_eq_true rfl]
  | _ => rfl

/-- The command `echo hi`. -/
def echoHi : ShellgeiData where
  shellgei := "echo hi".toList
  problemId := "STANDARD-2".toList
  normalized := by decide
  length_valid := by decide
  no_nul := by decide
  problem_id_valid := standard_two_valid

/-- Two commands that print different texts are logged in the same way. -/
theorem logs_carry_no_user_data_unsaved :
    logged (Prog.trace (unsavedAnswers (printed [] (by decide)) accepted "no disk")
      (submit (PublicApi.noCommand "STANDARD-1".toList (by rfl)))) =
    logged (Prog.trace (unsavedAnswers (printed ['h', 'i'] (by decide)) ⟨.wrongAnswer, none⟩
      "row of STANDARD-2") (submit echoHi)) := by
  obtain ⟨r, h⟩ := Prog.ends_trace (unsavedAnswers (printed [] (by decide)) accepted "no disk")
    (submit (PublicApi.noCommand "STANDARD-1".toList (by rfl)))
  obtain ⟨r', h'⟩ := Prog.ends_trace (unsavedAnswers (printed ['h', 'i'] (by decide))
    ⟨.wrongAnswer, none⟩ "row of STANDARD-2") (submit echoHi)
  exact (logs_carry_no_user_data h h').2
    (Prog.agree_trace (seen_unsavedAnswers rfl _ _) (seen_unsavedAnswers rfl _ _) _ _)

end StructuredLogging
