/-
The agreement of the backend and the runner on a request and on the problem data
(`RunnerClient.execute` of soj_backend/runner_client.py and `execute_shellgei` of
soj_runner/main.py).

The backend makes any number of calls at once, and the runner handles any number
of requests.  What the runner gets was sent by the backend, on the authenticated
channel, but may come late, in any order and more than once; what a call gets as
its response may be anything.  A call that finds no free slot sends nothing and
is left out.

* `Step` — the calls, the runner and the network;
* `inv_of_reachable` — what the checks of both sides keep;
* `agreement` — a result that is returned belongs to the request of its call and
  to the problem data of the backend.
-/
import Mathlib.Logic.Relation
import ShellgeiOnlineJudge.FrontendTypes
import ShellgeiOnlineJudge.ProblemData
import ShellgeiOnlineJudge.SizeBudgets

namespace RunnerAgreement

open Utf8 Problem Execution RunnerProtocol ProblemData
open SizeBudgets (requestJson responseJson resultJson runnerProtocolVersion
  runnerResponseLimitBytes)
open FrontendTypes (optionValue write_int write_optionValue)
open Submission (RunnerError)
open Json (Value)

/-! ### A message is determined by its JSON -/

/-- The JSON of a request. -/
def requestValue (request : RunnerExecutionRequest) : Value :=
  .object
    [("shellgei".toList, .string request.shellgei),
      ("problem_id".toList, .string request.problemId),
      ("protocol_version".toList, .int runnerProtocolVersion),
      ("request_id".toList, .string request.requestId.text),
      ("problem_revision".toList, .string request.problemRevision.text)]

/-- The JSON of an artifact. -/
def executionArtifactValue (artifact : ExecutionArtifact) : Value :=
  .object
    [("path".toList, .string artifact.path),
      ("media_type".toList, .string artifact.mediaType.value),
      ("data".toList, .string artifact.data)]

/-- The JSON of a result. -/
def resultValue (result : ResultFields) : Value :=
  .object
    [("status".toList, .string result.status.value),
      ("stdout".toList, .string result.stdout),
      ("stderr".toList, .string result.stderr),
      ("exit_code".toList, optionValue Value.int result.exitCode),
      ("timed_out".toList, .bool result.timedOut),
      ("truncated".toList, .bool result.truncated),
      ("duration_ms".toList, .int result.durationMs),
      ("artifact".toList, optionValue executionArtifactValue result.artifact),
      ("error".toList, optionValue Value.string result.error),
      ("display_artifact".toList, optionValue executionArtifactValue result.displayArtifact)]

/-- The JSON of a response. -/
def responseValue (response : RunnerExecutionResponse) : Value :=
  .object
    [("protocol_version".toList, .int runnerProtocolVersion),
      ("request_id".toList, .string response.requestId.text),
      ("problem_revision".toList, .string response.problemRevision.text),
      ("result".toList, resultValue response.result.toResultFields)]

theorem write_requestValue (request : RunnerExecutionRequest) :
    (requestValue request).write = requestJson request := rfl

theorem write_resultValue (result : ResultFields) :
    (resultValue result).write = resultJson result := by
  have hexit := write_optionValue write_int result.exitCode
  have hartifact : (optionValue executionArtifactValue result.artifact).write =
      PublicApi.optionJson SizeBudgets.artifactJson result.artifact :=
    write_optionValue (fun _ => rfl) result.artifact
  have herror : (optionValue Value.string result.error).write =
      PublicApi.optionJson Json.string result.error :=
    write_optionValue (fun _ => rfl) result.error
  have hdisplay : (optionValue executionArtifactValue result.displayArtifact).write =
      PublicApi.optionJson SizeBudgets.artifactJson result.displayArtifact :=
    write_optionValue (fun _ => rfl) result.displayArtifact
  rw [resultJson, ← hexit, ← hartifact, ← herror, ← hdisplay]
  rfl

theorem write_responseValue (response : RunnerExecutionResponse) :
    (responseValue response).write = responseJson response := by
  rw [responseJson, ← write_resultValue]
  rfl

theorem optionValue_injective {α : Type} {value : α → Value} (hnull : ∀ a, value a ≠ .null)
    (hinjective : ∀ a b, value a = value b → a = b) {a b : Option α}
    (h : optionValue value a = optionValue value b) : a = b := by
  cases a with
  | none =>
    cases b with
    | none => rfl
    | some b => exact absurd h.symm (hnull b)
  | some a =>
    cases b with
    | none => exact absurd h (hnull a)
    | some b => rw [hinjective a b h]

theorem ExecutionStatus.value_injective {a b : ExecutionStatus} (h : a.value = b.value) :
    a = b := by
  revert h
  cases a <;> cases b <;> decide

theorem executionArtifactValue_injective {a b : ExecutionArtifact}
    (h : executionArtifactValue a = executionArtifactValue b) : a = b := by
  obtain ⟨path, mediaType, data, _⟩ := a
  obtain ⟨path', mediaType', data', _⟩ := b
  simp only [executionArtifactValue, Value.object.injEq, List.cons.injEq, Prod.mk.injEq,
    Value.string.injEq, true_and, and_true] at h
  obtain ⟨rfl, hmedia, rfl⟩ := h
  obtain rfl := ProblemData.ImageMediaType.value_injective hmedia
  rfl

theorem resultValue_injective {a b : ResultFields} (h : resultValue a = resultValue b) : a = b := by
  -- an artifact is an object, so it is not taken for null
  have hartifact : ∀ {a b : Option ExecutionArtifact},
      optionValue executionArtifactValue a = optionValue executionArtifactValue b → a = b := by
    intro a b h
    refine optionValue_injective (fun artifact h => ?_) (fun a b h => ?_) h
    · cases h
    · exact executionArtifactValue_injective h
  obtain ⟨status, stdout, stderr, exitCode, timedOut, truncated, durationMs, artifact, error,
    displayArtifact⟩ := a
  obtain ⟨status', stdout', stderr', exitCode', timedOut', truncated', durationMs', artifact',
    error', displayArtifact'⟩ := b
  simp only [resultValue, Value.object.injEq, List.cons.injEq, Prod.mk.injEq,
    Value.string.injEq, Value.bool.injEq, Value.number.injEq, Json.Decimal.mk.injEq, true_and,
    and_true] at h
  obtain ⟨hstatus, rfl, rfl, hexit, rfl, rfl, rfl, ha, herror, hd⟩ := h
  obtain rfl := ExecutionStatus.value_injective hstatus
  obtain rfl : exitCode = exitCode' := by
    refine optionValue_injective (fun a h => ?_) (fun a b h => ?_) hexit
    · cases h
    · simpa using h
  obtain rfl := hartifact ha
  obtain rfl := hartifact hd
  obtain rfl : error = error' := by
    refine optionValue_injective (fun a h => ?_) (fun a b h => ?_) herror
    · cases h
    · simpa using h
  rfl

theorem requestJson_injective {a b : RunnerExecutionRequest} (h : requestJson a = requestJson b) :
    a = b := by
  rw [← write_requestValue, ← write_requestValue] at h
  have h := Json.write_injective h
  obtain ⟨⟨shellgei, problemId, _, _, _, _⟩, ⟨id, _, _⟩, ⟨revision, _, _⟩⟩ := a
  obtain ⟨⟨shellgei', problemId', _, _, _, _⟩, ⟨id', _, _⟩, ⟨revision', _, _⟩⟩ := b
  simp only [requestValue, Value.object.injEq, List.cons.injEq, Prod.mk.injEq,
    Value.string.injEq, true_and, and_true] at h
  obtain ⟨rfl, rfl, rfl, rfl⟩ := h
  rfl

theorem responseJson_injective {a b : RunnerExecutionResponse}
    (h : responseJson a = responseJson b) : a = b := by
  rw [← write_responseValue, ← write_responseValue] at h
  have h := Json.write_injective h
  obtain ⟨⟨id, _, _⟩, ⟨revision, _, _⟩, ⟨fields, _⟩⟩ := a
  obtain ⟨⟨id', _, _⟩, ⟨revision', _, _⟩, ⟨fields', _⟩⟩ := b
  simp only [responseValue, Value.object.injEq, List.cons.injEq, Prod.mk.injEq,
    Value.string.injEq, true_and, and_true] at h
  obtain ⟨rfl, rfl, hfields⟩ := h
  obtain rfl := resultValue_injective hfields
  rfl

/-! ### The backend -/

/-- The request ID of a text that matches. -/
def RequestId.ofText (text : Text) : Option RequestId :=
  if h : text.length = requestIdLength ∧ text.all isLowerHex = true then
    some ⟨text, h.1, List.all_eq_true.1 h.2⟩
  else none

theorem normalizeShellgei_idem (value : Text) :
    normalizeShellgei (normalizeShellgei value) = normalizeShellgei value := by
  rw [normalizeShellgei, normalizeShellgei, List.filter_filter]
  simp

/-- The validation of a command and a problem ID, of which the first validator
removes the carriage returns. -/
def ShellgeiData.build (shellgei problemId : Text) : Option ShellgeiData :=
  if h : (1 ≤ (normalizeShellgei shellgei).length ∧
      (normalizeShellgei shellgei).length ≤ maxShellgeiChars) ∧
      '\x00' ∉ normalizeShellgei shellgei ∧ validateProblemId problemId = .ok problemId then
    some ⟨normalizeShellgei shellgei, problemId, normalizeShellgei_idem shellgei, h.1, h.2.1, h.2.2⟩
  else none

/-- The construction of a `RunnerExecutionRequest`. -/
def buildRequest (requestId : Text) (problemRevision : ProblemRevision)
    (shellgei problemId : Text) : Option RunnerExecutionRequest := do
  let requestId ← RequestId.ofText requestId
  let data ← ShellgeiData.build shellgei problemId
  return { toShellgeiData := data, requestId, problemRevision }

/-- `model_validate_json` of the two messages: what it returns for a dump of a
message is that message. -/
structure Validators where
  request : Bytes → Option RunnerExecutionRequest
  response : Bytes → Option RunnerExecutionResponse
  request_dump : ∀ sent received, request (encode (requestJson sent)) = some received →
    received = sent
  response_dump : ∀ sent received, response (encode (responseJson sent)) = some received →
    received = sent

/-- What the opener of a call comes to. -/
inductive Reply
  | response (body : Bytes)
  | httpError (code : ℕ)
  | osError
  /-- an exception that no handler of the worker names -/
  | otherException

/-- A response that a call has accepted, with the bytes it came in. -/
structure Accepted where
  body : Bytes
  response : RunnerExecutionResponse

/-- How a call ends otherwise. -/
inductive Exc
  | runner (error : RunnerError)
  /-- the log event refused the request ID -/
  | validationError

/-- What `_execute_sync` does with the reply; it returns the result of the
response that it accepts. -/
def receive (validators : Validators) (problemRevision : ProblemRevision) (requestId : Text) :
    Reply → Except Exc Accepted
  | .httpError code =>
    if code = 429 then .error (.runner .busy) else .error (.runner .unavailable)
  | .osError => .error (.runner .unavailable)
  | .otherException => .error (.runner .unavailable)
  | .response body =>
    let body := body.take (runnerResponseLimitBytes + 1)
    if runnerResponseLimitBytes < body.length then .error (.runner .unavailable)
    else
      match validators.response body with
      | none => .error (.runner .unavailable)
      | some response =>
        if response.problemRevision ≠ problemRevision then .error (.runner .unavailable)
        else if response.requestId.text ≠ requestId then .error (.runner .unavailable)
        else .ok ⟨body, response⟩

/-- A call of `execute` under its request ID. -/
structure Call where
  shellgei : Text
  problemId : Text
  requestId : Text
  /-- the request, when it has been built and sent -/
  request : Option RunnerExecutionRequest
  /-- what it has returned or raised -/
  outcome : Option (Except Exc Accepted)

/-- `_execute_sync` up to the reply: the secret, the revision and the request. -/
def beginExecute (backend : LoadedRepository) (configured : Bool)
    (shellgei problemId requestId : Text) : Call :=
  let call : Call := { shellgei, problemId, requestId, request := none, outcome := none }
  if configured = false then { call with outcome := some (.error (.runner .configuration)) }
  else
    match buildRequest requestId backend.revision shellgei problemId with
    | some request => { call with request := some request }
    | none =>
      -- `execute` logs the failure, and the event has the same request ID
      if RequestId.ofText requestId = none then
        { call with outcome := some (.error .validationError) }
      else { call with outcome := some (.error (.runner .unavailable)) }

/-! ### The runner -/

/-- The checks of `execute_shellgei` before the execution, with the answer of the
rate limiter: the record of the problem, or the status of the error. -/
def acceptRequest (repository : LoadedRepository) (acquired : Bool)
    (request : RunnerExecutionRequest) :
    Except ℕ ProblemRecord :=
  if request.problemRevision ≠ repository.revision then .error 409
  else
    match repository.get request.problemId with
    | none => .error 404
    | some record => if acquired then .ok record else .error 429

/-- How `run_with_timeout` ends when it returns. -/
inductive RunOutcome
  | executed (faults : SandboxExecutor.Faults)
  | cleanupTimedOut
  | failed (message : Text)

/-- `run_with_timeout` -/
def runWithTimeout (describe : List ErrorAt → Text) (repository : LoadedRepository)
    (outcome : RunOutcome) (shellgei problemId : Text) : Except (List ErrorAt) ExecutionResult :=
  match outcome with
  | .executed faults =>
    ExecShellgei.execShellgei describe repository.records faults shellgei problemId
      maxCapturedOutputChars
  | .cleanupTimedOut => ExecShellgei.errorResult "sandbox cleanup timed out".toList
  | .failed message => ExecShellgei.errorResult ("run with timeout: ".toList ++ message)

/-- The response that `execute_shellgei` returns. -/
def respond (repository : LoadedRepository) (request : RunnerExecutionRequest)
    (result : ExecutionResult) : RunnerExecutionResponse where
  requestId := request.requestId
  problemRevision := repository.revision
  result := result

/-- A request that the runner executes, with the record of its problem. -/
structure Run where
  request : RunnerExecutionRequest
  record : ProblemRecord
  response : Option RunnerExecutionResponse

/-! ### The system -/

/-- The calls of the backend and the executions of the runner. -/
structure State where
  calls : List Call
  runs : List Run

/-- What the two processes are fixed to. -/
structure System where
  validators : Validators
  describe : List ErrorAt → Text
  backend : LoadedRepository
  runner : LoadedRepository

/-- One of the processes goes on with a call or an execution, in any order. -/
inductive Step (sys : System) : State → State → Prop
  /-- a call starts, and sends its request -/
  | execute (calls : List Call) (runs : List Run) (configured : Bool)
      (shellgei problemId requestId : Text) :
      Step sys ⟨calls, runs⟩
        ⟨calls ++ [beginExecute sys.backend configured shellgei problemId requestId], runs⟩
  /-- the runner gets a request that was sent, and executes it -/
  | request {calls : List Call} (runs : List Run) {call : Call}
      {sent received : RunnerExecutionRequest} {acquired : Bool} {record : ProblemRecord}
      (hcall : call ∈ calls) (hsent : call.request = some sent)
      (hreceived : sys.validators.request (encode (requestJson sent)) = some received)
      (haccept : acceptRequest sys.runner acquired received = .ok record) :
      Step sys ⟨calls, runs⟩ ⟨calls, runs ++ [⟨received, record, none⟩]⟩
  /-- the runner responds to a request -/
  | respond (calls : List Call) (before after : List Run) {run : Run} (outcome : RunOutcome)
      {result : ExecutionResult} (hrunning : run.response = none)
      (hresult : runWithTimeout sys.describe sys.runner outcome run.request.shellgei
        run.request.problemId = .ok result) :
      Step sys ⟨calls, before ++ run :: after⟩
        ⟨calls, before ++ { run with response := some (respond sys.runner run.request result) } ::
          after⟩
  /-- a call that waits gets a reply, whatever the network makes of it -/
  | reply (before after : List Call) (runs : List Run) {call : Call} (reply : Reply)
      (hsent : call.request.isSome) (hwaiting : call.outcome = none) :
      Step sys ⟨before ++ call :: after, runs⟩
        ⟨before ++ { call with
          outcome := some (receive sys.validators sys.backend.revision call.requestId reply) } ::
          after, runs⟩

/-- No call, no execution. -/
def State.initial : State := ⟨[], []⟩

/-- Some steps lead there from the beginning. -/
def Reachable (sys : System) : State → Prop := Relation.ReflTransGen (Step sys) .initial

variable {sys : System}

/-! ### What the checks keep -/

/-- A call has built its request from its arguments, and checked the response
that it has accepted. -/
structure CallInv (sys : System) (call : Call) : Prop where
  request : ∀ request, call.request = some request →
    buildRequest call.requestId sys.backend.revision call.shellgei call.problemId = some request
  accepted : ∀ accepted, call.outcome = some (.ok accepted) →
    sys.validators.response accepted.body = some accepted.response ∧
      accepted.response.problemRevision = sys.backend.revision ∧
      accepted.response.requestId.text = call.requestId

/-- The runner executes requests of the backend for its own problem data. -/
structure RunInv (sys : System) (calls : List Call) (run : Run) : Prop where
  sent : ∃ call ∈ calls, call.request = some run.request
  revision : run.request.problemRevision = sys.runner.revision
  record : sys.runner.get run.request.problemId = some run.record
  response : ∀ response, run.response = some response →
    ∃ outcome result, runWithTimeout sys.describe sys.runner outcome run.request.shellgei
      run.request.problemId = .ok result ∧ response = respond sys.runner run.request result

/-- What each call and each execution knows of the other side. -/
structure Inv (sys : System) (s : State) : Prop where
  calls : ∀ call ∈ s.calls, CallInv sys call
  runs : ∀ run ∈ s.runs, RunInv sys s.calls run

/-- A call that has sent nothing. -/
theorem CallInv.of_error {call : Call} {exc : Exc} (hrequest : call.request = none)
    (houtcome : call.outcome = some (.error exc)) : CallInv sys call := by
  constructor
  · intro request h
    rw [hrequest] at h
    cases h
  · intro accepted h
    rw [houtcome] at h
    cases h

theorem beginExecute_inv (configured : Bool) (shellgei problemId requestId : Text) :
    CallInv sys (beginExecute sys.backend configured shellgei problemId requestId) := by
  rw [beginExecute]
  by_cases hconfigured : configured = false
  · rw [if_pos hconfigured]
    exact .of_error rfl rfl
  rw [if_neg hconfigured]
  split
  · next request hrequest =>
    constructor
    · intro request' h
      obtain rfl := Option.some.inj h
      exact hrequest
    · intro accepted h
      cases h
  · split
    · exact .of_error rfl rfl
    · exact .of_error rfl rfl

theorem receive_eq_ok {validators : Validators} {problemRevision : ProblemRevision}
    {requestId : Text} {reply : Reply} {accepted : Accepted}
    (h : receive validators problemRevision requestId reply = .ok accepted) :
    validators.response accepted.body = some accepted.response ∧
      accepted.response.problemRevision = problemRevision ∧
      accepted.response.requestId.text = requestId := by
  cases reply with
  | httpError code =>
    rw [receive] at h
    split at h <;> cases h
  | osError => cases h
  | otherException => cases h
  | response body =>
    simp only [receive] at h
    split at h
    · cases h
    split at h
    · cases h
    next response hresponse =>
    split at h
    · cases h
    next hrevision =>
    split at h
    · cases h
    next hid =>
    cases h
    exact ⟨hresponse, not_not.1 hrevision, not_not.1 hid⟩

/-- A response in time, of the right size, that carries the right names. -/
theorem receive_ok {validators : Validators} {problemRevision : ProblemRevision}
    {requestId : Text} {body : Bytes} {response : RunnerExecutionResponse}
    (hsize : body.length ≤ runnerResponseLimitBytes)
    (hresponse : validators.response body = some response)
    (hrevision : response.problemRevision = problemRevision)
    (hid : response.requestId.text = requestId) :
    receive validators problemRevision requestId (.response body) = .ok ⟨body, response⟩ := by
  have htake : body.take (runnerResponseLimitBytes + 1) = body :=
    List.take_of_length_le (Nat.le_succ_of_le hsize)
  simp only [receive, htake, if_neg (Nat.not_lt.2 hsize), hresponse]
  rw [if_neg (not_not.2 hrevision), if_neg (not_not.2 hid)]

theorem acceptRequest_eq_ok {repository : LoadedRepository} {acquired : Bool}
    {request : RunnerExecutionRequest} {record : ProblemRecord}
    (h : acceptRequest repository acquired request = .ok record) :
    request.problemRevision = repository.revision ∧
      repository.get request.problemId = some record := by
  rw [acceptRequest] at h
  split at h
  · cases h
  next hrevision =>
  split at h
  · cases h
  next found hfound =>
  split at h
  · cases h
    exact ⟨not_not.1 hrevision, hfound⟩
  · cases h

/-- A run stays in order when the calls keep their requests. -/
theorem RunInv.mono {calls calls' : List Call} {run : Run} (h : RunInv sys calls run)
    (hcalls : ∀ call ∈ calls, ∃ call' ∈ calls', call'.request = call.request) :
    RunInv sys calls' run := by
  obtain ⟨call, hmem, hrequest⟩ := h.sent
  obtain ⟨call', hmem', heq⟩ := hcalls call hmem
  exact ⟨⟨call', hmem', heq.trans hrequest⟩, h.revision, h.record, h.response⟩

theorem Inv.step {s s' : State} (h : Inv sys s) (hstep : Step sys s s') : Inv sys s' := by
  obtain ⟨hcalls, hruns⟩ := h
  cases hstep with
  | execute calls runs configured shellgei problemId requestId =>
    constructor
    · intro call hcall
      rcases List.mem_append.1 hcall with hcall | hcall
      · exact hcalls call hcall
      · obtain rfl := List.mem_singleton.1 hcall
        exact beginExecute_inv configured shellgei problemId requestId
    · intro run hrun
      refine (hruns run hrun).mono fun call hcall => ?_
      exact ⟨call, List.mem_append_left _ hcall, rfl⟩
  | @request calls runs call sent received acquired record hcall hsent hreceived haccept =>
    refine ⟨hcalls, fun run hrun => ?_⟩
    rcases List.mem_append.1 hrun with hrun | hrun
    · exact hruns run hrun
    · obtain rfl := List.mem_singleton.1 hrun
      -- what is read is what was sent
      obtain rfl := sys.validators.request_dump sent received hreceived
      obtain ⟨hrevision, hrecord⟩ := acceptRequest_eq_ok haccept
      exact ⟨⟨call, hcall, hsent⟩, hrevision, hrecord, fun _ h => (by cases h)⟩
  | @respond calls before after run outcome result hrunning hresult =>
    refine ⟨hcalls, fun run' hrun' => ?_⟩
    rcases List.mem_append.1 hrun' with hrun' | hrun'
    · exact hruns run' (List.mem_append_left _ hrun')
    rcases List.mem_cons.1 hrun' with rfl | hrun'
    · have hrun := hruns run (List.mem_append_right _ List.mem_cons_self)
      refine ⟨hrun.sent, hrun.revision, hrun.record, fun response hresponse => ?_⟩
      exact ⟨outcome, result, hresult, (Option.some.inj hresponse).symm⟩
    · exact hruns run' (List.mem_append_right _ (List.mem_cons_of_mem _ hrun'))
  | @reply before after runs call reply hsent hwaiting =>
    have hcall := hcalls call (List.mem_append_right _ List.mem_cons_self)
    constructor
    · intro call' hcall'
      rcases List.mem_append.1 hcall' with hcall' | hcall'
      · exact hcalls call' (List.mem_append_left _ hcall')
      rcases List.mem_cons.1 hcall' with rfl | hcall'
      · refine ⟨hcall.request, fun accepted haccepted => ?_⟩
        exact receive_eq_ok (Option.some.inj haccepted)
      · exact hcalls call' (List.mem_append_right _ (List.mem_cons_of_mem _ hcall'))
    · intro run hrun
      refine (hruns run hrun).mono fun call' hcall' => ?_
      rcases List.mem_append.1 hcall' with hcall' | hcall'
      · exact ⟨call', List.mem_append_left _ hcall', rfl⟩
      rcases List.mem_cons.1 hcall' with rfl | hcall'
      · -- the call that got the reply keeps its request
        exact ⟨_, List.mem_append_right _ List.mem_cons_self, rfl⟩
      · exact ⟨call', List.mem_append_right _ (List.mem_cons_of_mem _ hcall'), rfl⟩

theorem inv_of_reachable {s : State} (h : Reachable sys s) : Inv sys s := by
  induction h with
  | refl => exact ⟨fun _ hcall => (by cases hcall), fun _ hrun => (by cases hrun)⟩
  | tail _ hstep ih => exact ih.step hstep

/-! ### Agreement -/

theorem RequestId.ofText_text {text : Text} {requestId : RequestId}
    (h : RequestId.ofText text = some requestId) : requestId.text = text := by
  rw [RequestId.ofText] at h
  split at h
  · rw [← Option.some.inj h]
  · cases h

theorem ShellgeiData.build_eq_some {shellgei problemId : Text} {data : ShellgeiData}
    (h : ShellgeiData.build shellgei problemId = some data) :
    data.shellgei = normalizeShellgei shellgei ∧ data.problemId = problemId := by
  rw [ShellgeiData.build] at h
  split at h
  · rw [← Option.some.inj h]
    exact ⟨rfl, rfl⟩
  · cases h

theorem buildRequest_eq_some {requestId : Text} {problemRevision : ProblemRevision}
    {shellgei problemId : Text} {request : RunnerExecutionRequest}
    (h : buildRequest requestId problemRevision shellgei problemId = some request) :
    request.requestId.text = requestId ∧ request.problemRevision = problemRevision ∧
      request.shellgei = normalizeShellgei shellgei ∧ request.problemId = problemId := by
  obtain ⟨id, hid, h⟩ := Option.bind_eq_some_iff.1 h
  obtain ⟨data, hdata, h⟩ := Option.bind_eq_some_iff.1 h
  obtain rfl := Option.some.inj h
  exact ⟨RequestId.ofText_text hid, rfl, ShellgeiData.build_eq_some hdata⟩

/-- A result that is returned is from the response to the request of the call.
The runner has executed the command of the call, and, when request IDs are
distinct and SHA-256 tells the data of the processes apart, on the very record
of the backend. -/
theorem agreement {s : State} (h : Reachable sys s) {call : Call} (hcall : call ∈ s.calls)
    {accepted : Accepted} (hreturned : call.outcome = some (.ok accepted)) :
    accepted.response.requestId.text = call.requestId ∧
    accepted.response.problemRevision = sys.backend.revision ∧
    ∀ run ∈ s.runs, ∀ response, run.response = some response →
      accepted.body = encode (responseJson response) →
      run.request.requestId.text = call.requestId ∧
      sys.runner.revision = sys.backend.revision ∧
      (∃ outcome, runWithTimeout sys.describe sys.runner outcome run.request.shellgei
        run.request.problemId = .ok accepted.response.result) ∧
      ((s.calls.map (·.requestId)).Nodup →
        run.request.shellgei = normalizeShellgei call.shellgei ∧
        (normalizeShellgei call.shellgei = call.shellgei → run.request.shellgei = call.shellgei) ∧
        run.request.problemId = call.problemId ∧
        (CollisionFree sys.backend sys.runner →
          sys.backend.get call.problemId = some run.record)) := by
  have hinv := inv_of_reachable h
  obtain ⟨hresponse, hrevision, hid⟩ := (hinv.calls call hcall).accepted accepted hreturned
  refine ⟨hid, hrevision, fun run hrun response hproduced hbody => ?_⟩
  have hruninv := hinv.runs run hrun
  obtain ⟨outcome, result, hresult, rfl⟩ := hruninv.response response hproduced
  -- the accepted response is the one of this run
  rw [hbody] at hresponse
  have haccepted := sys.validators.response_dump _ _ hresponse
  rw [haccepted] at hid hrevision ⊢
  have hrunid : run.request.requestId.text = call.requestId := hid
  refine ⟨hrunid, hrevision, ⟨outcome, hresult⟩, fun hdistinct => ?_⟩
  -- and its request is the one of this call
  obtain ⟨sender, hsender, hsent⟩ := hruninv.sent
  have hbuild := (hinv.calls sender hsender).request _ hsent
  obtain ⟨hsenderid, -, -, -⟩ := buildRequest_eq_some hbuild
  obtain rfl : sender = call :=
    List.inj_on_of_nodup_map hdistinct hsender hcall (hsenderid.symm.trans hrunid)
  obtain ⟨-, -, hshellgei, hproblem⟩ := buildRequest_eq_some hbuild
  refine ⟨hshellgei, fun hnormal => hshellgei.trans hnormal, hproblem, fun hfree => ?_⟩
  rw [← hproblem, get_eq_of_revision hfree hrevision.symm]
  exact hruninv.record

/-! A call whose command prints `hi`. -/

/-- A repository of one problem. -/
def helloRepository : LoadedRepository where
  records := [silentProblem]
  revision := calculateProblemRevision [silentProblem]
  nodup := List.nodup_singleton _
  revision_eq := rfl

/-- A request for this problem. -/
def helloRequest : RunnerExecutionRequest where
  shellgei := "printf hi".toList
  problemId := "STANDARD-1".toList
  normalized := by rfl
  length_valid := by decide
  no_nul := by decide
  problem_id_valid := standard_one_valid
  requestId := SizeBudgets.zeroId
  problemRevision := helloRepository.revision

/-- The result of a command that prints `hi`. -/
def printedHi : ExecutionResult where
  status := .completed
  stdout := "hi".toList
  stderr := []
  exitCode := some 0
  timedOut := false
  truncated := false
  durationMs := 5
  artifact := none
  error := none
  displayArtifact := none
  valid := by rfl

/-- The response to the request. -/
def helloResponse : RunnerExecutionResponse := respond helloRepository helloRequest printedHi

/-- Validators that know the two messages. -/
def helloValidators : Validators where
  request body := if body = encode (requestJson helloRequest) then some helloRequest else none
  response body := if body = encode (responseJson helloResponse) then some helloResponse else none
  request_dump sent received h := by
    obtain ⟨heq, h⟩ := Option.ite_none_right_eq_some.1 h
    rw [← Option.some.inj h, requestJson_injective (encode_injective heq)]
  response_dump sent received h := by
    obtain ⟨heq, h⟩ := Option.ite_none_right_eq_some.1 h
    rw [← Option.some.inj h, responseJson_injective (encode_injective heq)]

/-- Both processes have the repository. -/
def helloSystem : System where
  validators := helloValidators
  describe _ := []
  backend := helloRepository
  runner := helloRepository

/-- The call of the backend. -/
def helloCall (outcome : Option (Except Exc Accepted)) : Call where
  shellgei := "printf hi".toList
  problemId := "STANDARD-1".toList
  requestId := SizeBudgets.zeroId.text
  request := some helloRequest
  outcome := outcome

/-- What the client reads of the response. -/
def helloAccepted : Accepted := ⟨encode (responseJson helloResponse), helloResponse⟩

/-- What the sandbox has captured. -/
def helloOutcome : SandboxExecutor.SandboxExecutionOutcome where
  status := .completed
  stdout := [104, 105]
  stderr := []
  exitCode := some 0
  timedOut := false
  truncated := false
  durationMs := 5
  artifact := none
  error := none
  displayArtifact := none

theorem receive_hello : receive helloValidators helloRepository.revision SizeBudgets.zeroId.text
    (.response (encode (responseJson helloResponse))) = .ok helloAccepted := by
  have hproduced : SizeBudgets.Produced printedHi :=
    .inl ⟨helloOutcome, silentProblem, 1000, by rfl⟩
  have hexit : ∀ n ∈ printedHi.exitCode, SizeBudgets.Int64 n := by
    intro n hn
    obtain rfl := Option.some.inj hn
    exact ⟨by decide, by decide⟩
  refine receive_ok (SizeBudgets.response_fits hproduced ⟨hexit, ⟨by decide, by decide⟩⟩) ?_ rfl rfl
  simp only [helloValidators, if_true]

theorem acceptRequest_hello :
    acceptRequest helloRepository true helloRequest = .ok silentProblem := by
  have hget : helloRepository.get helloRequest.problemId = some silentProblem := by rfl
  have hrevision : helloRequest.problemRevision = helloRepository.revision := rfl
  rw [acceptRequest, if_neg (not_not.2 hrevision), hget]
  rfl

theorem reachable_hello : Reachable helloSystem
    ⟨[helloCall (some (.ok helloAccepted))],
      [⟨helloRequest, silentProblem, some helloResponse⟩]⟩ := by
  have hexecute : Step helloSystem .initial ⟨[helloCall none], []⟩ :=
    .execute [] [] true "printf hi".toList "STANDARD-1".toList SizeBudgets.zeroId.text
  have hrequest : Step helloSystem ⟨[helloCall none], []⟩
      ⟨[helloCall none], [⟨helloRequest, silentProblem, none⟩]⟩ := by
    refine .request [] List.mem_cons_self rfl ?_ acceptRequest_hello
    show helloValidators.request (encode (requestJson helloRequest)) = some helloRequest
    simp only [helloValidators, if_true]
  have hrespond : Step helloSystem ⟨[helloCall none], [⟨helloRequest, silentProblem, none⟩]⟩
      ⟨[helloCall none], [⟨helloRequest, silentProblem, some helloResponse⟩]⟩ :=
    .respond _ [] [] (.executed ExecShellgei.printsHi) rfl (by rfl)
  have hreply := @Step.reply helloSystem [] [] [⟨helloRequest, silentProblem, some helloResponse⟩]
    (helloCall none) (.response (encode (responseJson helloResponse))) rfl rfl
  have haccepted : receive helloSystem.validators helloSystem.backend.revision
      (helloCall none).requestId (.response (encode (responseJson helloResponse))) =
      .ok helloAccepted := receive_hello
  rw [haccepted] at hreply
  exact (((Relation.ReflTransGen.single hexecute).tail hrequest).tail hrespond).tail hreply

theorem collisionFree_hello : CollisionFree helloRepository helloRepository := by
  have hne : Sha256.hexdigest (canonicalPayload [silentProblem]) ≠ Sha256.hexdigest [] := by
    decide +kernel
  intro x hx y hy heq
  have hhashed : hashed helloRepository.records = [canonicalPayload [silentProblem], []] := rfl
  rw [hhashed, List.mem_cons, List.mem_singleton] at hx hy
  rcases hx with rfl | rfl
  · rcases hy with rfl | rfl
    · rfl
    · exact absurd heq hne
  · rcases hy with rfl | rfl
    · exact absurd heq.symm hne
    · rfl

/-- The runner has executed the command on the record of the backend. -/
theorem agreement_hello : helloResponse.problemRevision = helloRepository.revision ∧
    helloRequest.shellgei = "printf hi".toList ∧
    helloRepository.get "STANDARD-1".toList = some silentProblem := by
  obtain ⟨-, hrevision, hruns⟩ := agreement reachable_hello List.mem_cons_self rfl
  obtain ⟨-, -, -, hdistinct⟩ := hruns _ List.mem_cons_self helloResponse rfl rfl
  obtain ⟨-, hshellgei, -, hrecord⟩ := hdistinct (List.nodup_singleton _)
  exact ⟨hrevision, hshellgei (by decide), hrecord collisionFree_hello⟩

end RunnerAgreement
