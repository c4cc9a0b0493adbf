/-
The size budgets along the path of a request: the JSON of the messages between
the backend and the runner, and the limits on its bytes.

* `request_fits` — the runner reads every request that the backend builds;
* `response_fits` — the client reads every response with a result of the runner;
* `budgets_close` — both, and the response to such a result.
-/
import ShellgeiOnlineJudge.ExecShellgei
import ShellgeiOnlineJudge.PublicApi
import ShellgeiOnlineJudge.RunnerHttpSecurity
import ShellgeiOnlineJudge.RunnerProtocol

namespace SizeBudgets

open Utf8 Problem Execution RunnerProtocol PublicApi Submission

/-- `RUNNER_PROTOCOL_VERSION` -/
def runnerProtocolVersion : ℤ := 4

/-- `RUNNER_RESPONSE_LIMIT_BYTES` of soj_backend/runner_client.py -/
def runnerResponseLimitBytes : ℕ := 1_100_000

/-! ### The messages as JSON -/

/-- The JSON of a `RunnerExecutionRequest`. -/
def requestJson (request : RunnerExecutionRequest) : Text :=
  Json.object
    [("shellgei".toList, Json.string request.shellgei),
      ("problem_id".toList, Json.string request.problemId),
      ("protocol_version".toList, Json.int runnerProtocolVersion),
      ("request_id".toList, Json.string request.requestId.text),
      ("problem_revision".toList, Json.string request.problemRevision.text)]

/-- The JSON of an artifact. -/
def artifactJson (artifact : ExecutionArtifact) : Text :=
  Json.object
    [("path".toList, Json.string artifact.path),
      ("media_type".toList, Json.string artifact.mediaType.value),
      ("data".toList, Json.string artifact.data)]

/-- The JSON of a result. -/
def resultJson (result : ResultFields) : Text :=
  Json.object
    [("status".toList, Json.string result.status.value),
      ("stdout".toList, Json.string result.stdout),
      ("stderr".toList, Json.string result.stderr),
      ("exit_code".toList, optionJson Json.int result.exitCode),
      ("timed_out".toList, Json.bool result.timedOut),
      ("truncated".toList, Json.bool result.truncated),
      ("duration_ms".toList, Json.int result.durationMs),
      ("artifact".toList, optionJson artifactJson result.artifact),
      ("error".toList, optionJson Json.string result.error),
      ("display_artifact".toList, optionJson artifactJson result.displayArtifact)]

/-- The JSON of a `RunnerExecutionResponse`. -/
def responseJson (response : RunnerExecutionResponse) : Text :=
  Json.object
    [("protocol_version".toList, Json.int runnerProtocolVersion),
      ("request_id".toList, Json.string response.requestId.text),
      ("problem_revision".toList, Json.string response.problemRevision.text),
      ("result".toList, resultJson response.result.toResultFields)]

/-! ### Requests -/

theorem plain_of_isLowerHex {c : Char} (h : isLowerHex c = true) : Json.Plain c := by
  refine plain_of_isBase64Char ?_
  simp only [isLowerHex, Bool.or_eq_true, Bool.and_eq_true, decide_eq_true_eq] at h
  simp only [isBase64Char, isAlphanumeric, Bool.or_eq_true, Bool.and_eq_true, decide_eq_true_eq]
  rcases h with hnumber | ⟨hlow, hhigh⟩
  · exact .inl (.inl (.inr hnumber))
  · exact .inl (.inl (.inl (.inr ⟨hlow, Char.le_trans hhigh (by decide)⟩)))

theorem size_hex {text : Text} (h : ∀ c ∈ text, isLowerHex c = true) :
    Json.size (Json.string text) = text.length + 2 :=
  Json.size_string_of_plain fun c hc => plain_of_isLowerHex (h c hc)

theorem length_problemId_le {problemId : Text} (h : validateProblemId problemId = .ok problemId) :
    problemId.length ≤ maxProblemIdChars := by
  rw [validateProblemId] at h
  by_cases hlength : 1 ≤ problemId.length ∧ problemId.length ≤ maxProblemIdChars
  · exact hlength.2
  · rw [if_pos hlength] at h
    cases h

/-- Six bytes for each character of the command leave room for the rest. -/
theorem size_requestJson_le (request : RunnerExecutionRequest) :
    Json.size (requestJson request) ≤ 7_000 := by
  have hshellgei := Json.size_string_le request.shellgei
  have hcommand := request.length_valid.2
  have hproblem := Json.size_string_le request.problemId
  have hid := length_problemId_le request.problem_id_valid
  have hversion : Json.size (Json.int runnerProtocolVersion) = 1 := by decide
  have hrequest := size_hex request.requestId.hex
  have hrevision := size_hex request.problemRevision.hex
  rw [request.requestId.length_eq, requestIdLength] at hrequest
  rw [request.problemRevision.length_eq, problemRevisionLength] at hrevision
  unfold maxShellgeiChars at hcommand
  unfold maxProblemIdChars at hid
  refine Nat.le_trans (Json.size_object_le _) ?_
  simp only [List.map_cons, List.map_nil, List.sum_cons, List.sum_nil]
  have hkeys : Json.size (Json.string "shellgei".toList) = 10 ∧
      Json.size (Json.string "problem_id".toList) = 12 ∧
      Json.size (Json.string "protocol_version".toList) = 18 ∧
      Json.size (Json.string "request_id".toList) = 12 ∧
      Json.size (Json.string "problem_revision".toList) = 18 := by decide
  omega

/-- A request as the runner gets it: any number of messages before the last one. -/
def bodyMessages (chunks : List Bytes) (last : Bytes) : List RunnerHttpSecurity.Message :=
  chunks.map (fun chunk => .request chunk true) ++ [.request last false]

/-- A body within the limit is read to its end, in whatever pieces it comes. -/
theorem readBoundedBody_bodyMessages {body : Bytes} {chunks : List Bytes} {last : Bytes}
    (h : (body ++ chunks.flatten ++ last).length ≤
      RunnerHttpSecurity.runnerRequestBodyLimitBytes) :
    RunnerHttpSecurity.readBoundedBody body (bodyMessages chunks last) =
      .body (body ++ chunks.flatten ++ last) none [] := by
  induction chunks generalizing body with
  | nil =>
    simp only [List.flatten_nil, List.append_nil] at h ⊢
    exact if_neg (Nat.not_lt.2 h)
  | cons chunk rest ih =>
    rw [List.flatten_cons, ← List.append_assoc] at h ⊢
    have hchunk : ¬ (body ++ chunk).length > RunnerHttpSecurity.runnerRequestBodyLimitBytes := by
      rw [List.length_append, List.length_append] at h
      omega
    refine Eq.trans ?_ (ih h)
    show (if _ then _ else _) = _
    rw [if_neg hchunk]
    rfl

/-- The runner reads the body of every request that the backend builds. -/
theorem request_fits (request : RunnerExecutionRequest) :
    (encode (requestJson request)).length ≤ RunnerHttpSecurity.runnerRequestBodyLimitBytes ∧
    ∀ chunks last, chunks.flatten ++ last = encode (requestJson request) →
      RunnerHttpSecurity.readBoundedBody [] (bodyMessages chunks last) =
        .body (encode (requestJson request)) none [] := by
  have hsize : (encode (requestJson request)).length ≤
      RunnerHttpSecurity.runnerRequestBodyLimitBytes :=
    Nat.le_trans (size_requestJson_le request) (by decide)
  refine ⟨hsize, ?_⟩
  intro chunks last hbody
  have hread := @readBoundedBody_bodyMessages [] chunks last
    (by rw [List.nil_append, hbody]; exact hsize)
  rw [List.nil_append, hbody] at hread
  exact hread

/-! ### Results of the runner -/

/-- The result comes from `_to_execution_result` or from `_error_result`. -/
def Produced (result : ExecutionResult) : Prop :=
  (∃ outcome record limitChars, ExecShellgei.toExecutionResult outcome record limitChars =
    .ok result) ∨
  ∃ message durationMs, ExecShellgei.errorResult message durationMs = .ok result

/-- The integers of a result fit in 64 bits. -/
structure Int64 (n : ℤ) : Prop where
  lower : -2 ^ 63 ≤ n
  upper : n < 2 ^ 63

/-- The exit code and the duration fit in 64 bits. -/
structure Integers64 (result : ResultFields) : Prop where
  exit_code : ∀ n ∈ result.exitCode, Int64 n
  duration_ms : Int64 result.durationMs

theorem length_digits_le {n : ℤ} (h : Int64 n) : (Json.digits n).length ≤ 20 := by
  have hlower := h.lower
  have hupper := h.upper
  refine (Nat.length_toDigits_le_iff (by decide) (by decide)).2 ?_
  have hpow : (10 : ℕ) ^ 20 = 100000000000000000000 := by decide
  rw [hpow]
  omega

theorem size_int64_le {n : ℤ} (h : Int64 n) : Json.size (Json.int n) ≤ 21 := by
  have := Json.size_int_le n
  have := length_digits_le h
  omega

theorem plain_of_mem_encode {bytes : Bytes} {c : Char} (h : c ∈ Base64.encode bytes) :
    Json.Plain c := by
  obtain ⟨⟨digits, pads, hdata, hdigits, -⟩, -⟩ := Base64.decode_shape (Base64.decode_encode bytes)
  rw [hdata, List.mem_append] at h
  rcases h with h | h
  · exact plain_of_isBase64Char (isBase64Char_of_isDigit (hdigits c h))
  · rw [List.eq_of_mem_replicate h]
    exact ⟨by decide, by decide, by decide, by decide⟩

theorem data_of_resultArtifact {status : ExecutionStatus} {judge : JudgeSpecification}
    {payload : Option Bytes} {artifact : ExecutionArtifact}
    (h : ExecShellgei.resultArtifact status judge payload = .ok (some artifact)) :
    ∃ bytes, artifact.data = Base64.encode bytes := by
  unfold ExecShellgei.resultArtifact at h
  split at h
  · next specification bytes =>
    obtain ⟨built, hbuild, h⟩ := bind_eq_ok.1 h
    obtain rfl := Option.some.inj (Except.ok.inj h)
    exact ⟨bytes, ExecutionArtifact.data_of_build hbuild⟩
  · cases h

theorem data_of_resultDisplayArtifact {status : ExecutionStatus} {payload : Option Bytes}
    {artifact : ExecutionArtifact}
    (h : ExecShellgei.resultDisplayArtifact status payload = .ok (some artifact)) :
    ∃ bytes, artifact.data = Base64.encode bytes := by
  unfold ExecShellgei.resultDisplayArtifact at h
  split at h
  · next bytes =>
    obtain ⟨built, hbuild, h⟩ := bind_eq_ok.1 h
    obtain rfl := Option.some.inj (Except.ok.inj h)
    exact ⟨bytes, ExecutionArtifact.data_of_build hbuild⟩
  · cases h

/-- The artifacts of a result of the runner are Base64. -/
theorem Produced.encoded {result : ExecutionResult} (h : Produced result) :
    ∀ artifact ∈ result.artifacts, ∃ bytes, artifact.data = Base64.encode bytes := by
  rcases h with ⟨outcome, record, limitChars, h⟩ | ⟨message, durationMs, h⟩
  · obtain ⟨artifact, hartifact, h⟩ := bind_eq_ok.1 h
    obtain ⟨displayArtifact, hdisplay, h⟩ := bind_eq_ok.1 h
    have hfields := ExecutionResult.fields_of_build h
    intro a ha
    rw [hfields] at ha
    rcases List.mem_append.1 ha with ha | ha
    · rw [Option.mem_toList] at ha
      exact data_of_resultArtifact (hartifact.trans (congrArg Except.ok ha))
    · rw [Option.mem_toList] at ha
      exact data_of_resultDisplayArtifact (hdisplay.trans (congrArg Except.ok ha))
  · have hfields := ExecutionResult.fields_of_build h
    intro a ha
    rw [hfields] at ha
    cases ha

/-! ### Responses of the runner -/

/-- An artifact takes its data, and six bytes for each character of its path. -/
theorem size_artifactJson_le {artifact : ExecutionArtifact} {bytes : Bytes}
    (h : artifact.data = Base64.encode bytes) :
    Json.size (artifactJson artifact) ≤ artifact.data.length + 1_600 := by
  have hlength := (ExecutionArtifact.errors_eq_nil_iff.1 artifact.valid).1
  unfold maxProblemPathBytes at hlength
  have hpath := Json.size_string_le artifact.path
  have hmedia : Json.size (Json.string artifact.mediaType.value) ≤ 12 := by
    cases artifact.mediaType <;> decide
  have hdata : Json.size (Json.string artifact.data) = artifact.data.length + 2 := by
    refine Json.size_string_of_plain ?_
    rw [h]
    intro c hc
    exact plain_of_mem_encode hc
  refine Nat.le_trans (Json.size_object_le _) ?_
  simp only [List.map_cons, List.map_nil, List.sum_cons, List.sum_nil]
  have hkeys : Json.size (Json.string "path".toList) = 6 ∧
      Json.size (Json.string "media_type".toList) = 12 ∧
      Json.size (Json.string "data".toList) = 6 := by decide
  omega

/-- The data that an optional artifact adds. -/
def dataLength (artifact : Option ExecutionArtifact) : ℕ := (artifact.map (·.data.length)).getD 0

theorem dataLength_add (result : ResultFields) :
    dataLength result.artifact + dataLength result.displayArtifact =
      (result.artifacts.map (·.data.length)).sum := by
  unfold ResultFields.artifacts dataLength
  cases result.artifact <;> cases result.displayArtifact <;> simp

theorem size_optionArtifactJson_le {artifact : Option ExecutionArtifact}
    (h : ∀ a ∈ artifact, ∃ bytes, a.data = Base64.encode bytes) :
    Json.size (optionJson artifactJson artifact) ≤ dataLength artifact + 1_600 := by
  cases artifact with
  | none => exact Nat.le_trans (by decide : 4 ≤ 1600) (Nat.le_add_left _ _)
  | some a =>
    obtain ⟨bytes, hbytes⟩ := h a rfl
    exact size_artifactJson_le hbytes

theorem size_resultJson_le {result : ExecutionResult} (h : Produced result)
    (hint : Integers64 result.toResultFields) :
    Json.size (resultJson result.toResultFields) ≤ 1_020_000 := by
  have hconsistent := result.consistent
  have houtput := hconsistent.output
  have herror := hconsistent.error_length
  have hdata := hconsistent.data
  rw [← dataLength_add] at hdata
  unfold maxCapturedOutputChars at houtput
  unfold maxExecutionErrorChars at herror
  unfold maxRunnerImageBase64Chars at hdata
  have hencoded := h.encoded
  -- a bound for each member; text costs at most six bytes a character
  have hartifact : Json.size (optionJson artifactJson result.artifact) ≤
      dataLength result.artifact + 1_600 := by
    refine size_optionArtifactJson_le fun a ha => hencoded a ?_
    exact List.mem_append_left _ (Option.mem_toList.2 ha)
  have hdisplay : Json.size (optionJson artifactJson result.displayArtifact) ≤
      dataLength result.displayArtifact + 1_600 := by
    refine size_optionArtifactJson_le fun a ha => hencoded a ?_
    exact List.mem_append_right _ (Option.mem_toList.2 ha)
  have hstatus : Json.size (Json.string result.status.value) ≤ 14 := by
    cases result.status <;> decide
  have hstdout := Json.size_string_le result.stdout
  have hstderr := Json.size_string_le result.stderr
  have hcode : Json.size (optionJson Json.int result.exitCode) ≤ 21 :=
    size_optionJson_le (by omega) fun n hn => size_int64_le (hint.exit_code n hn)
  have hbool : ∀ b, Json.size (Json.bool b) ≤ 5 := by decide
  have htimed := hbool result.timedOut
  have htruncated := hbool result.truncated
  have hms := size_int64_le hint.duration_ms
  have hmessage : Json.size (optionJson Json.string result.error) ≤ 6_002 := by
    refine size_optionJson_le (by omega) ?_
    intro message hmessage
    have hsize := Json.size_string_le message
    rw [Option.mem_def] at hmessage
    rw [hmessage, Option.getD_some] at herror
    omega
  refine Nat.le_trans (Json.size_object_le _) ?_
  simp only [List.map_cons, List.map_nil, List.sum_cons, List.sum_nil]
  -- the keys
  have hkeys : Json.size (Json.string "status".toList) = 8 ∧
      Json.size (Json.string "stdout".toList) = 8 ∧ Json.size (Json.string "stderr".toList) = 8 ∧
      Json.size (Json.string "exit_code".toList) = 11 ∧
      Json.size (Json.string "timed_out".toList) = 11 ∧
      Json.size (Json.string "truncated".toList) = 11 ∧
      Json.size (Json.string "duration_ms".toList) = 13 ∧
      Json.size (Json.string "artifact".toList) = 10 ∧
      Json.size (Json.string "error".toList) = 7 ∧
      Json.size (Json.string "display_artifact".toList) = 18 := by decide
  omega

/-- The client reads every response with a result of the runner to its end. -/
theorem response_fits {response : RunnerExecutionResponse} (h : Produced response.result)
    (hint : Integers64 response.result.toResultFields) :
    (encode (responseJson response)).length ≤ runnerResponseLimitBytes := by
  have hresult := size_resultJson_le h hint
  have hversion : Json.size (Json.int runnerProtocolVersion) = 1 := by decide
  have hrequest := size_hex response.requestId.hex
  have hrevision := size_hex response.problemRevision.hex
  rw [response.requestId.length_eq, requestIdLength] at hrequest
  rw [response.problemRevision.length_eq, problemRevisionLength] at hrevision
  unfold runnerResponseLimitBytes
  refine Nat.le_trans (Json.size_object_le _) ?_
  simp only [List.map_cons, List.map_nil, List.sum_cons, List.sum_nil]
  have hkeys : Json.size (Json.string "protocol_version".toList) = 18 ∧
      Json.size (Json.string "request_id".toList) = 12 ∧
      Json.size (Json.string "problem_revision".toList) = 18 ∧
      Json.size (Json.string "result".toList) = 8 := by decide
  omega

/-- The budgets close: the runner reads every request to its end, the client
every response with a result of the runner, and the response to a result is
within its limit, so that the check of the limit never raises. -/
theorem budgets_close :
    (∀ request : RunnerExecutionRequest,
      (encode (requestJson request)).length ≤ RunnerHttpSecurity.runnerRequestBodyLimitBytes ∧
      ∀ chunks last, chunks.flatten ++ last = encode (requestJson request) →
        RunnerHttpSecurity.readBoundedBody [] (bodyMessages chunks last) =
          .body (encode (requestJson request)) none []) ∧
    (∀ response : RunnerExecutionResponse, Produced response.result →
      Integers64 response.result.toResultFields →
      (encode (responseJson response)).length ≤ runnerResponseLimitBytes) ∧
    ∀ result : ExecutionResult, Integers64 result.toResultFields →
      ∀ pillow clock judgment outcome,
        (∀ response, SubmitSolutionResponseV3.fromSubmission pillow
            (completedFields (currentJapanTime clock) result judgment outcome) = .ok response →
          (encode response.json).length ≤ maxPublicSubmissionResponseBytes) ∧
        ∀ message, submissionResponseV3 pillow
          (completedFields (currentJapanTime clock) result judgment outcome) ≠
            .error (.runtimeError message) := by
  refine ⟨request_fits, fun response => response_fits, ?_⟩
  intro result hint pillow clock judgment outcome
  have hcompleted := completed_completedFields (currentJapanTime clock) result judgment outcome
  have hdigits : 20 ≤ maxIntDigits := by decide
  have hexit : ∀ n ∈ result.exitCode, (Json.digits n).length ≤ maxIntDigits :=
    fun n hn => Nat.le_trans (length_digits_le (hint.exit_code n hn)) hdigits
  have hduration : (Json.digits result.durationMs).length ≤ maxIntDigits :=
    Nat.le_trans (length_digits_le hint.duration_ms) hdigits
  refine ⟨fun response => fromSubmission_size hcompleted hexit hduration, ?_⟩
  intro message
  -- an artifact that is not public raises a validation error, and no other
  obtain ⟨hpublic, hprivate⟩ := @submissionResponseV3_spec pillow _ _ _ _ hcompleted hexit hduration
  by_cases hshows : ShowsPublicData pillow result.toResultFields
  · obtain ⟨response, hresponse⟩ := hpublic hshows
    rw [hresponse]
    exact fun h => nomatch h
  · obtain ⟨artifact, -, herror⟩ := hprivate hshows
    rw [herror]
    exact fun h => nomatch h

/-- A request ID of zeros. -/
def zeroId : RequestId := ⟨List.replicate 32 '0', rfl, fun _ => isLowerHex_of_mem_zeros⟩

/-- A revision of zeros. -/
def zeroRevision : ProblemRevision :=
  ⟨List.replicate 64 '0', length_zeros, isLowerHex_zeros⟩

/-- A completed execution that printed a line and left both images. -/
def drewBoth : SandboxExecutor.SandboxExecutionOutcome where
  status := .completed
  stdout := [104, 105, 10]
  stderr := []
  exitCode := some 0
  timedOut := false
  truncated := false
  durationMs := 5
  artifact := some [0xff, 0xd8, 0xff, 0xd9]
  error := none
  displayArtifact := some [0x47, 0x49, 0x46]

theorem budgets_close_drewBoth : ∃ result artifact displayArtifact,
    ExecShellgei.toExecutionResult drewBoth pictureProblem 1000 = .ok result ∧
    result.artifact = some artifact ∧ result.displayArtifact = some displayArtifact ∧
    (encode (responseJson ⟨zeroId, zeroRevision, result⟩)).length ≤ runnerResponseLimitBytes ∧
    ∀ message, submissionResponseV3 (fun _ => none)
        (completedFields (currentJapanTime noon) result ⟨.wrongImage, some .artifactInvalid⟩
          (.saved firstId)) ≠ .error (.runtimeError message) := by
  have hresult : ∃ result artifact displayArtifact,
      ExecShellgei.toExecutionResult drewBoth pictureProblem 1000 = .ok result ∧
      result.artifact = some artifact ∧ result.displayArtifact = some displayArtifact ∧
      result.exitCode = some 0 ∧ result.durationMs = 5 :=
    ⟨_, _, _, rfl, rfl, rfl, rfl, rfl⟩
  obtain ⟨result, artifact, displayArtifact, hresult, hartifact, hdisplay, hcode, hms⟩ := hresult
  have hint : Integers64 result.toResultFields := by
    constructor
    · rw [hcode]
      rintro n ⟨rfl⟩
      exact ⟨by decide, by decide⟩
    · rw [hms]
      exact ⟨by decide, by decide⟩
  obtain ⟨-, hresponse, hpublic⟩ := budgets_close
  refine ⟨result, artifact, displayArtifact, hresult, hartifact, hdisplay, ?_, ?_⟩
  · exact hresponse ⟨zeroId, zeroRevision, result⟩ (.inl ⟨_, _, _, hresult⟩) hint
  · exact (hpublic result hint _ _ _ _).2

end SizeBudgets
