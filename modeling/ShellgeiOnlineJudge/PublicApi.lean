/-
The responses of the public API (soj_backend/models/public_api.py,
artifact_display.py and api/api_shellgei.py).

* `answered_iff` — when a submission that has run is answered.
-/
import ShellgeiOnlineJudge.Submission

namespace PublicApi

open Utf8 Problem Execution Judge Submission

/-- `select_display_artifact` -/
def selectDisplayArtifact (pillow : Bytes → Option PillowImage) (execution : ResultFields) :
    Option ExecutionArtifact :=
  match execution.displayArtifact with
  | none => execution.artifact
  | some candidate =>
    match Base64.decode candidate.data with
    | none => execution.artifact
    | some payload =>
      if matchesMediaType payload .gif ∧ (decodeImagePixels pillow payload .gif).isSome then
        some candidate
      else execution.artifact

/-! ### Models (models/public_api.py) -/

/-- `MAX_PUBLIC_SUBMISSION_RESPONSE_BYTES` -/
def maxPublicSubmissionResponseBytes : ℕ := 1_025_000

/-- The characters `[A-Za-z0-9+/]`. -/
def isBase64Char (c : Char) : Bool := isAlphanumeric c || c = '+' || c = '/'

/-- The pattern `^[A-Za-z0-9+/]*={0,2}$`, whose `$` is the end of the text. -/
def matchesDataPattern (data : Text) : Bool :=
  let pads := data.dropWhile isBase64Char
  pads.length ≤ 2 && pads.all (· = '=')

/-- The errors of `PublicArtifactV3(...)`; the pattern is tried last. -/
def PublicArtifactV3.errors (data : Text) : List ErrorAt :=
  if data.length < 4 then [⟨some "data", .tooShort 4⟩]
  else if maxRunnerImageBase64Chars < data.length then
    [⟨some "data", .tooLong maxRunnerImageBase64Chars⟩]
  else if ¬ matchesDataPattern data then [⟨some "data", .pattern⟩]
  else []

/-- `PublicArtifactV3` -/
structure PublicArtifactV3 where
  mediaType : ImageMediaType
  data : Text
  valid : PublicArtifactV3.errors data = []

/-- `PublicArtifactV3(...)` -/
def PublicArtifactV3.build (mediaType : ImageMediaType) (data : Text) :
    Except (List ErrorAt) PublicArtifactV3 :=
  if h : PublicArtifactV3.errors data = [] then .ok ⟨mediaType, data, h⟩
  else .error (PublicArtifactV3.errors data)

/-- The fields of `PublicExecutionResultV3` -/
structure PublicExecutionFields where
  status : ExecutionStatus
  stdout : Text
  stderr : Text
  exitCode : Option ℤ
  timedOut : Bool
  truncated : Bool
  durationMs : ℤ

/-- What pydantic refuses in the single fields. -/
def PublicExecutionFields.fieldErrors (execution : PublicExecutionFields) : List ErrorAt :=
  checkMaxLength "stdout" maxCapturedOutputChars execution.stdout ++
  checkMaxLength "stderr" maxCapturedOutputChars execution.stderr ++
  (if execution.durationMs < 0 then [⟨some "duration_ms", .lessThan 0⟩] else [])

/-- The errors of `PublicExecutionResultV3(...)`, with `validate_output_limit`. -/
def PublicExecutionFields.errors (execution : PublicExecutionFields) : List ErrorAt :=
  if execution.fieldErrors ≠ [] then execution.fieldErrors
  else match raiseIf
      (maxCapturedOutputChars < execution.stdout.length + execution.stderr.length)
      "combined public execution output exceeds the limit" with
    | .error message => [⟨none, .valueError message⟩]
    | .ok () => []

/-- `PublicExecutionResultV3` -/
structure PublicExecutionResultV3 extends PublicExecutionFields where
  valid : toPublicExecutionFields.errors = []

/-- What `PublicExecutionResultV3.from_execution` passes to the model. -/
def PublicExecutionFields.ofExecution (execution : ResultFields) : PublicExecutionFields where
  status := execution.status
  stdout := execution.stdout
  stderr := execution.stderr
  exitCode := execution.exitCode
  timedOut := execution.timedOut
  truncated := execution.truncated
  durationMs := execution.durationMs

/-- `PublicExecutionResultV3.from_execution` -/
def PublicExecutionResultV3.fromExecution (execution : ResultFields) :
    Except (List ErrorAt) PublicExecutionResultV3 :=
  let fields := PublicExecutionFields.ofExecution execution
  if h : fields.errors = [] then .ok ⟨fields, h⟩ else .error fields.errors

/-- `PublicPersistenceStatusV3` -/
inductive PublicPersistenceStatusV3
  | saved
  | unavailable
  deriving DecidableEq

/-- The text of a persistence status. -/
def PublicPersistenceStatusV3.value : PublicPersistenceStatusV3 → Text
  | .saved => "saved".toList
  | .unavailable => "unavailable".toList

/-- The fields of `SubmitSolutionResponseV3` -/
structure ResponseFields where
  submissionId : Option ℤ
  submittedAt : Datetime
  verdict : JudgeVerdict
  reason : Option JudgeReason
  execution : PublicExecutionResultV3
  artifact : Option PublicArtifactV3
  persistence : PublicPersistenceStatusV3

/-- `SubmitSolutionResponseV3.validate_persistence` -/
def ResponseFields.validatePersistence (response : ResponseFields) : Except String Unit := do
  raiseIf (response.submittedAt.utcoffset = none) "submission timestamp must include a timezone"
  if response.persistence = .saved then
    raiseIf (response.submissionId = none) "saved response must contain a submission ID"
  else raiseIf (response.submissionId ≠ none) "unsaved response must not contain a submission ID"

/-- The errors of `SubmitSolutionResponseV3(...)`. -/
def ResponseFields.errors (response : ResponseFields) : List ErrorAt :=
  if checkPositive "submission_id" response.submissionId ≠ [] then
    checkPositive "submission_id" response.submissionId
  else match response.validatePersistence with
    | .error message => [⟨none, .valueError message⟩]
    | .ok () => []

/-- `SubmitSolutionResponseV3` -/
structure SubmitSolutionResponseV3 extends ResponseFields where
  valid : toResponseFields.errors = []

/-- `SubmitSolutionResponseV3(...)` -/
def SubmitSolutionResponseV3.build (fields : ResponseFields) :
    Except (List ErrorAt) SubmitSolutionResponseV3 :=
  if h : fields.errors = [] then .ok ⟨fields, h⟩ else .error fields.errors

/-- The persistence that is made public. -/
def publicPersistence : SubmissionPersistenceStatus → Except Raised PublicPersistenceStatusV3
  | .saved => .ok .saved
  | .unavailable => .ok .unavailable
  | .notAttempted => .error (.valueError "completed submission did not attempt persistence")

/-- The artifact that is made public, of the one that was selected. -/
def publicArtifact : Option ExecutionArtifact → Except Raised (Option PublicArtifactV3)
  | none => .ok none
  | some artifact =>
    (validated "PublicArtifactV3" (PublicArtifactV3.build artifact.mediaType artifact.data)).map
      some

/-- `SubmitSolutionResponseV3.from_submission` -/
def SubmitSolutionResponseV3.fromSubmission (pillow : Bytes → Option PillowImage)
    (result : SubmissionFields) : Except Raised SubmitSolutionResponseV3 :=
  if result.status ≠ .completed then .error (.valueError "submission result is not completed")
  else match result.execution, result.judgment with
    | some execution, some judgment => do
      let artifact := selectDisplayArtifact pillow execution.toResultFields
      let persistence ← publicPersistence result.persistence
      let publicExecution ← validated "PublicExecutionResultV3"
        (PublicExecutionResultV3.fromExecution execution.toResultFields)
      let shown ← publicArtifact artifact
      validated "SubmitSolutionResponseV3" (SubmitSolutionResponseV3.build
        { submissionId := result.logId, submittedAt := result.submittedAt,
          verdict := judgment.verdict, reason := judgment.reason, execution := publicExecution,
          artifact := shown, persistence })
    | _, _ => .error (.valueError "completed submission result is inconsistent")

/-! ### The response as JSON -/

/-- The digits of a number, with zeros in front up to the width. -/
def pad (width n : ℕ) : Text :=
  List.replicate (width - (Nat.toDigits 10 n).length) '0' ++ Nat.toDigits 10 n

/-- `strftime("%Y-%m-%d")` -/
def dateText (time : WallClock) : Text :=
  pad 4 time.year ++ '-' :: pad 2 time.month ++ '-' :: pad 2 time.day

/-- `strftime("%H:%M:%S")` -/
def timeText (time : WallClock) : Text :=
  pad 2 time.hour ++ ':' :: pad 2 time.minute ++ ':' :: pad 2 time.second

/-- The microseconds, which are left out where they are zero. -/
def fractionText (microsecond : ℕ) : Text :=
  if microsecond = 0 then [] else '.' :: pad 6 microsecond

/-- The offset of a time zone. -/
def zoneText : Option TimeZone → Text
  | none => []
  | some .asiaTokyo => "+09:00".toList

/-- The ISO form of a time, as pydantic writes it. -/
def isoText (time : Datetime) : Text :=
  dateText time.toWallClock ++ 'T' :: timeText time.toWallClock ++
    fractionText time.microsecond ++ zoneText time.zone

/-- The text of a member that may be null. -/
def optionJson {α : Type} (write : α → Text) : Option α → Text
  | none => Json.null
  | some value => write value

/-- The JSON of an execution. -/
def PublicExecutionFields.json (execution : PublicExecutionFields) : Text :=
  Json.object
    [("status".toList, Json.string execution.status.value),
      ("stdout".toList, Json.string execution.stdout),
      ("stderr".toList, Json.string execution.stderr),
      ("exit_code".toList, optionJson Json.int execution.exitCode),
      ("timed_out".toList, Json.bool execution.timedOut),
      ("truncated".toList, Json.bool execution.truncated),
      ("duration_ms".toList, Json.int execution.durationMs)]

/-- The JSON of an artifact. -/
def PublicArtifactV3.json (artifact : PublicArtifactV3) : Text :=
  Json.object
    [("media_type".toList, Json.string artifact.mediaType.value),
      ("data".toList, Json.string artifact.data)]

/-- `SubmitSolutionResponseV3.model_dump_json` -/
def ResponseFields.json (response : ResponseFields) : Text :=
  Json.object
    [("api_version".toList, Json.int 3),
      ("submission_id".toList, optionJson Json.int response.submissionId),
      ("submitted_at".toList, Json.string (isoText response.submittedAt)),
      ("verdict".toList, Json.string response.verdict.value),
      ("reason".toList, optionJson (fun reason => Json.string reason.value) response.reason),
      ("execution".toList, response.execution.json),
      ("artifact".toList, optionJson PublicArtifactV3.json response.artifact),
      ("persistence".toList, Json.string response.persistence.value)]

/-! ### Responses (api/api_shellgei.py) -/

/-- `ShellgeiResultResponse` -/
structure ShellgeiResultResponse where
  output : Text
  id : Text
  date : Text
  image : Text
  imageMediaType : Option ImageMediaType
  judge : Text

/-- `str(n)` -/
def strInt (n : ℤ) : Except Raised Text :=
  if maxIntDigits < (Json.digits n).length then
    .error (.valueError "Exceeds the limit (4300 digits) for integer string conversion")
  else .ok (Json.int n)

/-- `_submission_date`; a submission has its time in Japan already. -/
def submissionDate (result : SubmissionFields) : Text :=
  dateText result.submittedAt.toWallClock ++ ' ' :: timeText result.submittedAt.toWallClock

/-- `_unavailable_response` -/
def unavailableResponse (message : Text) (result : SubmissionFields) : ShellgeiResultResponse where
  output := message
  id := "-1".toList
  date := submissionDate result
  image := []
  imageMediaType := none
  judge := ['4']

/-- `_submission_response` -/
def submissionResponse (pillow : Bytes → Option PillowImage) (result : SubmissionFields) :
    Except Raised ShellgeiResultResponse :=
  match result.status with
  | .problemNotFound => .error (.http 404 "Problem not found")
  | .runnerBusy => .ok (unavailableResponse "Error: server is busy.".toList result)
  | .runnerUnavailable => .ok (unavailableResponse "Error: runner is unavailable.".toList result)
  | .completed =>
    match result.execution, result.judgment with
    | some execution, some judgment => do
      let artifact := selectDisplayArtifact pillow execution.toResultFields
      let id ← strInt (result.logId.getD (-1))
      return {
        output := execution.legacyOutput maxCapturedOutputChars
        id
        date := submissionDate result
        image := (artifact.map (·.data)).getD []
        imageMediaType := artifact.map (·.mediaType)
        judge := judgment.legacyCode }
    | _, _ => .error (.runtimeError "completed submission result is inconsistent")

/-- `PublicApiErrorCodeV3` -/
inductive PublicApiErrorCodeV3
  | problemNotFound
  | runnerBusy
  | runnerUnavailable
  deriving DecidableEq

/-- What `_submission_response_v3` returns: the model of a 200 response, or a
JSON error with its status code. -/
inductive ResponseV3
  | success (response : SubmitSolutionResponseV3)
  | failure (statusCode : ℕ) (code : PublicApiErrorCodeV3) (message : Text) (retryable : Bool)

/-- `_public_error_response_v3` -/
def publicErrorResponseV3 (statusCode : ℕ) (code : PublicApiErrorCodeV3) (message : Text)
    (retryable : Bool) : Except Raised ResponseV3 :=
  let errors := checkMinLength "message" 1 message ++ checkMaxLength "message" 128 message
  if errors ≠ [] then .error (.validation "PublicApiErrorV3" errors)
  else .ok (.failure statusCode code message retryable)

/-- `_submission_response_v3` -/
def submissionResponseV3 (pillow : Bytes → Option PillowImage) (result : SubmissionFields) :
    Except Raised ResponseV3 :=
  match result.status with
  | .problemNotFound =>
    publicErrorResponseV3 404 .problemNotFound "Problem not found".toList false
  | .runnerBusy =>
    publicErrorResponseV3 429 .runnerBusy "Runner capacity is temporarily exhausted".toList true
  | .runnerUnavailable =>
    publicErrorResponseV3 503 .runnerUnavailable "Runner is unavailable".toList true
  | .completed => do
    let response ← SubmitSolutionResponseV3.fromSubmission pillow result
    if maxPublicSubmissionResponseBytes < Json.size response.json then
      .error (.runtimeError "public submission response exceeded the byte limit")
    else .ok (.success response)

/-! ### Public data -/

/-- Data that `PublicArtifactV3` takes, up to the limit that every artifact keeps. -/
def PublicData (data : Text) : Prop :=
  4 ≤ data.length ∧ ∃ chars pads, data = chars ++ List.replicate pads '=' ∧
    (∀ c ∈ chars, isBase64Char c = true) ∧ pads ≤ 2

theorem matchesDataPattern_iff {data : Text} :
    matchesDataPattern data = true ↔ ∃ chars pads, data = chars ++ List.replicate pads '=' ∧
      (∀ c ∈ chars, isBase64Char c = true) ∧ pads ≤ 2 := by
  unfold matchesDataPattern
  simp only [Bool.and_eq_true, decide_eq_true_eq, List.all_eq_true]
  constructor
  · rintro ⟨hlength, hpads⟩
    refine ⟨data.takeWhile isBase64Char, (data.dropWhile isBase64Char).length, ?_, ?_, hlength⟩
    · rw [← List.eq_replicate_of_mem hpads, List.takeWhile_append_dropWhile]
    · intro c hc
      exact List.mem_takeWhile_imp hc
  · rintro ⟨chars, pads, rfl, hchars, hle⟩
    -- the class has no `=`, so that the characters before them are all skipped
    have hpad : isBase64Char '=' = false := by decide
    have hdrop : (chars ++ List.replicate pads '=').dropWhile isBase64Char =
        List.replicate pads '=' := by
      rw [List.dropWhile_append_of_pos hchars]
      cases pads with
      | zero => rfl
      | succ n => rw [List.replicate_succ, List.dropWhile_cons_of_neg (by rw [hpad]; simp)]
    rw [hdrop, List.length_replicate]
    exact ⟨hle, fun c hc => List.eq_of_mem_replicate hc⟩

theorem PublicArtifactV3.errors_eq_nil_iff {data : Text} :
    PublicArtifactV3.errors data = [] ↔
      data.length ≤ maxRunnerImageBase64Chars ∧ PublicData data := by
  unfold PublicArtifactV3.errors PublicData
  rw [← matchesDataPattern_iff]
  by_cases hshort : data.length < 4
  · rw [if_pos hshort]
    exact iff_of_false (by simp) (by omega)
  rw [if_neg hshort]
  by_cases hlong : maxRunnerImageBase64Chars < data.length
  · rw [if_pos hlong]
    exact iff_of_false (by simp) (by omega)
  rw [if_neg hlong]
  by_cases hpattern : matchesDataPattern data = true
  · rw [if_neg (not_not.2 hpattern)]
    exact iff_of_true rfl ⟨by omega, by omega, hpattern⟩
  · rw [if_pos hpattern]
    exact iff_of_false (by simp) (fun h => hpattern h.2.2)

theorem isBase64Char_of_isDigit {c : Char} (h : Base64.isDigit c = true) :
    isBase64Char c = true := by
  unfold Base64.isDigit Base64.value at h
  simp only [isBase64Char, isAlphanumeric, Bool.or_eq_true, Bool.and_eq_true, decide_eq_true_eq]
  split_ifs at h with hupper hlower hnumber hplus hslash
  · exact .inl (.inl (.inl (.inl hupper)))
  · exact .inl (.inl (.inl (.inr hlower)))
  · exact .inl (.inl (.inr hnumber))
  · exact .inl (.inr hplus)
  · exact .inr hslash
  · exact absurd h Bool.false_ne_true

/-- Strict base64 of a payload that is not empty is public. -/
theorem publicData_of_decode {data : Text} {payload : Bytes}
    (h : Base64.decode data = some payload) (hne : payload ≠ []) : PublicData data := by
  obtain ⟨⟨digits, pads, hdata, hdigits, hpads⟩, hfour⟩ := Base64.decode_shape h
  refine ⟨?_, digits, pads, hdata, fun c hc => isBase64Char_of_isDigit (hdigits c hc), hpads⟩
  have hpos : data.length ≠ 0 := by
    intro hzero
    rw [List.length_eq_zero_iff.1 hzero] at h
    exact hne (Option.some.inj h).symm
  omega

theorem ne_nil_of_matchesMediaType {payload : Bytes} {mediaType : ImageMediaType}
    (h : matchesMediaType payload mediaType = true) : payload ≠ [] := by
  rintro rfl
  cases mediaType <;> exact Bool.noConfusion h

/-! ### The artifact that is shown -/

/-- The display artifact is a GIF that can be decoded. -/
def DisplayDecodes (pillow : Bytes → Option PillowImage) (execution : ResultFields) : Prop :=
  ∃ display payload, execution.displayArtifact = some display ∧
    Base64.decode display.data = some payload ∧ matchesMediaType payload .gif = true ∧
    (decodeImagePixels pillow payload .gif).isSome

/-- What is shown is public: a display artifact that decodes, or else the judged artifact. -/
def ShowsPublicData (pillow : Bytes → Option PillowImage) (execution : ResultFields) : Prop :=
  DisplayDecodes pillow execution ∨ ∀ artifact ∈ execution.artifact, PublicData artifact.data

theorem selectDisplayArtifact_eq_display {pillow : Bytes → Option PillowImage}
    {execution : ResultFields} (h : DisplayDecodes pillow execution) :
    selectDisplayArtifact pillow execution = execution.displayArtifact := by
  obtain ⟨display, payload, hdisplay, hpayload, hmatches, hdecodes⟩ := h
  simp only [selectDisplayArtifact, hdisplay, hpayload, hmatches, hdecodes, and_self, if_true]

theorem selectDisplayArtifact_of_decodes {pillow : Bytes → Option PillowImage}
    {execution : ResultFields} (h : DisplayDecodes pillow execution) :
    ∃ display, selectDisplayArtifact pillow execution = some display ∧
      PublicData display.data := by
  have hselect := selectDisplayArtifact_eq_display h
  obtain ⟨display, payload, hdisplay, hpayload, hmatches, hdecodes⟩ := h
  refine ⟨display, hselect.trans hdisplay, ?_⟩
  exact publicData_of_decode hpayload (ne_nil_of_matchesMediaType hmatches)

theorem selectDisplayArtifact_of_not_decodes {pillow : Bytes → Option PillowImage}
    {execution : ResultFields} (h : ¬ DisplayDecodes pillow execution) :
    selectDisplayArtifact pillow execution = execution.artifact := by
  unfold selectDisplayArtifact
  cases hdisplay : execution.displayArtifact with
  | none => rfl
  | some display =>
    cases hpayload : Base64.decode display.data with
    | none => simp only [hpayload]
    | some payload =>
      simp only [hpayload]
      refine if_neg ?_
      rintro ⟨hmatches, hdecodes⟩
      exact h ⟨display, payload, hdisplay, hpayload, hmatches, hdecodes⟩

theorem shown_public_iff {pillow : Bytes → Option PillowImage} {execution : ResultFields} :
    (∀ shown ∈ selectDisplayArtifact pillow execution, PublicData shown.data) ↔
      ShowsPublicData pillow execution := by
  by_cases hdecodes : DisplayDecodes pillow execution
  · obtain ⟨display, hselect, hpublic⟩ := selectDisplayArtifact_of_decodes hdecodes
    rw [hselect]
    refine iff_of_true ?_ (.inl hdecodes)
    intro shown hshown
    obtain rfl := Option.some.inj hshown
    exact hpublic
  · rw [selectDisplayArtifact_of_not_decodes hdecodes, ShowsPublicData, or_iff_right hdecodes]

/-! ### The size of a response -/

theorem length_pad {width n : ℕ} (hpos : 0 < width) (h : n < 10 ^ width) :
    (pad width n).length = width := by
  have hle := (Nat.length_toDigits_le_iff (by decide) hpos).2 h
  rw [pad, List.length_append, List.length_replicate]
  omega

theorem length_isoText_le (time : Datetime) : (isoText time).length ≤ 32 := by
  obtain ⟨-, hyear⟩ := time.year_valid
  obtain ⟨hmonth, hday⟩ := time.day_valid
  obtain ⟨hhour, hminute, hsecond⟩ := time.time_valid
  have hmicrosecond := time.microsecond_valid
  have hdate : (dateText time.toWallClock).length = 10 := by
    rw [dateText, List.length_append, List.length_cons, List.length_append, List.length_cons,
      length_pad (by decide) (by omega), length_pad (by decide) (by omega),
      length_pad (by decide) (by omega)]
  have htime : (timeText time.toWallClock).length = 8 := by
    rw [timeText, List.length_append, List.length_cons, List.length_append, List.length_cons,
      length_pad (by decide) (by omega), length_pad (by decide) (by omega),
      length_pad (by decide) (by omega)]
  have hfraction : (fractionText time.microsecond).length ≤ 7 := by
    unfold fractionText
    split
    · exact Nat.zero_le 7
    · rw [List.length_cons, length_pad (by decide) (by omega)]
  have hzone : (zoneText time.zone).length ≤ 6 := by
    cases time.zone with
    | none => exact Nat.zero_le 6
    | some zone => cases zone; decide
  rw [isoText, List.length_append, List.length_append, List.length_append, List.length_cons, hdate,
    htime]
  omega

theorem size_optionJson_le {α : Type} {write : α → Text} {value : Option α} {bound : ℕ}
    (hbound : 4 ≤ bound) (h : ∀ v ∈ value, Json.size (write v) ≤ bound) :
    Json.size (optionJson write value) ≤ bound := by
  cases value with
  | none => exact hbound
  | some v => exact h v rfl

theorem size_int_le {n : ℤ} (h : (Json.digits n).length ≤ maxIntDigits) :
    Json.size (Json.int n) ≤ 4301 := by
  have := Json.size_int_le n
  unfold maxIntDigits at h
  omega

theorem PublicExecutionFields.fieldErrors_eq_nil {execution : PublicExecutionFields} :
    execution.fieldErrors = [] ↔ execution.stdout.length ≤ maxCapturedOutputChars ∧
      execution.stderr.length ≤ maxCapturedOutputChars ∧ 0 ≤ execution.durationMs := by
  have hduration : (if execution.durationMs < 0 then
      [(⟨some "duration_ms", .lessThan 0⟩ : ErrorAt)] else []) = [] ↔ 0 ≤ execution.durationMs := by
    split
    · exact iff_of_false (by simp) (by omega)
    · exact iff_of_true rfl (by omega)
  simp only [PublicExecutionFields.fieldErrors, List.append_eq_nil_iff, checkMaxLength_eq_nil,
    hduration, and_assoc]

theorem PublicExecutionFields.errors_eq_nil_iff {execution : PublicExecutionFields} :
    execution.errors = [] ↔ 0 ≤ execution.durationMs ∧
      execution.stdout.length + execution.stderr.length ≤ maxCapturedOutputChars := by
  unfold PublicExecutionFields.errors
  by_cases hfields : execution.fieldErrors = []
  · obtain ⟨-, -, hduration⟩ := PublicExecutionFields.fieldErrors_eq_nil.1 hfields
    rw [if_neg (not_not.2 hfields), raiseIf]
    by_cases houtput :
        maxCapturedOutputChars < execution.stdout.length + execution.stderr.length
    · rw [if_pos houtput]
      exact iff_of_false (by simp) (by omega)
    · rw [if_neg houtput]
      exact iff_of_true rfl ⟨hduration, Nat.not_lt.1 houtput⟩
  · rw [if_pos hfields]
    refine iff_of_false hfields ?_
    rintro ⟨hduration, houtput⟩
    exact hfields (PublicExecutionFields.fieldErrors_eq_nil.2 ⟨by omega, by omega, hduration⟩)

theorem PublicExecutionResultV3.size_json_le (execution : PublicExecutionResultV3)
    (hexit : ∀ code ∈ execution.exitCode, (Json.digits code).length ≤ maxIntDigits)
    (hduration : (Json.digits execution.durationMs).length ≤ maxIntDigits) :
    Json.size execution.json ≤ 15_000 := by
  obtain ⟨-, houtput⟩ := PublicExecutionFields.errors_eq_nil_iff.1 execution.valid
  unfold maxCapturedOutputChars at houtput
  have hstatus : Json.size (Json.string execution.status.value) ≤ 14 := by
    cases execution.status <;> decide
  have hstdout := Json.size_string_le execution.stdout
  have hstderr := Json.size_string_le execution.stderr
  have hcode : Json.size (optionJson Json.int execution.exitCode) ≤ 4301 :=
    size_optionJson_le (by omega) fun code hcode => size_int_le (hexit code hcode)
  have hbool : ∀ b, Json.size (Json.bool b) ≤ 5 := by decide
  have htimed := hbool execution.timedOut
  have htruncated := hbool execution.truncated
  have hms := size_int_le hduration
  refine Nat.le_trans (Json.size_object_le _) ?_
  simp only [List.map_cons, List.map_nil, List.sum_cons, List.sum_nil]
  have hkeys : Json.size (Json.string "status".toList) = 8 ∧
      Json.size (Json.string "stdout".toList) = 8 ∧ Json.size (Json.string "stderr".toList) = 8 ∧
      Json.size (Json.string "exit_code".toList) = 11 ∧
      Json.size (Json.string "timed_out".toList) = 11 ∧
      Json.size (Json.string "truncated".toList) = 11 ∧
      Json.size (Json.string "duration_ms".toList) = 13 := by decide
  omega

theorem plain_of_isBase64Char {c : Char} (h : isBase64Char c = true) : Json.Plain c := by
  have hnat : ∀ {a b : Char}, a ≤ c ∧ c ≤ b → a.toNat ≤ c.toNat ∧ c.toNat ≤ b.toNat := fun h => h
  have hrange : (0x61 ≤ c.toNat ∧ c.toNat ≤ 0x7A) ∨ (0x2B ≤ c.toNat ∧ c.toNat ≤ 0x5A) := by
    simp only [isBase64Char, isAlphanumeric, Bool.or_eq_true, Bool.and_eq_true,
      decide_eq_true_eq] at h
    rcases h with (((hupper | hlower) | hnumber) | rfl) | rfl
    · have : 65 ≤ c.toNat ∧ c.toNat ≤ 90 := hnat hupper
      omega
    · exact .inl (hnat hlower)
    · have : 48 ≤ c.toNat ∧ c.toNat ≤ 57 := hnat hnumber
      omega
    · decide
    · decide
  refine ⟨by omega, by omega, ?_, ?_⟩
  · rintro rfl
    exact absurd hrange (by decide)
  · rintro rfl
    exact absurd hrange (by decide)

/-- Public data is written as it is. -/
theorem PublicArtifactV3.size_json_le (artifact : PublicArtifactV3) :
    Json.size artifact.json ≤ 1_000_050 := by
  obtain ⟨hlength, -, chars, pads, hdata, hchars, -⟩ :=
    PublicArtifactV3.errors_eq_nil_iff.1 artifact.valid
  unfold maxRunnerImageBase64Chars at hlength
  have hplain : ∀ c ∈ artifact.data, Json.Plain c := by
    intro c hc
    rw [hdata, List.mem_append] at hc
    rcases hc with hc | hc
    · exact plain_of_isBase64Char (hchars c hc)
    · rw [List.eq_of_mem_replicate hc]
      exact ⟨by decide, by decide, by decide, by decide⟩
  have hstring := Json.size_string_of_plain hplain
  have hmedia : Json.size (Json.string artifact.mediaType.value) ≤ 12 := by
    cases artifact.mediaType <;> decide
  refine Nat.le_trans (Json.size_object_le _) ?_
  simp only [List.map_cons, List.map_nil, List.sum_cons, List.sum_nil]
  have hkeys : Json.size (Json.string "media_type".toList) = 12 ∧
      Json.size (Json.string "data".toList) = 6 := by decide
  omega

/-- The integers of a response have no more digits than Python reads and writes. -/
structure ResponseFields.Printable (response : ResponseFields) : Prop where
  submission_id : ∀ n ∈ response.submissionId, (Json.digits n).length ≤ maxIntDigits
  exit_code : ∀ n ∈ response.execution.exitCode, (Json.digits n).length ≤ maxIntDigits
  duration_ms : (Json.digits response.execution.durationMs).length ≤ maxIntDigits

/-- The byte limit leaves room for the rest of a response besides an artifact. -/
theorem ResponseFields.size_json_le {response : ResponseFields} (h : response.Printable) :
    Json.size response.json ≤ maxPublicSubmissionResponseBytes := by
  -- a bound for each member
  have hversion : Json.size (Json.int 3) = 1 := by decide
  have hid : Json.size (optionJson Json.int response.submissionId) ≤ 4301 :=
    size_optionJson_le (by omega) fun n hn => size_int_le (h.submission_id n hn)
  have hsubmitted := Json.size_string_le (isoText response.submittedAt)
  have hiso := length_isoText_le response.submittedAt
  have hverdict : Json.size (Json.string response.verdict.value) ≤ 22 := by
    cases response.verdict <;> decide
  have hreason : Json.size (optionJson (fun reason => Json.string reason.value) response.reason) ≤
      31 := by
    refine size_optionJson_le (by omega) ?_
    intro reason hreason
    cases reason <;> decide
  have hexecution := response.execution.size_json_le h.exit_code h.duration_ms
  have hartifact : Json.size (optionJson PublicArtifactV3.json response.artifact) ≤ 1_000_050 :=
    size_optionJson_le (by omega) fun artifact _ => artifact.size_json_le
  have hpersistence : Json.size (Json.string response.persistence.value) ≤ 13 := by
    cases response.persistence <;> decide
  unfold maxPublicSubmissionResponseBytes
  refine Nat.le_trans (Json.size_object_le _) ?_
  simp only [List.map_cons, List.map_nil, List.sum_cons, List.sum_nil]
  -- the keys
  have hkeys : Json.size (Json.string "api_version".toList) = 13 ∧
      Json.size (Json.string "submission_id".toList) = 15 ∧
      Json.size (Json.string "submitted_at".toList) = 14 ∧
      Json.size (Json.string "verdict".toList) = 9 ∧
      Json.size (Json.string "reason".toList) = 8 ∧
      Json.size (Json.string "execution".toList) = 11 ∧
      Json.size (Json.string "artifact".toList) = 10 ∧
      Json.size (Json.string "persistence".toList) = 13 := by decide
  omega

/-! ### Answers -/

/-- A result as the client reads it from the runner's response. -/
structure ReceivedResult extends ExecutionResult where
  exit_code_read : ∀ n ∈ exitCode, (Json.digits n).length ≤ maxIntDigits
  duration_read : (Json.digits durationMs).length ≤ maxIntDigits

/-- The outcome that a result is made public with. -/
theorem PublicExecutionResultV3.fromExecution_ok (execution : ExecutionResult) :
    ∃ publicExecution, PublicExecutionResultV3.fromExecution execution.toResultFields =
        .ok publicExecution ∧
      publicExecution.toPublicExecutionFields =
        PublicExecutionFields.ofExecution execution.toResultFields := by
  have hvalid : (PublicExecutionFields.ofExecution execution.toResultFields).errors = [] :=
    PublicExecutionFields.errors_eq_nil_iff.2
      ⟨execution.consistent.duration, execution.consistent.output⟩
  rw [PublicExecutionResultV3.fromExecution, dif_pos hvalid]
  exact ⟨_, rfl, rfl⟩

theorem publicArtifact_ok {artifact : Option ExecutionArtifact}
    (h : ∀ shown ∈ artifact, PublicData shown.data) :
    ∃ shown, publicArtifact artifact = .ok shown := by
  cases artifact with
  | none => exact ⟨none, rfl⟩
  | some artifact =>
    have hlength := (ExecutionArtifact.errors_eq_nil_iff.1 artifact.valid).2.2.2.2
    have hvalid := PublicArtifactV3.errors_eq_nil_iff.2 ⟨hlength, h artifact rfl⟩
    rw [publicArtifact, PublicArtifactV3.build, dif_pos hvalid]
    exact ⟨_, rfl⟩

theorem publicArtifact_error {artifact : ExecutionArtifact} (h : ¬ PublicData artifact.data) :
    publicArtifact (some artifact) =
      .error (.validation "PublicArtifactV3" (PublicArtifactV3.errors artifact.data)) := by
  have hinvalid : PublicArtifactV3.errors artifact.data ≠ [] :=
    fun hvalid => h (PublicArtifactV3.errors_eq_nil_iff.1 hvalid).2
  rw [publicArtifact, PublicArtifactV3.build, dif_neg hinvalid]
  rfl

section Completed

variable {pillow : Bytes → Option PillowImage} {result : SubmissionFields} {clock : WallClock}
  {execution : ExecutionResult} {judgment : JudgeResult}

/-- The legacy response of a completed submission takes any artifact. -/
theorem submissionResponse_ok (h : Completed result (currentJapanTime clock) execution judgment) :
    ∃ legacy, submissionResponse pillow result = .ok legacy := by
  have hid : (Json.digits (result.logId.getD (-1))).length ≤ maxIntDigits := by
    rcases h.persistence with ⟨-, logId, hlog⟩ | ⟨-, hlog⟩
    · rw [hlog]
      exact logId.printable
    · rw [hlog]
      decide
  rw [submissionResponse]
  simp only [h.status, h.execution, h.judgment, strInt, if_neg (Nat.not_lt.2 hid)]
  exact ⟨_, rfl⟩

theorem publicPersistence_ok
    (h : Completed result (currentJapanTime clock) execution judgment) :
    ∃ persistence, publicPersistence result.persistence = .ok persistence ∧
      (persistence = .saved ↔ result.logId ≠ none) := by
  rcases h.persistence with ⟨hsaved, logId, hlog⟩ | ⟨hunavailable, hlog⟩
  · rw [hsaved, hlog]
    exact ⟨.saved, rfl, iff_of_true rfl (Option.some_ne_none _)⟩
  · rw [hunavailable, hlog]
    exact ⟨.unavailable, rfl, iff_of_false (fun h => by cases h) (not_not.2 rfl)⟩

/-- The response of a completed submission is built up to its artifact. -/
theorem fromSubmission_eq (h : Completed result (currentJapanTime clock) execution judgment) :
    ∃ fields : ResponseFields, (∀ shown, { fields with artifact := shown }.errors = []) ∧
      fields.submissionId = result.logId ∧
      fields.execution.toPublicExecutionFields =
        PublicExecutionFields.ofExecution execution.toResultFields ∧
      SubmitSolutionResponseV3.fromSubmission pillow result =
        publicArtifact (selectDisplayArtifact pillow execution.toResultFields) >>= fun shown =>
          validated "SubmitSolutionResponseV3"
            (SubmitSolutionResponseV3.build { fields with artifact := shown }) := by
  obtain ⟨persistence, hpersistence, hsaved⟩ := publicPersistence_ok h
  obtain ⟨publicExecution, hexecution, hfields⟩ :=
    PublicExecutionResultV3.fromExecution_ok execution
  refine ⟨⟨result.logId, result.submittedAt, judgment.verdict, judgment.reason, publicExecution,
    none, persistence⟩, ?_, rfl, hfields, ?_⟩
  · intro shown
    rw [ResponseFields.errors,
      if_neg (not_not.2 (h.checkPositive_eq_nil "submission_id"))]
    -- the fields agree on whether there is a log ID
    have hpersistent : ResponseFields.validatePersistence
        ⟨result.logId, result.submittedAt, judgment.verdict, judgment.reason, publicExecution,
          shown, persistence⟩ = .ok () := by
      rw [ResponseFields.validatePersistence, seq_eq_ok, raiseIf_eq_ok]
      refine ⟨h.utcoffset_ne_none, ?_⟩
      by_cases hlog : result.logId = none
      · rw [if_neg (fun h => hsaved.1 h hlog), raiseIf_eq_ok]
        exact not_not.2 hlog
      · rw [if_pos (hsaved.2 hlog), raiseIf_eq_ok]
        exact hlog
    rw [hpersistent]
  · simp only [SubmitSolutionResponseV3.fromSubmission, h.status, h.execution, h.judgment,
      hpersistence, hexecution]
    rfl

theorem ok_of_build {fields : ResponseFields} {response : SubmitSolutionResponseV3}
    (h : validated "SubmitSolutionResponseV3" (SubmitSolutionResponseV3.build fields) =
      .ok response) : response.toResponseFields = fields := by
  rw [SubmitSolutionResponseV3.build] at h
  split at h
  · rw [← Except.ok.inj h]
  · cases h

/-- A response that was built is within the byte limit: its integers are those
of the result and the ID of its row. -/
theorem fromSubmission_size (h : Completed result (currentJapanTime clock) execution judgment)
    (hexit : ∀ n ∈ execution.exitCode, (Json.digits n).length ≤ maxIntDigits)
    (hduration : (Json.digits execution.durationMs).length ≤ maxIntDigits)
    {response : SubmitSolutionResponseV3}
    (hresponse : SubmitSolutionResponseV3.fromSubmission pillow result = .ok response) :
    Json.size response.json ≤ maxPublicSubmissionResponseBytes := by
  obtain ⟨fields, -, hid, hexecution, heq⟩ := @fromSubmission_eq pillow _ _ _ _ h
  rw [heq] at hresponse
  obtain ⟨shown, -, hbuild⟩ := bind_eq_ok.1 hresponse
  have hfields := ok_of_build hbuild
  rw [hfields]
  refine ResponseFields.size_json_le ⟨?_, ?_, ?_⟩
  · intro n hn
    rcases h.persistence with ⟨-, logId, hlog⟩ | ⟨-, hlog⟩
    · obtain rfl := Option.some.inj (hlog.symm.trans (hid.symm.trans hn))
      exact logId.printable
    · exact absurd (hlog.symm.trans (hid.symm.trans hn)) (by simp)
  · show ∀ n ∈ fields.execution.exitCode, _
    rw [hexecution]
    exact hexit
  · show (Json.digits fields.execution.durationMs).length ≤ _
    rw [hexecution]
    exact hduration

/-- The new response is made exactly when what it shows is public. -/
theorem submissionResponseV3_spec
    (h : Completed result (currentJapanTime clock) execution judgment)
    (hexit : ∀ n ∈ execution.exitCode, (Json.digits n).length ≤ maxIntDigits)
    (hduration : (Json.digits execution.durationMs).length ≤ maxIntDigits) :
    (ShowsPublicData pillow execution.toResultFields →
      ∃ response, submissionResponseV3 pillow result = .ok (.success response)) ∧
    (¬ ShowsPublicData pillow execution.toResultFields →
      ∃ artifact, selectDisplayArtifact pillow execution.toResultFields = some artifact ∧
        submissionResponseV3 pillow result =
          .error (.validation "PublicArtifactV3" (PublicArtifactV3.errors artifact.data))) := by
  obtain ⟨fields, hvalid, -, -, heq⟩ := @fromSubmission_eq pillow _ _ _ _ h
  rw [submissionResponseV3]
  simp only [h.status]
  constructor
  · intro hshows
    obtain ⟨shown, hshown⟩ := publicArtifact_ok (shown_public_iff.2 hshows)
    have hresponse : SubmitSolutionResponseV3.fromSubmission pillow result =
        .ok ⟨{ fields with artifact := shown }, hvalid shown⟩ := by
      rw [heq, hshown]
      show validated _ (SubmitSolutionResponseV3.build _) = _
      rw [SubmitSolutionResponseV3.build, dif_pos (hvalid shown)]
      rfl
    -- a response with public data is within the byte limit
    have hsize := fromSubmission_size h hexit hduration hresponse
    rw [hresponse]
    exact ⟨_, if_neg (Nat.not_lt.2 hsize)⟩
  · intro hshows
    -- some artifact is shown, and its data is not public
    obtain ⟨artifact, hselect, hprivate⟩ : ∃ artifact,
        selectDisplayArtifact pillow execution.toResultFields = some artifact ∧
          ¬ PublicData artifact.data := by
      rw [← shown_public_iff] at hshows
      simpa only [not_forall, exists_prop, Option.mem_def] using hshows
    refine ⟨artifact, hselect, ?_⟩
    rw [heq, hselect, publicArtifact_error hprivate]
    rfl

end Completed

/-- A submission leads to a result, and both APIs turn it into a response. -/
def Answered (pillow : Bytes → Option PillowImage) (repository : ProblemRepository)
    (runner : Text → Text → Except RunnerError ExecutionResult)
    (save : ExecutionLogEntry → SaveOutcome) (clock : WallClock) (data : ShellgeiData) : Prop :=
  ∃ result legacy response,
    submit pillow repository runner save clock data.shellgei data.problemId = .ok result ∧
    submissionResponse pillow result.toSubmissionFields = .ok legacy ∧
    submissionResponseV3 pillow result.toSubmissionFields = .ok (.success response)

/-- A submission that has run always has a result and a response of the legacy
API.  That of the new API raises unless the artifact that it shows has data
that is public. -/
theorem answered_iff (pillow : Bytes → Option PillowImage) {repository : ProblemRepository}
    {runner : Text → Text → Except RunnerError ExecutionResult}
    (save : ExecutionLogEntry → SaveOutcome) (clock : WallClock) (data : ShellgeiData)
    {record : ProblemRecord} (hget : repository.get data.problemId = some record)
    {execution : ReceivedResult}
    (hrun : runner data.shellgei data.problemId = .ok execution.toExecutionResult) :
    (∃ result legacy,
      submit pillow repository runner save clock data.shellgei data.problemId = .ok result ∧
      submissionResponse pillow result.toSubmissionFields = .ok legacy) ∧
    (Answered pillow repository runner save clock data ↔
      ShowsPublicData pillow execution.toResultFields) := by
  obtain ⟨result, hresult, hcompleted⟩ := submit_of_execution pillow save clock data hget hrun
  obtain ⟨legacy, hlegacy⟩ := @submissionResponse_ok pillow _ _ _ _ hcompleted
  obtain ⟨hpublic, hprivate⟩ := @submissionResponseV3_spec pillow _ _ _ _ hcompleted
    execution.exit_code_read execution.duration_read
  refine ⟨⟨result, legacy, hresult, hlegacy⟩, ?_, ?_⟩
  · rintro ⟨other, -, response, hother, -, hresponse⟩
    obtain rfl := Except.ok.inj (hresult.symm.trans hother)
    by_cases hshows : ShowsPublicData pillow execution.toResultFields
    · exact hshows
    · obtain ⟨artifact, -, herror⟩ := hprivate hshows
      rw [herror] at hresponse
      cases hresponse
  · intro hshows
    obtain ⟨response, hresponse⟩ := hpublic hshows
    exact ⟨result, legacy, response, hresult, hlegacy, hresponse⟩

/-- A clock at noon. -/
def noon : WallClock where
  year := 2026
  month := 1
  day := 2
  hour := 12
  minute := 0
  second := 0
  microsecond := 0
  year_valid := by decide
  day_valid := by decide
  time_valid := by decide
  microsecond_valid := by decide

/-- The command `:` for a problem. -/
def noCommand (problemId : Text) (h : validateProblemId problemId = .ok problemId) :
    ShellgeiData where
  shellgei := [':']
  problemId := problemId
  normalized := colon_normalized
  length_valid := colon_length
  no_nul := colon_no_nul
  problem_id_valid := h

/-- The ID of the first log entry. -/
def firstId : LogId := ⟨1, by decide, by decide⟩

theorem answered_iff_blankLine :
    (∃ result legacy,
      submit (fun _ => none) [silentProblem] (fun _ _ => .ok (printed ['\n'] (by decide)))
        (fun _ => .saved firstId) noon [':'] "STANDARD-1".toList = .ok result ∧
      submissionResponse (fun _ => none) result.toSubmissionFields = .ok legacy) ∧
    (Answered (fun _ => none) [silentProblem] (fun _ _ => .ok (printed ['\n'] (by decide)))
        (fun _ => .saved firstId) noon (noCommand "STANDARD-1".toList (by rfl)) ↔
      ShowsPublicData (fun _ => none) (printed ['\n'] (by decide)).toResultFields) := by
  have hget : ProblemRepository.get [silentProblem] "STANDARD-1".toList = some silentProblem := by
    rfl
  have hcode : ∀ n ∈ (printed ['\n'] (by decide)).exitCode,
      (Json.digits n).length ≤ maxIntDigits := by
    intro n hn
    obtain rfl := Option.some.inj hn
    decide
  have hduration : (Json.digits (printed ['\n'] (by decide)).durationMs).length ≤ maxIntDigits := by
    decide
  exact @answered_iff (fun _ => none) [silentProblem]
    (fun _ _ => .ok (printed ['\n'] (by decide))) (fun _ => .saved firstId) noon
    (noCommand "STANDARD-1".toList (by rfl)) silentProblem hget
    ⟨printed ['\n'] (by decide), hcode, hduration⟩ rfl

/-- A problem that asks for a JPEG. -/
def pictureProblem : ProblemRecord where
  definition :=
    { id := "IMAGE-1".toList
      category := .image
      title := ⟨['-'], ['-'], dash_valid, dash_valid⟩
      statement := ⟨['-'], ['-'], dash_valid, dash_valid⟩
      referenceSolution := [':']
      execution :=
        { stdin := []
          fixtures := []
          exitCode := .ignore
          stderr := .ignore
          stdin_valid := nil_stdin_valid
          fixtures_length := nil_fixtures_length
          fixtures_valid := nil_fixtures_valid }
      judge := .image
        { path := "media/output.jpg".toList
          mediaType := .jpeg
          maxBytes := 100
          path_valid := output_jpg_path
          max_bytes_valid := by decide
          suffix_valid := output_jpg_suffix }
      id_valid := by rfl
      reference_solution_valid := colon_solution_valid
      category_valid := by decide
      judge_valid := by decide }
  answerImage := []

/-- An artifact of the problem whose data is not base64. -/
def brokenArtifact : ExecutionArtifact :=
  ⟨"media/output.jpg".toList, .jpeg, "not-valid-base64!".toList, by rfl⟩

/-- A result of the problem with the broken artifact. -/
def brokenPicture : ExecutionResult where
  status := .completed
  stdout := []
  stderr := []
  exitCode := some 0
  timedOut := false
  truncated := false
  durationMs := 5
  artifact := some brokenArtifact
  error := none
  displayArtifact := none
  valid := by rfl

/-- The judge answers with the wrong image and the log entry is saved, and then
the response raises. -/
theorem broken_not_answered :
    (judge (fun _ => none) [pictureProblem] brokenPicture "IMAGE-1".toList =
      ⟨.wrongImage, some .artifactInvalid⟩) ∧
    (∃ result, submit (fun _ => none) [pictureProblem] (fun _ _ => .ok brokenPicture)
        (fun _ => .saved firstId) noon [':'] "IMAGE-1".toList = .ok result ∧
      result.persistence = .saved ∧ result.logId = some 1 ∧
      submissionResponseV3 (fun _ => none) result.toSubmissionFields =
        .error (.validation "PublicArtifactV3" [⟨some "data", .pattern⟩])) ∧
    ¬ Answered (fun _ => none) [pictureProblem] (fun _ _ => .ok brokenPicture)
        (fun _ => .saved firstId) noon (noCommand "IMAGE-1".toList (by rfl)) := by
  have hsubmit : ∃ result, submit (fun _ => none) [pictureProblem] (fun _ _ => .ok brokenPicture)
      (fun _ => .saved firstId) noon [':'] "IMAGE-1".toList = .ok result ∧
      result.persistence = .saved ∧ result.logId = some 1 ∧
      submissionResponseV3 (fun _ => none) result.toSubmissionFields =
        .error (.validation "PublicArtifactV3" [⟨some "data", .pattern⟩]) :=
    ⟨_, rfl, rfl, rfl, rfl⟩
  refine ⟨by decide +kernel, hsubmit, ?_⟩
  rintro ⟨other, -, response, hother, -, hresponse⟩
  obtain ⟨result, hresult, -, -, herror⟩ := hsubmit
  obtain rfl := Except.ok.inj (hresult.symm.trans hother)
  rw [herror] at hresponse
  cases hresponse

end PublicApi
