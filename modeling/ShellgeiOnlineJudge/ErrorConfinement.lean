/-
What the error text and the artifact paths of a result can reach
(the row of soj_backend/execution_log_repository.py and the public API).

* `error_confined` — two results that differ in their error text only are
  judged, recorded and answered alike, and the paths of their artifacts reach
  the answer through the judgment only.
-/
import ShellgeiOnlineJudge.PublicApi

namespace ErrorConfinement

open Utf8 Problem Execution Judge Submission PublicApi

/-! ### Rows (execution_log_repository.py) -/

/-- `EXECUTION_LOG_OUTPUT_MAX_CHARS` -/
def executionLogOutputMaxChars : ℕ := 1_000

/-- `normalize_execution_log_text` -/
def normalizeExecutionLogText (value : Text) : Text :=
  value.map fun c => if c = '\x00' then '\uFFFD' else c

/-- The columns of `ExecutionLog` that `ExecutionLogRepo.save` writes. -/
structure ExecutionLog where
  problemId : Text
  shellgei : Text
  output : Text
  judge : Text
  executionStatus : Text
  stdout : Text
  stderr : Text
  exitCode : Option ℤ
  timedOut : Bool
  truncated : Bool
  durationMs : ℤ
  verdict : Text
  judgeReason : Option Text
  deriving DecidableEq

/-- The row that `ExecutionLogRepo.save` adds for an entry. -/
def ExecutionLog.ofEntry (entry : LogFields) : ExecutionLog where
  problemId := normalizeExecutionLogText entry.problemId
  shellgei := normalizeExecutionLogText entry.shellgei
  output := (normalizeExecutionLogText entry.legacyOutput).take executionLogOutputMaxChars
  judge := entry.legacyJudge
  executionStatus := entry.executionStatus.value
  stdout := normalizeExecutionLogText entry.stdout
  stderr := normalizeExecutionLogText entry.stderr
  exitCode := entry.exitCode
  timedOut := entry.timedOut
  truncated := entry.truncated
  durationMs := entry.durationMs
  verdict := entry.verdict.value
  judgeReason := entry.judgeReason.map JudgeReason.value

/-- The row of a judged result. -/
def savedRow (pillow : Bytes → Option PillowImage) (repository : ProblemRepository)
    (data : ShellgeiData) (execution : ExecutionResult) : Except (List ErrorAt) ExecutionLog :=
  (ExecutionLogEntry.fromResults data.problemId data.shellgei execution
    (judge pillow repository execution data.problemId)).map fun entry =>
      ExecutionLog.ofEntry entry.toLogFields

/-! ### Results that differ in what stays inside -/

/-- The results are equal in every field except the error. -/
def EqualButError (execution other : ResultFields) : Prop :=
  execution = { other with error := execution.error }

/-- An artifact without its path. -/
def content (artifact : ExecutionArtifact) : ImageMediaType × Text :=
  (artifact.mediaType, artifact.data)

/-- The results are equal in every field except the error and the paths of the artifacts. -/
structure EqualButPaths (execution other : ResultFields) : Prop where
  fields : execution =
    { other with
      error := execution.error
      artifact := execution.artifact
      displayArtifact := execution.displayArtifact }
  artifact : execution.artifact.map content = other.artifact.map content
  display : execution.displayArtifact.map content = other.displayArtifact.map content

theorem EqualButError.equalButPaths {execution other : ResultFields}
    (h : EqualButError execution other) : EqualButPaths execution other := by
  unfold EqualButError at h
  refine ⟨?_, ?_, ?_⟩
  · rw [h]
  · rw [h]
  · rw [h]

/-- The judge reads the error of no result. -/
theorem judge_congr (pillow : Bytes → Option PillowImage) (repository : ProblemRepository)
    (problemId : Text) {execution other : ExecutionResult}
    (h : EqualButError execution.toResultFields other.toResultFields) :
    judge pillow repository execution problemId = judge pillow repository other problemId := by
  unfold EqualButError at h
  have hrecord : ∀ record, judgeRecord pillow record execution.toResultFields =
      judgeRecord pillow record other.toResultFields := by
    intro record
    rw [h]
    rfl
  simp only [judge, hrecord]

/-- The entry of a failed execution has a text of its own for the legacy
output, and that of any other execution does not show the error. -/
theorem ofResults_congr (problemId shellgei : Text) (judgment : JudgeResult)
    {execution other : ResultFields} (h : EqualButError execution other) :
    LogFields.ofResults problemId shellgei execution judgment =
      LogFields.ofResults problemId shellgei other judgment := by
  unfold EqualButError at h
  have hstatus : execution.status = other.status := by rw [h]
  have hlegacy : (if execution.status = .error then "Error during execution".toList
        else execution.legacyOutput maxCapturedOutputChars) =
      if other.status = .error then "Error during execution".toList
        else other.legacyOutput maxCapturedOutputChars := by
    rw [hstatus]
    by_cases herror : other.status = .error
    · rw [if_pos herror, if_pos herror]
    · rw [if_neg herror, if_neg herror, h]
      unfold ResultFields.legacyOutput
      cases hother : other.status with
      | error => exact absurd hother herror
      | completed => rfl
      | timedOut => rfl
      | outputLimit => rfl
  simp only [LogFields.ofResults, hlegacy]
  rw [h]

theorem fromResults_congr (problemId shellgei : Text) (judgment : JudgeResult)
    {execution other : ExecutionResult}
    (h : EqualButError execution.toResultFields other.toResultFields) :
    ExecutionLogEntry.fromResults problemId shellgei execution judgment =
      ExecutionLogEntry.fromResults problemId shellgei other judgment := by
  rw [ExecutionLogEntry.fromResults, ExecutionLogEntry.fromResults,
    ofResults_congr problemId shellgei judgment h]

/-! ### The answer -/

theorem displayDecodes_congr (pillow : Bytes → Option PillowImage) {execution other : ResultFields}
    (h : execution.displayArtifact.map content = other.displayArtifact.map content) :
    DisplayDecodes pillow execution → DisplayDecodes pillow other := by
  rintro ⟨display, payload, hdisplay, hpayload, hrest⟩
  rw [hdisplay, Option.map_some] at h
  obtain ⟨display', hdisplay', hcontent⟩ := Option.map_eq_some_iff.1 h.symm
  refine ⟨display', payload, hdisplay', ?_, hrest⟩
  rw [show display'.data = display.data from congrArg Prod.snd hcontent]
  exact hpayload

/-- Artifacts of the same content are selected. -/
theorem selectDisplayArtifact_congr (pillow : Bytes → Option PillowImage)
    {execution other : ResultFields} (h : EqualButPaths execution other) :
    (selectDisplayArtifact pillow execution).map content =
      (selectDisplayArtifact pillow other).map content := by
  by_cases hdecodes : DisplayDecodes pillow execution
  · have hother := displayDecodes_congr pillow h.display hdecodes
    rw [selectDisplayArtifact_eq_display hdecodes, selectDisplayArtifact_eq_display hother]
    exact h.display
  · have hother : ¬ DisplayDecodes pillow other :=
      fun hother => hdecodes (displayDecodes_congr pillow h.display.symm hother)
    rw [selectDisplayArtifact_of_not_decodes hdecodes, selectDisplayArtifact_of_not_decodes hother]
    exact h.artifact

theorem publicArtifact_congr {artifact other : Option ExecutionArtifact}
    (h : artifact.map content = other.map content) :
    publicArtifact artifact = publicArtifact other := by
  cases artifact with
  | none =>
    rw [Option.map_none, eq_comm, Option.map_eq_none_iff] at h
    rw [h]
  | some a =>
    rw [Option.map_some, eq_comm, Option.map_eq_some_iff] at h
    obtain ⟨b, rfl, hcontent⟩ := h
    obtain ⟨hmedia, hdata⟩ := Prod.mk.inj hcontent
    rw [publicArtifact, publicArtifact, hmedia, hdata]

/-- What the response is made of: the public fields of the result, the content
of what is shown, and the judgment. -/
theorem submissionResponseV3_congr (pillow : Bytes → Option PillowImage) (time : Datetime)
    (judgment : JudgeResult) (outcome : SaveOutcome) {execution other : ExecutionResult}
    (h : EqualButPaths execution.toResultFields other.toResultFields) :
    submissionResponseV3 pillow (completedFields time execution judgment outcome) =
      submissionResponseV3 pillow (completedFields time other judgment outcome) := by
  have hpublic : PublicExecutionFields.ofExecution execution.toResultFields =
      PublicExecutionFields.ofExecution other.toResultFields := by
    rw [h.fields]
    rfl
  have hexecution : PublicExecutionResultV3.fromExecution execution.toResultFields =
      PublicExecutionResultV3.fromExecution other.toResultFields := by
    rw [PublicExecutionResultV3.fromExecution, PublicExecutionResultV3.fromExecution, hpublic]
  have hartifact := publicArtifact_congr (selectDisplayArtifact_congr pillow h)
  cases outcome with
  | repositoryError =>
    simp only [submissionResponseV3, SubmitSolutionResponseV3.fromSubmission, completedFields,
      hexecution, hartifact]
    rfl
  | saved logId =>
    simp only [submissionResponseV3, SubmitSolutionResponseV3.fromSubmission, completedFields,
      hexecution, hartifact]
    rfl

/-- The v3 response to a submission whose command has run with a result. -/
def respond (pillow : Bytes → Option PillowImage) (repository : ProblemRepository)
    (save : ExecutionLogEntry → SaveOutcome) (clock : WallClock) (data : ShellgeiData)
    (execution : ExecutionResult) : Except Raised ResponseV3 :=
  submit pillow repository (fun _ _ => .ok execution) save clock data.shellgei data.problemId >>=
    fun result => submissionResponseV3 pillow result.toSubmissionFields

theorem respond_eq (pillow : Bytes → Option PillowImage) {repository : ProblemRepository}
    (save : ExecutionLogEntry → SaveOutcome) (clock : WallClock) (data : ShellgeiData)
    {record : ProblemRecord} (hget : repository.get data.problemId = some record)
    (execution : ExecutionResult) :
    ∃ entry, ExecutionLogEntry.fromResults data.problemId data.shellgei execution
        (judge pillow repository execution data.problemId) = .ok entry ∧
      respond pillow repository save clock data execution =
        submissionResponseV3 pillow (completedFields (currentJapanTime clock) execution
          (judge pillow repository execution data.problemId) (save entry)) := by
  obtain ⟨entry, result, hentry, hresult, hfields⟩ :=
    @submit_eq pillow repository (fun _ _ => .ok execution) save clock data record hget execution
      rfl
  refine ⟨entry, hentry, ?_⟩
  rw [respond, hresult, ← hfields]
  rfl

theorem respond_congr (pillow : Bytes → Option PillowImage) (repository : ProblemRepository)
    (save : ExecutionLogEntry → SaveOutcome) (clock : WallClock) (data : ShellgeiData)
    {execution other : ExecutionResult}
    (h : EqualButError execution.toResultFields other.toResultFields) :
    respond pillow repository save clock data execution =
      respond pillow repository save clock data other := by
  cases hget : repository.get data.problemId with
  | none => simp only [respond, submit, hget]
  | some record =>
    obtain ⟨entry, hentry, hrespond⟩ := respond_eq pillow save clock data hget execution
    obtain ⟨entry', hentry', hrespond'⟩ := respond_eq pillow save clock data hget other
    -- one entry is saved, so that the same becomes of it
    rw [fromResults_congr _ _ _ h, judge_congr pillow repository data.problemId h,
      hentry'] at hentry
    obtain rfl := Except.ok.inj hentry
    rw [hrespond, hrespond', judge_congr pillow repository data.problemId h]
    exact submissionResponseV3_congr pillow _ _ _ h.equalButPaths

/-- The error text of a result reaches neither its judgment nor its log entry,
with all columns of its row, nor the v3 response.  The paths of its artifacts
reach the v3 response through the judgment only: the response to `other` is the
one to `execution` with the judgment of `other`. -/
theorem error_confined (pillow : Bytes → Option PillowImage) (repository : ProblemRepository)
    (clock : WallClock) (data : ShellgeiData) (execution other : ExecutionResult) :
    (EqualButError execution.toResultFields other.toResultFields →
      judge pillow repository execution data.problemId =
        judge pillow repository other data.problemId ∧
      (∃ entry,
        ExecutionLogEntry.fromResults data.problemId data.shellgei execution
          (judge pillow repository execution data.problemId) = .ok entry ∧
        ExecutionLogEntry.fromResults data.problemId data.shellgei other
          (judge pillow repository other data.problemId) = .ok entry) ∧
      savedRow pillow repository data execution = savedRow pillow repository data other ∧
      ∀ save, respond pillow repository save clock data execution =
        respond pillow repository save clock data other) ∧
    (EqualButPaths execution.toResultFields other.toResultFields →
      ∀ record, repository.get data.problemId = some record → ∀ outcome : SaveOutcome,
        respond pillow repository (fun _ => outcome) clock data execution =
          submissionResponseV3 pillow (completedFields (currentJapanTime clock) execution
            (judge pillow repository execution data.problemId) outcome) ∧
        respond pillow repository (fun _ => outcome) clock data other =
          submissionResponseV3 pillow (completedFields (currentJapanTime clock) execution
            (judge pillow repository other data.problemId) outcome)) := by
  constructor
  · intro h
    have hjudge := judge_congr pillow repository data.problemId h
    obtain ⟨entry, hentry⟩ := ExecutionLogEntry.fromResults_ok execution
      (judge pillow repository execution data.problemId) data.problem_id_valid data.length_valid
    -- the entry is made of what the judge says and of fields that agree
    have hother : ExecutionLogEntry.fromResults data.problemId data.shellgei other
        (judge pillow repository other data.problemId) = .ok entry := by
      rw [← hjudge, ← fromResults_congr _ _ _ h]
      exact hentry
    refine ⟨hjudge, ⟨entry, hentry, hother⟩, ?_, ?_⟩
    · rw [savedRow, savedRow, hentry, hother]
    · intro save
      exact respond_congr pillow repository save clock data h
  · intro h record hget outcome
    -- the paths only reach the response through the verdict
    obtain ⟨-, -, hrespond⟩ := respond_eq pillow (fun _ => outcome) clock data hget execution
    obtain ⟨-, -, hrespond'⟩ := respond_eq pillow (fun _ => outcome) clock data hget other
    refine ⟨hrespond, ?_⟩
    rw [hrespond']
    exact (submissionResponseV3_congr pillow _ _ _ h).symm

/-- An execution that was cut off, with an error. -/
def cutOff (error : Text) (h : error.length ≤ maxExecutionErrorChars) : ExecutionResult where
  status := .outputLimit
  stdout := ['x']
  stderr := []
  exitCode := none
  timedOut := false
  truncated := true
  durationMs := 5
  artifact := none
  error := some error
  displayArtifact := none
  valid := ResultFields.errors_eq_nil_iff.2
    { output := Nat.le_of_ble_eq_true rfl
      duration := Int.le_of_lt (by decide : (0 : ℤ) < 5)
      error_length := h
      status := ⟨rfl, rfl⟩
      data := Nat.zero_le _
      display := by simp
      incomplete := fun _ => ⟨rfl, rfl⟩ }

theorem error_confined_cutOff :
    respond (fun _ => none) [silentProblem] (fun _ => .saved firstId) noon
        (noCommand "STANDARD-1".toList (by rfl)) (cutOff "broken pipe".toList (by decide)) =
      respond (fun _ => none) [silentProblem] (fun _ => .saved firstId) noon
        (noCommand "STANDARD-1".toList (by rfl)) (cutOff "secret".toList (by decide)) ∧
    (judge (fun _ => none) [silentProblem] (cutOff "secret".toList (by decide))
      "STANDARD-1".toList).verdict = .executionFailure := by
  have hequal : EqualButError (cutOff "broken pipe".toList (by decide)).toResultFields
      (cutOff "secret".toList (by decide)).toResultFields := rfl
  obtain ⟨-, -, -, hrespond⟩ := (error_confined (fun _ => none) [silentProblem] noon
    (noCommand "STANDARD-1".toList (by rfl)) (cutOff "broken pipe".toList (by decide))
    (cutOff "secret".toList (by decide))).1 hequal
  exact ⟨hrespond _, by decide +kernel⟩

end ErrorConfinement
