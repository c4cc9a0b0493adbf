/-
The row of a judged submission (models/execution_log.py, execution_log_repository.py).

The entry checks status, flags and sizes again, and its legacy output is cut
twice: with a suffix for the entry, and to the column for the row.

* `execution_log_row_faithful` — every judged result makes an entry, and its row
  says what the submission did.
-/
import Mathlib.Data.List.Forall2
import ShellgeiOnlineJudge.ErrorConfinement

namespace ErrorConfinement

open Utf8 Problem Execution Judge Submission PublicApi

/-! ### Texts without `NUL` -/

/-- A text and what is stored of it: every `NUL` is U+FFFD. -/
def ReplacesNul (value stored : Text) : Prop :=
  List.Forall₂ (fun c c' => c' = if c = '\x00' then '\uFFFD' else c) value stored

theorem replacesNul_normalize (value : Text) :
    ReplacesNul value (normalizeExecutionLogText value) := by
  rw [ReplacesNul, normalizeExecutionLogText, List.forall₂_map_right_iff]
  exact List.forall₂_same.2 fun c _ => rfl

theorem length_normalize (value : Text) :
    (normalizeExecutionLogText value).length = value.length :=
  List.length_map _

theorem normalize_append (value rest : Text) :
    normalizeExecutionLogText (value ++ rest) =
      normalizeExecutionLogText value ++ normalizeExecutionLogText rest :=
  List.map_append

theorem nul_not_mem_normalize (value : Text) :
    '\x00' ∉ normalizeExecutionLogText value := by
  intro hmem
  obtain ⟨c, -, hc⟩ := List.mem_map.1 hmem
  by_cases hnul : c = '\x00'
  · rw [if_pos hnul] at hc
    exact absurd hc (by decide)
  · rw [if_neg hnul] at hc
    exact hnul hc

/-- A text without `NUL` is stored as it is. -/
theorem normalize_eq_self {value : Text} (h : '\x00' ∉ value) :
    normalizeExecutionLogText value = value := by
  refine (List.map_congr_left fun c hc => ?_).trans (List.map_id value)
  have hne : c ≠ '\x00' := fun heq => h (heq ▸ hc)
  rw [if_neg hne]
  rfl

theorem nul_not_mem_legacyCode (judgment : JudgeResult) : '\x00' ∉ judgment.legacyCode := by
  rw [JudgeResult.legacyCode]
  cases judgment.verdict with
  | accepted => decide
  | wrongAnswer => decide
  | wrongImage => decide
  | wrongTextAndImage => decide
  | executionFailure => decide
  | judgeError => decide

theorem nul_not_mem_status (status : ExecutionStatus) : '\x00' ∉ status.value := by
  cases status with
  | completed => decide
  | timedOut => decide
  | outputLimit => decide
  | error => decide

theorem nul_not_mem_verdict (verdict : JudgeVerdict) : '\x00' ∉ verdict.value := by
  cases verdict with
  | accepted => decide
  | wrongAnswer => decide
  | wrongImage => decide
  | wrongTextAndImage => decide
  | executionFailure => decide
  | judgeError => decide

theorem nul_not_mem_reason (reason : JudgeReason) : '\x00' ∉ reason.value := by
  cases reason <;> decide

/-! ### The legacy output -/

/-- What `legacy_output` appends to a timed-out result. -/
def timedOutSuffix : Text := "\n[Timed out]".toList

theorem length_timedOutSuffix : timedOutSuffix.length = 12 := by decide

theorem nul_not_mem_timedOutSuffix : '\x00' ∉ timedOutSuffix := by decide

/-- The output of a timed-out result: what fits in front of the suffix. -/
theorem legacyOutput_timedOut {execution : ResultFields} (h : execution.status = .timedOut)
    (limitChars : ℕ) : execution.legacyOutput limitChars =
      (execution.stdout ++ execution.stderr).take (limitChars - 12) ++ timedOutSuffix := by
  rw [ResultFields.legacyOutput, h]
  show List.take (limitChars - timedOutSuffix.length) _ ++ timedOutSuffix = _
  rw [length_timedOutSuffix]

/-- The stored output of a timed-out result: the second cut does not reach the
suffix, since the first one has made room for it. -/
theorem output_timedOut {execution : ResultFields} (h : execution.status = .timedOut) :
    (normalizeExecutionLogText (execution.legacyOutput maxCapturedOutputChars)).take
        executionLogOutputMaxChars =
      normalizeExecutionLogText ((execution.stdout ++ execution.stderr).take 988) ++
        timedOutSuffix := by
  have hfits : (normalizeExecutionLogText
      (execution.legacyOutput maxCapturedOutputChars)).length ≤ executionLogOutputMaxChars := by
    rw [length_normalize, legacyOutput_timedOut h, List.length_append, List.length_take,
      length_timedOutSuffix]
    show min (1_000 - 12) _ + 12 ≤ 1_000
    omega
  rw [List.take_of_length_le hfits, legacyOutput_timedOut h, normalize_append,
    normalize_eq_self nul_not_mem_timedOutSuffix]
  rfl

/-! ### Rows -/

/-- The text columns of a row. -/
def ExecutionLog.texts (row : ExecutionLog) : List Text :=
  [row.problemId, row.shellgei, row.output, row.judge, row.executionStatus, row.stdout,
    row.stderr, row.verdict] ++ row.judgeReason.toList

/-- The row of a submission, of the result of its command and of the judgment. -/
structure FaithfulRow (data : ShellgeiData) (execution : ResultFields) (judgment : JudgeResult)
    (row : ExecutionLog) : Prop where
  problemId : ReplacesNul data.problemId row.problemId
  shellgei : ReplacesNul data.shellgei row.shellgei
  stdout : ReplacesNul execution.stdout row.stdout
  stderr : ReplacesNul execution.stderr row.stderr
  status : row.executionStatus = execution.status.value
  exitCode : row.exitCode = execution.exitCode
  timedOut : row.timedOut = execution.timedOut
  truncated : row.truncated = execution.truncated
  durationMs : row.durationMs = execution.durationMs
  verdict : row.verdict = judgment.verdict.value
  reason : row.judgeReason = judgment.reason.map JudgeReason.value
  judge : row.judge = judgment.legacyCode

section Entries

variable {data : ShellgeiData} {execution : ExecutionResult} {judgment : JudgeResult}

/-- The row of an entry by the fields that were passed to the entry. -/
theorem ofEntry_fromResults {entry : ExecutionLogEntry}
    (h : ExecutionLogEntry.fromResults data.problemId data.shellgei execution judgment =
      .ok entry) :
    entry.toLogFields =
      LogFields.ofResults data.problemId data.shellgei execution.toResultFields judgment := by
  rw [ExecutionLogEntry.fromResults, ExecutionLogEntry.build] at h
  split at h
  · rw [← Except.ok.inj h]
  · cases h

theorem faithfulRow_ofResults : FaithfulRow data execution.toResultFields judgment
    (.ofEntry (.ofResults data.problemId data.shellgei execution.toResultFields judgment)) :=
  ⟨replacesNul_normalize _, replacesNul_normalize _, replacesNul_normalize _,
    replacesNul_normalize _, rfl, rfl, rfl, rfl, rfl, rfl, rfl, rfl⟩

theorem nul_not_mem_texts {row : ExecutionLog}
    (hrow : row = .ofEntry
      (.ofResults data.problemId data.shellgei execution.toResultFields judgment)) :
    ∀ text ∈ row.texts, '\x00' ∉ text := by
  subst hrow
  intro text htext
  rcases List.mem_append.1 htext with htext | htext
  · simp only [List.mem_cons, List.not_mem_nil, or_false] at htext
    rcases htext with rfl | rfl | rfl | rfl | rfl | rfl | rfl | rfl
    · exact nul_not_mem_normalize _
    · exact nul_not_mem_normalize _
    · exact fun hmem => nul_not_mem_normalize _ (List.mem_of_mem_take hmem)
    · exact nul_not_mem_legacyCode judgment
    · exact nul_not_mem_status _
    · exact nul_not_mem_normalize _
    · exact nul_not_mem_normalize _
    · exact nul_not_mem_verdict _
  · obtain ⟨reason, -, rfl⟩ := Option.map_eq_some_iff.1 (Option.mem_toList.1 htext)
    exact nul_not_mem_reason reason

end Entries

/-- Every judged result makes an entry, and the row of the entry is faithful. -/
theorem execution_log_row_faithful (pillow : Bytes → Option PillowImage)
    (repository : ProblemRepository) (data : ShellgeiData) (execution : ExecutionResult) :
    ∃ entry row,
      ExecutionLogEntry.fromResults data.problemId data.shellgei execution
        (judge pillow repository execution data.problemId) = .ok entry ∧
      row = ExecutionLog.ofEntry entry.toLogFields ∧
      FaithfulRow data execution.toResultFields
        (judge pillow repository execution data.problemId) row ∧
      (∀ text ∈ row.texts, '\x00' ∉ text) ∧
      row.output.length ≤ 1_000 ∧
      (execution.status = .timedOut → timedOutSuffix <:+ row.output) := by
  obtain ⟨entry, hentry⟩ := ExecutionLogEntry.fromResults_ok execution
    (judge pillow repository execution data.problemId) data.problem_id_valid data.length_valid
  have hfields := ofEntry_fromResults hentry
  refine ⟨entry, _, hentry, rfl, ?_, ?_, ?_, ?_⟩
  · rw [hfields]
    exact faithfulRow_ofResults
  · exact nul_not_mem_texts (by rw [hfields])
  · show (List.take 1_000 _).length ≤ 1_000
    rw [List.length_take]
    omega
  · intro htimed
    rw [hfields]
    show timedOutSuffix <:+ (normalizeExecutionLogText
      (if execution.status = .error then _ else
        execution.legacyOutput maxCapturedOutputChars)).take executionLogOutputMaxChars
    rw [if_neg (by rw [htimed]; simp), output_timedOut htimed]
    exact List.suffix_append _ _

end ErrorConfinement
