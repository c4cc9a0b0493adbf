/-
The judge (soj_backend/judge.py and image_validation.py).

Pillow is a parameter: what it opens, or nothing when it raises one of the
exceptions that `decode_image_pixels` lists.

* `normalizeTextOutput_eq_iff` — what the comparison of texts forgets;
* `executionPolicyFailure_eq_none_iff` — when the policies of a problem hold;
* `judge_accepted_iff` — what is accepted, and what a verdict depends on.
-/
import Mathlib.Data.List.DropRight
import ShellgeiOnlineJudge.Base64
import ShellgeiOnlineJudge.Execution

namespace Judge

open Utf8 Problem Execution

/-- `JudgeVerdict` -/
inductive JudgeVerdict
  | accepted
  | wrongAnswer
  | wrongImage
  | wrongTextAndImage
  | executionFailure
  | judgeError
  deriving DecidableEq

/-- The text of a verdict. -/
def JudgeVerdict.value : JudgeVerdict → Text
  | .accepted => "accepted".toList
  | .wrongAnswer => "wrong_answer".toList
  | .wrongImage => "wrong_image".toList
  | .wrongTextAndImage => "wrong_text_and_image".toList
  | .executionFailure => "execution_failure".toList
  | .judgeError => "judge_error".toList

/-- `JudgeReason` -/
inductive JudgeReason
  | outputMismatch
  | imageMismatch
  | outputAndImageMismatch
  | artifactMissing
  | artifactPathMismatch
  | artifactMediaTypeMismatch
  | artifactInvalid
  | nonZeroExit
  | stderrNotEmpty
  | timedOut
  | outputTruncated
  | executionError
  | invalidProblemId
  | problemNotFound
  deriving DecidableEq

/-- The text of a reason. -/
def JudgeReason.value : JudgeReason → Text
  | .outputMismatch => "output_mismatch".toList
  | .imageMismatch => "image_mismatch".toList
  | .outputAndImageMismatch => "output_and_image_mismatch".toList
  | .artifactMissing => "artifact_missing".toList
  | .artifactPathMismatch => "artifact_path_mismatch".toList
  | .artifactMediaTypeMismatch => "artifact_media_type_mismatch".toList
  | .artifactInvalid => "artifact_invalid".toList
  | .nonZeroExit => "non_zero_exit".toList
  | .stderrNotEmpty => "stderr_not_empty".toList
  | .timedOut => "timed_out".toList
  | .outputTruncated => "output_truncated".toList
  | .executionError => "execution_error".toList
  | .invalidProblemId => "invalid_problem_id".toList
  | .problemNotFound => "problem_not_found".toList

/-- `JudgeResult` -/
structure JudgeResult where
  verdict : JudgeVerdict
  reason : Option JudgeReason
  deriving DecidableEq

/-- The result of an answer that passes. -/
def accepted : JudgeResult := ⟨.accepted, none⟩

/-- `JudgeResult.legacy_code` -/
def JudgeResult.legacyCode (result : JudgeResult) : Text :=
  match result.verdict with
  | .accepted => ['1']
  | .wrongImage => ['2']
  | .wrongAnswer => ['3']
  | .wrongTextAndImage => ['4']
  | .executionFailure => ['4']
  | .judgeError => ['4']

/-! ### Images (image_validation.py) -/

/-- `MAX_DECODED_IMAGE_PIXELS` -/
def maxDecodedImagePixels : ℕ := 4_000_000

/-- The format that Pillow has recognised. -/
inductive ImageFormat
  | jpeg
  | gif
  | other
  deriving DecidableEq

/-- An image that Pillow has opened.  Seeking a frame gives its size and its
RGBA bytes, or nothing when seeking or converting raises. -/
structure PillowImage where
  format : ImageFormat
  size : ℕ × ℕ
  frameCount : ℕ
  frame : ℕ → Option ((ℕ × ℕ) × Bytes)

/-- `matches_media_type` -/
def matchesMediaType (payload : Bytes) : ImageMediaType → Bool
  | .jpeg =>
    4 ≤ payload.length && [0xFF, 0xD8].isPrefixOf payload && [0xFF, 0xD9].isSuffixOf payload
  | .gif =>
    7 ≤ payload.length &&
      (payload.take 6 = [71, 73, 70, 56, 55, 97] || payload.take 6 = [71, 73, 70, 56, 57, 97]) &&
      [59].isSuffixOf payload

/-- The format of a media type. -/
def expectedFormat : ImageMediaType → ImageFormat
  | .jpeg => .jpeg
  | .gif => .gif

/-- The sizes and pixels that two images are compared by. -/
abbrev Pixels := (ℕ × ℕ) × List Bytes

/-- `decode_image_pixels` -/
def decodeImagePixels (pillow : Bytes → Option PillowImage) (payload : Bytes)
    (mediaType : ImageMediaType) : Option Pixels := do
  let image ← pillow payload
  if image.format ≠ expectedFormat mediaType then none
  else if maxDecodedImagePixels < image.size.1 * image.size.2 * image.frameCount then none
  else
    let frames ← (List.range image.frameCount).mapM fun frameIndex => do
      let (size, rgba) ← image.frame frameIndex
      if size ≠ image.size then none else some rgba
    some (image.size, frames)

/-! ### The judges -/

/-- `TextJudgeInput` -/
structure TextJudgeInput where
  stdout : Text
  stderr : Text
  exitCode : ℤ
  timedOut : Bool
  truncated : Bool

/-- The characters that do not count at the end of an output. -/
def isTrailingBlank (c : Char) : Bool := c = ' ' || c = '\n'

/-- `normalize_text_output` -/
def normalizeTextOutput (value : Text) : Text :=
  (value.filter (· ≠ '\r')).rdropWhile isTrailingBlank

/-- `_execution_policy_failure` -/
def executionPolicyFailure (specification : ExecutionSpecification) (execution : TextJudgeInput) :
    Option JudgeResult :=
  if execution.timedOut then some ⟨.executionFailure, some .timedOut⟩
  else if execution.truncated then some ⟨.executionFailure, some .outputTruncated⟩
  else if specification.exitCode = .zero ∧ execution.exitCode ≠ 0 then
    some ⟨.executionFailure, some .nonZeroExit⟩
  else if specification.stderr = .mustBeEmpty ∧ execution.stderr ≠ [] then
    some ⟨.executionFailure, some .stderrNotEmpty⟩
  else none

/-- The output that a text problem is judged by. -/
def actualOutput (specification : ExecutionSpecification) (stdout stderr : Text) : Text :=
  if specification.stderr = .merge then stdout ++ stderr else stdout

/-- `judge_text` -/
def judgeText (judge : TextJudgeSpecification) (specification : ExecutionSpecification)
    (execution : TextJudgeInput) : JudgeResult :=
  match executionPolicyFailure specification execution with
  | some failure => failure
  | none =>
    if normalizeTextOutput (actualOutput specification execution.stdout execution.stderr) =
        normalizeTextOutput judge.expectedOutput then accepted
    else ⟨.wrongAnswer, some .outputMismatch⟩

/-- `judge_image` -/
def judgeImage (pillow : Bytes → Option PillowImage) (specification : ImageArtifactSpecification)
    (expectedArtifact : Bytes) (actualArtifact : Option ExecutionArtifact) : JudgeResult :=
  match actualArtifact with
  | none => ⟨.wrongImage, some .artifactMissing⟩
  | some artifact =>
    if artifact.path ≠ specification.path then ⟨.wrongImage, some .artifactPathMismatch⟩
    else if artifact.mediaType ≠ specification.mediaType then
      ⟨.wrongImage, some .artifactMediaTypeMismatch⟩
    else match Base64.decode artifact.data with
      | none => ⟨.wrongImage, some .artifactInvalid⟩
      | some payload =>
        if ¬ matchesMediaType payload specification.mediaType then
          ⟨.wrongImage, some .artifactInvalid⟩
        else
          match decodeImagePixels pillow payload specification.mediaType,
            decodeImagePixels pillow expectedArtifact specification.mediaType with
          | some actualPixels, some expectedPixels =>
            if actualPixels = expectedPixels then accepted
            else ⟨.wrongImage, some .imageMismatch⟩
          | _, _ => ⟨.wrongImage, some .artifactInvalid⟩

/-- The part of a result that the policies look at; an unknown exit code counts as 0. -/
def policyInput (execution : ResultFields) : TextJudgeInput where
  stdout := execution.stdout
  stderr := execution.stderr
  exitCode := execution.exitCode.getD 0
  timedOut := execution.timedOut
  truncated := execution.truncated

/-- The judgment of a registered problem. -/
def judgeRecord (pillow : Bytes → Option PillowImage) (record : ProblemRecord)
    (execution : ResultFields) : JudgeResult :=
  if execution.status = .error then ⟨.executionFailure, some .executionError⟩
  else match record.definition.judge with
    | .text specification =>
      judgeText specification record.definition.execution (policyInput execution)
    | .image specification =>
      match executionPolicyFailure record.definition.execution (policyInput execution) with
      | some failure => failure
      | none => judgeImage pillow specification record.answerImage execution.artifact

/-- `ShellgeiJudge.judge` -/
def judge (pillow : Bytes → Option PillowImage) (repository : ProblemRepository)
    (execution : ExecutionResult) (problemId : Text) : JudgeResult :=
  match validateProblemId problemId with
  | .error _ => ⟨.judgeError, some .invalidProblemId⟩
  | .ok _ =>
    match repository.get problemId with
    | none => ⟨.judgeError, some .problemNotFound⟩
    | some record => judgeRecord pillow record execution.toResultFields

/-! ### The comparison of texts -/

/-- `rest` is `value` without its carriage returns and without the spaces and
newlines at its end. -/
def Stripped (value rest : Text) : Prop :=
  (∃ blanks, value.filter (· ≠ '\r') = rest ++ blanks ∧ ∀ c ∈ blanks, c = ' ' ∨ c = '\n') ∧
    ∀ c, rest.getLast? = some c → c ≠ ' ' ∧ c ≠ '\n'

theorem isTrailingBlank_iff {c : Char} : isTrailingBlank c = true ↔ c = ' ' ∨ c = '\n' := by
  simp [isTrailingBlank]

theorem rdropWhile_append {blanks : Text} (h : ∀ c ∈ blanks, isTrailingBlank c = true)
    (rest : Text) :
    (rest ++ blanks).rdropWhile isTrailingBlank = rest.rdropWhile isTrailingBlank := by
  induction blanks using List.reverseRecOn with
  | nil => rw [List.append_nil]
  | append_singleton init c ih =>
    have hc : isTrailingBlank c = true := h c (by simp)
    rw [← List.append_assoc, List.rdropWhile_concat_pos _ _ _ hc]
    exact ih fun d hd => h d (List.mem_append_left _ hd)

/-- The normalized output is what is left of the text. -/
theorem normalizeTextOutput_eq_iff {value rest : Text} :
    normalizeTextOutput value = rest ↔ Stripped value rest := by
  unfold normalizeTextOutput Stripped
  constructor
  · rintro rfl
    refine ⟨⟨(value.filter (· ≠ '\r')).rtakeWhile isTrailingBlank, ?_, ?_⟩, ?_⟩
    · exact List.rdropWhile_append_rtakeWhile.symm
    · intro c hc
      exact isTrailingBlank_iff.1 (List.mem_rtakeWhile_imp hc)
    · intro c hc
      have hne : (value.filter (· ≠ '\r')).rdropWhile isTrailingBlank ≠ [] := by
        intro h
        rw [h, List.getLast?_nil] at hc
        cases hc
      have hlast := List.rdropWhile_last_not isTrailingBlank _ hne
      rw [List.getLast?_eq_some_getLast hne, Option.some.injEq] at hc
      rw [hc, isTrailingBlank_iff, not_or] at hlast
      exact hlast
  -- the rest ends with no blank, so no more than the blanks is dropped
  · rintro ⟨⟨blanks, heq, hblanks⟩, hlast⟩
    rw [heq, rdropWhile_append (fun c hc => isTrailingBlank_iff.2 (hblanks c hc)),
      List.rdropWhile_eq_self_iff]
    intro hne hblank
    obtain ⟨hspace, hnewline⟩ := hlast _ (List.getLast?_eq_some_getLast hne)
    rcases isTrailingBlank_iff.1 hblank with h | h
    · exact hspace h
    · exact hnewline h

/-- Two texts are equal to the judge when the same is left of both. -/
theorem normalizeTextOutput_eq_normalizeTextOutput_iff {value value' : Text} :
    normalizeTextOutput value = normalizeTextOutput value' ↔
      ∃ rest, Stripped value rest ∧ Stripped value' rest := by
  constructor
  · intro h
    exact ⟨_, normalizeTextOutput_eq_iff.1 h, normalizeTextOutput_eq_iff.1 rfl⟩
  · rintro ⟨rest, h, h'⟩
    rw [normalizeTextOutput_eq_iff.2 h, normalizeTextOutput_eq_iff.2 h']

/-! ### What is accepted -/

/-- The policies hold of an execution. -/
def PolicyHolds (specification : ExecutionSpecification) (execution : TextJudgeInput) : Prop :=
  execution.timedOut = false ∧ execution.truncated = false ∧
    (specification.exitCode = .zero → execution.exitCode = 0) ∧
    (specification.stderr = .mustBeEmpty → execution.stderr = [])

theorem executionPolicyFailure_eq_none_iff {specification : ExecutionSpecification}
    {execution : TextJudgeInput} :
    executionPolicyFailure specification execution = none ↔
      PolicyHolds specification execution := by
  unfold executionPolicyFailure PolicyHolds
  by_cases htimed : execution.timedOut = true
  · simp [htimed]
  by_cases htruncated : execution.truncated = true
  · simp [htimed, htruncated]
  rw [Bool.not_eq_true] at htimed htruncated
  by_cases hexit : specification.exitCode = .zero ∧ execution.exitCode ≠ 0
  · simp [htimed, htruncated, hexit]
  have hzero : specification.exitCode = .zero → execution.exitCode = 0 :=
    fun h => Decidable.byContradiction fun hne => hexit ⟨h, hne⟩
  simp only [htimed, htruncated, hexit, Bool.false_eq_true, if_false, true_and]
  by_cases hstderr : specification.stderr = .mustBeEmpty ∧ execution.stderr ≠ []
  · simp [hstderr]
  · have hempty : specification.stderr = .mustBeEmpty → execution.stderr = [] :=
      fun h => Decidable.byContradiction fun hne => hstderr ⟨h, hne⟩
    simp only [hstderr, if_false, true_iff]
    exact ⟨hzero, hempty⟩

theorem executionPolicyFailure_ne_accepted {specification : ExecutionSpecification}
    {execution : TextJudgeInput} {failure : JudgeResult}
    (h : executionPolicyFailure specification execution = some failure) :
    failure.verdict = .executionFailure := by
  unfold executionPolicyFailure at h
  grind

theorem judgeText_accepted_iff {specification : TextJudgeSpecification}
    {policies : ExecutionSpecification} {execution : TextJudgeInput} :
    (judgeText specification policies execution).verdict = .accepted ↔
      PolicyHolds policies execution ∧
      ∃ rest, Stripped (actualOutput policies execution.stdout execution.stderr) rest ∧
        Stripped specification.expectedOutput rest := by
  rw [← executionPolicyFailure_eq_none_iff, ← normalizeTextOutput_eq_normalizeTextOutput_iff]
  unfold judgeText
  cases hfailure : executionPolicyFailure policies execution with
  | some failure => simp [executionPolicyFailure_ne_accepted hfailure]
  | none =>
    by_cases hequal : normalizeTextOutput
        (actualOutput policies execution.stdout execution.stderr) =
        normalizeTextOutput specification.expectedOutput
    · simp [hequal, accepted]
    · simp [hequal]

/-- The artifact is the image that the problem asks for. -/
def ShowsAnswer (pillow : Bytes → Option PillowImage) (specification : ImageArtifactSpecification)
    (expectedArtifact : Bytes) (artifact : ExecutionArtifact) : Prop :=
  artifact.path = specification.path ∧ artifact.mediaType = specification.mediaType ∧
    ∃ payload pixels, Base64.decode artifact.data = some payload ∧
      matchesMediaType payload specification.mediaType = true ∧
      decodeImagePixels pillow payload specification.mediaType = some pixels ∧
      decodeImagePixels pillow expectedArtifact specification.mediaType = some pixels

theorem judgeImage_accepted_iff {pillow : Bytes → Option PillowImage}
    {specification : ImageArtifactSpecification} {expectedArtifact : Bytes}
    {actualArtifact : Option ExecutionArtifact} :
    (judgeImage pillow specification expectedArtifact actualArtifact).verdict = .accepted ↔
      ∃ artifact, actualArtifact = some artifact ∧
        ShowsAnswer pillow specification expectedArtifact artifact := by
  -- one case for each check of the artifact, in its order
  unfold judgeImage ShowsAnswer
  cases actualArtifact with
  | none => simp
  | some artifact =>
    by_cases hpath : artifact.path = specification.path
    swap
    · simp [hpath]
    by_cases hmedia : artifact.mediaType = specification.mediaType
    swap
    · simp [hpath, hmedia]
    cases hpayload : Base64.decode artifact.data with
    | none => simp [hpath, hmedia, hpayload]
    | some payload =>
      by_cases hmatches : matchesMediaType payload specification.mediaType = true
      swap
      · simp [hpath, hmedia, hpayload, hmatches]
      cases hactual : decodeImagePixels pillow payload specification.mediaType with
      | none => simp [hpath, hmedia, hpayload, hmatches, hactual]
      | some actualPixels =>
        cases hexpected : decodeImagePixels pillow expectedArtifact specification.mediaType with
        | none => simp [hpath, hmedia, hpayload, hmatches, hactual]
        | some expectedPixels =>
          by_cases hequal : actualPixels = expectedPixels
          · simp [hpath, hmedia, hpayload, hmatches, hactual, hequal, accepted]
          · simp [hpath, hmedia, hpayload, hmatches, hactual, hequal]

/-- The status and the policies hold of a result.  The validator of the result
is what ties the flags to the status, and gives a completed one its exit code. -/
theorem policyInput_holds_iff {specification : ExecutionSpecification}
    (execution : ExecutionResult) :
    execution.status ≠ .error ∧ PolicyHolds specification (policyInput execution.toResultFields) ↔
      execution.status = .completed ∧
      (specification.exitCode = .zero → execution.exitCode = some 0) ∧
      (specification.stderr = .mustBeEmpty → execution.stderr = []) := by
  have hfits := execution.consistent.status
  unfold ResultFields.StatusFits at hfits
  unfold PolicyHolds policyInput
  cases hstatus : execution.status with
  | completed =>
    rw [hstatus] at hfits
    obtain ⟨hexit, htimed, htruncated, -⟩ := hfits
    obtain ⟨code, hcode⟩ := Option.ne_none_iff_exists'.1 hexit
    simp [htimed, htruncated, hcode]
  | timedOut =>
    rw [hstatus] at hfits
    simp [show execution.timedOut = true from hfits]
  | outputLimit =>
    rw [hstatus] at hfits
    simp [show execution.truncated = true from hfits.2]
  | error => simp

/-- What the judge of a problem asks of the output of an execution. -/
def OutputAccepted (pillow : Bytes → Option PillowImage) (record : ProblemRecord)
    (execution : ResultFields) : Prop :=
  match record.definition.judge with
  | .text specification =>
    ∃ rest, Stripped (actualOutput record.definition.execution execution.stdout execution.stderr)
        rest ∧ Stripped specification.expectedOutput rest
  | .image specification =>
    ∃ artifact, execution.artifact = some artifact ∧
      ShowsAnswer pillow specification record.answerImage artifact

theorem judgeRecord_accepted_iff (pillow : Bytes → Option PillowImage) (record : ProblemRecord)
    (execution : ExecutionResult) :
    (judgeRecord pillow record execution.toResultFields).verdict = .accepted ↔
      (execution.status ≠ .error ∧
        PolicyHolds record.definition.execution (policyInput execution.toResultFields)) ∧
      OutputAccepted pillow record execution.toResultFields := by
  unfold judgeRecord OutputAccepted
  by_cases herror : execution.status = .error
  · simp [herror]
  rw [if_neg herror]
  cases hjudge : record.definition.judge with
  | text specification =>
    show (judgeText specification record.definition.execution _).verdict = .accepted ↔ _
    rw [judgeText_accepted_iff]
    simp [herror, policyInput]
  | image specification =>
    show (match executionPolicyFailure _ _ with
      | some failure => failure
      | none => judgeImage pillow specification record.answerImage execution.artifact).verdict =
        .accepted ↔ _
    rw [← executionPolicyFailure_eq_none_iff]
    cases hfailure : executionPolicyFailure record.definition.execution
        (policyInput execution.toResultFields) with
    | some failure => simp [executionPolicyFailure_ne_accepted hfailure]
    | none => simpa [herror] using judgeImage_accepted_iff

theorem judge_of_get (pillow : Bytes → Option PillowImage) {repository : ProblemRepository}
    {problemId : Text} {record : ProblemRecord} (h : repository.get problemId = some record)
    (execution : ExecutionResult) :
    judge pillow repository execution problemId =
      judgeRecord pillow record execution.toResultFields := by
  rw [judge, ProblemRepository.validateProblemId_of_get h]
  simp only [h]

/-- The fields that a judgment reads, besides those of the kind of the problem. -/
structure AgreeOnOutcome (execution other : ResultFields) : Prop where
  status : execution.status = other.status
  stderr : execution.stderr = other.stderr
  exit_code : execution.exitCode = other.exitCode
  timed_out : execution.timedOut = other.timedOut
  truncated : execution.truncated = other.truncated

/-- An image problem is judged without the standard output: only the policies
read the record that it is put into, and they do not look at it. -/
theorem executionPolicyFailure_congr (specification : ExecutionSpecification)
    {execution other : ResultFields} (h : AgreeOnOutcome execution other) :
    executionPolicyFailure specification (policyInput execution) =
      executionPolicyFailure specification (policyInput other) := by
  unfold executionPolicyFailure policyInput
  rw [h.stderr, h.exit_code, h.timed_out, h.truncated]

theorem judgeRecord_text_congr (pillow : Bytes → Option PillowImage) {record : ProblemRecord}
    {specification : TextJudgeSpecification}
    (hjudge : record.definition.judge = .text specification)
    {execution other : ResultFields} (h : AgreeOnOutcome execution other)
    (hstdout : execution.stdout = other.stdout) :
    judgeRecord pillow record execution = judgeRecord pillow record other := by
  have hinput : policyInput execution = policyInput other := by
    unfold policyInput
    rw [hstdout, h.stderr, h.exit_code, h.timed_out, h.truncated]
  simp only [judgeRecord, hjudge, hinput, h.status]

theorem judgeRecord_image_congr (pillow : Bytes → Option PillowImage) {record : ProblemRecord}
    {specification : ImageArtifactSpecification}
    (hjudge : record.definition.judge = .image specification)
    {execution other : ResultFields} (h : AgreeOnOutcome execution other)
    (hartifact : execution.artifact = other.artifact) :
    judgeRecord pillow record execution = judgeRecord pillow record other := by
  simp only [judgeRecord, hjudge, executionPolicyFailure_congr _ h, h.status, hartifact]

/-- A result is accepted exactly when it is completed, the policies hold and
its output is the one the problem asks for.  The judgment of a text problem
reads neither the artifacts nor the error, that of an image problem neither
the standard output, the display artifact nor the error. -/
theorem judge_exact (pillow : Bytes → Option PillowImage) {repository : ProblemRepository}
    {problemId : Text} {record : ProblemRecord} (h : repository.get problemId = some record)
    (execution : ExecutionResult) :
    ((judge pillow repository execution problemId).verdict = .accepted ↔
      execution.status = .completed ∧
      (record.definition.execution.exitCode = .zero → execution.exitCode = some 0) ∧
      (record.definition.execution.stderr = .mustBeEmpty → execution.stderr = []) ∧
      OutputAccepted pillow record execution.toResultFields) ∧
    (∀ specification, record.definition.judge = .text specification →
      ∀ other : ExecutionResult, AgreeOnOutcome execution.toResultFields other.toResultFields →
        execution.stdout = other.stdout →
        judge pillow repository other problemId = judge pillow repository execution problemId) ∧
    (∀ specification, record.definition.judge = .image specification →
      ∀ other : ExecutionResult, AgreeOnOutcome execution.toResultFields other.toResultFields →
        execution.artifact = other.artifact →
        judge pillow repository other problemId = judge pillow repository execution problemId) := by
  refine ⟨?_, ?_, ?_⟩
  · rw [judge_of_get pillow h, judgeRecord_accepted_iff, policyInput_holds_iff]
    simp only [and_assoc]
  · intro specification hjudge other hagree hstdout
    rw [judge_of_get pillow h, judge_of_get pillow h,
      judgeRecord_text_congr pillow hjudge hagree hstdout]
  · intro specification hjudge other hagree hartifact
    rw [judge_of_get pillow h, judge_of_get pillow h,
      judgeRecord_image_congr pillow hjudge hagree hartifact]

/-- A completed result with the given output. -/
def printed (stdout : Text) (h : stdout.length ≤ maxCapturedOutputChars) : ExecutionResult where
  status := .completed
  stdout := stdout
  stderr := []
  exitCode := some 0
  timedOut := false
  truncated := false
  durationMs := 5
  artifact := none
  error := none
  displayArtifact := none
  valid := ResultFields.errors_eq_nil_iff.2
    { output := by simpa using h
      duration := Int.le_of_lt (by decide : (0 : ℤ) < 5)
      error_length := Nat.zero_le _
      status := ⟨by simp, rfl, rfl, rfl⟩
      data := Nat.zero_le _
      display := by simp
      incomplete := fun h => absurd rfl h }

theorem judge_exact_blankLine :
    (judge (fun _ => none) [silentProblem] (printed ['\r', '\n'] (by decide))
      "STANDARD-1".toList).verdict = .accepted := by
  have hget : ProblemRepository.get [silentProblem] "STANDARD-1".toList = some silentProblem := by
    rfl
  refine (judge_exact (fun _ => none) hget (printed ['\r', '\n'] (by decide))).1.2
    ⟨rfl, fun _ => rfl, fun _ => rfl, [], ?_, ?_⟩
  · exact ⟨⟨['\n'], by decide, by simp⟩, by simp⟩
  · exact ⟨⟨[], by decide, by simp⟩, by simp⟩

end Judge
