/-
The bytes that the judged image and the display image share
(`capture_artifact`, `capture_display_artifact` and the quota between them in
soj_runner/sandbox_executor.py).

A buffer of one byte more than the limit tells a stream that fits from one that
does not, so a capture is all of its stream or nothing (`captureBounded_eq`).
The quota of the display image is the most that the Base64 of the judged one
leaves (`remainingBytes_isGreatest`), so the two always fit into one result
(`image_budget`).
-/
import Mathlib.Algebra.Order.Floor.Div
import Mathlib.GroupTheory.GroupAction.Ring
import ShellgeiOnlineJudge.OutputPipeline

namespace ImageBudget

open Utf8 Problem Execution SandboxExecutor ExecShellgei OutputPipeline

/-- The output is `content`, in one piece or in whatever chunks. -/
def Delivers (output : Output) (content : Bytes) : Prop :=
  output = .bytes content ∨ ∃ chunks, output = .stream chunks none ∧ chunks.flatten = content

/-- The characters that the Base64 of `n` bytes takes. -/
def base64Chars (n : ℕ) : ℕ := 4 * (n ⌈/⌉ 3)

theorem base64Chars_eq (n : ℕ) : base64Chars n = 4 * ((n + 2) / 3) := by
  rw [base64Chars, Nat.ceilDiv_eq_add_pred_div]
  rfl

theorem length_encode (bytes : Bytes) :
    (Base64.encode bytes).length = base64Chars bytes.length := by
  rw [Base64.length_encode, base64Chars_eq]

/-! ### One capture -/

/-- The buffer takes all the chunks when they fit, whatever their bounds. -/
theorem boundedRead_eq (byteLimit : ℕ) (data : Bytes) (chunks : List Bytes)
    (hdata : data.length ≤ byteLimit) :
    boundedRead byteLimit data chunks =
      if data.length + chunks.flatten.length ≤ byteLimit then some (data ++ chunks.flatten)
      else none := by
  induction chunks generalizing data with
  | nil => simp [boundedRead, hdata]
  | cons chunk rest ih =>
    rw [boundedRead]
    by_cases hempty : chunk = []
    · rw [if_pos hempty, ih data hdata, hempty, List.flatten_cons, List.nil_append]
    · rw [if_neg hempty, List.flatten_cons, List.length_append]
      by_cases hfits : byteLimit - data.length < chunk.length
      · -- this chunk breaks the loop, and the whole does not fit either
        have hover : ¬ data.length + (chunk.length + rest.flatten.length) ≤ byteLimit := by
          omega
        rw [boundedAppend, if_pos hfits, if_neg hover]
      · have hlength : (data ++ chunk).length ≤ byteLimit := by
          rw [List.length_append]
          omega
        rw [boundedAppend, if_neg hfits]
        show boundedRead byteLimit (data ++ chunk) rest = _
        rw [ih _ hlength, List.length_append, List.append_assoc, Nat.add_assoc]

theorem readOutput_eq {output : Output} {content : Bytes} (h : Delivers output content)
    (byteLimit : ℕ) :
    readOutput byteLimit (.ok output) =
      if content.length ≤ byteLimit then some content else none := by
  obtain rfl | ⟨chunks, rfl, rfl⟩ := h
  · rw [readOutput, boundedRead_eq _ _ _ (Nat.zero_le _)]
    simp
  · rw [readOutput, boundedRead_eq _ _ _ (Nat.zero_le _)]
    simp

/-- A capture is all of its stream, when that is not empty and within the limit. -/
theorem captureBounded_eq {output : Output} {content : Bytes} (h : Delivers output content)
    (maxBytes : ℕ) :
    captureBounded maxBytes (.ok output) =
      if 1 ≤ content.length ∧ content.length ≤ maxBytes then some content else none := by
  rw [captureBounded, readOutput_eq h]
  by_cases hbuffer : content.length ≤ maxBytes + 1
  · rw [if_pos hbuffer]
    show (if content = [] ∨ maxBytes < content.length then none else some content) = _
    by_cases hbad : content = [] ∨ maxBytes < content.length
    · have hno : ¬ (1 ≤ content.length ∧ content.length ≤ maxBytes) := by
        rintro ⟨hpos, hle⟩
        rcases hbad with hnil | hover
        · rw [hnil] at hpos
          cases hpos
        · omega
      rw [if_pos hbad, if_neg hno]
    · rw [not_or] at hbad
      have hpos := List.length_pos_of_ne_nil hbad.1
      rw [if_neg (not_or.mpr hbad), if_pos ⟨hpos, by omega⟩]
  · have hno : ¬ (1 ≤ content.length ∧ content.length ≤ maxBytes) := by omega
    rw [if_neg hbuffer, if_neg hno]
    rfl

/-! ### The two captures -/

section Budget

variable {faults : Faults}

theorem captureArtifact_eq {output : Output} {content : Bytes}
    (hread : faults.readArtifact = .ok output) (h : Delivers output content) (maxBytes : ℕ) :
    captureArtifact faults maxBytes =
      if 1 ≤ content.length ∧ content.length ≤ maxBytes then some content else none := by
  rw [captureArtifact, hread, captureBounded_eq h]

/-- A quota of nothing is no stream that fits either. -/
theorem captureDisplayArtifact_eq {output : Output} {content : Bytes}
    (hread : faults.readDisplayArtifact = .ok output) (h : Delivers output content)
    (maxBytes : ℕ) :
    captureDisplayArtifact faults maxBytes =
      if 1 ≤ content.length ∧ content.length ≤ maxBytes then some content else none := by
  rw [captureDisplayArtifact]
  by_cases hzero : maxBytes = 0
  · rw [if_pos hzero, if_neg (by omega)]
  · rw [if_neg hzero, hread, captureBounded_eq h]

theorem judgedArtifact_getD_length (judge : JudgeSpecification) :
    ((judgedArtifact faults judge).getD []).length ≤ maxArtifactBytes := by
  cases hjudged : judgedArtifact faults judge with
  | none => exact Nat.zero_le _
  | some payload => exact (judgedArtifact_length hjudged).2

/-- The quota is the most that fits beside the Base64 of the judged image. -/
theorem remainingBytes_isGreatest {artifact : Option Bytes}
    (h : (artifact.getD []).length ≤ maxArtifactBytes) :
    IsGreatest {m | base64Chars (artifact.getD []).length + base64Chars m ≤
      maxRunnerImageBase64Chars} (remainingBytes artifact) := by
  unfold maxArtifactBytes at h
  constructor
  · rw [Set.mem_ofPred_eq, base64Chars_eq, base64Chars_eq]
    simp only [remainingBytes, maxRunnerImageBase64Chars]
    omega
  · intro m hm
    rw [Set.mem_ofPred_eq, base64Chars_eq, base64Chars_eq] at hm
    simp only [remainingBytes, maxRunnerImageBase64Chars] at hm ⊢
    omega

theorem captureDisplayArtifact_getD_length (maxBytes : ℕ) :
    ((captureDisplayArtifact faults maxBytes).getD []).length ≤ maxBytes := by
  rw [captureDisplayArtifact]
  by_cases hzero : maxBytes = 0
  · rw [if_pos hzero]
    exact Nat.zero_le _
  · rw [if_neg hzero]
    cases hcapture : captureBounded maxBytes faults.readDisplayArtifact with
    | none => exact Nat.zero_le _
    | some payload => exact captureBounded_length hcapture

/-- The Base64 of both images within the limit leaves both within its bytes. -/
theorem bytes_of_base64Chars {n m : ℕ}
    (h : base64Chars n + base64Chars m ≤ maxRunnerImageBase64Chars) :
    n + m ≤ maxArtifactBytes := by
  rw [base64Chars_eq, base64Chars_eq] at h
  unfold maxRunnerImageBase64Chars at h
  unfold maxArtifactBytes
  omega

/-- While nothing has gone wrong both images are read. -/
theorem captureArtifacts_untimed (huntimed : faults.timer = none) (judge : JudgeSpecification)
    {output : CapturedCommandOutput} {world : World} (herror : output.error = none)
    (hreason : world.watchdog.reason = none) :
    captureArtifacts faults judge output world =
      ((judgedArtifact faults judge,
        captureDisplayArtifact faults (remainingBytes (judgedArtifact faults judge))), world) := by
  simp only [captureArtifacts, tick_untimed huntimed, herror, hreason, and_self, if_true]

/-! ### The pair in a result -/

variable {record : ProblemRecord} {shellgei : Text} {limitChars : ℕ}

/-- An outcome that is completed carries both images. -/
theorem buildOutcome_completed (huntimed : faults.timer = none) {judge : JudgeSpecification}
    {output : CapturedCommandOutput} {world : World}
    (h : (buildOutcome faults output (captureArtifacts faults judge output world).1
      (stop faults (captureArtifacts faults judge output world).2).1).status = .completed) :
    (buildOutcome faults output (captureArtifacts faults judge output world).1
        (stop faults (captureArtifacts faults judge output world).2).1).artifact =
      judgedArtifact faults judge ∧
    (buildOutcome faults output (captureArtifacts faults judge output world).1
        (stop faults (captureArtifacts faults judge output world).2).1).displayArtifact =
      captureDisplayArtifact faults (remainingBytes (judgedArtifact faults judge)) := by
  have hworld : (captureArtifacts faults judge output world).2 = world := by
    simp only [captureArtifacts, tick_untimed huntimed]
  rw [hworld] at h ⊢
  have hcleanup : (stop faults world).1.reason = world.watchdog.reason := by
    rw [stop, tick_untimed huntimed]
    cases world.watchdog.reason <;> rfl
  have hstatus : (outcomeStatus output (stop faults world).1).1 = .completed := h
  rcases outcomeStatus_cases output (stop faults world).1 with ⟨-, hne⟩ | ⟨-, hne⟩ | ⟨-, hne, -⟩ |
    ⟨hreason, -, -, herror, -⟩
  · rw [hne] at hstatus
    cases hstatus
  · rw [hne] at hstatus
    cases hstatus
  · rw [hne] at hstatus
    cases hstatus
  · rw [captureArtifacts_untimed huntimed judge herror (hcleanup.symm.trans hreason)]
    simp only [buildOutcome, hstatus, ne_eq, not_true_eq_false, if_false, and_self]

/-- An execution in a container ends with an outcome in one way only. -/
theorem executeInContainer_ok {world after : World} {result : SandboxExecutionOutcome × Bool}
    (h : executeInContainer faults record shellgei limitChars world = (.ok result, after)) :
    ∃ output captured, result.1 =
      buildOutcome faults output
        (captureArtifacts faults record.definition.judge output captured).1
        (stop faults (captureArtifacts faults record.definition.judge output captured).2).1 := by
  rw [executeInContainer] at h
  -- every other way ends with an error
  cases hprepare : prepare faults shellgei record.fixtures world with
  | mk prepared ready =>
    cases prepared with
    | error exc =>
      simp only [hprepare] at h
      cases h
    | ok u =>
      cases htimer : faults.timerStart with
      | error exc =>
        simp only [hprepare, htimer] at h
        cases h
      | ok u' =>
        cases hcapture : captureCommandOutput faults limitChars
          { ready with watchdog := Watchdog.new } with
        | mk capture captured =>
          cases capture with
          | error exc =>
            simp only [hprepare, htimer, hcapture] at h
            cases h
          | ok output =>
            simp only [hprepare, htimer, hcapture] at h
            obtain ⟨hresult, -⟩ := Prod.mk.inj h
            refine ⟨output, captured, ?_⟩
            rw [← Except.ok.inj hresult]

/-- A completed execution carries both images. -/
theorem execute_completed (huntimed : faults.timer = none) {outcome : SandboxExecutionOutcome}
    (h : (execute faults record shellgei limitChars).1 = .ok outcome)
    (hcompleted : outcome.status = .completed) :
    outcome.artifact = judgedArtifact faults record.definition.judge ∧
      outcome.displayArtifact = captureDisplayArtifact faults
        (remainingBytes (judgedArtifact faults record.definition.judge)) := by
  rw [execute] at h
  cases hget : faults.getContainer with
  | error exc =>
    simp only [hget] at h
    cases h
  | ok u =>
    cases hrun : executeInContainer faults record shellgei limitChars
      ⟨Watchdog.new, [.getContainer]⟩ with
    | mk answer after =>
      cases answer with
      | error exc =>
        -- an exception becomes an outcome that is not completed
        simp only [hget, hrun] at h
        obtain rfl := Except.ok.inj h
        cases hcompleted
      | ok result =>
        simp only [hget, hrun] at h
        obtain rfl : result.1 = outcome := Except.ok.inj h
        obtain ⟨output, captured, hresult⟩ := executeInContainer_ok hrun
        rw [hresult] at hcompleted ⊢
        exact buildOutcome_completed huntimed hcompleted

theorem resultArtifact_completed {payload : Option Bytes} {judge : JudgeSpecification}
    {artifact : Option ExecutionArtifact}
    (h : resultArtifact .completed judge payload = .ok artifact)
    (hjudge : ∀ bytes, payload = some bytes → ∃ specification, judge = .image specification) :
    artifact.map (·.data) = payload.map Base64.encode := by
  cases payload with
  | none =>
    rw [resultArtifact] at h
    · rw [← Except.ok.inj h]
      rfl
    · rintro specification payload - - ⟨⟩
  | some bytes =>
    obtain ⟨specification, hspecification⟩ := hjudge bytes rfl
    rw [hspecification, resultArtifact] at h
    obtain ⟨built, hbuild, hsome⟩ := bind_eq_ok.mp h
    rw [← Except.ok.inj hsome, Option.map_some, ExecutionArtifact.data_of_build hbuild,
      Option.map_some]

theorem resultDisplayArtifact_completed {payload : Option Bytes}
    {artifact : Option ExecutionArtifact}
    (h : resultDisplayArtifact .completed payload = .ok artifact) :
    artifact.map (·.data) = payload.map Base64.encode := by
  cases payload with
  | none =>
    rw [resultDisplayArtifact] at h
    · rw [← Except.ok.inj h]
      rfl
    · rintro payload - ⟨⟩
  | some bytes =>
    rw [resultDisplayArtifact] at h
    obtain ⟨built, hbuild, hsome⟩ := bind_eq_ok.mp h
    rw [← Except.ok.inj hsome, Option.map_some, ExecutionArtifact.data_of_build hbuild,
      Option.map_some]

/-- The artifacts of a completed result are the Base64 of the two images. -/
theorem toExecutionResult_completed {outcome : SandboxExecutionOutcome}
    {result : ExecutionResult} (h : toExecutionResult outcome record limitChars = .ok result)
    (hcompleted : result.status = .completed)
    (hjudge : ∀ payload, outcome.artifact = some payload →
      ∃ specification, record.definition.judge = .image specification) :
    outcome.status = .completed ∧
      result.artifact.map (·.data) = outcome.artifact.map Base64.encode ∧
      result.displayArtifact.map (·.data) = outcome.displayArtifact.map Base64.encode := by
  unfold toExecutionResult at h
  obtain ⟨artifact, hartifact, h⟩ := bind_eq_ok.mp h
  obtain ⟨displayArtifact, hdisplay, h⟩ := bind_eq_ok.mp h
  have hfields : result.toResultFields =
      resultFields outcome limitChars artifact displayArtifact :=
    ExecutionResult.fields_of_build h
  have hstatus : decodedStatus outcome (decodeOutput outcome limitChars).2.2 = .completed := by
    rw [← hcompleted, hfields]
    rfl
  rw [hstatus] at hartifact hdisplay
  rw [hfields]
  exact ⟨(decodedStatus_eq_completed hstatus).1, resultArtifact_completed hartifact hjudge,
    resultDisplayArtifact_completed hdisplay⟩

/-- The conversion of an execution never fails on its two images, and a completed
result has them both. -/
theorem toExecutionResult_images (huntimed : faults.timer = none) (hpos : 1 ≤ limitChars)
    (hlimit : limitChars ≤ maxCapturedOutputChars) {outcome : SandboxExecutionOutcome}
    (h : (execute faults record shellgei limitChars).1 = .ok outcome) :
    ∃ result, toExecutionResult outcome record limitChars = .ok result ∧
      (result.status = .completed →
        result.artifact.map (·.data) =
          (judgedArtifact faults record.definition.judge).map Base64.encode ∧
        result.displayArtifact.map (·.data) = (captureDisplayArtifact faults
          (remainingBytes (judgedArtifact faults record.definition.judge))).map
            Base64.encode) := by
  rcases @execute_spec faults record shellgei limitChars hpos with
    ⟨exc, -, hexc, -⟩ | ⟨outcome', stopped, -, houtcome, -, -, hspec⟩
  · rw [hexc] at h
    cases h
  · obtain rfl : outcome' = outcome := Except.ok.inj (houtcome.symm.trans h)
    obtain ⟨result, -, -, hresult, -⟩ := toExecutionResult_spec hlimit hspec
    refine ⟨result, hresult, fun hcompleted => ?_⟩
    obtain ⟨hout, hjudged, hdisplay⟩ :=
      toExecutionResult_completed hresult hcompleted hspec.judged
    obtain ⟨hartifact, hdisplayArtifact⟩ := execute_completed huntimed h hout
    rw [hjudged, hdisplay, hartifact, hdisplayArtifact]
    exact ⟨rfl, rfl⟩

/-- With no timeout and no failing stream: each image is all of its stream or
nothing, the quota of the display image is the most that fits beside the Base64
of the judged one, and the two always fit into one result. -/
theorem image_budget (faults : Faults) (huntimed : faults.timer = none)
    {judgedOutput displayOutput : Output} {judged display : Bytes}
    (hjudged : faults.readArtifact = .ok judgedOutput) (hj : Delivers judgedOutput judged)
    (hdisplay : faults.readDisplayArtifact = .ok displayOutput)
    (hd : Delivers displayOutput display) :
    (∀ maxBytes, captureArtifact faults maxBytes =
      if 1 ≤ judged.length ∧ judged.length ≤ maxBytes then some judged else none) ∧
    ∀ judge artifact, judgedArtifact faults judge = artifact →
      IsGreatest {m | 4 * ((artifact.getD []).length ⌈/⌉ 3) + 4 * (m ⌈/⌉ 3) ≤
        maxRunnerImageBase64Chars} (remainingBytes artifact) ∧
      ∀ displayArtifact,
        captureDisplayArtifact faults (remainingBytes artifact) = displayArtifact →
        displayArtifact = (if 1 ≤ display.length ∧ display.length ≤ remainingBytes artifact then
          some display else none) ∧
        (∀ output world, output.error = none → world.watchdog.reason = none →
          captureArtifacts faults judge output world = ((artifact, displayArtifact), world)) ∧
        (Base64.encode (artifact.getD [])).length +
          (Base64.encode (displayArtifact.getD [])).length ≤ 1_000_000 ∧
        (artifact.getD []).length + (displayArtifact.getD []).length ≤ 750_000 ∧
        ∀ (record : ProblemRecord) (shellgei : Text) (limitChars : ℕ)
          (outcome : SandboxExecutionOutcome), record.definition.judge = judge →
          1 ≤ limitChars → limitChars ≤ maxCapturedOutputChars →
          (execute faults record shellgei limitChars).1 = .ok outcome →
          ∃ result, toExecutionResult outcome record limitChars = .ok result ∧
            (result.status = .completed →
              result.artifact.map (·.data) = artifact.map Base64.encode ∧
              result.displayArtifact.map (·.data) = displayArtifact.map Base64.encode) := by
  refine ⟨captureArtifact_eq hjudged hj, ?_⟩
  rintro judge _ rfl
  have hgreatest := remainingBytes_isGreatest (@judgedArtifact_getD_length faults judge)
  refine ⟨hgreatest, ?_⟩
  rintro _ rfl
  -- what was captured is within the quota, which is within the limit
  have hquota := @captureDisplayArtifact_getD_length faults
    (remainingBytes (judgedArtifact faults judge))
  have hchars : base64Chars ((judgedArtifact faults judge).getD []).length +
      base64Chars ((captureDisplayArtifact faults
        (remainingBytes (judgedArtifact faults judge))).getD []).length ≤
      maxRunnerImageBase64Chars := by
    have hfits := hgreatest.1
    rw [Set.mem_ofPred_eq] at hfits
    rw [base64Chars_eq, base64Chars_eq] at hfits ⊢
    omega
  refine ⟨captureDisplayArtifact_eq hdisplay hd _, ?_, ?_, bytes_of_base64Chars hchars, ?_⟩
  · intro output world herror hreason
    exact captureArtifacts_untimed huntimed judge herror hreason
  · rw [length_encode, length_encode]
    exact hchars
  · rintro record shellgei limitChars outcome rfl hpos hlimit h
    exact toExecutionResult_images huntimed hpos hlimit h

/-- Two images of two bytes, the second in one piece. -/
def twoImages : Faults :=
  { printsHi with
    readArtifact := .ok (.stream [[1], [], [2]] none)
    readDisplayArtifact := .ok (.bytes [3, 4]) }

/-- A judged image of at most two bytes. -/
def tinyJpeg : JudgeSpecification :=
  .image
    { path := "media/output.jpg".toList
      mediaType := .jpeg
      maxBytes := 2
      path_valid := output_jpg_path
      max_bytes_valid := by decide
      suffix_valid := output_jpg_suffix }

theorem image_budget_twoImages :
    captureArtifact twoImages 2 = some [1, 2] ∧ captureArtifact twoImages 1 = none ∧
      captureDisplayArtifact twoImages (remainingBytes (some [1, 2])) = some [3, 4] := by
  obtain ⟨hcapture, hpair⟩ := image_budget twoImages rfl rfl (Or.inr ⟨[[1], [], [2]], rfl, rfl⟩)
    rfl (Or.inl rfl)
  have hjudged : judgedArtifact twoImages tinyJpeg = some [1, 2] := by rfl
  obtain ⟨-, hdisplay⟩ := hpair tinyJpeg (some [1, 2]) hjudged
  refine ⟨?_, ?_, ?_⟩
  · rw [hcapture]
    decide
  · rw [hcapture]
    decide
  · obtain ⟨heq, -⟩ := hdisplay _ rfl
    rw [heq]
    decide

end Budget

end ImageBudget
