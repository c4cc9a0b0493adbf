/-
The output of a command from the Docker stream to the execution result.

The bytes of both streams share a limit while they are read, are then decoded
with invalid bytes dropped, and the characters share a limit of their own.  In
an execution without faults the composition is simple:

* `output_exact` — the result is cut from the decoding of the whole streams, and
  within the byte limit it does not depend on the chunks they came in;
* `output_of_text` — UTF-8 text within the limit comes through as it was.
-/
import ShellgeiOnlineJudge.ExecShellgei

namespace OutputPipeline

open Utf8 Problem Execution SandboxExecutor ExecShellgei

/-- No call of Docker raises, the exit code is known and the timer does not fire. -/
structure Quiet (faults : Faults) : Prop where
  acquired : faults.getContainer = .ok ()
  prepared : faults.prepare = .ok (some 0)
  timer : faults.timerStart = .ok ()
  untimed : faults.timer = none
  created : ∃ execId, execId ≠ [] ∧ faults.execCreate = .ok (some execId)
  started : ∃ stream, faults.execStart = .ok stream ∧ stream.failure = none ∧
    closeError stream = none
  inspected : ∃ exitCode, faults.execInspect = .ok (.code exitCode)
  terminated : faults.terminateKill = .ok ()
  stopped : faults.stopKill = .ok ()

theorem printsHi_quiet : Quiet printsHi where
  acquired := rfl
  prepared := rfl
  timer := rfl
  untimed := rfl
  created := ⟨['1'], by simp, rfl⟩
  started := ⟨_, rfl, rfl, rfl⟩
  inspected := ⟨0, rfl⟩
  terminated := rfl
  stopped := rfl

/-- The faults with other chunks in the stream. -/
def sending (faults : Faults) (chunks : List (Option Bytes × Option Bytes)) : Faults :=
  { faults with execStart := faults.execStart.map fun stream => { stream with chunks } }

section Capture

variable {faults : Faults} {chunks : List (Option Bytes × Option Bytes)} {limitChars : ℕ}
  {world : World}

/-- A timer that does not fire changes nothing. -/
theorem tick_untimed (h : faults.timer = none) (moment : Moment) :
    tick faults moment world = world := by
  rw [tick, h, if_neg (by simp)]

theorem start_sending (h : Quiet faults) :
    ∃ execId stream, start (sending faults chunks) = .ok (execId, stream) ∧
      stream.chunks = chunks ∧ stream.failure = none ∧ closeError stream = none := by
  obtain ⟨execId, hne, hcreate⟩ := h.created
  obtain ⟨stream, hstart, hfailure, hclose⟩ := h.started
  cases execId with
  | nil => exact absurd rfl hne
  | cons c rest =>
    refine ⟨c :: rest, { stream with chunks }, ?_, rfl, hfailure, hclose⟩
    simp only [start, sending, hcreate, hstart]
    rfl

theorem inspect_quiet (h : Quiet faults) :
    ∃ exitCode, inspectExitCode faults = .ok (some exitCode) := by
  obtain ⟨exitCode, hinspect⟩ := h.inspected
  refine ⟨exitCode, ?_⟩
  rw [inspectExitCode, hinspect]
  rfl

/-- Without faults the capture is the loop over the chunks. -/
theorem captureCommandOutput_quiet (h : Quiet faults) (hpos : 1 ≤ limitChars)
    (hreason : world.watchdog.reason = none) {exitCode : ℤ}
    (hexit : inspectExitCode faults = .ok (some exitCode)) {buffer : SplitOutputBuffer}
    {kept : Bool}
    (hread : readChunks (SplitOutputBuffer.new (limitChars * maxUtf8BytesPerChar)) chunks =
      (buffer, kept)) :
    captureCommandOutput (sending faults chunks) limitChars world =
      (.ok ⟨buffer.stdout, buffer.stderr, some exitCode, buffer.truncated, none⟩,
        if kept then world else terminate faults .outputLimit world) := by
  have hbytes : ¬ limitChars * maxUtf8BytesPerChar < 1 := by
    unfold maxUtf8BytesPerChar
    omega
  have hreason' : ¬ world.watchdog.reason ≠ none := not_not.2 hreason
  have huntimed : (sending faults chunks).timer = none := h.untimed
  have hinspect : inspectExitCode (sending faults chunks) = .ok (some exitCode) := hexit
  obtain ⟨execId, stream, hstart, hchunks, hfailure, hclose⟩ := @start_sending _ chunks h
  simp only [captureCommandOutput, if_neg hbytes, tick_untimed huntimed, if_neg hreason', hstart,
    hchunks, hread, hinspect, hfailure, hclose, ite_self, Option.or_none]
  rfl

end Capture

section Execution

variable {faults : Faults} {chunks : List (Option Bytes × Option Bytes)} {record : ProblemRecord}
  {shellgei : Text} {limitChars : ℕ}

/-- The world in which the command starts. -/
def startWorld (record : ProblemRecord) (shellgei : Text) : World where
  watchdog := Watchdog.new
  calls :=
    [.getContainer, .prepare (ExecutionArchive.buildExecutionArchive shellgei record.fixtures)]

/-- Without faults an execution is its capture, its artifacts and its cleanup. -/
theorem execute_quiet (h : Quiet faults) {output : CapturedCommandOutput} {after : World}
    (hcapture : captureCommandOutput (sending faults chunks) limitChars
      (startWorld record shellgei) = (.ok output, after)) :
    execute (sending faults chunks) record shellgei limitChars =
      let (artifacts, world) := captureArtifacts faults record.definition.judge output after
      let (cleanup, world) := stop faults world
      (.ok (buildOutcome faults output artifacts cleanup),
        world.call (.releaseContainer cleanup.containerStopped)) := by
  have hget : (sending faults chunks).getContainer = .ok () := h.acquired
  have hprepare : (sending faults chunks).prepare = .ok (some 0) := h.prepared
  have htimer : (sending faults chunks).timerStart = .ok () := h.timer
  rw [startWorld] at hcapture
  simp only [execute, executeInContainer, prepare, hget, hprepare, htimer, ne_eq,
    not_true_eq_false, if_false, World.call, List.cons_append, List.nil_append, hcapture]
  rfl

/-- Streams with the same bytes within the limit make the same execution. -/
theorem execute_sending_eq (h : Quiet faults) (hpos : 1 ≤ limitChars)
    {chunks' : List (Option Bytes × Option Bytes)}
    (hfits : (stdoutBytes chunks).length + (stderrBytes chunks).length ≤
      limitChars * maxUtf8BytesPerChar)
    (hstdout : stdoutBytes chunks' = stdoutBytes chunks)
    (hstderr : stderrBytes chunks' = stderrBytes chunks) :
    execute (sending faults chunks') record shellgei limitChars =
      execute (sending faults chunks) record shellgei limitChars := by
  obtain ⟨exitCode, hexit⟩ := inspect_quiet h
  have hsize : (SplitOutputBuffer.new (limitChars * maxUtf8BytesPerChar)).size = 0 := rfl
  have hlimit : (SplitOutputBuffer.new (limitChars * maxUtf8BytesPerChar)).byteLimit =
      limitChars * maxUtf8BytesPerChar := rfl
  have hread := @readChunks_fits (SplitOutputBuffer.new (limitChars * maxUtf8BytesPerChar)) chunks
    (by omega)
  have hread' := @readChunks_fits (SplitOutputBuffer.new (limitChars * maxUtf8BytesPerChar)) chunks'
    (by rw [hstdout, hstderr]; omega)
  rw [hstdout, hstderr] at hread'
  rw [execute_quiet h (captureCommandOutput_quiet h hpos rfl hexit hread),
    execute_quiet h (captureCommandOutput_quiet h hpos rfl hexit hread')]

/-- What the outcome of an execution without faults takes from the loop. -/
theorem execute_quiet_outcome (h : Quiet faults) (hpos : 1 ≤ limitChars)
    {buffer : SplitOutputBuffer} {kept : Bool}
    (hread : readChunks (SplitOutputBuffer.new (limitChars * maxUtf8BytesPerChar)) chunks =
      (buffer, kept)) :
    ∃ outcome, (execute (sending faults chunks) record shellgei limitChars).1 = .ok outcome ∧
      outcome.stdout = buffer.stdout ∧ outcome.stderr = buffer.stderr ∧
      outcome.truncated = buffer.truncated ∧
      outcome.status = if kept then .completed else .outputLimit := by
  obtain ⟨exitCode, hexit⟩ := inspect_quiet h
  rw [execute_quiet h (captureCommandOutput_quiet h hpos rfl hexit hread)]
  refine ⟨_, rfl, rfl, rfl, rfl, ?_⟩
  cases kept with
  | true =>
    simp [buildOutcome, captureArtifacts, tick_untimed h.untimed, stop, startWorld, Watchdog.new,
      h.stopped, raised, outcomeStatus]
  | false =>
    simp [buildOutcome, captureArtifacts, tick_untimed h.untimed, stop, startWorld, Watchdog.new,
      terminate, World.call, outcomeStatus]

/-- What the result of an execution without faults takes from the loop. -/
theorem result_quiet (h : Quiet faults) (hpos : 1 ≤ limitChars)
    (hlimit : limitChars ≤ maxCapturedOutputChars) {buffer : SplitOutputBuffer} {kept : Bool}
    (hread : readChunks (SplitOutputBuffer.new (limitChars * maxUtf8BytesPerChar)) chunks =
      (buffer, kept)) :
    ∃ outcome result, (execute (sending faults chunks) record shellgei limitChars).1 =
        .ok outcome ∧
      toExecutionResult outcome record limitChars = .ok result ∧
      result.stdout = (decode buffer.stdout).take limitChars ∧
      result.stderr = (decode buffer.stderr).take (limitChars - result.stdout.length) ∧
      (result.truncated = true ↔ buffer.truncated = true ∨
        limitChars < (decode buffer.stdout).length + (decode buffer.stderr).length) ∧
      result.status =
        if kept = true ∧ result.truncated = false then .completed else .outputLimit := by
  obtain ⟨outcome, houtcome, hstdout, hstderr, htruncated, hstatus⟩ :=
    @execute_quiet_outcome faults chunks record shellgei limitChars h hpos buffer kept hread
  have hget : (sending faults chunks).getContainer = .ok () := h.acquired
  -- the execution borrows a container, so it has an outcome
  obtain ⟨exc, hexc, -⟩ | ⟨outcome', stopped, -, houtcome', -, -, hspec⟩ :=
    @execute_spec (sending faults chunks) record shellgei limitChars hpos
  · rw [hget] at hexc
    cases hexc
  · obtain rfl : outcome' = outcome := Except.ok.inj (houtcome'.symm.trans houtcome)
    obtain ⟨result, artifact, displayArtifact, hresult, hfields⟩ :=
      toExecutionResult_spec hlimit hspec
    refine ⟨outcome', result, houtcome, hresult, ?_, ?_, ?_, ?_⟩
    · rw [hfields, ← hstdout]
      rfl
    · rw [hfields, ← hstderr]
      rfl
    · rw [hfields]
      simp only [resultFields, decodeOutput, Bool.or_eq_true, decide_eq_true_eq, htruncated,
        hstdout, hstderr, List.length_take, or_assoc]
      refine or_congr Iff.rfl ?_
      omega
    · rw [hfields]
      simp only [resultFields, decodedStatus, hstatus]
      cases kept <;> cases (decodeOutput outcome' limitChars).2.2 <;> simp

/-- Streams within the byte limit are decoded whole and then cut. -/
theorem output_fits (h : Quiet faults) (hpos : 1 ≤ limitChars)
    (hlimit : limitChars ≤ maxCapturedOutputChars)
    (hfits : (stdoutBytes chunks).length + (stderrBytes chunks).length ≤
      limitChars * maxUtf8BytesPerChar) :
    ∃ outcome result, (execute (sending faults chunks) record shellgei limitChars).1 =
        .ok outcome ∧
      toExecutionResult outcome record limitChars = .ok result ∧
      result.stdout = (decode (stdoutBytes chunks)).take limitChars ∧
      result.stderr =
        (decode (stderrBytes chunks)).take (limitChars - result.stdout.length) ∧
      (result.truncated = true ↔ limitChars <
        (decode (stdoutBytes chunks)).length + (decode (stderrBytes chunks)).length) ∧
      result.status = if result.truncated = true then .outputLimit else .completed := by
  have hsize : (SplitOutputBuffer.new (limitChars * maxUtf8BytesPerChar)).size = 0 := rfl
  have hbytes : (SplitOutputBuffer.new (limitChars * maxUtf8BytesPerChar)).byteLimit =
      limitChars * maxUtf8BytesPerChar := rfl
  have hread := @readChunks_fits (SplitOutputBuffer.new (limitChars * maxUtf8BytesPerChar)) chunks
    (by omega)
  obtain ⟨outcome, result, houtcome, hresult, hstdout, hstderr, htruncated, hstatus⟩ :=
    @result_quiet faults chunks record shellgei limitChars h hpos hlimit _ _ hread
  refine ⟨outcome, result, houtcome, hresult, hstdout, hstderr, ?_, ?_⟩
  · rw [htruncated]
    simp [SplitOutputBuffer.new]
  · rw [hstatus]
    cases result.truncated <;> simp

/-- Streams beyond the byte limit are cut, and the result says so. -/
theorem output_overflows (h : Quiet faults) (hpos : 1 ≤ limitChars)
    (hlimit : limitChars ≤ maxCapturedOutputChars)
    (hover : limitChars * maxUtf8BytesPerChar <
      (stdoutBytes chunks).length + (stderrBytes chunks).length) :
    ∃ outcome result, (execute (sending faults chunks) record shellgei limitChars).1 =
        .ok outcome ∧
      toExecutionResult outcome record limitChars = .ok result ∧
      result.stdout <+: decode (stdoutBytes chunks) ∧
      result.stderr <+: decode (stderrBytes chunks) ∧
      result.stdout.length + result.stderr.length ≤ limitChars ∧
      result.truncated = true ∧ result.status = .outputLimit := by
  have hsize : (SplitOutputBuffer.new (limitChars * maxUtf8BytesPerChar)).size = 0 := rfl
  have hbytes : (SplitOutputBuffer.new (limitChars * maxUtf8BytesPerChar)).byteLimit =
      limitChars * maxUtf8BytesPerChar := rfl
  -- what is kept of the streams is a prefix of each
  obtain ⟨stdout, stderr, hprefix, hprefix', hread⟩ :=
    @readChunks_overflows (SplitOutputBuffer.new (limitChars * maxUtf8BytesPerChar)) chunks
      (by omega) (by omega)
  obtain ⟨outcome, result, houtcome, hresult, hstdout, hstderr, htruncated, hstatus⟩ :=
    @result_quiet faults chunks record shellgei limitChars h hpos hlimit _ _ hread
  refine ⟨outcome, result, houtcome, hresult, ?_, ?_, ?_, htruncated.2 (Or.inl rfl), ?_⟩
  · rw [hstdout]
    have htake := List.take_prefix limitChars (decode stdout)
    exact htake.trans (decode_mono hprefix)
  · rw [hstderr]
    have htake := List.take_prefix (limitChars - result.stdout.length) (decode stderr)
    exact htake.trans (decode_mono hprefix')
  · have hlength : result.stdout.length ≤ limitChars := by
      rw [hstdout]
      exact List.length_take_le _ _
    rw [hstderr, List.length_take]
    omega
  · rw [hstatus, if_neg (by simp)]

/-- The result of an execution without faults, from the bytes of its streams. -/
theorem output_exact (h : Quiet faults) (hpos : 1 ≤ limitChars)
    (hlimit : limitChars ≤ maxCapturedOutputChars)
    (chunks : List (Option Bytes × Option Bytes)) (record : ProblemRecord) (shellgei : Text) :
    ∃ outcome result, (execute (sending faults chunks) record shellgei limitChars).1 =
        .ok outcome ∧
      toExecutionResult outcome record limitChars = .ok result ∧
      ((stdoutBytes chunks).length + (stderrBytes chunks).length ≤ 4 * limitChars →
        result.stdout = (decode (stdoutBytes chunks)).take limitChars ∧
        result.stderr =
          (decode (stderrBytes chunks)).take (limitChars - result.stdout.length) ∧
        (result.truncated = true ↔ limitChars <
          (decode (stdoutBytes chunks)).length + (decode (stderrBytes chunks)).length) ∧
        result.status = (if result.truncated = true then .outputLimit else .completed) ∧
        ∀ chunks', stdoutBytes chunks' = stdoutBytes chunks →
          stderrBytes chunks' = stderrBytes chunks →
          execute (sending faults chunks') record shellgei limitChars =
            execute (sending faults chunks) record shellgei limitChars) ∧
      (4 * limitChars < (stdoutBytes chunks).length + (stderrBytes chunks).length →
        result.truncated = true ∧ result.status = .outputLimit) ∧
      result.stdout <+: decode (stdoutBytes chunks) ∧
      result.stderr <+: decode (stderrBytes chunks) ∧
      result.stdout.length + result.stderr.length ≤ limitChars := by
  have hbytes : limitChars * maxUtf8BytesPerChar = 4 * limitChars := Nat.mul_comm _ _
  -- either all bytes are kept, or reading stops at the limit
  by_cases hfits : (stdoutBytes chunks).length + (stderrBytes chunks).length ≤
      limitChars * maxUtf8BytesPerChar
  · obtain ⟨outcome, result, houtcome, hresult, hstdout, hstderr, htruncated, hstatus⟩ :=
      @output_fits faults chunks record shellgei limitChars h hpos hlimit hfits
    refine ⟨outcome, result, houtcome, hresult, ?_, ?_, ?_, ?_, ?_⟩
    · intro _
      refine ⟨hstdout, hstderr, htruncated, hstatus, ?_⟩
      intro chunks' hstdout' hstderr'
      exact execute_sending_eq h hpos hfits hstdout' hstderr'
    · intro hover
      omega
    · rw [hstdout]
      exact List.take_prefix _ _
    · rw [hstderr]
      exact List.take_prefix _ _
    · have hlength : result.stdout.length ≤ limitChars := by
        rw [hstdout]
        exact List.length_take_le _ _
      rw [hstderr, List.length_take]
      omega
  · obtain ⟨outcome, result, houtcome, hresult, hstdout, hstderr, hlength, htruncated, hstatus⟩ :=
      @output_overflows faults chunks record shellgei limitChars h hpos hlimit (by omega)
    refine ⟨outcome, result, houtcome, hresult, ?_, ?_, hstdout, hstderr, hlength⟩
    · intro hfits'
      omega
    · intro _
      exact ⟨htruncated, hstatus⟩

/-- One character in three bytes on stdout, cut between two chunks, and a byte
that belongs to no character on stderr. -/
def cutCharacter : List (Option Bytes × Option Bytes) :=
  [(some [0xE3, 0x81], some [0xFF]), (some [0x82], none)]

theorem output_exact_cutCharacter :
    ∃ outcome result, (execute (sending printsHi cutCharacter) silentProblem [':'] 1).1 =
        .ok outcome ∧
      toExecutionResult outcome silentProblem 1 = .ok result ∧
      result.stdout = ['あ'] ∧ result.stderr = [] := by
  obtain ⟨outcome, result, houtcome, hresult, hfits, -⟩ :=
    output_exact printsHi_quiet (Nat.le_refl 1) (by decide) cutCharacter silentProblem [':']
  obtain ⟨hstdout, hstderr, -⟩ := hfits (by decide)
  refine ⟨outcome, result, houtcome, hresult, ?_, ?_⟩
  · rw [hstdout]
    decide
  · rw [hstderr, hstdout]
    decide

/-- UTF-8 text within the limit comes through as it was, in whatever chunks. -/
theorem output_of_text (h : Quiet faults) (hpos : 1 ≤ limitChars)
    (hlimit : limitChars ≤ maxCapturedOutputChars) {stdout stderr : Text}
    (hstdout : stdoutBytes chunks = encode stdout) (hstderr : stderrBytes chunks = encode stderr)
    (hlength : stdout.length + stderr.length ≤ limitChars) :
    ∃ outcome result, (execute (sending faults chunks) record shellgei limitChars).1 =
        .ok outcome ∧
      toExecutionResult outcome record limitChars = .ok result ∧
      result.stdout = stdout ∧ result.stderr = stderr ∧ result.status = .completed := by
  have hbytes : limitChars * maxUtf8BytesPerChar = 4 * limitChars := Nat.mul_comm _ _
  have hout := length_encode_le stdout
  have herr := length_encode_le stderr
  obtain ⟨outcome, result, houtcome, hresult, hout', herr', htruncated, hstatus⟩ :=
    @output_fits faults chunks record shellgei limitChars h hpos hlimit
      (by rw [hstdout, hstderr]; omega)
  rw [hstdout, hstderr, decode_encode, decode_encode] at *
  have hwhole : result.stdout = stdout := by
    rw [hout']
    exact List.take_of_length_le (by omega)
  refine ⟨outcome, result, houtcome, hresult, hwhole, ?_, ?_⟩
  · rw [herr', hwhole]
    exact List.take_of_length_le (by omega)
  · have hwithin : ¬ limitChars < stdout.length + stderr.length := by omega
    rw [hstatus, if_neg (fun htrue => hwithin (htruncated.1 htrue))]

end Execution

end OutputPipeline
