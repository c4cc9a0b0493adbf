/-
One execution in a borrowed container (soj_runner/sandbox_executor.py and
sandbox_limits.py).

Everything that Docker and the clock may do in one execution is a `Faults`:
each call either raises an exception with a text or returns a value of its
type.  The timeout timer runs `terminate("timeout")` on a thread of its own and
meets the main thread only at the lock of the watchdog, so a `Moment` says
before which of the main thread's uses of the watchdog it gets there.

* `readChunks_fits`, `readChunks_overflows` — what the capture keeps of a stream;
* `captureCommandOutput_ok`, `stop_spec` — what the two halves of an execution report;
* `buildOutcome_outcome` — what an outcome says about the faults;
* `execute_spec` — an execution with a container has an outcome and gives the
  container back once, as stopped only after a kill.
-/
import ShellgeiOnlineJudge.ExecutionArchive
import ShellgeiOnlineJudge.Execution

namespace SandboxExecutor

open Utf8 Problem Execution ExecutionArchive

/-- `MAX_UTF8_BYTES_PER_CHAR` -/
def maxUtf8BytesPerChar : ℕ := 4

/-! ### The environment of an execution -/

/-- Why an execution is terminated. -/
inductive Reason
  | timeout
  | outputLimit
  deriving DecidableEq

/-- The uses of the watchdog by the main thread: reading the reason before the
command starts, the termination for too much output, reading the reason before
each of the two artifacts, and finishing. -/
inductive Moment
  | capture
  | outputLimit
  | artifact
  | displayArtifact
  | finish
  deriving DecidableEq

/-- The stream of `exec_start`: its chunks, the exception after them if there
is one, and what `close` does if it has one. -/
structure Stream where
  chunks : List (Option Bytes × Option Bytes)
  failure : Option Text
  close : Option (Except Text Unit)

/-- The `ExitCode` of an `exec_inspect`. -/
inductive Inspected
  | unknown
  | code (exitCode : ℤ)
  | invalid

/-- The output of an `exec_run`. -/
inductive Output
  | bytes (output : Bytes)
  | stream (chunks : List Bytes) (failure : Option Text)

/-- What Docker, the timer and the clock answer during an execution. -/
structure Faults where
  getContainer : Except Text Unit
  /-- the exit code of the extraction -/
  prepare : Except Text (Option ℤ)
  timerStart : Except Text Unit
  /-- when the timer fires, if it does -/
  timer : Option Moment
  /-- the `Id` of the created exec, if it is a string -/
  execCreate : Except Text (Option Text)
  execStart : Except Text Stream
  execInspect : Except Text Inspected
  readArtifact : Except Text Output
  readDisplayArtifact : Except Text Output
  /-- the kill of a termination -/
  terminateKill : Except Text Unit
  /-- the kill of the cleanup -/
  stopKill : Except Text Unit
  /-- `monotonic_ns` at the start and at the end -/
  startedAt : ℤ
  now : ℤ

/-- The calls that the container and its manager get. -/
inductive Call
  | getContainer
  | prepare (archive : List Member)
  | kill
  | releaseContainer (alreadyStopped : Bool)
  deriving DecidableEq

/-! ### The watchdog -/

/-- `ExecutionWatchdog` -/
structure Watchdog where
  finished : Bool
  reason : Option Reason
  terminationError : Option Text

/-- `ExecutionWatchdog.__init__` -/
def Watchdog.new : Watchdog where
  finished := false
  reason := none
  terminationError := none

/-- What the threads of an execution share, and the calls so far. -/
structure World where
  watchdog : Watchdog
  calls : List Call

/-- Add a call to the trace. -/
def World.call (world : World) (call : Call) : World :=
  { world with calls := world.calls ++ [call] }

/-- The text of an exception that a call raised. -/
def raised : Except Text Unit → Option Text
  | .error exc => some exc
  | .ok () => none

/-- `ExecutionWatchdog.terminate` -/
def terminate (faults : Faults) (reason : Reason) (world : World) : World :=
  if world.watchdog.finished ∨ world.watchdog.reason ≠ none then world
  else
    let watchdog := { world.watchdog with
      reason := some reason
      terminationError := raised faults.terminateKill }
    { world with watchdog }.call .kill

/-- The timer, just before the main thread uses the watchdog. -/
def tick (faults : Faults) (moment : Moment) (world : World) : World :=
  if faults.timer = some moment then terminate faults .timeout world else world

/-! ### The capture of the output -/

/-- `_SplitOutputBuffer` -/
structure SplitOutputBuffer where
  byteLimit : ℕ
  stdout : Bytes
  stderr : Bytes
  truncated : Bool

/-- `_SplitOutputBuffer.__init__` -/
def SplitOutputBuffer.new (byteLimit : ℕ) : SplitOutputBuffer where
  byteLimit := byteLimit
  stdout := []
  stderr := []
  truncated := false

/-- Keep a chunk of one of the streams. -/
def SplitOutputBuffer.extend (buffer : SplitOutputBuffer) (chunk : Bytes) (stderr : Bool) :
    SplitOutputBuffer :=
  if stderr then { buffer with stderr := buffer.stderr ++ chunk }
  else { buffer with stdout := buffer.stdout ++ chunk }

/-- `_SplitOutputBuffer.append`; the flag says whether all of the chunk was kept. -/
def SplitOutputBuffer.append (buffer : SplitOutputBuffer) (chunk : Bytes) (stderr : Bool) :
    SplitOutputBuffer × Bool :=
  let remaining := buffer.byteLimit - buffer.stdout.length - buffer.stderr.length
  if remaining < chunk.length then
    ({ buffer.extend (chunk.take remaining) stderr with truncated := true }, false)
  else (buffer.extend chunk stderr, true)

/-- `chunk and not output.append(...)`: no chunk and an empty one are skipped. -/
def SplitOutputBuffer.appendChunk (buffer : SplitOutputBuffer) (chunk : Option Bytes)
    (stderr : Bool) : SplitOutputBuffer × Bool :=
  match chunk with
  | none => (buffer, true)
  | some [] => (buffer, true)
  | some chunk => buffer.append chunk stderr

/-- The loop over the stream; the flag is lowered by the chunk that breaks it. -/
def readChunks (buffer : SplitOutputBuffer) :
    List (Option Bytes × Option Bytes) → SplitOutputBuffer × Bool
  | [] => (buffer, true)
  | (stdoutChunk, stderrChunk) :: rest =>
    match buffer.appendChunk stdoutChunk false with
    | (buffer, false) => (buffer, false)
    | (buffer, true) =>
      match buffer.appendChunk stderrChunk true with
      | (buffer, false) => (buffer, false)
      | (buffer, true) => readChunks buffer rest

/-- `DockerExecAdapter.start` -/
def start (faults : Faults) : Except Text (Text × Stream) := do
  let created ← faults.execCreate
  match created with
  | none => .error "Docker exec ID is unavailable".toList
  | some [] => .error "Docker exec ID is unavailable".toList
  | some execId =>
    let output ← faults.execStart
    .ok (execId, output)

/-- `DockerExecAdapter.inspect_exit_code` -/
def inspectExitCode (faults : Faults) : Except Text (Option ℤ) := do
  match ← faults.execInspect with
  | .unknown => .ok none
  | .code exitCode => .ok (some exitCode)
  | .invalid => .error "Docker exec exit code is invalid".toList

/-- What the capture of a command has brought. -/
structure CapturedCommandOutput where
  stdout : Bytes
  stderr : Bytes
  exitCode : Option ℤ
  truncated : Bool
  error : Option Text

/-- The `finally` of the capture: closing the stream can only add an error. -/
def closeError (stream : Stream) : Option Text := stream.close.bind raised

/-- `SandboxOutputCapturer.capture_command_output` -/
def captureCommandOutput (faults : Faults) (limitChars : ℕ) (world : World) :
    Except Text CapturedCommandOutput × World :=
  if limitChars * maxUtf8BytesPerChar < 1 then
    (.error "byte_limit must be at least 1".toList, world)
  else
    let output := SplitOutputBuffer.new (limitChars * maxUtf8BytesPerChar)
    let world := tick faults .capture world
    if world.watchdog.reason ≠ none then (.ok ⟨[], [], none, false, none⟩, world)
    else match start faults with
      | .error exc => (.ok ⟨[], [], none, false, some exc⟩, world)
      | .ok (_, stream) =>
        let (output, kept) := readChunks output stream.chunks
        let world :=
          if kept then world
          else terminate faults .outputLimit (tick faults .outputLimit world)
        -- a stream that was broken off is not read to its failure
        let error := (if kept then stream.failure else none).or (closeError stream)
        let (exitCode, error) := match inspectExitCode faults with
          | .ok exitCode => (exitCode, error)
          | .error exc => (none, error.or (some exc))
        (.ok ⟨output.stdout, output.stderr, exitCode, output.truncated, error⟩, world)

/-! ### Artifacts -/

/-- `BoundedByteBuffer.append` -/
def boundedAppend (byteLimit : ℕ) (data chunk : Bytes) : Bytes × Bool :=
  let remaining := byteLimit - data.length
  if remaining < chunk.length then (data ++ chunk.take remaining, false)
  else (data ++ chunk, true)

/-- The bytes of the chunks, unless they do not fit. -/
def boundedRead (byteLimit : ℕ) (data : Bytes) : List Bytes → Option Bytes
  | [] => some data
  | chunk :: rest =>
    if chunk = [] then boundedRead byteLimit data rest
    else match boundedAppend byteLimit data chunk with
      | (_, false) => none
      | (data, true) => boundedRead byteLimit data rest

/-- The bytes of an output, unless reading it raises or they do not fit. -/
def readOutput (byteLimit : ℕ) : Except Text Output → Option Bytes
  | .error _ => none
  | .ok (.bytes output) => boundedRead byteLimit [] [output]
  | .ok (.stream chunks none) => boundedRead byteLimit [] chunks
  | .ok (.stream _ (some _)) => none

/-- The reading that `capture_artifact` and `capture_display_artifact` share. -/
def captureBounded (maxBytes : ℕ) (run : Except Text Output) : Option Bytes := do
  let payload ← readOutput (maxBytes + 1) run
  if payload = [] ∨ maxBytes < payload.length then none else some payload

/-- `SandboxOutputCapturer.capture_artifact` -/
def captureArtifact (faults : Faults) (maxBytes : ℕ) : Option Bytes :=
  captureBounded maxBytes faults.readArtifact

/-- `SandboxOutputCapturer.capture_display_artifact` -/
def captureDisplayArtifact (faults : Faults) (maxBytes : ℕ) : Option Bytes :=
  if maxBytes = 0 then none else captureBounded maxBytes faults.readDisplayArtifact

/-- The bytes that the Base64 of the judged artifact leaves to the display artifact. -/
def remainingBytes (artifact : Option Bytes) : ℕ :=
  let usedChars := 4 * (((artifact.getD []).length + 2) / 3)
  (maxRunnerImageBase64Chars - usedChars) / 4 * 3

/-! ### Cleanup and the execution -/

/-- What the watchdog says when it is stopped. -/
structure SandboxCleanupResult where
  reason : Option Reason
  error : Option Text
  containerStopped : Bool

/-- `SandboxCleanup.stop` -/
def stop (faults : Faults) (world : World) : SandboxCleanupResult × World :=
  let world := tick faults .finish world
  let reason := world.watchdog.reason
  let world := { world with watchdog := { world.watchdog with finished := true } }
  match reason with
  | none =>
    let error := raised faults.stopKill
    (⟨none, error, error = none⟩, world.call .kill)
  | some reason =>
    let error := world.watchdog.terminationError
    (⟨some reason, error, error = none⟩, world)

/-- `SandboxExecutionOutcome` -/
structure SandboxExecutionOutcome where
  status : ExecutionStatus
  stdout : Bytes
  stderr : Bytes
  exitCode : Option ℤ
  timedOut : Bool
  truncated : Bool
  durationMs : ℤ
  artifact : Option Bytes
  error : Option Text
  displayArtifact : Option Bytes

/-- The duration since the start in milliseconds. -/
def durationMs (faults : Faults) : ℤ := max 0 ((faults.now - faults.startedAt) / 1_000_000)

/-- `SandboxPreparer.prepare` -/
def prepare (faults : Faults) (shellgei : Text) (fixtures : List (Text × Text)) (world : World) :
    Except Text Unit × World :=
  let world := world.call (.prepare (buildExecutionArchive shellgei fixtures))
  match faults.prepare with
  | .error exc => (.error exc, world)
  | .ok exitCode =>
    if exitCode ≠ some 0 then (.error "failed to prepare sandbox files".toList, world)
    else (.ok (), world)

/-- The artifact of an image problem. -/
def judgedArtifact (faults : Faults) : JudgeSpecification → Option Bytes
  | .text _ => none
  | .image artifact => captureArtifact faults artifact.maxBytes

/-- The status of an execution, and its error. -/
def outcomeStatus (output : CapturedCommandOutput) (cleanup : SandboxCleanupResult) :
    ExecutionStatus × Option Text :=
  let executionError := output.error.or cleanup.error
  match cleanup.reason with
  | some .timeout => (.timedOut, executionError)
  | some .outputLimit => (.outputLimit, executionError)
  | none =>
    if executionError ≠ none ∨ output.exitCode = none then
      (.error, executionError.or (some "Docker exec exit code is unavailable".toList))
    else (.completed, executionError)

/-- The two artifacts: each is only read while nothing has gone wrong. -/
def captureArtifacts (faults : Faults) (judge : JudgeSpecification)
    (output : CapturedCommandOutput) (world : World) : (Option Bytes × Option Bytes) × World :=
  let world := tick faults .artifact world
  let artifact :=
    if world.watchdog.reason = none ∧ output.error = none then judgedArtifact faults judge
    else none
  let world := tick faults .displayArtifact world
  let displayArtifact :=
    if world.watchdog.reason = none ∧ output.error = none then
      captureDisplayArtifact faults (remainingBytes artifact)
    else none
  ((artifact, displayArtifact), world)

/-- The outcome after the cleanup; only a completed one keeps its artifacts. -/
def buildOutcome (faults : Faults) (output : CapturedCommandOutput)
    (artifacts : Option Bytes × Option Bytes) (cleanup : SandboxCleanupResult) :
    SandboxExecutionOutcome :=
  let (status, error) := outcomeStatus output cleanup
  { status
    stdout := output.stdout
    stderr := output.stderr
    exitCode := output.exitCode
    timedOut := status = .timedOut
    truncated := output.truncated
    durationMs := durationMs faults
    artifact := if status ≠ .completed then none else artifacts.1
    error
    displayArtifact := if status ≠ .completed then none else artifacts.2 }

/-- `SandboxExecutor._execute_in_container` -/
def executeInContainer (faults : Faults) (record : ProblemRecord) (shellgei : Text)
    (limitChars : ℕ) (world : World) : Except Text (SandboxExecutionOutcome × Bool) × World :=
  match prepare faults shellgei record.fixtures world with
  | (.error exc, world) => (.error exc, world)
  | (.ok (), world) =>
    let world := { world with watchdog := Watchdog.new }
    match faults.timerStart with
    | .error exc => (.error exc, world)
    | .ok () =>
      match captureCommandOutput faults limitChars world with
      | (.error exc, world) => (.error exc, (stop faults world).2)
      | (.ok output, world) =>
        let (artifacts, world) := captureArtifacts faults record.definition.judge output world
        let (cleanup, world) := stop faults world
        (.ok (buildOutcome faults output artifacts cleanup, cleanup.containerStopped), world)

/-- `SandboxExecutor._error_outcome` -/
def errorOutcome (faults : Faults) (error : Text) : SandboxExecutionOutcome where
  status := .error
  stdout := []
  stderr := []
  exitCode := none
  timedOut := false
  truncated := false
  durationMs := durationMs faults
  artifact := none
  error := some error
  displayArtifact := none

/-- `SandboxExecutor.execute`; it raises `SandboxAcquisitionError` with the text. -/
def execute (faults : Faults) (record : ProblemRecord) (shellgei : Text) (limitChars : ℕ) :
    Except Text SandboxExecutionOutcome × World :=
  let world : World := ⟨Watchdog.new, [.getContainer]⟩
  match faults.getContainer with
  | .error exc => (.error exc, world)
  | .ok () =>
    match executeInContainer faults record shellgei limitChars world with
    | (.ok (outcome, containerStopped), world) =>
      (.ok outcome, world.call (.releaseContainer containerStopped))
    | (.error exc, world) =>
      (.ok (errorOutcome faults exc), world.call (.releaseContainer false))

/-! ### The capture keeps a prefix -/

/-- All that the stream sends to stdout. -/
def stdoutBytes (chunks : List (Option Bytes × Option Bytes)) : Bytes :=
  chunks.flatMap fun chunk => chunk.1.getD []

/-- All that the stream sends to stderr. -/
def stderrBytes (chunks : List (Option Bytes × Option Bytes)) : Bytes :=
  chunks.flatMap fun chunk => chunk.2.getD []

/-- The number of the bytes kept. -/
def SplitOutputBuffer.size (buffer : SplitOutputBuffer) : ℕ :=
  buffer.stdout.length + buffer.stderr.length

section Buffer

variable {buffer : SplitOutputBuffer}

theorem SplitOutputBuffer.append_fits {chunk : Bytes} {stderr : Bool}
    (h : buffer.size + chunk.length ≤ buffer.byteLimit) :
    buffer.append chunk stderr = (buffer.extend chunk stderr, true) := by
  unfold SplitOutputBuffer.append
  have hremaining : ¬ buffer.byteLimit - buffer.stdout.length - buffer.stderr.length <
      chunk.length := by
    unfold SplitOutputBuffer.size at h
    omega
  exact if_neg hremaining

theorem SplitOutputBuffer.append_overflows {chunk : Bytes} {stderr : Bool}
    (hsize : buffer.size ≤ buffer.byteLimit)
    (h : buffer.byteLimit < buffer.size + chunk.length) :
    ∃ kept, kept <+: chunk ∧ kept.length + buffer.size = buffer.byteLimit ∧
      buffer.append chunk stderr =
        ({ buffer.extend kept stderr with truncated := true }, false) := by
  unfold SplitOutputBuffer.size at *
  have hremaining : buffer.byteLimit - buffer.stdout.length - buffer.stderr.length <
      chunk.length := by omega
  refine ⟨chunk.take (buffer.byteLimit - buffer.stdout.length - buffer.stderr.length),
    List.take_prefix _ _, ?_, ?_⟩
  · rw [List.length_take]
    omega
  · unfold SplitOutputBuffer.append
    exact if_pos hremaining

/-- A chunk that is there or not, as what it adds. -/
theorem SplitOutputBuffer.appendChunk_eq (chunk : Option Bytes) (stderr : Bool)
    (hsize : buffer.size ≤ buffer.byteLimit) :
    buffer.appendChunk chunk stderr = buffer.append (chunk.getD []) stderr := by
  have hnil : buffer.append [] stderr = (buffer, true) := by
    rw [SplitOutputBuffer.append_fits (by rw [List.length_nil]; exact hsize)]
    cases stderr <;> simp [SplitOutputBuffer.extend]
  match chunk with
  | none => exact hnil.symm
  | some [] => exact hnil.symm
  | some (b :: rest) => rfl

@[simp] theorem SplitOutputBuffer.size_extend (chunk : Bytes) (stderr : Bool) :
    (buffer.extend chunk stderr).size = buffer.size + chunk.length := by
  cases stderr
  · simp only [SplitOutputBuffer.extend, SplitOutputBuffer.size, Bool.false_eq_true, if_false,
      List.length_append]
    omega
  · simp only [SplitOutputBuffer.extend, SplitOutputBuffer.size, if_true, List.length_append]
    omega

@[simp] theorem SplitOutputBuffer.byteLimit_extend (chunk : Bytes) (stderr : Bool) :
    (buffer.extend chunk stderr).byteLimit = buffer.byteLimit := by
  cases stderr <;> rfl

/-- Two chunks that fit are kept, and the loop goes on. -/
theorem readChunks_cons {stdoutChunk stderrChunk : Option Bytes}
    {rest : List (Option Bytes × Option Bytes)}
    (h : buffer.size + (stdoutChunk.getD []).length + (stderrChunk.getD []).length ≤
      buffer.byteLimit) :
    readChunks buffer ((stdoutChunk, stderrChunk) :: rest) =
      readChunks ((buffer.extend (stdoutChunk.getD []) false).extend (stderrChunk.getD []) true)
        rest := by
  have hstdout : buffer.appendChunk stdoutChunk false =
      (buffer.extend (stdoutChunk.getD []) false, true) := by
    rw [SplitOutputBuffer.appendChunk_eq _ _ (by omega), SplitOutputBuffer.append_fits (by omega)]
  have hstderr : (buffer.extend (stdoutChunk.getD []) false).appendChunk stderrChunk true =
      ((buffer.extend (stdoutChunk.getD []) false).extend (stderrChunk.getD []) true, true) := by
    have hsize : (buffer.extend (stdoutChunk.getD []) false).size +
        (stderrChunk.getD []).length ≤ (buffer.extend (stdoutChunk.getD []) false).byteLimit := by
      rw [SplitOutputBuffer.size_extend, SplitOutputBuffer.byteLimit_extend]
      exact h
    rw [SplitOutputBuffer.appendChunk_eq _ _ (by omega), SplitOutputBuffer.append_fits hsize]
  simp only [readChunks, hstdout, hstderr]

/-- What fits is all kept. -/
theorem readChunks_fits {chunks : List (Option Bytes × Option Bytes)}
    (h : buffer.size + (stdoutBytes chunks).length + (stderrBytes chunks).length ≤
      buffer.byteLimit) :
    readChunks buffer chunks =
      ({ buffer with
          stdout := buffer.stdout ++ stdoutBytes chunks
          stderr := buffer.stderr ++ stderrBytes chunks }, true) := by
  induction chunks generalizing buffer with
  | nil => simp [readChunks, stdoutBytes, stderrBytes]
  | cons chunk rest ih =>
    obtain ⟨stdoutChunk, stderrChunk⟩ := chunk
    simp only [stdoutBytes, stderrBytes, List.flatMap_cons, List.length_append] at h
    rw [readChunks_cons (by omega), ih]
    · simp [SplitOutputBuffer.extend, stdoutBytes, stderrBytes, List.append_assoc]
    · simp only [SplitOutputBuffer.size_extend, SplitOutputBuffer.byteLimit_extend, stdoutBytes,
        stderrBytes]
      omega

/-- Of what does not fit a prefix of each stream is kept, and the loop is broken off. -/
theorem readChunks_overflows {chunks : List (Option Bytes × Option Bytes)}
    (hsize : buffer.size ≤ buffer.byteLimit)
    (h : buffer.byteLimit <
      buffer.size + (stdoutBytes chunks).length + (stderrBytes chunks).length) :
    ∃ stdout stderr, stdout <+: stdoutBytes chunks ∧ stderr <+: stderrBytes chunks ∧
      readChunks buffer chunks =
        ({ buffer with
            stdout := buffer.stdout ++ stdout
            stderr := buffer.stderr ++ stderr
            truncated := true }, false) := by
  induction chunks generalizing buffer with
  | nil =>
    simp only [stdoutBytes, stderrBytes, List.flatMap_nil, List.length_nil] at h
    omega
  | cons chunk rest ih =>
    obtain ⟨stdoutChunk, stderrChunk⟩ := chunk
    simp only [stdoutBytes, stderrBytes, List.flatMap_cons, List.length_append] at h
    by_cases hboth : buffer.size + (stdoutChunk.getD []).length + (stderrChunk.getD []).length ≤
        buffer.byteLimit
    · -- the chunks at the head fit, so it is the rest that does not
      obtain ⟨stdout, stderr, hstdout, hstderr, hread⟩ :=
        @ih ((buffer.extend (stdoutChunk.getD []) false).extend (stderrChunk.getD []) true)
          (by simp only [SplitOutputBuffer.size_extend, SplitOutputBuffer.byteLimit_extend]; omega)
          (by
            simp only [SplitOutputBuffer.size_extend, SplitOutputBuffer.byteLimit_extend,
              stdoutBytes, stderrBytes]
            omega)
      refine ⟨stdoutChunk.getD [] ++ stdout, stderrChunk.getD [] ++ stderr, ?_, ?_, ?_⟩
      · exact (List.prefix_append_right_inj _).2 hstdout
      · exact (List.prefix_append_right_inj _).2 hstderr
      · rw [readChunks_cons hboth, hread]
        simp [SplitOutputBuffer.extend, List.append_assoc]
    · -- the chunk that does not fit is that of stdout, or that of stderr after it
      by_cases hfirst : buffer.size + (stdoutChunk.getD []).length ≤ buffer.byteLimit
      · obtain ⟨kept, hkept, -, happend⟩ := @SplitOutputBuffer.append_overflows
          (buffer.extend (stdoutChunk.getD []) false) (stderrChunk.getD []) true
          (by simpa using hfirst)
          (by
            simp only [SplitOutputBuffer.size_extend, SplitOutputBuffer.byteLimit_extend]
            omega)
        refine ⟨stdoutChunk.getD [], kept, List.prefix_append _ _,
          hkept.trans (List.prefix_append _ _), ?_⟩
        have hstdout : buffer.appendChunk stdoutChunk false =
            (buffer.extend (stdoutChunk.getD []) false, true) := by
          rw [SplitOutputBuffer.appendChunk_eq _ _ hsize, SplitOutputBuffer.append_fits hfirst]
        have hstderr := @SplitOutputBuffer.appendChunk_eq
          (buffer.extend (stdoutChunk.getD []) false) stderrChunk true (by simpa using hfirst)
        simp only [readChunks, hstdout, hstderr, happend]
        simp [SplitOutputBuffer.extend]
      · obtain ⟨kept, hkept, -, happend⟩ := @SplitOutputBuffer.append_overflows buffer
          (stdoutChunk.getD []) false hsize (by omega)
        refine ⟨kept, [], hkept.trans (List.prefix_append _ _), List.nil_prefix, ?_⟩
        have hstdout := SplitOutputBuffer.appendChunk_eq stdoutChunk false hsize
        simp only [readChunks, hstdout, happend]
        simp [SplitOutputBuffer.extend]

end Buffer

/-! ### The watchdog and the calls -/

/-- The flags of the releases so far. -/
def World.releases (world : World) : List Bool :=
  world.calls.filterMap fun call =>
    match call with
    | .releaseContainer alreadyStopped => some alreadyStopped
    | _ => none

section Watchdog

variable {faults : Faults} {world : World}

@[simp] theorem terminate_releases (reason : Reason) :
    (terminate faults reason world).releases = world.releases := by
  unfold terminate
  split
  · rfl
  · simp [World.releases, World.call]

@[simp] theorem tick_releases (moment : Moment) :
    (tick faults moment world).releases = world.releases := by
  unfold tick
  split
  · exact terminate_releases .timeout
  · rfl

/-- The watchdog of a running command: what it knows of a kill is how the kill
of the termination went. -/
structure Watching (faults : Faults) (watchdog : Watchdog) : Prop where
  running : watchdog.finished = false
  error : watchdog.reason ≠ none → watchdog.terminationError = raised faults.terminateKill

theorem watching_new : Watching faults Watchdog.new where
  running := rfl
  error := fun h => absurd rfl h

theorem terminate_watching (reason : Reason) (h : Watching faults world.watchdog) :
    Watching faults (terminate faults reason world).watchdog := by
  unfold terminate
  split
  · exact h
  · exact ⟨h.running, fun _ => rfl⟩

theorem tick_watching (moment : Moment) (h : Watching faults world.watchdog) :
    Watching faults (tick faults moment world).watchdog := by
  unfold tick
  split
  · exact terminate_watching .timeout h
  · exact h

/-- The first reason stays. -/
theorem terminate_reason (reason : Reason) (h : Watching faults world.watchdog) :
    (terminate faults reason world).watchdog.reason = world.watchdog.reason.or (some reason) := by
  unfold terminate
  cases hreason : world.watchdog.reason with
  | none =>
    rw [if_neg (by simp [h.running])]
    rfl
  | some first =>
    rw [if_pos (Or.inr (by simp))]
    exact hreason

/-- The timer leaves a reason alone and can only put in a timeout. -/
theorem tick_reason (moment : Moment) (h : Watching faults world.watchdog) :
    (tick faults moment world).watchdog.reason = world.watchdog.reason ∨
      world.watchdog.reason = none ∧
        (tick faults moment world).watchdog.reason = some .timeout := by
  unfold tick
  split
  · rw [terminate_reason .timeout h]
    cases world.watchdog.reason with
    | none => exact Or.inr ⟨rfl, rfl⟩
    | some first => exact Or.inl rfl
  · exact Or.inl rfl

/-- What is not a timeout was there before the timer. -/
theorem reason_of_tick {moment : Moment} {reason : Option Reason}
    (h : Watching faults world.watchdog) (hne : reason ≠ some .timeout)
    (hreason : (tick faults moment world).watchdog.reason = reason) :
    world.watchdog.reason = reason := by
  rcases tick_reason moment h with hsame | ⟨-, htimeout⟩
  · rw [← hsame]
    exact hreason
  · exact absurd (hreason.symm.trans htimeout) hne

/-- The cleanup reports the reason and leaves it as it is; the container
counts as stopped when the one kill of the execution did not raise. -/
theorem stop_spec (h : Watching faults world.watchdog) :
    (stop faults world).1.reason = (tick faults .finish world).watchdog.reason ∧
    (stop faults world).2.watchdog.reason = (tick faults .finish world).watchdog.reason ∧
    (stop faults world).2.releases = world.releases ∧
    ((stop faults world).1.containerStopped = true ↔ (stop faults world).1.error = none) ∧
    (stop faults world).1.error =
      (match (tick faults .finish world).watchdog.reason with
        | none => raised faults.stopKill
        | some _ => raised faults.terminateKill) := by
  have hwatching := tick_watching .finish h
  have hreleases := @tick_releases faults world .finish
  unfold stop
  generalize tick faults .finish world = finishing at *
  rw [← hreleases]
  obtain ⟨⟨finished, reason, terminationError⟩, calls⟩ := finishing
  cases reason with
  | none => exact ⟨rfl, rfl, by simp [World.releases, World.call], by simp, rfl⟩
  | some reason => exact ⟨rfl, rfl, rfl, by simp, hwatching.error (by simp)⟩

/-- The kill of the execution, by the termination or by the cleanup, did not raise. -/
def KillSucceeded (faults : Faults) : Prop :=
  faults.terminateKill = .ok () ∨ faults.stopKill = .ok ()

theorem raised_eq_none {answer : Except Text Unit} (h : raised answer = none) :
    answer = .ok () := by
  cases answer with
  | error exc => cases h
  | ok u => rfl

theorem stop_stopped (h : Watching faults world.watchdog)
    (hstopped : (stop faults world).1.containerStopped = true) : KillSucceeded faults := by
  obtain ⟨-, -, -, hiff, herror⟩ := stop_spec h
  rw [hiff.1 hstopped] at herror
  cases hreason : (tick faults .finish world).watchdog.reason with
  | none =>
    rw [hreason] at herror
    exact Or.inr (raised_eq_none herror.symm)
  | some reason =>
    rw [hreason] at herror
    exact Or.inl (raised_eq_none herror.symm)

end Watchdog

/-! ### The capture of a command -/

section Capture

variable {faults : Faults} {limitChars : ℕ} {world : World}

/-- The three ways a capture ends: the command was not started, it could not be
started, or its stream was read. -/
theorem captureCommandOutput_cases (hlimit : 1 ≤ limitChars) :
    ((tick faults .capture world).watchdog.reason ≠ none ∧
      captureCommandOutput faults limitChars world =
        (.ok ⟨[], [], none, false, none⟩, tick faults .capture world)) ∨
    ((tick faults .capture world).watchdog.reason = none ∧
      ∃ exc, start faults = .error exc ∧ captureCommandOutput faults limitChars world =
        (.ok ⟨[], [], none, false, some exc⟩, tick faults .capture world)) ∨
    ((tick faults .capture world).watchdog.reason = none ∧
      ∃ execId stream buffer kept error exitCode, start faults = .ok (execId, stream) ∧
        readChunks (SplitOutputBuffer.new (limitChars * maxUtf8BytesPerChar)) stream.chunks =
          (buffer, kept) ∧
        ((inspectExitCode faults = .ok exitCode ∧
            error = (if kept then stream.failure else none).or (closeError stream)) ∨
          exitCode = none ∧ error ≠ none) ∧
        captureCommandOutput faults limitChars world =
          (.ok ⟨buffer.stdout, buffer.stderr, exitCode, buffer.truncated, error⟩,
            if kept then tick faults .capture world
            else terminate faults .outputLimit
              (tick faults .outputLimit (tick faults .capture world)))) := by
  have hbytes : ¬ limitChars * maxUtf8BytesPerChar < 1 := by
    unfold maxUtf8BytesPerChar
    omega
  unfold captureCommandOutput
  rw [if_neg hbytes]
  -- a termination before the start leaves the command unstarted
  by_cases hreason : (tick faults .capture world).watchdog.reason ≠ none
  · exact Or.inl ⟨hreason, if_pos hreason⟩
  · refine Or.inr ?_
    simp only [if_neg hreason]
    have hnone : (tick faults .capture world).watchdog.reason = none := not_not.1 hreason
    cases hstart : start faults with
    | error exc => exact Or.inl ⟨hnone, exc, rfl, rfl⟩
    | ok started =>
      obtain ⟨execId, stream⟩ := started
      refine Or.inr ⟨hnone, ?_⟩
      -- the stream is read to its end, or up to the limit
      cases hread : readChunks (SplitOutputBuffer.new (limitChars * maxUtf8BytesPerChar))
        stream.chunks with
      | mk buffer kept =>
        cases hinspect : inspectExitCode faults with
        | ok exitCode =>
          refine ⟨execId, stream, buffer, kept, _, exitCode, rfl, hread, Or.inl ⟨rfl, rfl⟩, ?_⟩
          simp only [hread]
        | error exc =>
          refine ⟨execId, stream, buffer, kept,
            ((if kept then stream.failure else none).or (closeError stream)).or (some exc), none,
            rfl, hread, Or.inr ⟨rfl, ?_⟩, ?_⟩
          · cases (if kept then stream.failure else none).or (closeError stream) <;> simp
          · simp only [hread]

/-- A fresh buffer is truncated exactly when the loop was broken off. -/
theorem readChunks_truncated {byteLimit : ℕ} {chunks : List (Option Bytes × Option Bytes)}
    {buffer : SplitOutputBuffer} {kept : Bool}
    (h : readChunks (SplitOutputBuffer.new byteLimit) chunks = (buffer, kept)) :
    buffer.truncated = !kept := by
  have hempty : (SplitOutputBuffer.new byteLimit).size = 0 := rfl
  have hlimit : (SplitOutputBuffer.new byteLimit).byteLimit = byteLimit := rfl
  by_cases hfits : (stdoutBytes chunks).length + (stderrBytes chunks).length ≤ byteLimit
  · rw [readChunks_fits (by omega)] at h
    obtain ⟨rfl, rfl⟩ := Prod.mk.inj h
    rfl
  · obtain ⟨stdout, stderr, -, -, hread⟩ :=
      @readChunks_overflows (SplitOutputBuffer.new byteLimit) chunks (by omega) (by omega)
    rw [hread] at h
    obtain ⟨rfl, rfl⟩ := Prod.mk.inj h
    rfl

/-- The command was started and read to its end, its stream was closed, and it
has the exit code. -/
def RanCleanly (faults : Faults) (exitCode : Option ℤ) : Prop :=
  ∃ execId stream, start faults = .ok (execId, stream) ∧ stream.failure = none ∧
    closeError stream = none ∧ inspectExitCode faults = .ok exitCode

/-- What a capture reports, for the world it leaves. -/
structure Captured (faults : Faults) (output : CapturedCommandOutput) (before after : World) :
    Prop where
  watching : Watching faults after.watchdog
  releases : after.releases = before.releases
  truncated : output.truncated = true → after.watchdog.reason ≠ none
  outputLimit : after.watchdog.reason = some .outputLimit → output.truncated = true
  clean : after.watchdog.reason = none → output.error = none → RanCleanly faults output.exitCode

theorem captureCommandOutput_ok (hlimit : 1 ≤ limitChars) (h : Watching faults world.watchdog)
    (hreason : world.watchdog.reason = none) :
    ∃ output after, captureCommandOutput faults limitChars world = (.ok output, after) ∧
      Captured faults output world after := by
  have hwatching := tick_watching .capture h
  -- before the command starts the reason can only be the timeout
  have htimeout : (tick faults .capture world).watchdog.reason ≠ some .outputLimit := by
    rcases tick_reason .capture h with hsame | ⟨-, htimeout⟩
    · rw [hsame, hreason]
      simp
    · rw [htimeout]
      simp
  rcases @captureCommandOutput_cases faults limitChars world hlimit with
    ⟨hstopped, heq⟩ | ⟨hnone, exc, hstart, heq⟩ |
    ⟨hnone, execId, stream, buffer, kept, error, exitCode, hstart, hread, hinspect, heq⟩
  · exact ⟨_, _, heq, hwatching, tick_releases .capture, by simp,
      fun hlimit' => absurd hlimit' htimeout, fun hnone => absurd hnone hstopped⟩
  · refine ⟨_, _, heq, hwatching, tick_releases .capture, by simp,
      fun hlimit' => absurd hlimit' htimeout, ?_⟩
    intro _ herror
    simp at herror
  · refine ⟨_, _, heq, ?_⟩
    have htruncated := readChunks_truncated hread
    cases kept with
    | true =>
      refine ⟨hwatching, tick_releases .capture, ?_, fun hlimit' => absurd hlimit' htimeout, ?_⟩
      · intro htrue
        simp [htruncated] at htrue
      · intro _ herror
        rcases hinspect with ⟨hinspect, herror'⟩ | ⟨-, herror'⟩
        · have hnoerror : error = none := herror
          rw [herror', if_pos rfl, Option.or_eq_none_iff] at hnoerror
          exact ⟨execId, stream, hstart, hnoerror.1, hnoerror.2, hinspect⟩
        · exact absurd herror herror'
    | false =>
      have hlast := tick_watching .outputLimit hwatching
      have hsome : (terminate faults .outputLimit
          (tick faults .outputLimit (tick faults .capture world))).watchdog.reason ≠ none := by
        rw [terminate_reason .outputLimit hlast]
        cases (tick faults .outputLimit (tick faults .capture world)).watchdog.reason <;> simp
      refine ⟨terminate_watching .outputLimit hlast, ?_, fun _ => hsome, fun _ => htruncated,
        fun hnone' => absurd hnone' hsome⟩
      simp

end Capture

/-! ### The end of an execution -/

section Outcome

variable {faults : Faults} {record : ProblemRecord} {shellgei : Text} {limitChars : ℕ}

/-- No call of the execution raised, none of them was cut short, and the
container was stopped by the cleanup. -/
structure Undisturbed (faults : Faults) (exitCode : Option ℤ) (watchdog : Watchdog) : Prop where
  prepared : faults.prepare = .ok (some 0)
  timer : faults.timerStart = .ok ()
  ran : RanCleanly faults exitCode
  killed : faults.stopKill = .ok ()
  unterminated : watchdog.reason = none

/-- What an outcome says, for the watchdog it was built after. -/
structure Outcome (faults : Faults) (judge : JudgeSpecification)
    (outcome : SandboxExecutionOutcome) (watchdog : Watchdog) : Prop where
  duration : 0 ≤ outcome.durationMs
  timedOut : outcome.timedOut = true ↔ outcome.status = .timedOut
  outputLimit : outcome.status = .outputLimit → outcome.truncated = true
  completed : outcome.status = .completed →
    outcome.exitCode ≠ none ∧ outcome.truncated = false ∧ outcome.error = none ∧
      Undisturbed faults outcome.exitCode watchdog
  error : outcome.status = .error → outcome.error ≠ none
  incomplete : outcome.status ≠ .completed →
    outcome.artifact = none ∧ outcome.displayArtifact = none
  size : 4 * (((outcome.artifact.getD []).length + 2) / 3) +
    4 * (((outcome.displayArtifact.getD []).length + 2) / 3) ≤ maxRunnerImageBase64Chars
  judged : ∀ payload, outcome.artifact = some payload → ∃ artifact, judge = .image artifact

theorem durationMs_nonneg : 0 ≤ durationMs faults := Int.le_max_left _ _

/-- An outcome of an exception. -/
theorem errorOutcome_outcome (exc : Text) (judge : JudgeSpecification) (watchdog : Watchdog) :
    Outcome faults judge (errorOutcome faults exc) watchdog where
  duration := durationMs_nonneg
  timedOut := by simp [errorOutcome]
  outputLimit := by simp [errorOutcome]
  completed := by simp [errorOutcome]
  error := by simp [errorOutcome]
  incomplete := by simp [errorOutcome]
  size := by simp [errorOutcome, maxRunnerImageBase64Chars]
  judged := by simp [errorOutcome]

theorem captureBounded_length {maxBytes : ℕ} {run : Except Text Output} {payload : Bytes}
    (h : captureBounded maxBytes run = some payload) : payload.length ≤ maxBytes := by
  unfold captureBounded at h
  obtain ⟨bytes, -, h⟩ := Option.bind_eq_some_iff.1 h
  by_cases hbad : bytes = [] ∨ maxBytes < bytes.length
  · rw [if_pos hbad] at h
    cases h
  · rw [if_neg hbad] at h
    obtain rfl := Option.some.inj h
    omega

/-- The judged artifact of an image problem is within the schema's limit. -/
theorem judgedArtifact_length {judge : JudgeSpecification} {payload : Bytes}
    (h : judgedArtifact faults judge = some payload) :
    (∃ artifact, judge = .image artifact) ∧ payload.length ≤ maxArtifactBytes := by
  cases judge with
  | text specification => cases h
  | image artifact =>
    exact ⟨⟨artifact, rfl⟩, Nat.le_trans (captureBounded_length h) artifact.max_bytes_valid.2⟩

/-- The display artifact fits beside the Base64 of the judged one. -/
theorem captureDisplayArtifact_length {artifact : Option Bytes} {payload : Bytes}
    (hartifact : (artifact.getD []).length ≤ maxArtifactBytes)
    (h : captureDisplayArtifact faults (remainingBytes artifact) = some payload) :
    4 * (((artifact.getD []).length + 2) / 3) + 4 * ((payload.length + 2) / 3) ≤
      maxRunnerImageBase64Chars := by
  unfold captureDisplayArtifact at h
  by_cases hzero : remainingBytes artifact = 0
  · rw [if_pos hzero] at h
    cases h
  · rw [if_neg hzero] at h
    have hlength := captureBounded_length h
    simp only [remainingBytes, maxRunnerImageBase64Chars] at hlength ⊢
    unfold maxArtifactBytes at hartifact
    omega

/-- The two artifacts fit into the limit together. -/
theorem captureArtifacts_size (judge : JudgeSpecification) (output : CapturedCommandOutput)
    (world : World) :
    4 * ((((captureArtifacts faults judge output world).1.1.getD []).length + 2) / 3) +
      4 * ((((captureArtifacts faults judge output world).1.2.getD []).length + 2) / 3) ≤
        maxRunnerImageBase64Chars := by
  unfold captureArtifacts
  -- whether or not the judged artifact is read, it is within the schema's limit
  obtain ⟨artifact, hartifact⟩ : ∃ artifact, artifact =
      if (tick faults .artifact world).watchdog.reason = none ∧ output.error = none then
        judgedArtifact faults judge else none := ⟨_, rfl⟩
  have hlength : (artifact.getD []).length ≤ maxArtifactBytes := by
    rw [hartifact]
    split
    · cases hjudged : judgedArtifact faults judge with
      | none => simp
      | some payload => exact (judgedArtifact_length hjudged).2
    · simp
  simp only [← hartifact]
  split
  · cases hdisplay : captureDisplayArtifact faults (remainingBytes artifact) with
    | none =>
      simp only [Option.getD_none, List.length_nil, maxRunnerImageBase64Chars]
      unfold maxArtifactBytes at hlength
      omega
    | some payload => exact captureDisplayArtifact_length hlength hdisplay
  · simp only [Option.getD_none, List.length_nil, maxRunnerImageBase64Chars]
    unfold maxArtifactBytes at hlength
    omega

theorem captureArtifacts_judged {judge : JudgeSpecification} {output : CapturedCommandOutput}
    {world : World} {payload : Bytes}
    (h : (captureArtifacts faults judge output world).1.1 = some payload) :
    ∃ artifact, judge = .image artifact := by
  unfold captureArtifacts at h
  simp only at h
  split at h
  · exact (judgedArtifact_length h).1
  · cases h

/-- The status and the error of an outcome, by the reason that the cleanup reports. -/
theorem outcomeStatus_cases (output : CapturedCommandOutput) (cleanup : SandboxCleanupResult) :
    (cleanup.reason = some .timeout ∧ (outcomeStatus output cleanup).1 = .timedOut) ∨
    (cleanup.reason = some .outputLimit ∧ (outcomeStatus output cleanup).1 = .outputLimit) ∨
    (cleanup.reason = none ∧ (outcomeStatus output cleanup).1 = .error ∧
      (outcomeStatus output cleanup).2 ≠ none) ∨
    (cleanup.reason = none ∧ (outcomeStatus output cleanup).1 = .completed ∧
      (outcomeStatus output cleanup).2 = none ∧ output.error = none ∧ cleanup.error = none ∧
      output.exitCode ≠ none) := by
  unfold outcomeStatus
  cases hreason : cleanup.reason with
  | some reason =>
    cases reason with
    | timeout => exact Or.inl ⟨rfl, rfl⟩
    | outputLimit => exact Or.inr (Or.inl ⟨rfl, rfl⟩)
  | none =>
    refine Or.inr (Or.inr ?_)
    by_cases hfailed : output.error.or cleanup.error ≠ none ∨ output.exitCode = none
    · refine Or.inl ⟨rfl, ?_, ?_⟩
      · simp only [if_pos hfailed]
      · simp only [if_pos hfailed]
        cases output.error.or cleanup.error <;> simp
    · obtain ⟨hnone, hexit⟩ : output.error.or cleanup.error = none ∧ output.exitCode ≠ none := by
        simpa only [not_or, not_not] using hfailed
      obtain ⟨herror, hcleanup⟩ := Option.or_eq_none_iff.1 hnone
      refine Or.inr ⟨rfl, ?_, ?_, herror, hcleanup, hexit⟩
      · simp only [if_neg hfailed]
      · simp only [if_neg hfailed]
        exact hnone

/-- An outcome of a capture. -/
theorem buildOutcome_outcome {judge : JudgeSpecification} {output : CapturedCommandOutput}
    {before world : World} (hprepare : faults.prepare = .ok (some 0))
    (htimer : faults.timerStart = .ok ()) (h : Captured faults output before world) :
    Outcome faults judge
      (buildOutcome faults output (captureArtifacts faults judge output world).1
        (stop faults (captureArtifacts faults judge output world).2).1)
      (stop faults (captureArtifacts faults judge output world).2).2.watchdog := by
  have hartifact := tick_watching .artifact h.watching
  have hdisplay := tick_watching .displayArtifact hartifact
  have hsize := @captureArtifacts_size faults judge output world
  have hjudged : ∀ payload, (captureArtifacts faults judge output world).1.1 = some payload →
      ∃ artifact, judge = .image artifact := fun payload h => captureArtifacts_judged h
  obtain ⟨artifacts, hartifacts⟩ :
      ∃ artifacts, artifacts = (captureArtifacts faults judge output world).1 := ⟨_, rfl⟩
  rw [← hartifacts] at hsize hjudged ⊢
  obtain ⟨hreason, hafter, -, -, herror⟩ :=
    @stop_spec faults (captureArtifacts faults judge output world).2 hdisplay
  obtain ⟨cleanup, hcleanup⟩ :
      ∃ cleanup, cleanup = (stop faults (captureArtifacts faults judge output world).2).1 :=
    ⟨_, rfl⟩
  rw [← hcleanup] at hreason herror ⊢
  -- a reason other than the timeout was there when the capture ended
  have hsame : ∀ reason, cleanup.reason = reason → reason ≠ some .timeout →
      world.watchdog.reason = reason := by
    intro reason hr hne
    rw [hreason] at hr
    exact reason_of_tick h.watching hne (reason_of_tick hartifact hne
      (reason_of_tick hdisplay hne hr))
  unfold buildOutcome
  rcases outcomeStatus_cases output cleanup with ⟨hr, hstatus⟩ | ⟨hr, hstatus⟩ |
    ⟨hr, hstatus, hfailed⟩ | ⟨hr, hstatus, hnone, hout, hcleaned, hexit⟩
  · constructor <;> simp [hstatus, durationMs_nonneg, maxRunnerImageBase64Chars]
  · have htruncated := h.outputLimit (hsame _ hr (by simp))
    constructor <;> simp [hstatus, htruncated, durationMs_nonneg, maxRunnerImageBase64Chars]
  · constructor <;> simp [hstatus, hfailed, durationMs_nonneg, maxRunnerImageBase64Chars]
  · have hrunning := hsame _ hr (by simp)
    have htruncated : output.truncated = false := by
      cases htrue : output.truncated with
      | false => rfl
      | true => exact absurd hrunning (h.truncated htrue)
    have hkill : faults.stopKill = .ok () := by
      rw [hreason] at hr
      rw [hr, hcleaned] at herror
      exact raised_eq_none herror.symm
    have hundisturbed : Undisturbed faults output.exitCode
        (stop faults (captureArtifacts faults judge output world).2).2.watchdog :=
      ⟨hprepare, htimer, h.clean hrunning hout, hkill, by rw [hafter, ← hreason]; exact hr⟩
    refine ⟨durationMs_nonneg, by simp [hstatus], by simp [hstatus], ?_, by simp [hstatus],
      by simp [hstatus], ?_, ?_⟩
    · intro _
      exact ⟨hexit, htruncated, hnone, hundisturbed⟩
    · simpa only [hstatus, ne_eq, not_true_eq_false, if_false] using hsize
    · simpa only [hstatus, ne_eq, not_true_eq_false, if_false] using hjudged

/-- An execution in a container ends with an outcome, or with an exception when
the files or the timer could not be set up. -/
theorem executeInContainer_cases (hlimit : 1 ≤ limitChars) (world : World) :
    (∃ exc after, executeInContainer faults record shellgei limitChars world =
      (.error exc, after) ∧ after.releases = world.releases) ∨
    ∃ outcome stopped after, executeInContainer faults record shellgei limitChars world =
      (.ok (outcome, stopped), after) ∧ after.releases = world.releases ∧
      (stopped = true → KillSucceeded faults) ∧
      Outcome faults record.definition.judge outcome after.watchdog := by
  unfold executeInContainer prepare
  cases hprepare : faults.prepare with
  | error exc =>
    refine Or.inl ⟨exc, _, rfl, ?_⟩
    simp [World.releases, World.call]
  | ok exitCode =>
    by_cases hzero : exitCode = some 0
    · subst hzero
      simp only [ne_eq, not_true_eq_false, if_false]
      -- the work directory is prepared: a watchdog takes over the container
      obtain ⟨prepared, hprepared⟩ : ∃ prepared : World, prepared =
          { world.call (.prepare (buildExecutionArchive shellgei record.fixtures)) with
            watchdog := Watchdog.new } := ⟨_, rfl⟩
      have hreleases : prepared.releases = world.releases := by
        rw [hprepared]
        simp [World.releases, World.call]
      rw [← hprepared]
      cases htimer : faults.timerStart with
      | error exc => exact Or.inl ⟨exc, prepared, rfl, hreleases⟩
      | ok u =>
        have hwatching : Watching faults prepared.watchdog := by
          rw [hprepared]
          exact watching_new
        have hnew : prepared.watchdog.reason = none := by
          rw [hprepared]
          rfl
        -- nothing raises any more: a failure becomes part of the outcome
        obtain ⟨output, after, hcapture, hcaptured⟩ :=
          captureCommandOutput_ok hlimit hwatching hnew
        have hdisplay : Watching faults
            (captureArtifacts faults record.definition.judge output after).2.watchdog :=
          tick_watching .displayArtifact (tick_watching .artifact hcaptured.watching)
        have hartifacts :
            (captureArtifacts faults record.definition.judge output after).2.releases =
            after.releases := by
          show (tick faults .displayArtifact (tick faults .artifact after)).releases = _
          rw [tick_releases, tick_releases]
        rw [hcapture]
        refine Or.inr ⟨_, _, _, rfl, ?_, stop_stopped hdisplay,
          buildOutcome_outcome hprepare htimer hcaptured⟩
        rw [(stop_spec hdisplay).2.2.1, hartifacts, hcaptured.releases, hreleases]
    · simp only [ne_eq, hzero, not_false_eq_true, if_true]
      refine Or.inl ⟨_, _, rfl, ?_⟩
      simp [World.releases, World.call]

/-- An execution ends with an outcome once it has a container, which it gives
back exactly once, as stopped only after a kill; without a container there is
neither. -/
theorem execute_spec (hlimit : 1 ≤ limitChars) :
    (∃ exc, faults.getContainer = .error exc ∧
      (execute faults record shellgei limitChars).1 = .error exc ∧
      (execute faults record shellgei limitChars).2.releases = []) ∨
    ∃ outcome stopped, faults.getContainer = .ok () ∧
      (execute faults record shellgei limitChars).1 = .ok outcome ∧
      (execute faults record shellgei limitChars).2.releases = [stopped] ∧
      (stopped = true → KillSucceeded faults) ∧
      Outcome faults record.definition.judge outcome
        (execute faults record shellgei limitChars).2.watchdog := by
  unfold execute
  cases hget : faults.getContainer with
  | error exc => exact Or.inl ⟨exc, rfl, rfl, rfl⟩
  | ok u =>
    refine Or.inr ?_
    rcases @executeInContainer_cases faults record shellgei limitChars hlimit
      ⟨Watchdog.new, [.getContainer]⟩ with
      ⟨exc, after, heq, hreleases⟩ |
      ⟨outcome, stopped, after, heq, hreleases, hstopped, houtcome⟩
    · simp only [heq]
      refine ⟨errorOutcome faults exc, false, trivial, rfl, ?_, by simp,
        errorOutcome_outcome _ _ _⟩
      simpa [World.releases, World.call] using hreleases
    · simp only [heq]
      refine ⟨outcome, stopped, trivial, rfl, ?_, hstopped, houtcome⟩
      simpa [World.releases, World.call] using hreleases

end Outcome

end SandboxExecutor
