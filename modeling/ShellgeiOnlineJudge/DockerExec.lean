/-
The commands that an execution starts in its container (the `exec_run` and
`exec_create` calls of soj_runner/sandbox_executor.py).

`execRequests` are the calls along `execute`.  They take the archive from the
fixtures and the paths from the judge, and none of them attaches a standard
input:

* `stdin_of_mem_execRequests` — no command of an execution has its input attached;
* `execRequests_withStdin` — the calls do not depend on the `stdin` of a problem;
* `command_receives_stdin_iff` — so the command receives it only when it is empty.
-/
import ShellgeiOnlineJudge.OutputPipeline

namespace DockerExec

open Utf8 Problem Execution ExecutionArchive SandboxExecutor ExecShellgei OutputPipeline

/-- `SANDBOX_WORK_DIRECTORY` -/
def sandboxWorkDirectory : Text := "/work".toList

/-- `EXECUTION_ARCHIVE_ENVIRONMENT` -/
def executionArchiveEnvironment : Text := "SOJ_EXECUTION_ARCHIVE".toList

/-- `EXECUTION_ARCHIVE_EXTRACT_COMMAND` -/
def executionArchiveExtractCommand : Text :=
  ("set -eu; umask 077; printf \"%s\" \"$SOJ_EXECUTION_ARCHIVE\" | /usr/bin/base64 -d | " ++
    "/usr/bin/tar -x -f - --no-same-owner --no-same-permissions").toList

/-- What a command is started with; what a call leaves out is as Docker has it,
without input, terminal, environment and directory. -/
structure ExecRequest where
  command : List Text
  stdout : Bool
  stderr : Bool
  stdin : Bool := false
  tty : Bool := false
  environment : List (Text × Text) := []
  workdir : Option Text := none

/-- `str(n)` -/
def decimal (n : ℕ) : Text := Nat.toDigits 10 n

/-- The `exec_run` of `SandboxPreparer.prepare`; `tarBytes` are the bytes of an archive. -/
def prepareRequest (tarBytes : List Member → Bytes) (shellgei : Text)
    (fixtures : List (Text × Text)) : ExecRequest where
  command := ["/bin/sh".toList, "-c".toList, executionArchiveExtractCommand]
  environment := [(executionArchiveEnvironment,
    Base64.encode (tarBytes (buildExecutionArchive shellgei fixtures)))]
  stdout := false
  stderr := true
  workdir := some sandboxWorkDirectory

/-- The `exec_create` of `DockerExecAdapter.start`. -/
def commandRequest : ExecRequest where
  command := ["bash".toList, commandPath]
  stdout := true
  stderr := true
  stdin := false
  tty := false
  workdir := some sandboxWorkDirectory

/-- The `exec_run` of `capture_artifact`. -/
def artifactRequest (path : Text) (maxBytes : ℕ) : ExecRequest where
  command := ["/usr/bin/head".toList, "-c".toList, decimal (maxBytes + 1), "--".toList,
    sandboxWorkDirectory ++ '/' :: path]
  stdout := true
  stderr := false

/-- The `exec_run` of `capture_display_artifact`. -/
def displayArtifactRequest (maxBytes : ℕ) : ExecRequest where
  command := ["/usr/bin/dd".toList, "if=/media/output.gif".toList,
    "iflag=nofollow,nonblock,count_bytes".toList, "bs=65536".toList,
    "count=".toList ++ decimal (maxBytes + 1), "status=none".toList]
  stdout := true
  stderr := false

/-- The calls of `capture_command_output`. -/
def captureRequests (faults : Faults) (limitChars : ℕ) (world : World) : List ExecRequest :=
  if limitChars * maxUtf8BytesPerChar < 1 then []
  else if (tick faults .capture world).watchdog.reason ≠ none then []
  else [commandRequest]

/-- The call for the artifact of an image problem. -/
def judgedArtifactRequests : JudgeSpecification → List ExecRequest
  | .text _ => []
  | .image artifact => [artifactRequest artifact.path artifact.maxBytes]

/-- The calls for the two artifacts. -/
def artifactsRequests (faults : Faults) (judge : JudgeSpecification)
    (output : CapturedCommandOutput) (world : World) : List ExecRequest :=
  let judged := tick faults .artifact world
  let display := tick faults .displayArtifact judged
  let artifact :=
    if judged.watchdog.reason = none ∧ output.error = none then judgedArtifact faults judge
    else none
  (if judged.watchdog.reason = none ∧ output.error = none then judgedArtifactRequests judge
    else []) ++
  if display.watchdog.reason = none ∧ output.error = none ∧ remainingBytes artifact ≠ 0 then
    [displayArtifactRequest (remainingBytes artifact)]
  else []

/-- The calls of `SandboxExecutor._execute_in_container`. -/
def executeRequests (tarBytes : List Member → Bytes) (faults : Faults) (record : ProblemRecord)
    (shellgei : Text) (limitChars : ℕ) (world : World) : List ExecRequest :=
  prepareRequest tarBytes shellgei record.fixtures ::
    match prepare faults shellgei record.fixtures world with
    | (.error _, _) => []
    | (.ok (), world) =>
      let world := { world with watchdog := Watchdog.new }
      match faults.timerStart with
      | .error _ => []
      | .ok () =>
        captureRequests faults limitChars world ++
          match captureCommandOutput faults limitChars world with
          | (.error _, _) => []
          | (.ok output, world) =>
            artifactsRequests faults record.definition.judge output world

/-- The calls of `SandboxExecutor.execute`, in their order. -/
def execRequests (tarBytes : List Member → Bytes) (faults : Faults) (record : ProblemRecord)
    (shellgei : Text) (limitChars : ℕ) : List ExecRequest :=
  match faults.getContainer with
  | .error _ => []
  | .ok () =>
    executeRequests tarBytes faults record shellgei limitChars ⟨Watchdog.new, [.getContainer]⟩

section Requests

variable {tarBytes : List Member → Bytes} {faults : Faults} {record : ProblemRecord}
  {shellgei : Text} {limitChars : ℕ} {request : ExecRequest}

theorem stdin_of_mem_artifactsRequests {judge : JudgeSpecification}
    {output : CapturedCommandOutput} {world : World}
    (h : request ∈ artifactsRequests faults judge output world) : request.stdin = false := by
  rw [artifactsRequests] at h
  rcases List.mem_append.mp h with h | h
  · obtain ⟨-, h⟩ := List.mem_ite_nil_right.mp h
    cases judge with
    | text specification => cases h
    | image artifact =>
      obtain rfl := List.mem_singleton.mp h
      rfl
  · obtain ⟨-, h⟩ := List.mem_ite_nil_right.mp h
    obtain rfl := List.mem_singleton.mp h
    rfl

/-- No command of an execution has its standard input attached. -/
theorem stdin_of_mem_execRequests
    (h : request ∈ execRequests tarBytes faults record shellgei limitChars) :
    request.stdin = false := by
  rw [execRequests] at h
  cases hget : faults.getContainer with
  | error exc =>
    rw [hget] at h
    cases h
  | ok u =>
    rw [hget] at h
    rcases List.mem_cons.mp h with rfl | h
    · rfl
    · split at h
      · cases h
      · split at h
        · cases h
        · -- the command, and then the artifacts
          rcases List.mem_append.mp h with h | h
          · rw [captureRequests] at h
            split at h
            · cases h
            · split at h
              · cases h
              · obtain rfl := List.mem_singleton.mp h
                rfl
          · split at h
            · cases h
            · exact stdin_of_mem_artifactsRequests h

/-- The problem with another standard input. -/
def withStdin (record : ProblemRecord) (stdin : Text)
    (h : validateTextBytes stdin "stdin" maxStdinBytes = .ok stdin) : ProblemRecord :=
  { record with
    definition := { record.definition with
      execution := { record.definition.execution with stdin, stdin_valid := h } } }

/-- Two problems that only differ in their standard input are executed alike. -/
theorem execRequests_withStdin {stdin : Text}
    (h : validateTextBytes stdin "stdin" maxStdinBytes = .ok stdin) :
    execRequests tarBytes faults (withStdin record stdin h) shellgei limitChars =
      execRequests tarBytes faults record shellgei limitChars := rfl

/-- The command is started when nothing fails before it. -/
theorem commandRequest_mem (h : Quiet faults) (hpos : 1 ≤ limitChars) :
    commandRequest ∈ execRequests tarBytes faults record shellgei limitChars := by
  have hbytes : ¬ limitChars * maxUtf8BytesPerChar < 1 := by
    unfold maxUtf8BytesPerChar
    omega
  have hcapture : ∀ world : World, world.watchdog.reason = none →
      captureRequests faults limitChars world = [commandRequest] := by
    intro world hreason
    rw [captureRequests, if_neg hbytes, tick_untimed h.untimed, if_neg (not_not.mpr hreason)]
  simp only [execRequests, h.acquired, executeRequests, prepare, h.prepared, h.timer, ne_eq,
    not_true_eq_false, if_false]
  refine List.mem_cons_of_mem _ (List.mem_append_left _ ?_)
  rw [hcapture _ rfl]
  exact List.mem_singleton_self commandRequest

end Requests

/-- Whatever the command and the execution, the process that runs it has the
standard input of the problem; `standardInput` is what Docker gives a process. -/
def ReceivesStdin (standardInput : ExecRequest → Bytes) (tarBytes : List Member → Bytes)
    (record : ProblemRecord) : Prop :=
  ∀ faults shellgei limitChars request,
    request ∈ execRequests tarBytes faults record shellgei limitChars →
    request.command = commandRequest.command →
    standardInput request = encode record.definition.execution.stdin

theorem encode_eq_nil_iff {text : Text} : encode text = [] ↔ text = [] := by
  constructor
  · intro h
    have hlength := length_le_length_encode text
    rw [h] at hlength
    exact List.eq_nil_of_length_eq_zero (Nat.le_zero.mp hlength)
  · rintro rfl
    rfl

/-- **The command receives the standard input of its problem** exactly when that
is empty. -/
theorem command_receives_stdin_iff (standardInput : ExecRequest → Bytes)
    (hdocker : ∀ request, request.stdin = false → standardInput request = [])
    (tarBytes : List Member → Bytes) (record : ProblemRecord) :
    ReceivesStdin standardInput tarBytes record ↔ record.definition.execution.stdin = [] := by
  rw [← encode_eq_nil_iff]
  constructor
  · intro h
    -- an execution without faults starts the command
    have hmem := @commandRequest_mem tarBytes printsHi record [':'] 1 printsHi_quiet (Nat.le_refl 1)
    rw [← h printsHi [':'] 1 commandRequest hmem rfl]
    exact hdocker commandRequest rfl
  · intro h faults shellgei limitChars request hmem _
    rw [h]
    exact hdocker request (stdin_of_mem_execRequests hmem)

theorem command_receives_stdin_iff_silent :
    ReceivesStdin (fun _ => []) (fun _ => []) silentProblem :=
  (command_receives_stdin_iff (fun _ => []) (fun _ _ => rfl) (fun _ => []) silentProblem).mpr rfl

/-- A problem whose command is to read `1`, a newline. -/
def inputProblem : ProblemRecord := withStdin silentProblem ['1', '\n'] (by rfl)

/-- Its command reads nothing, as that of the problem without an input. -/
theorem inputProblem_not_received :
    ¬ ReceivesStdin (fun _ => []) (fun _ => []) inputProblem ∧
      execRequests (fun _ => []) printsHi inputProblem "cat".toList 1 =
        execRequests (fun _ => []) printsHi silentProblem "cat".toList 1 := by
  refine ⟨?_, rfl⟩
  intro h
  have hmem := @commandRequest_mem (fun _ => []) printsHi inputProblem "cat".toList 1
    printsHi_quiet (Nat.le_refl 1)
  have hinput := h printsHi "cat".toList 1 commandRequest hmem rfl
  revert hinput
  decide

end DockerExec
