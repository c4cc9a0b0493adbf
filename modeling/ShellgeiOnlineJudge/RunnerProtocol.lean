/-
The messages between the backend and the runner (soj_shared/runner_protocol.py
and request_context.py).
-/
import ShellgeiOnlineJudge.Execution

namespace RunnerProtocol

open Utf8 Problem Execution

/-- The characters `[0-9a-f]`. -/
def isLowerHex (c : Char) : Bool := ('0' ≤ c && c ≤ '9') || ('a' ≤ c && c ≤ 'f')

theorem isLowerHex_digitChar {n : ℕ} (hn : n < 16) : isLowerHex (Nat.digitChar n) = true := by
  have hall : ∀ n < 16, isLowerHex (Nat.digitChar n) = true := by decide
  exact hall n hn

theorem isLowerHex_of_mem_zeros {n : ℕ} {c : Char} (h : c ∈ List.replicate n '0') :
    isLowerHex c = true := by
  rw [List.eq_of_mem_replicate h]
  rfl

/-- `REQUEST_ID_LENGTH` -/
def requestIdLength : ℕ := 32

/-- The length of a revision. -/
def problemRevisionLength : ℕ := 64

/-- `RequestId` -/
structure RequestId where
  text : Text
  length_eq : text.length = requestIdLength
  hex : ∀ c ∈ text, isLowerHex c = true
  deriving DecidableEq

/-- `ProblemRevision` -/
structure ProblemRevision where
  text : Text
  length_eq : text.length = problemRevisionLength
  hex : ∀ c ∈ text, isLowerHex c = true
  deriving DecidableEq

theorem length_zeros : (List.replicate 64 '0').length = problemRevisionLength := rfl

theorem isLowerHex_zeros : ∀ c ∈ List.replicate 64 '0', isLowerHex c = true :=
  fun _ => isLowerHex_of_mem_zeros

/-- `RunnerExecutionRequest`; its `protocol_version` is 4. -/
structure RunnerExecutionRequest extends ShellgeiData where
  requestId : RequestId
  problemRevision : ProblemRevision

/-- `RunnerExecutionResponse`; its `protocol_version` is 4. -/
structure RunnerExecutionResponse where
  requestId : RequestId
  problemRevision : ProblemRevision
  result : ExecutionResult

end RunnerProtocol
