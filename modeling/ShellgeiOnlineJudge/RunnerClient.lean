/-
The execution slots of the runner client (soj_backend/runner_client.py).

`execute` is `RunnerClient.execute`, on the semaphore and the executor of
RunShellgei.lean, with one more step: the request ID is fetched after the slot
is taken and before the `try` block that gives it back.  A provider that raises
there takes the slot with it, which the model records in `lost`.

* `client_slots_conserved` — as long as no provider has raised, and no submission has
  raised after queueing its item, the slots are conserved;
* `three_lost_slots` — otherwise three such calls leave a client without a free
  slot and without work.
-/
import ShellgeiOnlineJudge.RunShellgei
import ShellgeiOnlineJudge.Submission

namespace RunnerClient

open Prog (unwrap)
open ShellgeiDockerClient (Client Token)
open Submission (RunnerError)

/-- `RUNNER_CLIENT_CAPACITY` -/
def runnerClientCapacity : ℕ := 3

/-- The client: its semaphore and its executor. -/
structure State where
  client : Client
  /-- the slots of the calls whose request ID provider has raised -/
  lost : ℕ
  deriving DecidableEq

/-- A client before its first call. -/
def State.fresh (capacity : ℕ) : State := ⟨.fresh capacity, 0⟩

/-- What leaves `execute` as an exception. -/
inductive Exc
  /-- one of the three exceptions for callers -/
  | runner (e : RunnerError)
  /-- what the request ID provider raised -/
  | requestIdProvider
  /-- the log event refused the request ID -/
  | validationError
  /-- `asyncio.CancelledError` -/
  | cancelled
  /-- an exception of the work item that no handler names -/
  | baseException
  /-- `BoundedSemaphore.release` above the initial value -/
  | valueError

/-- What a work item raises. -/
inductive Failure
  | runner (e : RunnerError)
  /-- any other `Exception` -/
  | exception
  | baseException

/-- How `wait_for_thread_future` ends; without a timeout it waits as long as
it takes. -/
inductive WaitOutcome
  | result
  | raised (e : Failure)
  | cancelled

/-- The atomic steps of a call. -/
inductive Action
  | acquireSlot
  | requestIdProvider
  | submit
  | waitForThreadFuture (i : ℕ)
  | addDoneCallback (i : ℕ)
  | logSafeEvent
  | releaseSlot
  deriving DecidableEq

/-- The provider and the log event answer whether they returned. -/
abbrev Action.Response : Action → Type
  | acquireSlot => Bool
  | requestIdProvider => Bool
  | submit => SubmitOutcome
  | waitForThreadFuture _ => WaitOutcome
  | addDoneCallback _ => Unit
  | logSafeEvent => Bool
  | releaseSlot => Except ShellgeiDockerClient.Exc Unit

/-- A step of the semaphore or the executor. -/
def State.onClient (s : State) (c : Option Client) : Option State :=
  c.map fun client => { s with client }

/-- The state after an action that was answered by the given response. -/
def sem : (a : Action) → State → a.Response → Option State
  | .acquireSlot, s, r => s.onClient (ShellgeiDockerClient.sem .acquireSlot s.client r)
  | .requestIdProvider, s, r => some (if r then s else { s with lost := s.lost + 1 })
  | .submit, s, r => s.onClient (ShellgeiDockerClient.sem .submit s.client r)
  | .waitForThreadFuture i, s, r => match r with
    | .result | .raised _ => if s.client.executor.Done i then some s else none
    | .cancelled => some s
  | .addDoneCallback i, s, r =>
    s.onClient (ShellgeiDockerClient.sem (.addDoneCallback i) s.client r)
  | .logSafeEvent, s, _ => some s
  | .releaseSlot, s, r => s.onClient (ShellgeiDockerClient.sem .releaseSlot s.client r)

/-- A part of a call. -/
abbrev M (α : Type) := Prog Action Action.Response Exc α

/-- Do an action. -/
abbrev perform (a : Action) : M a.Response := Prog.perform a

/-- `except Exception`: one event, then `RunnerUnavailableError`. -/
def requestFailed : M (Except Exc Unit × Bool) := do
  let logged : Bool ← perform .logSafeEvent
  pure (.error (if logged then .runner .unavailable else .validationError), false)

/-- The `try` block with its handlers: what leaves it, and `release_when_done`. -/
def submitAndWait : M (Except Exc Unit × Bool) := do
  let submitted : SubmitOutcome ← perform .submit
  match submitted with
  | .raised _ => requestFailed
  | .future i => do
    let waited : WaitOutcome ← perform (.waitForThreadFuture i)
    match waited with
    | .result => pure (.ok (), false)
    | .raised (.runner e) => pure (.error (.runner e), false)
    | .raised .exception => requestFailed
    | .raised .baseException => pure (.error .baseException, false)
    | .cancelled => do
      perform (.addDoneCallback i)
      pure (.error .cancelled, true)

/-- `execute` -/
def execute : M Unit := do
  let acquired : Bool ← perform .acquireSlot
  if acquired then do
    let provided : Bool ← perform .requestIdProvider
    if provided then do
      let (outcome, releaseWhenDone) ← submitAndWait
      if releaseWhenDone then unwrap outcome
      else do
        let released : Except ShellgeiDockerClient.Exc Unit ← perform .releaseSlot
        match released with
        | .ok () => unwrap outcome
        | .error _ => throw .valueError
    else throw .requestIdProvider
  else throw (.runner .busy)

/-- What happens without the calls: the pool works, `close` may cancel queued
items, and done callbacks run. -/
def Env (s s' : State) : Prop :=
  ∃ c, ShellgeiDockerClient.Env s.client c ∧ s' = { s with client := c }

/-- A client of the given capacity, and any number of calls at any time. -/
def calls (capacity : ℕ) : ThreadSystem State (M Unit) :=
  Prog.system sem (fun s threads => s = .fresh capacity ∧ threads = []) Env
    fun _ _ p => p = execute

/-! ### The slot of each call -/

/-- The books of the client are in order, when lost slots are counted as held. -/
def Inv (capacity : ℕ) (s : State) (m : Multiset Token) : Prop :=
  ShellgeiDockerClient.Inv capacity s.client (m + Multiset.replicate s.lost .slot)

/-- What a call holds at an action. -/
def here : Action → Multiset Token → Prop
  | .acquireSlot, m => m = 0
  | .requestIdProvider, m | .submit, m | .logSafeEvent, m | .releaseSlot, m => m = {.slot}
  | .waitForThreadFuture i, m | .addDoneCallback i, m => m = {.holds i}

/-- The client with what its calls and callbacks own. -/
def logic (capacity : ℕ) : Prog.Logic Action Action.Response State Token where
  sem := sem
  inv := Inv capacity
  here := here

variable {capacity : ℕ}

/-- A step of the semaphore or the executor does for a call what it does in the
client alone: the lost slots are part of its frame. -/
theorem Inv.lift {a : ShellgeiDockerClient.Action} {m F : Multiset Token}
    {post : a.Response → Multiset Token → Prop} {s s' : State} {r : a.Response}
    (ha : Prog.Triple (ShellgeiDockerClient.logic capacity) a m post)
    (h : Inv capacity s (m + F))
    (hs : s.onClient (ShellgeiDockerClient.sem a s.client r) = some s') :
    ∃ m', Inv capacity s' (m' + F) ∧ post r m' := by
  obtain ⟨c, hc, rfl⟩ := Option.map_eq_some_iff.mp hs
  have hinv : ShellgeiDockerClient.Inv capacity s.client
      (m + (F + Multiset.replicate s.lost .slot)) := by
    rw [← add_assoc]
    exact h
  obtain ⟨m', hm', hpost⟩ := ha.2 s.client _ r c hinv hc
  refine ⟨m', ?_, hpost⟩
  show ShellgeiDockerClient.Inv capacity c (m' + F + Multiset.replicate s.lost .slot)
  rw [add_assoc]
  exact hm'

theorem triple_acquireSlot :
    Prog.Triple (logic capacity) .acquireSlot 0 fun acquired m =>
      m = if acquired then {.slot} else 0 :=
  ⟨rfl, fun _ _ _ _ h hs => Inv.lift ShellgeiDockerClient.triple_acquireSlot h hs⟩

/-- A provider that raises takes the slot with it. -/
theorem triple_requestIdProvider :
    Prog.Triple (logic capacity) .requestIdProvider {.slot} fun provided m =>
      m = if provided then {.slot} else 0 := by
  refine ⟨rfl, fun s F provided s' h hs => ⟨_, ?_, rfl⟩⟩
  have hinv : Inv capacity s ({.slot} + F) := h
  show Inv capacity s' _
  cases hs
  cases provided with
  | true => exact hinv
  | false =>
    show ShellgeiDockerClient.Inv capacity s.client
      (0 + F + Multiset.replicate (s.lost + 1) Token.slot)
    rw [Multiset.replicate_succ, ← Multiset.singleton_add, zero_add, ← add_assoc,
      add_comm F {Token.slot}]
    exact hinv

theorem triple_submit :
    Prog.Triple (logic capacity) .submit {.slot} fun r m => match r with
      | .future i => m = {.holds i}
      | .raised _ => m = {.slot} :=
  ⟨rfl, fun _ _ _ _ h hs => Inv.lift ShellgeiDockerClient.triple_submit h hs⟩

/-- A call that has the result of its item holds a slot for nothing. -/
theorem triple_waitForThreadFuture (i : ℕ) :
    Prog.Triple (logic capacity) (.waitForThreadFuture i) {.holds i} fun r m => match r with
      | .result | .raised _ => m = {.slot}
      | .cancelled => m = {.holds i} := by
  refine ⟨rfl, fun s F r s' h hs => ?_⟩
  have hinv : Inv capacity s ({.holds i} + F) := h
  -- a result is there only when the item is done
  have hdone : s.client.executor.Done i → Inv capacity s ({.slot} + F) := by
    intro hd
    have hs : s.onClient (ShellgeiDockerClient.sem (.waitForThreadFuture i) s.client .result) =
        some s := by
      show s.onClient (if s.client.executor.Done i then some s.client else none) = some s
      rw [if_pos hd]
      rfl
    obtain ⟨m', hm', rfl⟩ :=
      Inv.lift (ShellgeiDockerClient.triple_waitForThreadFuture i) hinv hs
    exact hm'
  cases r with
  | cancelled =>
    cases hs
    exact ⟨{Token.holds i}, hinv, rfl⟩
  | result =>
    obtain ⟨hd, hs⟩ := Option.ite_none_right_eq_some.mp hs
    cases hs
    exact ⟨{Token.slot}, hdone hd, rfl⟩
  | raised e =>
    obtain ⟨hd, hs⟩ := Option.ite_none_right_eq_some.mp hs
    cases hs
    exact ⟨{Token.slot}, hdone hd, rfl⟩

theorem triple_addDoneCallback (i : ℕ) :
    Prog.Triple (logic capacity) (.addDoneCallback i) {.holds i} fun _ m => m = 0 :=
  ⟨rfl, fun _ _ r _ h hs =>
    @Inv.lift _ _ _ _ _ _ _ r (ShellgeiDockerClient.triple_addDoneCallback i) h hs⟩

theorem triple_logSafeEvent :
    Prog.Triple (logic capacity) .logSafeEvent {.slot} fun _ m => m = {.slot} := by
  refine ⟨rfl, fun s F r s' h hs => ⟨{.slot}, ?_, rfl⟩⟩
  cases hs
  exact h

theorem triple_releaseSlot :
    Prog.Triple (logic capacity) .releaseSlot {.slot} fun r m => r = .ok () ∧ m = 0 :=
  ⟨rfl, fun _ _ _ _ h hs => Inv.lift ShellgeiDockerClient.triple_releaseSlot h hs⟩

/-- What the `try` block leaves a call with. -/
def Submitted (r : Except Exc (Except Exc Unit × Bool)) (m : Multiset Token) : Prop :=
  ∃ outcome releaseWhenDone, r = .ok (outcome, releaseWhenDone) ∧
    m = if releaseWhenDone then 0 else {.slot}

theorem requestFailed_safe : Prog.Safe (logic capacity) Submitted requestFailed {.slot} := by
  refine Prog.Safe.perform_bind triple_logSafeEvent fun logged m hm => ?_
  exact ⟨_, false, rfl, hm⟩

theorem submitAndWait_safe : Prog.Safe (logic capacity) Submitted submitAndWait {.slot} := by
  refine Prog.Safe.perform_bind triple_submit fun submitted m hm => ?_
  cases submitted with
  | raised queued =>
    obtain rfl := hm
    exact requestFailed_safe
  | future i =>
    obtain rfl := hm
    refine Prog.Safe.perform_bind (triple_waitForThreadFuture i) fun waited m hm => ?_
    cases waited with
    | result => exact ⟨.ok (), false, rfl, hm⟩
    | raised e =>
      obtain rfl := hm
      cases e with
      | runner e => exact ⟨.error (.runner e), false, rfl, rfl⟩
      | exception => exact requestFailed_safe
      | baseException => exact ⟨.error .baseException, false, rfl, rfl⟩
    | cancelled =>
      obtain rfl := hm
      refine Prog.Safe.perform_bind (triple_addDoneCallback i) fun _ m hm => ?_
      exact ⟨.error .cancelled, true, rfl, hm⟩

/-- A call starts and ends with nothing, on every path. -/
theorem execute_safe : Prog.Safe (logic capacity) (fun _ m => m = 0) execute 0 := by
  refine Prog.Safe.perform_bind triple_acquireSlot fun acquired m hm => ?_
  obtain rfl := hm
  cases acquired with
  | false => exact rfl
  | true =>
    refine Prog.Safe.perform_bind triple_requestIdProvider fun provided m hm => ?_
    obtain rfl := hm
    cases provided with
    | false => exact rfl
    | true =>
      refine Prog.Safe.bind submitAndWait_safe ?_ ?_
      · intro _ m hm
        obtain ⟨outcome, releaseWhenDone, ⟨⟩, rfl⟩ := hm
        cases releaseWhenDone with
        | true => exact rfl
        | false =>
          refine Prog.Safe.perform_bind triple_releaseSlot fun released m hm => ?_
          obtain ⟨rfl, rfl⟩ := hm
          exact rfl
      · intro e m hm
        obtain ⟨_, _, ⟨⟩, -⟩ := hm

theorem Inv.env {s s' : State} {m : Multiset Token} (h : Inv capacity s m) (henv : Env s s') :
    Inv capacity s' m := by
  obtain ⟨c, hc, rfl⟩ := henv
  exact ShellgeiDockerClient.Inv.env h hc

theorem Inv.fresh (capacity : ℕ) : Inv capacity (.fresh capacity) 0 := by
  show ShellgeiDockerClient.Inv capacity (.fresh capacity) (0 + Multiset.replicate 0 Token.slot)
  rw [Multiset.replicate_zero, add_zero]
  exact ⟨rfl, .empty capacity⟩

/-- The proof outline of the system. -/
def callsOutline (capacity : ℕ) : (calls capacity).Outline Token :=
  (logic capacity).outline (fun _ m => m = 0)
    (by
      intro s threads h
      obtain ⟨rfl, rfl⟩ := h
      exact ⟨[], rfl, by simp, Inv.fresh capacity⟩)
    (fun henv h => h.env henv)
    (by
      intro s p ann hp _ h
      obtain rfl := hp
      exact ⟨0, execute_safe, by rwa [zero_add]⟩)

/-! ### What holds of every run -/

/-- No call is in progress and no work item is unfinished. -/
def Idle (x : ThreadSystem.State State (M Unit)) : Prop :=
  (∀ p ∈ x.threads, p.finished = true) ∧ x.shared.client.executor.unfinished = ∅

/-- What holds of a client of `capacity` slots and its calls at any time. -/
structure Conserved (capacity : ℕ) (x : ThreadSystem.State State (M Unit)) : Prop where
  /-- the unfinished items, those included whose callbacks have to run, are behind slots -/
  bounded : x.shared.client.executor.unfinished.card ≤ capacity - x.shared.client.slots
  /-- no release finds the semaphore at its initial value: in a call, -/
  release : ∀ p ∈ x.threads, p.head = some .releaseSlot → x.shared.client.slots < capacity
  /-- in a callback that is added to a finished item, -/
  attach : ∀ p ∈ x.threads, ∀ i, p.head = some (.addDoneCallback i) →
    x.shared.client.slots < capacity
  /-- or in a callback that runs later -/
  callback : ∀ i ∈ x.shared.client.executor.callbacks, x.shared.client.slots < capacity
  /-- with no unfinished item and no call in progress all slots are free -/
  free : Idle x → x.shared.client.slots = capacity

/-- When nothing is under way, exactly the lost slots are missing. -/
theorem slots_add_lost {x : ThreadSystem.State State (M Unit)}
    (hx : (calls capacity).Reachable x) (hidle : Idle x) :
    x.shared.client.slots + x.shared.lost = capacity := by
  obtain ⟨ann, hthreads, howns, hinv⟩ := (callsOutline capacity).annotated hx
  have howns : ∀ a ∈ ann, Prog.Safe (logic capacity) (fun _ m => m = 0) a.1 a.2 := howns
  have hinv : Inv capacity x.shared (ThreadSystem.tokens ann) := hinv
  -- a call that is over owns nothing
  have hzero : ThreadSystem.tokens ann = 0 := by
    refine ThreadSystem.tokens_eq_zero fun a ha => ?_
    have hfin := hidle.1 a.1 (hthreads ▸ List.mem_map_of_mem ha)
    obtain ⟨_, hm⟩ := (howns a ha).post_of_finished hfin
    exact hm
  -- and no item is under way, so no callback is
  have hcallbacks : x.shared.client.executor.callbacks = 0 := by
    refine Multiset.eq_zero_of_forall_notMem fun i hi => ?_
    have hmem := Executor.mem_unfinished.mpr (.inr hi)
    rw [hidle.2] at hmem
    exact Finset.notMem_empty i hmem
  have hheld : ShellgeiDockerClient.held (Multiset.replicate x.shared.lost .slot) = 0 := by
    refine Multiset.eq_zero_of_forall_notMem fun i hi => ?_
    obtain ⟨t, ht, hti⟩ := (Multiset.mem_filterMap Token.item _).mp hi
    obtain rfl := Multiset.eq_of_mem_replicate ht
    cases hti
  have htotal := (ShellgeiDockerClient.Inv.accounts hinv).total
  rw [hzero, zero_add, hcallbacks, hheld, Multiset.count_replicate_self,
    Multiset.card_zero] at htotal
  omega

/-- **The slots are conserved** in every run in which no request ID provider
raises and no submission raises after it has queued its item. -/
theorem client_slots_conserved {x : ThreadSystem.State State (M Unit)}
    (hx : (calls runnerClientCapacity).Reachable x) (hlost : x.shared.lost = 0)
    (hleaked : x.shared.client.leaked = 0) : Conserved runnerClientCapacity x := by
  obtain ⟨ann, hthreads, howns, hinv⟩ := (callsOutline runnerClientCapacity).annotated hx
  have hinv : Inv runnerClientCapacity x.shared (ThreadSystem.tokens ann) := hinv
  have hacc := ShellgeiDockerClient.Inv.accounts hinv
  have htotal := hacc.total
  rw [hlost, Multiset.replicate_zero, add_zero] at htotal
  -- a thread at an action owns what the action needs
  have hhere : ∀ p ∈ x.threads, ∀ a, p.head = some a →
      ∃ m, here a m ∧ ∀ t ∈ m, t ∈ ThreadSystem.tokens ann := by
    intro p hp a ha
    exact Prog.Logic.here_of_head howns (hthreads ▸ hp) ha
  refine ⟨?_, ?_, ?_, fun i hi => hacc.lt_of_callback hi, ?_⟩
  · have hle := hacc.unfinished_le
    rw [hleaked, Multiset.card_zero] at hle
    omega
  · intro p hp ha
    obtain ⟨m, rfl, hsub⟩ := hhere p hp _ ha
    have hpos := Multiset.one_le_count_iff_mem.mpr (hsub .slot (by simp))
    omega
  · intro p hp i ha
    obtain ⟨m, rfl, hsub⟩ := hhere p hp _ ha
    have hmem : i ∈ ShellgeiDockerClient.held (ThreadSystem.tokens ann) :=
      (Multiset.mem_filterMap Token.item _).mpr ⟨.holds i, hsub (.holds i) (by simp), rfl⟩
    have hpos := Multiset.card_pos_iff_exists_mem.mpr ⟨i, hmem⟩
    omega
  · intro hidle
    have hadd := slots_add_lost hx hidle
    omega

/-- A cancelled call whose work item has not started. -/
def cancel : (a : Action) → State → a.Response
  | .acquireSlot, s => decide (0 < s.client.slots)
  | .requestIdProvider, _ => true
  | .submit, s => .future s.client.executor.next
  | .waitForThreadFuture _, _ => .cancelled
  | .addDoneCallback _, _ => ()
  | .logSafeEvent, _ => true
  | .releaseSlot, _ => .ok ()

/-- A call that is cancelled while it waits. -/
def cancelled : State × M Unit := Prog.run sem cancel 5 (.fresh runnerClientCapacity, execute)

theorem reachable_cancelled :
    (calls runnerClientCapacity).Reachable ⟨cancelled.1, [cancelled.2]⟩ := by
  have hinit : (calls runnerClientCapacity).Reachable ⟨.fresh runnerClientCapacity, []⟩ :=
    .init ⟨rfl, rfl⟩
  exact @Prog.reachable_run _ _ _ _ _ _ cancel _ _ _ [] [] 5 (_, _) (hinit.tail (.start rfl))

theorem client_slots_conserved_cancelled :
    cancelled.2.finished = true ∧ cancelled.1.client.slots = 2 ∧
    Conserved runnerClientCapacity ⟨cancelled.1, [cancelled.2]⟩ :=
  ⟨by decide +kernel, by decide +kernel,
    client_slots_conserved reachable_cancelled (by decide +kernel) (by decide +kernel)⟩

/-- A provider that raises. -/
def raising : (a : Action) → State → a.Response
  | .acquireSlot, s => decide (0 < s.client.slots)
  | .requestIdProvider, _ => false
  | .submit, s => .future s.client.executor.next
  | .waitForThreadFuture _, _ => .cancelled
  | .addDoneCallback _, _ => ()
  | .logSafeEvent, _ => true
  | .releaseSlot, _ => .ok ()

/-- The client after a number of calls one after another, and the calls. -/
def raisingCalls : ℕ → ThreadSystem.State State (M Unit)
  | 0 => ⟨.fresh runnerClientCapacity, []⟩
  | n + 1 =>
    let x := raisingCalls n
    let y := Prog.run sem raising 2 (x.shared, execute)
    ⟨y.1, x.threads ++ [y.2]⟩

theorem reachable_raisingCalls (n : ℕ) :
    (calls runnerClientCapacity).Reachable (raisingCalls n) := by
  induction n with
  | zero => exact .init ⟨rfl, rfl⟩
  | succ n ih =>
    exact @Prog.reachable_run _ _ _ _ _ _ raising _ _ _ (raisingCalls n).threads [] 2
      (_, execute) (ih.tail (.start rfl))

/-- After three calls whose provider raised, nothing is under way and no slot is free. -/
theorem three_lost_slots : ∃ x : ThreadSystem.State State (M Unit),
    (calls runnerClientCapacity).Reachable x ∧ Idle x ∧ x.shared.client.slots = 0 ∧
    ¬ x.shared.client.slots = runnerClientCapacity :=
  ⟨raisingCalls 3, reachable_raisingCalls 3,
    ⟨by decide +kernel, by decide +kernel⟩, by decide +kernel, by decide +kernel⟩

end RunnerClient
