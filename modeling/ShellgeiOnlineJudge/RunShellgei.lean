/-
The execution slots of the sandbox client (soj_runner/run_shellgei.py).

`runWithTimeout` is `ShellgeiDockerClient.run_with_timeout` with the slots it
takes from the client's `BoundedSemaphore` and the work items it puts into its
`ThreadPoolExecutor`; `calls` runs any number of such calls against the
workers.  `executor.submit` may raise before or after it has queued the item;
the second leaves an item behind that no slot is held for, which the model
records in `leaked`.

* `slots_conserved` — as long as no submission has raised after queueing its
  item, the slots bound the work;
* `leak_exceeds_capacity` — otherwise they do not.
-/
import ShellgeiOnlineJudge.Executor
import ShellgeiOnlineJudge.Prog

namespace ShellgeiDockerClient

open Prog (unwrap)

/-- The client: its semaphore and its executor. -/
structure Client where
  capacity : ℕ
  /-- the value of `_execution_slots` -/
  slots : ℕ
  executor : Executor
  /-- the items whose submission raised after they had been queued -/
  leaked : Multiset ℕ
  deriving DecidableEq

/-- A client before its first call. -/
def Client.fresh (capacity : ℕ) : Client := ⟨capacity, capacity, .empty, 0⟩

/-- What leaves `run_with_timeout` as an exception. -/
inductive Exc
  /-- `SandboxBusyError` -/
  | busy
  /-- `asyncio.CancelledError` -/
  | cancelled
  /-- `BoundedSemaphore.release` above the initial value -/
  | valueError
  deriving DecidableEq

/-- What `run_with_timeout` returns. -/
inductive Reply
  /-- the result of `exec_shellgei` -/
  | result
  /-- `"run with timeout: ..."` -/
  | runError
  /-- `"sandbox cleanup timed out"` -/
  | cleanupTimedOut
  deriving DecidableEq

/-- How `wait_for_thread_future` ends. -/
inductive WaitOutcome
  /-- the result of the work item -/
  | result
  /-- the exception of the work item, other than a `TimeoutError` -/
  | raised
  /-- `TimeoutError`: the deadline has passed, or the work item raised it -/
  | timeout
  /-- `asyncio.CancelledError` -/
  | cancelled
  deriving DecidableEq

/-- The atomic steps of a call. -/
inductive Action
  | acquireSlot
  | submit
  | waitForThreadFuture (i : ℕ)
  | addDoneCallback (i : ℕ)
  | releaseSlot
  deriving DecidableEq

/-- What an action answers. -/
abbrev Action.Response : Action → Type
  | acquireSlot => Bool
  | submit => SubmitOutcome
  | waitForThreadFuture _ => WaitOutcome
  | addDoneCallback _ => Unit
  | releaseSlot => Except Exc Unit

/-- `self._execution_slots.release()` in a done callback, where a `ValueError`
would only be logged. -/
def Client.releaseInCallback (s : Client) : Client :=
  { s with slots := if s.slots < s.capacity then s.slots + 1 else s.slots }

/-- The state after an action that was answered by the given response; `none`
when the action cannot be answered so. -/
def sem : (a : Action) → Client → a.Response → Option Client
  | .acquireSlot, s, r =>
    if r = decide (0 < s.slots) then some (if r then { s with slots := s.slots - 1 } else s)
    else none
  | .submit, s, r => match r with
    | .future i =>
      if i = s.executor.next then some { s with executor := s.executor.enqueue } else none
    | .raised false => some s
    | .raised true => some { s with
        executor := s.executor.enqueue, leaked := s.executor.next ::ₘ s.leaked }
  | .waitForThreadFuture i, s, r => match r with
    | .result | .raised => if s.executor.Done i then some s else none
    | .timeout | .cancelled => some s
  | .addDoneCallback i, s, () =>
    some (if s.executor.Done i then s.releaseInCallback
      else { s with executor := s.executor.addCallback i })
  | .releaseSlot, s, r => match r with
    | .ok () => if s.slots < s.capacity then some { s with slots := s.slots + 1 } else none
    | .error .valueError => if s.slots < s.capacity then none else some s
    | .error _ => none

/-- A part of a call. -/
abbrev M (α : Type) := Prog Action Action.Response Exc α

/-- Do an action. -/
abbrev perform (a : Action) : M a.Response := Prog.perform a

/-- The outer `try` block: what it returns or raises, and `release_when_done`. -/
def submitAndWait : M (Except Exc Reply × Bool) := do
  let submitted : SubmitOutcome ← perform .submit
  match submitted with
  | .raised _ => pure (.ok .runError, false)
  | .future i => do
    let waited : WaitOutcome ← perform (.waitForThreadFuture i)
    match waited with
    | .result => pure (.ok .result, false)
    | .raised => pure (.ok .runError, false)
    | .timeout => do
      perform (.addDoneCallback i)
      pure (.ok .cleanupTimedOut, true)
    | .cancelled => do
      perform (.addDoneCallback i)
      pure (.error .cancelled, true)

/-- `run_with_timeout` -/
def runWithTimeout : M Reply := do
  let acquired : Bool ← perform .acquireSlot
  if acquired then do
    let (outcome, releaseWhenDone) ← submitAndWait
    if releaseWhenDone then unwrap outcome
    else do
      let released : Except Exc Unit ← perform .releaseSlot
      unwrap released
      unwrap outcome
  else throw .busy

/-- What happens without the calls: the pool works, `close` may cancel queued
items, and done callbacks run. -/
inductive Env (s : Client) : Client → Prop
  | work {e : Executor} (h : Executor.Work True s.executor e) : Env s { s with executor := e }
  | callback {i : ℕ} (hi : i ∈ s.executor.callbacks) (hd : s.executor.Done i) :
      Env s { s.releaseInCallback with executor := s.executor.dropCallback i }

/-- A client of the given capacity, and any number of calls at any time. -/
def calls (capacity : ℕ) : ThreadSystem Client (M Reply) :=
  Prog.system sem (fun s threads => s = .fresh capacity ∧ threads = []) Env
    fun _ _ p => p = runWithTimeout

/-! ### The slot of each call -/

/-- What a call holds. -/
inductive Token
  /-- a slot, and no item that is not done -/
  | slot
  /-- the slot of an item that may not be done -/
  | holds (i : ℕ)
  deriving DecidableEq

/-- The work item that a token is for. -/
def Token.item : Token → Option ℕ
  | slot => none
  | holds i => some i

open Token

/-- The items whose slots are held by calls. -/
def held (m : Multiset Token) : Multiset ℕ := m.filterMap Token.item

@[simp] theorem held_slot (m : Multiset Token) : held (slot ::ₘ m) = held m :=
  Multiset.filterMap_cons_none slot m rfl

@[simp] theorem held_holds (i : ℕ) (m : Multiset Token) : held (holds i ::ₘ m) = i ::ₘ held m :=
  Multiset.filterMap_cons_some Token.item (holds i) m rfl

/-- The invariant of the client: its books are in order. -/
structure Inv (capacity : ℕ) (s : Client) (m : Multiset Token) : Prop where
  capacity_eq : s.capacity = capacity
  accounts : Executor.Accounts capacity s.slots (m.count slot) (held m) s.leaked s.executor

/-- What a call holds at an action. -/
def here : Action → Multiset Token → Prop
  | .acquireSlot, m => m = 0
  | .submit, m | .releaseSlot, m => m = {slot}
  | .waitForThreadFuture i, m | .addDoneCallback i, m => m = {holds i}

/-- The client with what its calls own. -/
def logic (capacity : ℕ) : Prog.Logic Action Action.Response Client Token where
  sem := sem
  inv := Inv capacity
  here := here

variable {capacity : ℕ}

theorem triple_acquireSlot :
    Prog.Triple (logic capacity) .acquireSlot 0 fun acquired m =>
      m = if acquired then {slot} else 0 := by
  refine ⟨rfl, fun s F r s' h hs => ⟨_, ?_, rfl⟩⟩
  simp only [logic, sem, zero_add] at h hs ⊢
  split at hs <;> cases hs
  next hr =>
  cases r with
  | false => simpa using h
  | true =>
    have hpos : 0 < s.slots := by simpa using hr.symm
    refine ⟨h.capacity_eq, ?_⟩
    simpa using h.accounts.acquire hpos

theorem triple_submit :
    Prog.Triple (logic capacity) .submit {slot} fun r m => match r with
      | .future i => m = {holds i}
      | .raised _ => m = {slot} := by
  refine ⟨rfl, fun s F r s' h hs => ?_⟩
  simp only [logic, sem, Multiset.singleton_add] at h hs ⊢
  have hacc :
      Executor.Accounts capacity s.slots (F.count slot + 1) (held F) s.leaked s.executor := by
    simpa using h.accounts
  match r with
  | .future i =>
    simp only at hs
    split at hs <;> cases hs
    next hi =>
    subst hi
    refine ⟨{holds s.executor.next}, ⟨h.capacity_eq, ?_⟩, rfl⟩
    simpa using hacc.submit
  | .raised false => cases hs; exact ⟨{slot}, h, rfl⟩
  | .raised true =>
    cases hs
    refine ⟨{slot}, ⟨h.capacity_eq, ?_⟩, rfl⟩
    simpa using hacc.leak

/-- A call that has its result holds a slot for nothing. -/
theorem triple_waitForThreadFuture (i : ℕ) :
    Prog.Triple (logic capacity) (.waitForThreadFuture i) {holds i} fun r m => match r with
      | .result | .raised => m = {slot}
      | .timeout | .cancelled => m = {holds i} := by
  refine ⟨rfl, fun s F r s' h hs => ?_⟩
  simp only [logic, sem, Multiset.singleton_add] at h hs ⊢
  have hacc : Executor.Accounts capacity s.slots (F.count slot) (i ::ₘ held F) s.leaked
      s.executor := by
    simpa using h.accounts
  have hfinish : s.executor.Done i → Inv capacity s (slot ::ₘ F) := by
    intro hd
    refine ⟨h.capacity_eq, ?_⟩
    simpa using hacc.finish hd
  match r with
  | .result =>
    simp only at hs
    split at hs <;> cases hs
    next hd => exact ⟨{slot}, hfinish hd, rfl⟩
  | .raised =>
    simp only at hs
    split at hs <;> cases hs
    next hd => exact ⟨{slot}, hfinish hd, rfl⟩
  | .timeout => cases hs; exact ⟨{holds i}, h, rfl⟩
  | .cancelled => cases hs; exact ⟨{holds i}, h, rfl⟩

/-- The slot is left to the callback, which runs at once when the item is done. -/
theorem triple_addDoneCallback (i : ℕ) :
    Prog.Triple (logic capacity) (.addDoneCallback i) {holds i} fun _ m => m = 0 := by
  refine ⟨rfl, fun s F r s' h hs => ⟨0, ?_, rfl⟩⟩
  simp only [logic, Multiset.singleton_add, zero_add] at h ⊢
  cases hs
  have hacc : Executor.Accounts capacity s.slots (F.count slot) (i ::ₘ held F) s.leaked
      s.executor := by
    simpa using h.accounts
  by_cases hd : s.executor.Done i
  · have hlt : s.slots < s.capacity := h.capacity_eq ▸ hacc.lt_of_held
    rw [if_pos hd]
    refine ⟨h.capacity_eq, ?_⟩
    simpa [Client.releaseInCallback, hlt] using (hacc.finish hd).release
  · rw [if_neg hd]
    exact ⟨h.capacity_eq, hacc.addCallback⟩

theorem triple_releaseSlot :
    Prog.Triple (logic capacity) .releaseSlot {slot} fun r m => r = .ok () ∧ m = 0 := by
  refine ⟨rfl, fun s F r s' h hs => ⟨0, ?_⟩⟩
  simp only [logic, sem, Multiset.singleton_add, zero_add] at h hs ⊢
  have hacc :
      Executor.Accounts capacity s.slots (F.count slot + 1) (held F) s.leaked s.executor := by
    simpa using h.accounts
  have hlt : s.slots < s.capacity := h.capacity_eq ▸ hacc.lt_of_taken
  rcases r with e | ⟨⟨⟩⟩
  · cases e <;> simp [hlt] at hs
  · simp only [hlt, if_true, Option.some.injEq] at hs
    subst hs
    exact ⟨⟨h.capacity_eq, hacc.release⟩, rfl, trivial⟩

theorem submitAndWait_safe :
    Prog.Safe (logic capacity) (fun r m => ∃ outcome releaseWhenDone,
      r = .ok (outcome, releaseWhenDone) ∧ m = if releaseWhenDone then 0 else {slot})
      submitAndWait {slot} := by
  refine Prog.Safe.perform_bind triple_submit fun submitted m hm => ?_
  cases submitted with
  | raised queued => exact ⟨.ok .runError, false, rfl, hm⟩
  | future i =>
    obtain rfl := hm
    refine Prog.Safe.perform_bind (triple_waitForThreadFuture i) fun waited m hm => ?_
    cases waited with
    | result => exact ⟨.ok .result, false, rfl, hm⟩
    | raised => exact ⟨.ok .runError, false, rfl, hm⟩
    | timeout =>
      obtain rfl := hm
      refine Prog.Safe.perform_bind (triple_addDoneCallback i) ?_
      rintro _ m rfl
      exact ⟨.ok .cleanupTimedOut, true, rfl, rfl⟩
    | cancelled =>
      obtain rfl := hm
      refine Prog.Safe.perform_bind (triple_addDoneCallback i) ?_
      rintro _ m rfl
      exact ⟨.error .cancelled, true, rfl, rfl⟩

/-- A call starts and ends with nothing, on every path. -/
theorem runWithTimeout_safe :
    Prog.Safe (logic capacity) (fun _ m => m = 0) runWithTimeout 0 := by
  refine Prog.Safe.perform_bind triple_acquireSlot ?_
  rintro acquired m rfl
  cases acquired with
  | false => exact rfl
  | true =>
    refine Prog.Safe.bind submitAndWait_safe ?_ ?_
    · rintro _ m ⟨outcome, releaseWhenDone, ⟨rfl⟩, rfl⟩
      cases releaseWhenDone with
      | true => exact rfl
      | false =>
        refine Prog.Safe.perform_bind triple_releaseSlot ?_
        rintro _ m ⟨rfl, rfl⟩
        exact rfl
    · rintro e m ⟨_, _, ⟨⟩, -⟩

theorem Inv.env {s s' : Client} {m : Multiset Token} (h : Inv capacity s m) (henv : Env s s') :
    Inv capacity s' m := by
  cases henv with
  | work hw => exact ⟨h.capacity_eq, h.accounts.work hw⟩
  | callback hi hd =>
    have hlt : s.slots < s.capacity := h.capacity_eq ▸ h.accounts.lt_of_callback hi
    refine ⟨h.capacity_eq, ?_⟩
    simpa [Client.releaseInCallback, hlt] using h.accounts.runCallback hi hd

/-- The proof outline of the system. -/
def callsOutline (capacity : ℕ) : (calls capacity).Outline Token :=
  (logic capacity).outline (fun _ m => m = 0)
    (by
      rintro s threads ⟨rfl, rfl⟩
      exact ⟨[], rfl, by simp, rfl, .empty capacity⟩)
    (fun henv h => h.env henv)
    (by
      rintro s p ann rfl - h
      exact ⟨0, runWithTimeout_safe, by simpa using h⟩)

/-! ### What holds of every run -/

/-- What holds of a client of `capacity` slots and its calls at any time. -/
structure Conserved (capacity : ℕ) (s : Client) (threads : List (M Reply)) : Prop where
  /-- the unfinished items, those included whose callbacks have to run, are behind slots -/
  bounded : s.executor.unfinished.card + s.slots ≤ capacity
  /-- no release finds the semaphore at its initial value: in a call, -/
  release : ∀ p ∈ threads, p.head = some .releaseSlot → s.slots < capacity
  /-- in a callback that is added to a finished item, -/
  attach : ∀ p ∈ threads, ∀ i, p.head = some (.addDoneCallback i) → s.slots < capacity
  /-- or in a callback that runs later -/
  callback : ∀ i ∈ s.executor.callbacks, s.slots < capacity
  /-- with no unfinished item and no call in progress all slots are free -/
  free : s.executor.unfinished = ∅ → (∀ p ∈ threads, p.finished = true) → s.slots = capacity

/-- **The slots bound the work** in every run in which no submission raises
after it has queued its item. -/
theorem slots_conserved {capacity : ℕ} {x : ThreadSystem.State Client (M Reply)}
    (hx : (calls capacity).Reachable x) (hleaked : x.shared.leaked = 0) :
    Conserved capacity x.shared x.threads := by
  obtain ⟨ann, hthreads, howns, hinv⟩ := (callsOutline capacity).annotated hx
  have hacc := Inv.accounts hinv
  have howns : ∀ a ∈ ann, Prog.Safe (logic capacity) (fun _ m => m = 0) a.1 a.2 := howns
  have htotal := hacc.total
  -- a thread at an action has the tokens that the action demands
  have hhere : ∀ p ∈ x.threads, ∀ a, p.head = some a →
      ∃ m, here a m ∧ ∀ t ∈ m, t ∈ ThreadSystem.tokens ann := by
    intro p hp a ha
    exact Prog.Logic.here_of_head howns (hthreads ▸ hp) ha
  refine ⟨?_, ?_, ?_, fun i hi => hacc.lt_of_callback hi, ?_⟩
  · have := hacc.unfinished_le
    rw [hleaked, Multiset.card_zero] at this
    omega
  · intro p hp ha
    obtain ⟨m, rfl, hsub⟩ := hhere p hp _ ha
    have hpos := Multiset.one_le_count_iff_mem.mpr (hsub slot (by simp))
    omega
  · intro p hp i ha
    obtain ⟨m, rfl, hsub⟩ := hhere p hp _ ha
    have hmem : i ∈ held (ThreadSystem.tokens ann) :=
      (Multiset.mem_filterMap Token.item _).mpr ⟨holds i, hsub (holds i) (by simp), rfl⟩
    have hpos := Multiset.card_pos_iff_exists_mem.mpr ⟨i, hmem⟩
    omega
  · intro hnone hfinished
    -- every thread that has ended has given its tokens back
    have hzero : ThreadSystem.tokens ann = 0 := by
      refine ThreadSystem.tokens_eq_zero fun a ha => ?_
      have hfin := hfinished a.1 (hthreads ▸ List.mem_map_of_mem ha)
      obtain ⟨_, hm⟩ := (howns a ha).post_of_finished hfin
      exact hm
    have hcallbacks : x.shared.executor.callbacks = 0 := by
      refine Multiset.eq_zero_of_forall_notMem fun i hi => ?_
      have := Executor.mem_unfinished.mpr (.inr hi)
      rw [hnone] at this
      exact Finset.notMem_empty i this
    rw [hzero, hcallbacks] at htotal
    simpa [held] using htotal

/-- The answers of an executor that queues each item and takes it up. -/
def prompt : (a : Action) → Client → a.Response
  | .acquireSlot, s => decide (0 < s.slots)
  | .submit, s => .future s.executor.next
  | .waitForThreadFuture _, _ => .timeout
  | .addDoneCallback _, _ => ()
  | .releaseSlot, _ => .ok ()

/-- A call that has timed out on its item. -/
def timedOut : Client × M Reply := Prog.run sem prompt 4 (.fresh 1, runWithTimeout)

theorem reachable_timedOut : (calls 1).Reachable ⟨timedOut.1, [timedOut.2]⟩ := by
  have hinit : (calls 1).Reachable ⟨.fresh 1, []⟩ := .init ⟨rfl, rfl⟩
  exact Prog.reachable_run prompt 4 (_, _) (hinit.tail (.start rfl))

theorem slots_conserved_timedOut :
    timedOut.2.finished = true ∧ timedOut.1.executor.unfinished = {0} ∧ timedOut.1.slots = 0 ∧
    Conserved 1 timedOut.1 [timedOut.2] :=
  ⟨by decide +kernel, by decide +kernel, by decide +kernel,
    slots_conserved reachable_timedOut (by decide +kernel)⟩

/-- The answers of an executor that cannot start a thread: `submit` raises, but
the item is in the queue. -/
def threadless : (a : Action) → Client → a.Response
  | .acquireSlot, s => decide (0 < s.slots)
  | .submit, _ => .raised true
  | .waitForThreadFuture _, _ => .cancelled
  | .addDoneCallback _, _ => ()
  | .releaseSlot, _ => .ok ()

/-- A first call whose submission raises after queueing, and a second. -/
def leakedOnce : Client × M Reply := Prog.run sem threadless 3 (.fresh 1, runWithTimeout)

/-- The second call loses its slot too. -/
def leakedTwice : Client × M Reply := Prog.run sem threadless 3 (leakedOnce.1, runWithTimeout)

theorem reachable_leakedTwice :
    (calls 1).Reachable ⟨leakedTwice.1, [leakedOnce.2, leakedTwice.2]⟩ := by
  have hinit : (calls 1).Reachable ⟨.fresh 1, []⟩ := .init ⟨rfl, rfl⟩
  have honce : (calls 1).Reachable ⟨leakedOnce.1, [leakedOnce.2]⟩ :=
    Prog.reachable_run threadless 3 (_, _) (hinit.tail (.start rfl))
  exact Prog.reachable_run threadless 3 (leakedOnce.1, runWithTimeout) (honce.tail (.start rfl))

/-- With one slot, two items are queued, both calls have returned, and the slot
is free. -/
theorem leak_exceeds_capacity : ∃ x : ThreadSystem.State Client (M Reply),
    (calls 1).Reachable x ∧ x.shared.executor.queue = [0, 1] ∧ x.shared.slots = 1 ∧
    ¬ x.shared.executor.unfinished.card ≤ 1 :=
  ⟨_, reachable_leakedTwice, by decide +kernel, by decide +kernel, by decide +kernel⟩

end ShellgeiDockerClient
