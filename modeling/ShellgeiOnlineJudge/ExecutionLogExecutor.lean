/-
The backlog of execution-log saves (soj_backend/execution_log_repository.py).

`submit` and `shutdown` are the methods of `_ExecutionLogExecutor`, which
admits saves to a pool of four workers; `saveExecutionLogAsync` awaits a save.
A submission that raises may leave its item in the queue, but it also closes
the admission, so that at most one item is ever `leaked`.

* `backlog` — in every run at most four saves are unfinished, every accepted
  save releases its slot exactly once, and nothing is handed to the pool after
  the admission has been closed.
-/
import ShellgeiOnlineJudge.Executor
import ShellgeiOnlineJudge.Prog

namespace ExecutionLogExecutor

open Prog (unwrap)

/-- `EXECUTION_LOG_WORKER_CAPACITY` -/
def workerCapacity : ℕ := 4

/-- The executor and its pool. -/
structure State where
  /-- the value of `_slots` -/
  slots : ℕ
  /-- `_admission_lock` is held -/
  admissionLock : Bool
  closing : Bool
  /-- `self._pool.shutdown` has been called -/
  poolShutdown : Bool
  pool : Executor
  /-- the futures that `self._pool.submit` has returned -/
  accepted : Multiset ℕ
  /-- the futures for which `_release_slot` has run -/
  released : Multiset ℕ
  /-- the items whose submission raised after they had been queued -/
  leaked : Multiset ℕ
  deriving DecidableEq

/-- An executor before its first call. -/
def State.fresh : State := ⟨workerCapacity, false, false, false, .empty, 0, 0, 0⟩

/-- The exceptions. -/
inductive Exc
  /-- `ExecutionLogRepositoryError` -/
  | repository
  /-- what `self._pool.submit` raised -/
  | pool
  /-- what the save itself raised, other than the repository's own exception -/
  | persistence
  /-- `asyncio.CancelledError` -/
  | cancelled
  /-- `BoundedSemaphore.release` above the initial value -/
  | valueError
  deriving DecidableEq

/-- The atomic steps. -/
inductive Action
  | acquireLock
  | releaseLock
  | readClosing
  | acquireSlot
  | poolSubmit
  | setClosing
  | releaseSlot
  | addDoneCallback (i : ℕ)
  | waitForThreadFuture (i : ℕ)
  | poolShutdown
  | poolJoin
  deriving DecidableEq

/-- What an action answers. -/
abbrev Action.Response : Action → Type
  | acquireLock | releaseLock | setClosing | addDoneCallback _ | poolShutdown | poolJoin => Unit
  | readClosing | acquireSlot => Bool
  | poolSubmit => SubmitOutcome
  | releaseSlot => Except Exc Unit
  | waitForThreadFuture _ => Except Exc Unit

/-- `_release_slot` in a done callback, where a `ValueError` would only be logged. -/
def State.releaseSlot (s : State) (i : ℕ) : State :=
  { s with
    slots := if s.slots < workerCapacity then s.slots + 1 else s.slots
    released := i ::ₘ s.released }

/-- The state after an action that was answered by the given response; `none`
when the action cannot be answered so. -/
def sem : (a : Action) → State → a.Response → Option State
  | .acquireLock, s, () =>
    if s.admissionLock then none else some { s with admissionLock := true }
  | .releaseLock, s, () => some { s with admissionLock := false }
  | .readClosing, s, r => if r = s.closing then some s else none
  | .acquireSlot, s, r =>
    if r = decide (0 < s.slots) then some (if r then { s with slots := s.slots - 1 } else s)
    else none
  | .poolSubmit, s, r => match r with
    | .future i =>
      if s.poolShutdown ∨ i ≠ s.pool.next then none
      else some { s with pool := s.pool.enqueue, accepted := i ::ₘ s.accepted }
    | .raised false => some s
    | .raised true =>
      if s.poolShutdown then none
      else some { s with pool := s.pool.enqueue, leaked := s.pool.next ::ₘ s.leaked }
  | .setClosing, s, () => some { s with closing := true }
  | .releaseSlot, s, r => match r with
    | .ok () => if s.slots < workerCapacity then some { s with slots := s.slots + 1 } else none
    | .error .valueError => if s.slots < workerCapacity then none else some s
    | .error _ => none
  | .addDoneCallback i, s, () =>
    some (if s.pool.Done i then s.releaseSlot i else { s with pool := s.pool.addCallback i })
  | .waitForThreadFuture i, s, r => match r with
    | .error .cancelled => some s
    | .error .valueError => none
    | _ => if s.pool.Done i then some s else none
  | .poolShutdown, s, () => some { s with poolShutdown := true }
  | .poolJoin, s, () => if s.pool.queue = [] ∧ s.pool.running = 0 then some s else none

/-- A part of a call. -/
abbrev M (α : Type) := Prog Action Action.Response Exc α

/-- Do an action. -/
abbrev perform (a : Action) : M a.Response := Prog.perform a

/-- `with self._admission_lock: ...` -/
def withAdmissionLock {α : Type} (body : M α) : M α := do
  perform .acquireLock
  body.finally' (perform .releaseLock)

/-- `submit` -/
def submit : M ℕ := withAdmissionLock do
  let closing : Bool ← perform .readClosing
  if closing then throw .repository
  else do
    let acquired : Bool ← perform .acquireSlot
    if acquired then do
      let submitted : SubmitOutcome ← perform .poolSubmit
      match submitted with
      | .raised _ => do
        perform .setClosing
        let released : Except Exc Unit ← perform .releaseSlot
        unwrap released
        throw .pool
      | .future i => do
        perform (.addDoneCallback i)
        pure i
    else throw .repository

/-- `shutdown` -/
def shutdown : M Unit := do
  withAdmissionLock (perform .setClosing)
  perform .poolShutdown
  perform .poolJoin

/-- `save_execution_log_async`; every other exception than its own becomes a
repository exception. -/
def saveExecutionLogAsync : M Unit :=
  tryCatch (do
    let i ← submit
    let saved : Except Exc Unit ← perform (.waitForThreadFuture i)
    unwrap saved) fun e =>
      if e = .cancelled then throw .cancelled else throw .repository

/-- What happens without the callers: the pool works, a shutdown cancels queued
items, and done callbacks run. -/
inductive Env (s : State) : State → Prop
  | work {e : Executor} (h : Executor.Work (s.poolShutdown = true) s.pool e) :
      Env s { s with pool := e }
  | callback {i : ℕ} (hi : i ∈ s.pool.callbacks) (hd : s.pool.Done i) :
      Env s { s.releaseSlot i with pool := s.pool.dropCallback i }

/-- Any number of saves and shutdowns at any time. -/
def saves : ThreadSystem State (M Unit) :=
  Prog.system sem (fun s threads => s = .fresh ∧ threads = []) Env
    fun _ _ p => p = saveExecutionLogAsync ∨ p = shutdown

/-! ### The admission -/

/-- How far the thread that holds the admission lock has got. -/
inductive Token
  /-- it holds the lock, and no slot -/
  | locked
  /-- it has seen the admission open -/
  | opened
  /-- it has taken a slot -/
  | admitted
  /-- its submission has raised -/
  | failed
  /-- it has closed the admission -/
  | closed
  /-- its submission has returned a future -/
  | submitted (i : ℕ)
  deriving DecidableEq

namespace Token

/-- The thread holds a slot without a future. -/
def taken : Token → ℕ
  | admitted | failed | closed => 1
  | _ => 0

/-- The future whose slot the thread holds. -/
def held : Token → Multiset ℕ
  | submitted i => {i}
  | _ => 0

/-- What the thread knows. -/
def Ok (s : State) : Token → Prop
  | opened | admitted => s.closing = false ∧ s.leaked = 0
  | closed => s.closing = true
  | _ => True

end Token

/-- The books of the executor, when the thread with the admission lock holds
`taken` slots without a future and the slots of the futures in `held`.  `failing`
says that its submission has raised and the admission is not closed yet. -/
structure Books (s : State) (taken : ℕ) (held : Multiset ℕ) (failing : Prop) : Prop where
  accounts : s.pool.Accounts workerCapacity s.slots taken held s.leaked
  /-- the slot of every accepted save is held, left to a callback, or released -/
  accepted : s.accepted = held + s.pool.callbacks + s.released
  nodup : s.accepted.Nodup
  below : ∀ i ∈ s.accepted, i < s.pool.next
  leaked_le : s.leaked.card ≤ 1
  /-- a leaked item closes the admission, with a slot to spare -/
  leaked_closed : s.leaked ≠ 0 → (s.closing = true ∨ failing) ∧ 1 ≤ s.slots + taken

/-- The invariant: at most one thread is in `submit` or holds the lock otherwise. -/
inductive Inv (s : State) : Multiset Token → Prop
  | free (hl : s.admissionLock = false) (h : Books s 0 0 False) : Inv s 0
  | held {t : Token} (hl : s.admissionLock = true) (ht : t.Ok s)
      (h : Books s t.taken t.held (t = .failed)) : Inv s {t}

open Token

namespace Books

variable {s : State} {taken : ℕ} {held : Multiset ℕ} {failing : Prop} {i : ℕ}

theorem imp {failing' : Prop} (h : Books s taken held failing) (hf : failing → failing') :
    Books s taken held failing' :=
  { h with leaked_closed := fun hl => (h.leaked_closed hl).imp_left (Or.imp_right hf) }

theorem acquire (h : Books s taken held failing) (hs : 0 < s.slots) (hnone : s.leaked = 0) :
    Books { s with slots := s.slots - 1 } (taken + 1) held failing :=
  { h with
    accounts := h.accounts.acquire hs
    leaked_closed := fun hl => absurd hnone hl }

theorem submit (h : Books s (taken + 1) held failing) (hnone : s.leaked = 0) :
    Books { s with pool := s.pool.enqueue, accepted := s.pool.next ::ₘ s.accepted } taken
      (s.pool.next ::ₘ held) failing where
  accounts := h.accounts.submit
  accepted := by
    simp only [Multiset.cons_add]
    exact congrArg _ h.accepted
  nodup := Multiset.nodup_cons.mpr ⟨fun hc => absurd (h.below _ hc) (lt_irrefl _), h.nodup⟩
  below i hi := by
    rcases Multiset.mem_cons.mp hi with rfl | hi
    · exact Nat.lt_succ_self _
    · exact Nat.lt_succ_of_lt (h.below i hi)
  leaked_le := h.leaked_le
  leaked_closed hl := absurd hnone hl

/-- A submission raises after it has queued its item. -/
theorem leak (h : Books s (taken + 1) held failing) (hnone : s.leaked = 0) :
    Books { s with pool := s.pool.enqueue, leaked := s.pool.next ::ₘ s.leaked } (taken + 1) held
      True where
  accounts := h.accounts.leak
  accepted := h.accepted
  nodup := h.nodup
  below i hi := Nat.lt_succ_of_lt (h.below i hi)
  leaked_le := by simp [hnone]
  leaked_closed _ := ⟨.inr trivial, by omega⟩

theorem close (h : Books s taken held failing) :
    Books { s with closing := true } taken held False :=
  { h with leaked_closed := fun hl => ⟨.inl rfl, (h.leaked_closed hl).2⟩ }

theorem release (h : Books s (taken + 1) held failing) :
    Books { s with slots := s.slots + 1 } taken held failing :=
  { h with
    accounts := h.accounts.release
    leaked_closed := fun hl => ⟨(h.leaked_closed hl).1, by
      have := (h.leaked_closed hl).2
      simp only
      omega⟩ }

/-- The slot of a future is released because its save has ended. -/
theorem releaseHeld (h : Books s taken (i ::ₘ held) failing) (hd : s.pool.Done i) :
    Books (s.releaseSlot i) taken held failing where
  accounts := by
    have hlt : s.slots < workerCapacity := h.accounts.lt_of_held
    simpa [State.releaseSlot, hlt] using (h.accounts.finish hd).release
  accepted := by
    simp only [State.releaseSlot, Multiset.add_cons]
    rw [h.accepted, Multiset.cons_add, Multiset.cons_add]
  nodup := h.nodup
  below := h.below
  leaked_le := h.leaked_le
  leaked_closed hl := by
    have hlt : s.slots < workerCapacity := h.accounts.lt_of_held
    refine ⟨(h.leaked_closed hl).1, ?_⟩
    simp only [State.releaseSlot, hlt, if_true]
    omega

theorem addCallback (h : Books s taken (i ::ₘ held) failing) :
    Books { s with pool := s.pool.addCallback i } taken held failing :=
  { h with
    accounts := h.accounts.addCallback
    accepted := by
      simp only [Executor.addCallback, Multiset.add_cons, Multiset.cons_add]
      rw [h.accepted, Multiset.cons_add, Multiset.cons_add] }

theorem runCallback (h : Books s taken held failing) (hi : i ∈ s.pool.callbacks)
    (hd : s.pool.Done i) :
    Books { s.releaseSlot i with pool := s.pool.dropCallback i } taken held failing := by
  have hlt : s.slots < workerCapacity := h.accounts.lt_of_callback hi
  exact {
    accounts := by simpa [State.releaseSlot, hlt] using h.accounts.runCallback hi hd
    accepted := by
      simp only [State.releaseSlot, Executor.dropCallback]
      rw [h.accepted, ← Multiset.cons_erase hi]
      simp only [Multiset.add_cons, Multiset.cons_add, Multiset.erase_cons_head]
    nodup := h.nodup
    below := h.below
    leaked_le := h.leaked_le
    leaked_closed := fun hl => ⟨(h.leaked_closed hl).1, by
      simp only [State.releaseSlot, hlt, if_true]
      omega⟩ }

theorem work {cancelling : Prop} {e : Executor} (h : Books s taken held failing)
    (hw : Executor.Work cancelling s.pool e) : Books { s with pool := e } taken held failing :=
  { h with
    accounts := h.accounts.work hw
    accepted := by
      simp only [hw.callbacks_eq]
      exact h.accepted
    below := by
      simp only [hw.next_eq]
      exact h.below }

end Books

namespace Inv

variable {s s' : State} {m F : Multiset Token} {t : Token}

/-- A thread with a token is the only one. -/
theorem alone (h : Inv s ({t} + F)) : F = 0 ∧ s.admissionLock = true ∧ t.Ok s ∧
    Books s t.taken t.held (t = .failed) := by
  generalize hm : {t} + F = m at h
  cases h with
  | free => simp at hm
  | @held t' hl ht hbooks =>
    have hF : F = 0 := by
      have hcard := congrArg Multiset.card hm
      rw [Multiset.card_add, Multiset.card_singleton, Multiset.card_singleton] at hcard
      exact Multiset.card_eq_zero.mp (by omega)
    subst hF
    rw [add_zero, Multiset.singleton_inj] at hm
    subst hm
    exact ⟨rfl, hl, ht, hbooks⟩

theorem env (h : Inv s m) (henv : Env s s') : Inv s' m := by
  cases henv with
  | work hw =>
    cases h with
    | free hl hbooks => exact .free hl (hbooks.work hw)
    | @held t hl ht hbooks =>
      refine .held hl ?_ (hbooks.work hw)
      cases t <;> exact ht
  | callback hi hd =>
    cases h with
    | free hl hbooks => exact .free hl (hbooks.runCallback hi hd)
    | @held t hl ht hbooks =>
      refine .held hl ?_ (hbooks.runCallback hi hd)
      cases t <;> exact ht

end Inv

/-! ### The steps -/

/-- What the thread that performs an action holds. -/
def here : Action → Multiset Token → Prop
  | .acquireLock, m | .waitForThreadFuture _, m | .poolShutdown, m | .poolJoin, m => m = 0
  | .releaseLock, m | .readClosing, m => m = {locked}
  | .acquireSlot, m => m = {opened}
  | .poolSubmit, m => m = {admitted}
  | .setClosing, m => m = {locked} ∨ m = {failed}
  | .releaseSlot, m => m = {closed}
  | .addDoneCallback i, m => m = {submitted i}

/-- The executor with what its calls own. -/
def logic : Prog.Logic Action Action.Response State Token where
  sem := sem
  inv := Inv
  here := here

theorem triple_acquireLock : Prog.Triple logic .acquireLock 0 fun _ m => m = {locked} := by
  refine ⟨rfl, fun s F r s' h hs => ⟨_, ?_, rfl⟩⟩
  simp only [logic, sem, zero_add] at h hs ⊢
  split at hs <;> cases hs
  next hfree =>
  cases h with
  | free _ hbooks => exact .held rfl trivial { hbooks.imp False.elim with }
  | held hl => exact absurd hl hfree

theorem triple_releaseLock : Prog.Triple logic .releaseLock {locked} fun _ m => m = 0 := by
  refine ⟨rfl, fun s F r s' h hs => ⟨_, ?_, rfl⟩⟩
  obtain ⟨rfl, -, -, hbooks⟩ := Inv.alone h
  cases hs
  have hfree : Books s 0 0 False := hbooks.imp fun hf => by cases hf
  exact .free rfl { hfree with }

/-- A thread that sees the admission open knows that nothing has leaked. -/
theorem triple_readClosing : Prog.Triple logic .readClosing {locked} fun closing m =>
    m = {if closing then locked else opened} := by
  refine ⟨rfl, fun s F r s' h hs => ⟨_, ?_, rfl⟩⟩
  obtain ⟨rfl, hl, -, hbooks⟩ := Inv.alone h
  simp only [logic, sem] at hs
  split at hs <;> cases hs
  next hr =>
  cases r with
  | true => exact .held hl trivial hbooks
  | false =>
    refine .held hl ⟨hr.symm, ?_⟩ (hbooks.imp fun hf => by cases hf)
    by_contra hleaked
    rcases (hbooks.leaked_closed hleaked).1 with hc | hc
    · rw [← hr] at hc
      cases hc
    · cases hc

theorem triple_acquireSlot : Prog.Triple logic .acquireSlot {opened} fun acquired m =>
    m = {if acquired then admitted else locked} := by
  refine ⟨rfl, fun s F r s' h hs => ⟨_, ?_, rfl⟩⟩
  obtain ⟨rfl, hl, hok, hbooks⟩ := Inv.alone h
  simp only [logic, sem] at hs
  split at hs <;> cases hs
  next hr =>
  cases r with
  | false => exact .held hl trivial (hbooks.imp fun hf => by cases hf)
  | true =>
    have hpos : 0 < s.slots := by simpa using hr.symm
    exact .held hl hok ((hbooks.acquire hpos hok.2).imp fun hf => by cases hf)

theorem triple_poolSubmit : Prog.Triple logic .poolSubmit {admitted} fun r m => match r with
    | .future i => m = {submitted i}
    | .raised _ => m = {failed} := by
  refine ⟨rfl, fun s F r s' h hs => ?_⟩
  obtain ⟨rfl, hl, hok, hbooks⟩ := Inv.alone h
  simp only [logic, sem] at hs
  match r with
  | .future i =>
    simp only at hs
    split at hs <;> cases hs
    next hi =>
    obtain rfl : i = s.pool.next := by
      by_contra hne
      exact hi (.inr hne)
    exact ⟨{submitted s.pool.next},
      .held hl trivial ((hbooks.submit hok.2).imp fun hf => by cases hf), rfl⟩
  | .raised false =>
    cases hs
    exact ⟨{failed}, .held hl trivial (hbooks.imp fun hf => by cases hf), rfl⟩
  | .raised true =>
    simp only at hs
    split at hs <;> cases hs
    exact ⟨{failed}, .held hl trivial ((hbooks.leak hok.2).imp fun _ => rfl), rfl⟩

/-- Closing the admission, after a failure or by `shutdown`. -/
theorem triple_setClosing (failing : Bool) :
    Prog.Triple logic .setClosing {if failing then failed else locked} fun _ m =>
      m = {if failing then closed else locked} := by
  refine ⟨by cases failing <;> simp [logic, here], fun s F r s' h hs => ⟨_, ?_, rfl⟩⟩
  obtain ⟨rfl, hl, -, hbooks⟩ := Inv.alone h
  cases hs
  cases failing with
  | true => exact .held hl rfl (hbooks.close.imp False.elim)
  | false => exact .held hl trivial (hbooks.close.imp False.elim)

theorem triple_releaseSlot : Prog.Triple logic .releaseSlot {closed} fun r m =>
    r = .ok () ∧ m = {locked} := by
  refine ⟨rfl, fun s F r s' h hs => ⟨{locked}, ?_⟩⟩
  obtain ⟨rfl, hl, -, hbooks⟩ := Inv.alone h
  have hlt : s.slots < workerCapacity := hbooks.accounts.lt_of_taken
  simp only [logic, sem] at hs
  rcases r with e | ⟨⟨⟩⟩
  · cases e <;> simp [hlt] at hs
  · simp only [hlt, if_true, Option.some.injEq] at hs
    subst hs
    exact ⟨.held hl trivial (hbooks.release.imp fun hf => by cases hf), rfl, rfl⟩

/-- The slot is left to the callback, which runs at once when the save has ended. -/
theorem triple_addDoneCallback (i : ℕ) :
    Prog.Triple logic (.addDoneCallback i) {submitted i} fun _ m => m = {locked} := by
  refine ⟨rfl, fun s F r s' h hs => ⟨_, ?_, rfl⟩⟩
  obtain ⟨rfl, hl, -, hbooks⟩ := Inv.alone h
  have hheld : Books s 0 (i ::ₘ 0) False := hbooks.imp fun hf => by cases hf
  cases hs
  by_cases hd : s.pool.Done i
  · rw [if_pos hd]
    exact .held hl trivial ((hheld.releaseHeld hd).imp False.elim)
  · rw [if_neg hd]
    exact .held hl trivial (hheld.addCallback.imp False.elim)

theorem triple_waitForThreadFuture (i : ℕ) :
    Prog.Triple logic (.waitForThreadFuture i) 0 fun _ m => m = 0 := by
  refine ⟨rfl, fun s F r s' h hs => ⟨0, ?_, rfl⟩⟩
  have hsame : s' = s := by
    simp only [logic, sem] at hs
    split at hs
    · exact (Option.some.inj hs).symm
    · cases hs
    · split at hs <;> cases hs
      rfl
  exact hsame ▸ h

theorem triple_poolShutdown : Prog.Triple logic .poolShutdown 0 fun _ m => m = 0 := by
  refine ⟨rfl, fun s F r s' h hs => ⟨0, ?_, rfl⟩⟩
  simp only [logic, zero_add] at h ⊢
  cases hs
  cases h with
  | free hl hbooks => exact .free hl { hbooks with }
  | @held t hl ht hbooks =>
    refine .held hl ?_ { hbooks with }
    cases t <;> exact ht

theorem triple_poolJoin : Prog.Triple logic .poolJoin 0 fun _ m => m = 0 := by
  refine ⟨rfl, fun s F r s' h hs => ⟨0, ?_, rfl⟩⟩
  simp only [logic, sem] at hs
  split at hs <;> cases hs
  exact h

/-! ### The methods -/

/-- A `with self._admission_lock` block that ends with nothing but the lock. -/
theorem withAdmissionLock_safe {α : Type} {body : M α}
    (hbody : Prog.Safe logic (fun _ m => m = {locked}) body {locked}) :
    Prog.Safe logic (fun _ m => m = 0) (withAdmissionLock body) 0 := by
  refine Prog.Safe.perform_bind triple_acquireLock ?_
  rintro _ m rfl
  refine Prog.Safe.finally' hbody ?_
  rintro r m rfl
  exact Prog.Safe.perform triple_releaseLock fun _ _ h => h

theorem submit_safe : Prog.Safe logic (fun _ m => m = 0) submit 0 := by
  refine withAdmissionLock_safe ?_
  refine Prog.Safe.perform_bind triple_readClosing ?_
  rintro closing m rfl
  cases closing with
  | true => exact rfl
  | false =>
  refine Prog.Safe.perform_bind triple_acquireSlot ?_
  rintro acquired m rfl
  cases acquired with
  | false => exact rfl
  | true =>
  refine Prog.Safe.perform_bind triple_poolSubmit fun submitted m hm => ?_
  cases submitted with
  -- the slot is released, also where the item was queued
  | raised queued =>
    obtain rfl := hm
    refine Prog.Safe.perform_bind (triple_setClosing true) ?_
    rintro _ m rfl
    refine Prog.Safe.perform_bind triple_releaseSlot ?_
    rintro _ m ⟨rfl, rfl⟩
    exact rfl
  | future i =>
    obtain rfl := hm
    refine Prog.Safe.perform_bind (triple_addDoneCallback i) ?_
    rintro _ m rfl
    exact rfl

theorem saveExecutionLogAsync_safe :
    Prog.Safe logic (fun _ m => m = 0) saveExecutionLogAsync 0 := by
  have hbody : Prog.Safe logic (fun _ m => m = 0) (do
      let i ← submit
      let saved : Except Exc Unit ← perform (.waitForThreadFuture i)
      unwrap saved) 0 := by
    refine Prog.Safe.bind submit_safe ?_ fun _ _ h => h
    rintro i m rfl
    refine Prog.Safe.perform_bind (triple_waitForThreadFuture i) ?_
    rintro saved m rfl
    exact rfl
  refine Prog.Safe.tryCatch hbody (fun _ _ h => h) ?_
  rintro e m rfl
  by_cases he : e = .cancelled
  · rw [if_pos he]
    exact rfl
  · rw [if_neg he]
    exact rfl

theorem shutdown_safe : Prog.Safe logic (fun _ m => m = 0) shutdown 0 := by
  have hclose : Prog.Safe logic (fun _ m => m = {locked}) (perform .setClosing) {locked} :=
    Prog.Safe.perform (triple_setClosing false) fun _ _ h => h
  refine Prog.Safe.bind (withAdmissionLock_safe hclose) ?_ fun _ _ h => h
  rintro _ m rfl
  refine Prog.Safe.perform_bind triple_poolShutdown ?_
  rintro _ m rfl
  exact Prog.Safe.perform triple_poolJoin fun _ _ h => h

/-- The proof outline of the system. -/
def savesOutline : saves.Outline Token :=
  logic.outline (fun _ m => m = 0)
    (by
      rintro s threads ⟨rfl, rfl⟩
      refine ⟨[], rfl, by simp, .free rfl ?_⟩
      exact ⟨.empty _, rfl, Multiset.nodup_zero, by simp [State.fresh], by simp [State.fresh],
        by simp [State.fresh]⟩)
    (fun henv h => h.env henv)
    (by
      rintro s p ann (rfl | rfl) - h
      · exact ⟨0, saveExecutionLogAsync_safe, by simpa using h⟩
      · exact ⟨0, shutdown_safe, by simpa using h⟩)

/-! ### What holds of every run -/

/-- What holds of the executor and its callers at any time. -/
structure Backlog (s : State) (threads : List (M Unit)) : Prop where
  /-- at most four saves are unfinished, the leaked ones included -/
  bounded : s.pool.unfinished.card ≤ workerCapacity
  /-- no release finds the semaphore at its initial value: in `submit`, -/
  release : ∀ p ∈ threads, p.head = some .releaseSlot → s.slots < workerCapacity
  /-- in a callback that is added to a finished save, -/
  attach : ∀ p ∈ threads, ∀ i, p.head = some (.addDoneCallback i) → s.slots < workerCapacity
  /-- or in a callback that runs later -/
  callback : ∀ i ∈ s.pool.callbacks, s.slots < workerCapacity
  /-- once the admission is closed, nothing is handed to the pool -/
  closed : s.closing = true → ∀ p ∈ threads, p.head ≠ some .poolSubmit
  /-- an accepted save releases its slot at most once, -/
  released_le : ∀ i, s.released.count i ≤ 1
  /-- and has released it once it has ended and its callback has run -/
  released_once : ∀ i ∈ s.accepted, s.pool.Done i → i ∉ s.pool.callbacks →
    (∀ p ∈ threads, p.head ≠ some (.addDoneCallback i)) → s.released.count i = 1
  /-- all slots are free when every accepted save has ended and no thread is in `submit` -/
  free : s.admissionLock = false → (∀ i ∈ s.accepted, s.pool.Done i ∧ i ∉ s.pool.callbacks) →
    s.slots = workerCapacity

/-- The books that the invariant keeps. -/
theorem Inv.books {s : State} {m : Multiset Token} (h : Inv s m) : ∃ taken held failing,
    Books s taken held failing ∧ ∀ i ∈ held, submitted i ∈ m := by
  cases h with
  | free _ hbooks => exact ⟨0, 0, False, hbooks, by simp⟩
  | @held t _ _ hbooks =>
    refine ⟨t.taken, t.held, _, hbooks, fun i hi => ?_⟩
    cases t with
    | submitted j =>
      obtain rfl := Multiset.mem_singleton.mp hi
      exact Multiset.mem_singleton_self _
    | _ => exact absurd hi (Multiset.notMem_zero i)

theorem Inv.books_of_free {s : State} {m : Multiset Token} (h : Inv s m)
    (hl : s.admissionLock = false) : Books s 0 0 False := by
  cases h with
  | free _ hbooks => exact hbooks
  | held hl' =>
    rw [hl] at hl'
    cases hl'

/-- A thread that holds the slot of a future is about to leave it to a callback. -/
theorem head_of_submitted {p : M Unit} {m : Multiset Token} {i : ℕ}
    (h : Prog.Safe logic (fun _ m => m = 0) p m) (hi : submitted i ∈ m) :
    p.head = some (.addDoneCallback i) := by
  cases p with
  | done r =>
    obtain rfl : m = 0 := h
    exact absurd hi (Multiset.notMem_zero _)
  | act a k =>
    have hhere : here a m := h.1
    cases a with
    | addDoneCallback j =>
      obtain rfl : m = {submitted j} := hhere
      have : i = j := by simpa using hi
      rw [this]
      rfl
    | setClosing =>
      rcases hhere with rfl | rfl <;> simp at hi
    | _ =>
      rw [here] at hhere
      rw [hhere] at hi
      simp at hi

/-- **The backlog is bounded** in every run. -/
theorem backlog {x : ThreadSystem.State State (M Unit)} (hx : saves.Reachable x) :
    Backlog x.shared x.threads := by
  obtain ⟨ann, hthreads, howns, hinv⟩ := savesOutline.annotated hx
  have hinv : Inv x.shared (ThreadSystem.tokens ann) := hinv
  have howns : ∀ a ∈ ann, Prog.Safe logic (fun _ m => m = 0) a.1 a.2 := howns
  obtain ⟨taken, held, failing, hbooks, hheld⟩ := hinv.books
  have htotal := hbooks.accounts.total
  -- the thread at an action that needs a token is the one the invariant speaks of
  have hthread : ∀ p ∈ x.threads, ∀ a t, p.head = some a → (∀ m, here a m → m = {t}) →
      t.Ok x.shared ∧ Books x.shared t.taken t.held (t = .failed) := by
    intro p hp a t ha ht
    obtain ⟨m, hm, hsub⟩ := Prog.Logic.here_of_head howns (hthreads ▸ hp) ha
    obtain rfl := ht m hm
    obtain ⟨G, hG⟩ := Multiset.exists_cons_of_mem (hsub t (by simp))
    rw [hG, ← Multiset.singleton_add] at hinv
    obtain ⟨-, -, hok, hb⟩ := hinv.alone
    exact ⟨hok, hb⟩
  have hcount : ∀ i, x.shared.accepted.count i =
      held.count i + x.shared.pool.callbacks.count i + x.shared.released.count i := by
    intro i
    rw [hbooks.accepted, Multiset.count_add, Multiset.count_add]
  refine ⟨?_, ?_, ?_, fun i hi => hbooks.accounts.lt_of_callback hi, ?_, ?_, ?_, ?_⟩
  · have hle := hbooks.accounts.unfinished_le
    have hleaked := hbooks.leaked_le
    by_cases hnone : x.shared.leaked = 0
    · rw [hnone, Multiset.card_zero] at hle
      omega
    · -- a leaked item leaves a slot to spare
      have := (hbooks.leaked_closed hnone).2
      omega
  · intro p hp ha
    exact (hthread p hp _ closed ha fun _ h => h).2.accounts.lt_of_taken
  · intro p hp i ha
    have hacc : Executor.Accounts workerCapacity x.shared.slots 0 (i ::ₘ 0) x.shared.leaked
        x.shared.pool := (hthread p hp _ (submitted i) ha fun _ h => h).2.accounts
    exact hacc.lt_of_held
  · intro hclosing p hp ha
    have := (hthread p hp _ admitted ha fun _ h => h).1.1
    rw [hclosing] at this
    cases this
  · intro i
    have := Multiset.nodup_iff_count_le_one.mp hbooks.nodup i
    rw [hcount] at this
    omega
  · intro i hi hd hcallback hattach
    have hone := Multiset.count_eq_one_of_mem hbooks.nodup hi
    have hnot : i ∉ held := by
      intro hmem
      obtain ⟨a, ha, hta⟩ := ThreadSystem.exists_of_mem_tokens (hheld i hmem)
      refine hattach a.1 ?_ (head_of_submitted (howns a ha) hta)
      rw [← hthreads]
      exact List.mem_map_of_mem ha
    rw [hcount, Multiset.count_eq_zero.mpr hnot, Multiset.count_eq_zero.mpr hcallback] at hone
    omega
  · intro hlock hdone
    have hfree := hinv.books_of_free hlock
    have hcallbacks : x.shared.pool.callbacks = 0 := by
      refine Multiset.eq_zero_of_forall_notMem fun i hi => (hdone i ?_).2 hi
      rw [hfree.accepted]
      simp [hi]
    have := hfree.accounts.total
    rw [hcallbacks] at this
    simpa using this

/-- The answers of a pool that queues each item. -/
def prompt : (a : Action) → State → a.Response
  | .acquireLock, _ | .releaseLock, _ | .setClosing, _ => ()
  | .readClosing, s => s.closing
  | .acquireSlot, s => decide (0 < s.slots)
  | .poolSubmit, s => .future s.pool.next
  | .releaseSlot, _ | .waitForThreadFuture _, _ => .ok ()
  | .addDoneCallback _, _ | .poolShutdown, _ | .poolJoin, _ => ()

/-- A save that has been accepted and awaits its future. -/
def awaiting : State × M Unit := Prog.run sem prompt 6 (.fresh, saveExecutionLogAsync)

theorem reachable_awaiting : saves.Reachable ⟨awaiting.1, [awaiting.2]⟩ := by
  have hinit : saves.Reachable ⟨.fresh, []⟩ := .init ⟨rfl, rfl⟩
  exact Prog.reachable_run prompt 6 (_, _) (hinit.tail (.start (.inl rfl)))

theorem backlog_awaiting :
    awaiting.2.head = some (.waitForThreadFuture 0) ∧ awaiting.1.slots = 3 ∧
    awaiting.1.accepted = {0} ∧ Backlog awaiting.1 [awaiting.2] :=
  ⟨by decide +kernel, by decide +kernel, by decide +kernel, backlog reachable_awaiting⟩

end ExecutionLogExecutor
