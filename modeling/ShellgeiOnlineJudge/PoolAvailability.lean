/-
Availability of the container pool under bounded concurrency.

`initialize_pool` runs once, and executions lease and release containers, at
most `pool_size` of them at any time.

* `available_of_reachable` — where the threads of an initialised manager stand:
  the pool is only ever found empty when it is already degraded, and without a
  failing Docker call it is never found empty and always replenished;
* `availability` — the same of what their calls of `get_container` and
  `release_container` have returned, as they are recorded.
-/
import ShellgeiOnlineJudge.ContainerHistory

namespace ContainerManager

open Token Prog

/-- A manager of `poolSize` containers that is initialised once, and any number
of executions, of which `poolSize` may be active.  A container may disappear at
any time. -/
def boundedExecutions (poolSize : ℕ) (image : String) (client : Bool) :
    ThreadSystem World (M Unit) :=
  Prog.system sem
    (fun s threads => s = World.fresh poolSize (some image) client ∧
      threads = [initializePool poolSize (some image)])
    (fun s s' => ∃ c, s' = s.gone c) fun _ _ p => p = execution

/-- The thread is in the middle of an execution or of `initialize_pool`. -/
def isActive (p : M Unit) : Bool :=
  match p.head with
  | none => false
  | some .beginExecution => false
  | some _ => true

theorem inv_fresh (poolSize : ℕ) (image : String) (client : Bool) :
    Inv True (World.fresh poolSize (some image) client) (initTokens poolSize (some image)) := by
  -- every slot of the new pool is reserved for `initialize_pool`
  have hreplicate : ∀ k, Core True (World.fresh poolSize (some image) client)
      (Multiset.replicate k entitled) := by
    intro k
    induction k with
    | zero => exact core_fresh True poolSize (some image) client
    | succ k ih =>
      rw [Multiset.replicate_succ]
      exact ih.learn rfl (by simp) (by simp) trivial (by simp) (by simp)
  have hother : ∀ t, t ≠ entitled → (Multiset.replicate poolSize entitled).count t = 0 :=
    fun t ht => Multiset.count_eq_zero.mpr fun hc => ht (Multiset.eq_of_mem_replicate hc)
  have hnone : ∀ kind : Token → Bool, kind entitled = false →
      number kind (Multiset.replicate poolSize entitled) = 0 := by
    intro kind hk
    refine Multiset.countP_eq_zero.mpr fun t ht => ?_
    rw [Multiset.eq_of_mem_replicate ht, hk]
    exact Bool.false_ne_true
  refine ⟨?_, fun _ => rfl, fun _ h => ?_, fun _ _ => ?_⟩
  · refine (hreplicate poolSize).learn rfl (by simp) (by simp) ?_ (by simp) (by simp)
    exact fun _ => ⟨rfl, rfl, Nat.zero_add poolSize⟩
  · cases h
  · exact {
      covered := fun h => by cases h
      active := by simp [initTokens, hother, World.fresh]
      active_le := Nat.zero_le _
      notInit := fun _ => rfl
      clean := fun _ => ⟨rfl, by simp [initTokens, World.fresh], by
        simp [initTokens, World.fresh, hnone isName rfl, isName]⟩
      init_once := by simp [initTokens, hnone isInit rfl, isInit] }

/-- The proof outline of the system. -/
def availabilityOutline (poolSize : ℕ) (image : String) (client : Bool) :
    (boundedExecutions poolSize image client).Outline Token :=
  (logic True).outline (fun _ m => Settled m)
    (by
      rintro s threads ⟨rfl, rfl⟩
      refine ⟨[(initializePool poolSize (some image), initTokens poolSize (some image))], rfl, ?_,
        ?_⟩
      · intro a ha
        obtain rfl := List.mem_singleton.mp ha
        exact initializePool_safe poolSize (some image)
      · rw [ThreadSystem.tokens_cons, ThreadSystem.tokens_nil, add_zero]
        exact inv_fresh poolSize image client)
    (by
      rintro s s' m ⟨c, rfl⟩ h
      exact h.shrink (gone_sublist s))
    (by
      rintro s p ann rfl hsafe h
      exact ⟨0, execution_safe, by simpa using h⟩)

theorem Settled.count_eq_zero {m : Multiset Token} {t : Token} (h : Settled m)
    (ht : t.droppable = false) : m.count t = 0 :=
  Multiset.count_eq_zero.mpr fun hc => by simp [h t hc] at ht

theorem Settled.number_isName {m : Multiset Token} (h : Settled m) : number isName m = 0 := by
  refine Multiset.countP_eq_zero.mpr fun t ht => ?_
  have := h t ht
  cases t <;> simp_all [droppable, isName]

/-- A thread that is not active keeps nothing a count is kept of. -/
theorem settled_of_not_active {bounded : Prop} {p : M Unit} {m : Multiset Token}
    (h : Safe bounded (fun _ m => Settled m) p m) (hp : isActive p = false) : Settled m := by
  cases p with
  | done r => exact h
  | act a k =>
    have hhere : here a m := h.1
    cases a with
    | beginExecution =>
      obtain rfl : m = 0 := hhere
      exact Settled.zero
    | _ => cases hp

theorem settled_tokens {ann : List (M Unit × Multiset Token)} (h : ∀ a ∈ ann, Settled a.2) :
    Settled (ThreadSystem.tokens ann) := by
  intro t ht
  obtain ⟨a, ha, hta⟩ := ThreadSystem.exists_of_mem_tokens ht
  exact h a ha t hta

/-- What holds of an initialised manager of `poolSize` containers under bounded
executions. -/
structure Available (poolSize : ℕ) (s : World) (threads : List (M Unit)) : Prop where
  up : s.shuttingDown = false
  /-- `get_container` leaves the pool for the creation branch only when the pool is degraded -/
  empty : ∀ p ∈ threads, p.head = some .popPool → ∀ s', sem .popPool s .empty = some s' →
    s.degraded = true
  /-- `get_container` raises `ContainerCapacityError` only when the pool is degraded -/
  capacity : ∀ p ∈ threads, p.head = some .raiseCapacity → s.degraded = true
  /-- without a failure the pool is not degraded -/
  not_degraded : s.raised = false → s.degraded = false
  /-- without a failure `get_container` is served from the pool -/
  served : s.raised = false → ∀ p ∈ threads, p.head = some .popPool →
    ∀ r s', sem .popPool s r = some s' → ∃ c, r = .leased c
  /-- without a failure no creation for a lease and no replenishment fails -/
  replenished : s.raised = false → ∀ p ∈ threads, p.head ≠ some .markDegraded
  /-- without a failure the pool is full whenever no execution is active -/
  ready : s.raised = false → (∀ p ∈ threads, isActive p = false) →
    s.isReady = true ∧ s.pool.length = poolSize

section Invariants

variable {poolSize : ℕ} {image : String} {client : Bool} {x : ThreadSystem.State World (M Unit)}

/-- Where a thread stands, the tokens of the invariant are as `here` says. -/
theorem exists_here (hx : (boundedExecutions poolSize image client).Reachable x) :
    ∃ F, Inv True x.shared F ∧ ∀ p ∈ x.threads, ∀ a, p.head = some a →
      ∃ m, here a m ∧ ∀ t ∈ m, t ∈ F := by
  obtain ⟨ann, hthreads, howns, hinv⟩ := (availabilityOutline poolSize image client).annotated hx
  refine ⟨ThreadSystem.tokens ann, hinv, fun p hp a ha => ?_⟩
  exact Logic.here_of_head howns (hthreads ▸ hp) ha

/-- The pool is only found empty when it is degraded. -/
theorem degraded_of_empty (hx : (boundedExecutions poolSize image client).Reachable x)
    {p : M Unit} (hp : p ∈ x.threads) (ha : p.head = some .popPool) (hpool : x.shared.pool = [])
    (hup : x.shared.shuttingDown = false) : x.shared.degraded = true := by
  obtain ⟨F, hinv, hhere⟩ := exists_here hx
  obtain ⟨m, hm, hsub⟩ := hhere p hp _ ha
  exact hinv.degraded_of_empty (hsub idle hm.2) hpool trivial hup

/-- `get_container` only passes a capacity error on when the pool is degraded. -/
theorem degraded_of_raiseCapacity (hx : (boundedExecutions poolSize image client).Reachable x)
    {p : M Unit} (hp : p ∈ x.threads) (ha : p.head = some .raiseCapacity)
    (hup : x.shared.shuttingDown = false) : x.shared.degraded = true := by
  obtain ⟨F, hinv, hhere⟩ := exists_here hx
  obtain ⟨m, hm, hsub⟩ := hhere p hp _ ha
  exact hinv.core.ok sawDegraded (hsub sawDegraded hm.2) trivial hup

/-- The pool is only marked after a Docker call has raised. -/
theorem raised_of_markDegraded (hx : (boundedExecutions poolSize image client).Reachable x)
    {p : M Unit} (hp : p ∈ x.threads) (ha : p.head = some .markDegraded)
    (hup : x.shared.shuttingDown = false) : x.shared.raised = true := by
  obtain ⟨F, hinv, hhere⟩ := exists_here hx
  obtain ⟨m, hm, hsub⟩ := hhere p hp _ ha
  exact hinv.core.ok sawRaised (hsub sawRaised hm.2) trivial hup

theorem pool_of_popPool_empty {s s' : World} (h : sem .popPool s .empty = some s') :
    s.shuttingDown = false ∧ s.pool = [] := by
  simp only [sem] at h
  split at h
  · simp at h
  · next hup =>
    split at h
    · next hpool => exact ⟨by simpa using hup, hpool⟩
    · simp at h

/-- No interleaving of bounded executions and no pattern of Docker failures takes
an initialised pool away. -/
theorem available_of_reachable (hx : (boundedExecutions poolSize image client).Reachable x)
    (hinit : x.shared.initialized = true) : Available poolSize x.shared x.threads := by
  have hsize : x.shared.poolSize = poolSize := by
    refine poolSize_of_reachable ?_ hx
    rintro s threads ⟨rfl, rfl⟩
    rfl
  obtain ⟨ann, hthreads, howns, hinv⟩ := (availabilityOutline poolSize image client).annotated hx
  have hinv : Inv True x.shared (ThreadSystem.tokens ann) := hinv
  have howns : ∀ a ∈ ann, Safe True (fun _ m => Settled m) a.1 a.2 := howns
  -- here only an initialization that fails sets the shutdown flag
  have hup : x.shared.shuttingDown = false := by
    by_contra hdown
    have := hinv.failed trivial (by simpa using hdown)
    rw [hinit] at this
    cases this
  have hlive := hinv.live trivial hup
  refine ⟨hup, ?_, ?_, fun hr => (hlive.clean hr).1, ?_, ?_, ?_⟩
  · intro p hp ha s' hs
    exact degraded_of_empty hx hp ha (pool_of_popPool_empty hs).2 hup
  · intro p hp ha
    exact degraded_of_raiseCapacity hx hp ha hup
  -- the pool is not empty, since only a raised error degrades it
  · intro hr p hp ha r s' hs
    simp only [sem, hup, Bool.false_eq_true, if_false] at hs
    split at hs
    · next hpool =>
      have hdeg := degraded_of_empty hx hp ha hpool hup
      rw [(hlive.clean hr).1] at hdeg
      cases hdeg
    · next c rest hpool =>
      split at hs <;> cases hs
      next hrc => exact ⟨c, hrc⟩
  · intro hr p hp ha
    have := raised_of_markDegraded hx hp ha hup
    rw [hr] at this
    cases this
  · intro hr hidle
    -- idle threads own nothing that is under way, so every counted container is pooled
    have hsettled : Settled (ThreadSystem.tokens ann) := by
      refine settled_tokens fun a ha => settled_of_not_active (howns a ha) (hidle a.1 ?_)
      rw [← hthreads]
      exact List.mem_map_of_mem ha
    obtain ⟨hdeg, hfree, hnames⟩ := hlive.clean hr
    have hcovered := hlive.covered hinit hdeg
    have hslots := hinv.core.slots
    rw [hsettled.count_eq_zero rfl] at hcovered hfree hslots
    rw [hsettled.number_isName] at hnames
    have hmanaged : x.shared.managed.length = x.shared.poolSize := by omega
    refine ⟨?_, by omega⟩
    simp [World.isReady, hinit, hdeg, hup, hnames, hmanaged]

end Invariants

/-! ### What the calls have returned -/

/-- The calls of `boundedExecutions`, as data. -/
inductive BoundedCall
  | initializePool
  | execution
  deriving DecidableEq

/-- The program of a call. -/
def BoundedCall.program (poolSize : ℕ) (image : String) : BoundedCall → M Unit
  | .initializePool => ContainerManager.initializePool poolSize (some image)
  | .execution => ContainerManager.execution

/-- A thread that runs one of the calls. -/
abbrev BoundedThread := Prog.Thread BoundedCall Action Action.Response Exc Unit

/-- A call that has not begun. -/
def BoundedCall.thread (poolSize : ℕ) (image : String) (call : BoundedCall) : BoundedThread :=
  ⟨call, [], call.program poolSize image⟩

/-- `boundedExecutions`, recorded. -/
def recordedExecutions (poolSize : ℕ) (image : String) (client : Bool) :
    ThreadSystem World BoundedThread where
  init s threads := s = World.fresh poolSize (some image) client ∧
    threads = [BoundedCall.initializePool.thread poolSize image]
  step := RecordedStep sem
  env s s' := ∃ c, s' = s.gone c
  start _ _ t := t = BoundedCall.execution.thread poolSize image

/-- What a thread's calls of `get_container` and `release_container` have done. -/
structure Served (s : World) (t : BoundedThread) : Prop where
  /-- before the action with which `get_container` fails with `ContainerCapacityError`
  the pool is degraded -/
  capacity : ∀ before events a k r, t.past = before ++ events → t.rest = .act a k →
    Ends getContainer (events ++ [⟨a, r⟩]) (.error .capacity) → s.degraded = true
  /-- and after it -/
  failed : ∀ before events after, t.past = before ++ events ++ after →
    Ends getContainer events (.error .capacity) → s.degraded = true
  /-- without a failing Docker call `get_container` returns the container that it takes from
  the pool, and does nothing else -/
  served : s.raised = false → ∀ before events after r, t.past = before ++ events ++ after →
    Ends getContainer events r → ∃ c, r = .ok c ∧ events = [⟨.popPool, PoolAnswer.leased c⟩]
  /-- without a failing Docker call one that has not returned yet finds a container too -/
  popped : s.raised = false → ∀ answer, ⟨.popPool, answer⟩ ∈ t.past →
    ∃ c, answer = PoolAnswer.leased c
  /-- without a failing Docker call no replenishment has failed -/
  replenished : s.raised = false → ∀ before events after c alreadyStopped r,
    t.past = before ++ events ++ after → Ends (releaseContainer c alreadyStopped) events r →
    ¬ ReplenishmentFailed c alreadyStopped events

section Recorded

variable {poolSize : ℕ} {image : String} {client : Bool}
  {x : ThreadSystem.State World BoundedThread}

/-- Without its records the system is `boundedExecutions`. -/
theorem reachable_boundedExecutions (hx : (recordedExecutions poolSize image client).Reachable x) :
    (boundedExecutions poolSize image client).Reachable
      ⟨x.shared, x.threads.map fun t => t.rest⟩ := by
  refine hx.map id (fun t => t.rest) ?_ ?_ ?_ ?_
  · rintro s threads ⟨rfl, rfl⟩
    exact ⟨rfl, rfl⟩
  · rintro s t s' t' ⟨hsem⟩
    exact .act hsem
  · rintro s s' ⟨c, rfl⟩
    exact ⟨c, rfl⟩
  · rintro s threads t rfl
    rfl

/-- What an event says about the state from then on, under bounded executions. -/
def Evidence (s : World) : Prog.Event Action Action.Response → Prop
  | ⟨.popPool, .shuttingDown⟩ => s.shuttingDown = true
  | ⟨.popPool, .empty⟩ => s.degraded = true
  | ⟨.markDegraded, _⟩ => s.raised = true ∨ s.shuttingDown = true
  | _ => True

theorem Evidence.step {e : Prog.Event Action Action.Response} {a : Action} {s s' : World}
    {r : a.Response} (he : Evidence s e) (h : sem a s r = some s') : Evidence s' e := by
  obtain ⟨b, answer⟩ := e
  cases b with
  | popPool =>
    cases answer with
    | shuttingDown => exact sem_shuttingDown h he
    | leased c => exact trivial
    | empty => exact sem_degraded h he
  | markDegraded => exact he.imp (sem_raised h) (sem_shuttingDown h)
  | _ => exact trivial

/-- A step of a reachable state gives the evidence of its event. -/
theorem evidence_of_sem {y : ThreadSystem.State World (M Unit)}
    (hy : (boundedExecutions poolSize image client).Reachable y) {p : M Unit}
    (hp : p ∈ y.threads) {a : Action} (ha : p.head = some a) {r : a.Response} {s' : World}
    (h : sem a y.shared r = some s') : Evidence s' ⟨a, r⟩ := by
  cases a with
  | popPool =>
    cases r with
    | shuttingDown => exact told_of_sem .popPool y.shared .shuttingDown s' h
    | leased c => exact trivial
    | empty =>
      obtain ⟨hup, hpool⟩ := pool_of_popPool_empty h
      exact sem_degraded h (degraded_of_empty hy hp ha hpool hup)
  | markDegraded =>
    by_cases hdown : y.shared.shuttingDown = true
    · exact .inr (sem_shuttingDown h hdown)
    · have hraised := raised_of_markDegraded hy hp ha (Bool.not_eq_true _ ▸ hdown)
      exact .inl (sem_raised h hraised)
  | _ => exact trivial

theorem evidence_of_reachable (hx : (recordedExecutions poolSize image client).Reachable x) :
    ∀ t ∈ x.threads, ∀ e ∈ t.past, Evidence x.shared e := by
  refine events_hold_of_reachable (P := fun e s => Evidence s e) hx ?_ ?_
    (fun _ _ _ _ h => h) ?_ ?_ ?_
  · rintro s threads ⟨-, rfl⟩ t ht
    obtain rfl := List.mem_singleton.1 ht
    rfl
  · rintro s threads t rfl
    rfl
  · intro y hy t ht a ha r s' h
    exact evidence_of_sem (reachable_boundedExecutions hy) (List.mem_map_of_mem ht) ha h
  · intro e a s r s' h he
    exact he.step h
  · rintro e s s' ⟨c, rfl⟩ he
    exact he

theorem served_of_reachable (hx : (recordedExecutions poolSize image client).Reachable x)
    (havailable : Available poolSize x.shared (x.threads.map fun t => t.rest))
    {t : BoundedThread} (ht : t ∈ x.threads) : Served x.shared t := by
  have hevidence : ∀ e ∈ t.past, Evidence x.shared e := evidence_of_reachable hx t ht
  have hdown : ⟨.popPool, PoolAnswer.shuttingDown⟩ ∉ t.past := by
    intro hmem
    have : x.shared.shuttingDown = true := hevidence _ hmem
    rw [havailable.up] at this
    cases this
  have hempty : ⟨.popPool, PoolAnswer.empty⟩ ∈ t.past → x.shared.degraded = true :=
    fun hmem => hevidence _ hmem
  have hclean : x.shared.raised = false → ⟨.popPool, PoolAnswer.empty⟩ ∉ t.past := by
    intro hr hmem
    have := hempty hmem
    rw [havailable.not_degraded hr] at this
    cases this
  -- the events of a call are among those of its thread
  have hsub : ∀ {before events after : Events}, t.past = before ++ events ++ after →
      ∀ e ∈ events, e ∈ t.past := by
    intro before events after hpast e he
    rw [hpast]
    exact List.mem_append_left _ (List.mem_append_right _ he)
  refine ⟨?_, ?_, ?_, ?_, ?_⟩
  · intro before events a k r hpast hrest hends
    obtain ⟨middle, hevents⟩ := getContainer_capacity hends
    -- the last event is the clause that raises the error again
    rw [← List.cons_append] at hevents
    obtain ⟨-, hlast⟩ := List.append_inj' hevents rfl
    obtain rfl : a = .raiseCapacity := congrArg Sigma.fst (List.cons.inj hlast).1
    exact havailable.capacity t.rest (List.mem_map_of_mem ht) (by rw [hrest]; rfl)
  · intro before events after hpast hends
    obtain ⟨middle, rfl⟩ := getContainer_capacity hends
    exact hempty (hsub hpast _ List.mem_cons_self)
  · intro hr before events after r hpast hends
    rcases getContainer_cases hends with hserved | hmem | hmem
    · exact hserved
    · exact absurd (hsub hpast _ hmem) hdown
    · exact absurd (hsub hpast _ hmem) (hclean hr)
  · intro hr answer hmem
    cases answer with
    | shuttingDown => exact absurd hmem hdown
    | leased c => exact ⟨c, rfl⟩
    | empty => exact absurd hmem (hclean hr)
  · intro hr before events after c alreadyStopped r hpast hends hfailed
    have hmem := markDegraded_mem_of_release hends (.inr hfailed)
    have hmarked : x.shared.raised = true ∨ x.shared.shuttingDown = true :=
      hevidence _ (hsub hpast _ hmem)
    rw [hr, havailable.up] at hmarked
    simp at hmarked

/-- **Availability of the pool**: no interleaving of bounded executions and no
pattern of Docker failures takes an initialised pool away, neither where the
threads stand nor in what their calls have returned. -/
theorem availability (hx : (recordedExecutions poolSize image client).Reachable x)
    (hinit : x.shared.initialized = true) :
    Available poolSize x.shared (x.threads.map fun t => t.rest) ∧
      ∀ t ∈ x.threads, Served x.shared t := by
  have havailable := available_of_reachable (reachable_boundedExecutions hx) hinit
  exact ⟨havailable, fun t ht => served_of_reachable hx havailable ht⟩

end Recorded

/-- A pool of one container is created. -/
def warmed : World × BoundedThread :=
  runThread sem calm 17
    (World.fresh 1 (some "image") true, BoundedCall.initializePool.thread 1 "image")

/-- An execution that leases its container, removes it and replenishes the pool. -/
def executed : World × BoundedThread :=
  runThread sem calm 40 (warmed.1, BoundedCall.execution.thread 1 "image")

/-- Another one that has begun, and has leased the new container. -/
def leasing : World × BoundedThread :=
  runThread sem calm 2 (executed.1, BoundedCall.execution.thread 1 "image")

theorem reachable_leasing :
    (recordedExecutions 1 "image" true).Reachable
      ⟨leasing.1, [warmed.2, executed.2, leasing.2]⟩ := by
  have hinit : (recordedExecutions 1 "image" true).Reachable
      ⟨World.fresh 1 (some "image") true, [BoundedCall.initializePool.thread 1 "image"]⟩ :=
    .init ⟨rfl, rfl⟩
  have hwarm : (recordedExecutions 1 "image" true).Reachable ⟨warmed.1, [warmed.2]⟩ :=
    hinit.trans (steps_runThread id calm [] [] 17 (_, _))
  have hexecuted : (recordedExecutions 1 "image" true).Reachable
      ⟨executed.1, [warmed.2, executed.2]⟩ :=
    (hwarm.tail (.start rfl)).trans (steps_runThread id calm [warmed.2] [] 40
      (warmed.1, BoundedCall.execution.thread 1 "image"))
  exact (hexecuted.tail (.start rfl)).trans
    (steps_runThread id calm [warmed.2, executed.2] [] 2
      (executed.1, BoundedCall.execution.thread 1 "image"))

/-- One execution has ended, and another one has got the container that replaces
the first. -/
theorem availability_leasing :
    executed.2.rest.finished = true ∧ leasing.1.raised = false ∧ leasing.1.active = 1 ∧
    leased leasing.2.rest = some ⟨1, 1⟩ ∧
    Available 1 leasing.1 [warmed.2.rest, executed.2.rest, leasing.2.rest] ∧
    ∀ t ∈ [warmed.2, executed.2, leasing.2], Served leasing.1 t :=
  ⟨by decide +kernel, by decide +kernel, by decide +kernel, by decide +kernel,
    availability reachable_leasing (by decide +kernel)⟩

end ContainerManager
