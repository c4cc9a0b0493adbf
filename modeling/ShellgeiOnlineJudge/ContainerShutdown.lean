/-
Degradation and shutdown of the container pool, for any callers whatsoever.

Every thread records the answers to its actions, so that one can speak of what
a method returned on the way, and the state records whether a `kill`, `get` or
`remove` has raised since `begin_shutdown`.

* `degradation_sticky` — a failed release or lease leaves the pool not ready;
* `shutdown_final` — nothing is created and nothing leased after a shutdown;
* `shutdown_complete` — without failures nothing is left of the manager.
-/
import ShellgeiOnlineJudge.ContainerHistory

namespace ContainerManager

open Prog

/-- The calls of `Caller`, as data. -/
inductive Call
  | initializePool
  | lease
  | beginShutdown
  | shutdownPool
  deriving DecidableEq

/-- The program of a call. -/
def Call.program (poolSize : ℕ) (imageId : Option String) : Call → M Unit
  | .initializePool => ContainerManager.initializePool poolSize imageId
  | .lease => ContainerManager.lease
  | .beginShutdown => ContainerManager.beginShutdown
  | .shutdownPool => ContainerManager.shutdownPool

theorem Call.caller (poolSize : ℕ) (imageId : Option String) (call : Call) :
    Caller poolSize imageId (call.program poolSize imageId) := by
  cases call with
  | initializePool => exact .initializePool
  | lease => exact .lease
  | beginShutdown => exact .beginShutdown
  | shutdownPool => exact .shutdownPool

/-- The manager, and whether a `kill`, `get` or `remove` has raised anything but
`NotFound` since `begin_shutdown`. -/
structure Observed where
  world : World
  troubled : Bool

/-- A `kill`, `get` or `remove` that raises. -/
def raises : (a : Action) → a.Response → Bool
  | .kill _, .raised _ => true
  | .containersGet _, .raised _ => true
  | .remove _, .raised _ => true
  | _, _ => false

/-- An action, with whether it raised after a shutdown had begun. -/
def observe (a : Action) (s : Observed) (r : a.Response) : Option Observed :=
  (sem a s.world r).map fun w => ⟨w, s.troubled || (s.world.shuttingDown && raises a r)⟩

/-- A thread that runs one of the calls. -/
abbrev Thread := Prog.Thread Call Action Action.Response Exc Unit

/-- `anyCallers`, recorded. -/
def recordedCallers (poolSize : ℕ) (imageId : Option String) (client : Bool) :
    ThreadSystem Observed Thread :=
  recorded observe (Call.program poolSize imageId)
    (fun s => s = ⟨World.fresh poolSize imageId client, false⟩)
    fun s s' => ∃ c, s' = { s with world := s.world.gone c }

theorem observe_eq_some {a : Action} {s s' : Observed} {r : a.Response}
    (h : observe a s r = some s') : sem a s.world r = some s'.world ∧
      s'.troubled = (s.troubled || (s.world.shuttingDown && raises a r)) := by
  obtain ⟨w, hw, rfl⟩ := Option.map_eq_some_iff.1 h
  exact ⟨hw, rfl⟩

/-- Without its records the system is `anyCallers`. -/
theorem reachable_anyCallers {poolSize : ℕ} {imageId : Option String} {client : Bool}
    {x : ThreadSystem.State Observed Thread}
    (hx : (recordedCallers poolSize imageId client).Reachable x) :
    (anyCallers poolSize imageId client).Reachable
      ⟨x.shared.world, x.threads.map fun t => t.rest⟩ := by
  refine hx.map Observed.world (fun t => t.rest) ?_ ?_ ?_ ?_
  · rintro s threads ⟨rfl, rfl⟩
    exact ⟨rfl, rfl⟩
  · rintro s t s' t' ⟨hsem⟩
    exact .act (observe_eq_some hsem).1
  · rintro s s' ⟨c, rfl⟩
    exact ⟨c, rfl⟩
  · rintro s threads t ⟨call, rfl⟩
    exact call.caller poolSize imageId

/-! ### What a method has returned on the way -/

/-- A `release_container` has returned after its removal or replenishment failed. -/
def ReturnedAfterFailure (t : Thread) : Prop :=
  ∃ c alreadyStopped before events after, t.past = before ++ events ++ after ∧
    Ends (releaseContainer c alreadyStopped) events (.ok ()) ∧
    (RemovalFailed c alreadyStopped events ∨ ReplenishmentFailed c alreadyStopped events)

/-- A `get_container` has raised anything other than `ContainerCapacityError`. -/
def GetRaised (t : Thread) : Prop :=
  ∃ before events after e, t.past = before ++ events ++ after ∧
    Ends getContainer events (.error e) ∧ e ≠ .capacity

/-- A `get_container` has returned a container. -/
def GetSucceeded (t : Thread) : Prop :=
  ∃ before events after c, t.past = before ++ events ++ after ∧
    Ends getContainer events (.ok c)

/-- A `begin_shutdown` has returned, also one inside another method. -/
def ShutdownBegun (t : Thread) : Prop :=
  ∃ before events after, t.past = before ++ events ++ after ∧ Ends beginShutdown events (.ok ())

/-! ### Tickets

What a thread holds or knows on its way through a shutdown. -/

/-- What a thread of a shutdown knows, as long as it holds the ticket. -/
inductive Ticket
  /-- holds `_create_shutdown_lock` -/
  | lock
  /-- holds the lock, and no shutdown had begun when it looked -/
  | up
  /-- there is a Docker client -/
  | client
  /-- a shutdown has begun -/
  | down
  /-- a shutdown has begun; unless a Docker call has raised since, nothing else is
  recorded than these containers and names -/
  | todo (containers : List Container) (names : List ℕ)
  deriving DecidableEq

open Ticket

/-- What a ticket says of the state. -/
def Ticket.Ok (s : Observed) : Ticket → Prop
  | lock => True
  | up => s.world.shuttingDown = false
  | client => s.world.client = true
  | down => s.world.shuttingDown = true
  | todo containers names => s.world.shuttingDown = true ∧ (s.troubled = false →
      (∀ c ∈ s.world.managed, c ∈ containers) ∧ ∀ name ∈ s.world.pendingNames, name ∈ names)

/-- The invariant of the shutdown. -/
structure ShutdownInv (s : Observed) (m : Multiset Ticket) : Prop where
  locked : m.count lock + m.count up = if s.world.createShutdownLock then 1 else 0
  ok : ∀ t ∈ m, t.Ok s
  pool : s.world.shuttingDown = true → s.world.pool = []
  named : s.world.pendingNames.Nonempty → s.world.client = true

/-- The semaphore is not released too often, as `capacity` says. -/
def released : (a : Action) → a.Response → Bool
  | .releaseSlot, .error _ => false
  | _, _ => true

/-- An action whose release is not refused. -/
def observeReleased (a : Action) (s : Observed) (r : a.Response) : Option Observed :=
  if released a r then observe a s r else none

/-- The program logic of the shutdown. -/
def shutdownLogic : Logic Action Action.Response Observed Ticket where
  sem := observeReleased
  inv := ShutdownInv
  here
    | .containersCreate _, m => up ∈ m
    | _, _ => True

/-- A program that holds these tickets keeps them true. -/
abbrev Lasts {α : Type} (post : Except Exc α → Multiset Ticket → Prop) (p : M α)
    (m : Multiset Ticket) : Prop :=
  Prog.Safe shutdownLogic post p m

/-- What an action does with the tickets. -/
abbrev Step (a : Action) (m : Multiset Ticket) (post : a.Response → Multiset Ticket → Prop) :
    Prop :=
  Prog.Triple shutdownLogic a m post

theorem observeReleased_eq_some {a : Action} {s s' : Observed} {r : a.Response}
    (h : observeReleased a s r = some s') : released a r = true ∧ sem a s.world r = some s'.world ∧
      s'.troubled = (s.troubled || (s.world.shuttingDown && raises a r)) := by
  rw [observeReleased] at h
  split at h
  next hr => exact ⟨hr, observe_eq_some h⟩
  next => cases h

variable {B F m : Multiset Ticket} {s s' : Observed} {t : Ticket}

/-- A ticket stays valid in a steady step. -/
theorem Ticket.Ok.steady (ht : t.Ok s) (h : Steady s.world s'.world)
    (htroubled : s'.troubled = false → s.troubled = false) : t.Ok s' := by
  cases t with
  | lock => exact trivial
  | up => exact h.shutting.trans ht
  | client => exact h.client ht
  | down => exact h.shutting.trans ht
  | todo containers names =>
    refine ⟨h.shutting.trans ht.1, fun hs => ?_⟩
    obtain ⟨hmanaged, hpending⟩ := ht.2 (htroubled hs)
    exact ⟨fun c hc => hmanaged c (h.managed c hc), fun n hn => hpending n (h.pending n hn)⟩

theorem ShutdownInv.quiet (hinv : ShutdownInv s F) (h : Quiet s.world s'.world)
    (htroubled : s'.troubled = false → s.troubled = false) : ShutdownInv s' F where
  locked := by
    rw [h.lock]
    exact hinv.locked
  ok t ht := (hinv.ok t ht).steady h.toSteady htroubled
  pool hdown := by
    rw [h.shutting] at hdown
    exact h.pool hdown (hinv.pool hdown)
  named := by
    rintro ⟨name, hname⟩
    exact h.client (hinv.named ⟨name, h.pending name hname⟩)

/-- A thread learns a ticket that is valid and no lock. -/
theorem ShutdownInv.learn (hinv : ShutdownInv s F) (ht : t.Ok s) (hlock : t ≠ lock)
    (hup : t ≠ up) : ShutdownInv s (t ::ₘ F) where
  locked := by
    rw [Multiset.count_cons_of_ne hlock.symm, Multiset.count_cons_of_ne hup.symm]
    exact hinv.locked
  ok u hu := by
    rcases Multiset.mem_cons.1 hu with rfl | hu
    · exact ht
    · exact hinv.ok u hu
  pool := hinv.pool
  named := hinv.named

theorem ShutdownInv.forget (hinv : ShutdownInv s (t ::ₘ F)) (hlock : t ≠ lock) (hup : t ≠ up) :
    ShutdownInv s F where
  locked := by
    have := hinv.locked
    rwa [Multiset.count_cons_of_ne hlock.symm, Multiset.count_cons_of_ne hup.symm] at this
  ok u hu := hinv.ok u (Multiset.mem_cons_of_mem hu)
  pool := hinv.pool
  named := hinv.named

theorem not_troubled {s s' : Observed} {b : Bool} (h : s'.troubled = (s.troubled || b)) :
    s'.troubled = false → s.troubled = false := by
  intro hs
  rw [hs] at h
  exact (Bool.or_eq_false_iff.1 h.symm).1

/-- The creation lock is taken or given back. -/
theorem ShutdownInv.relock {b : Bool} (hinv : ShutdownInv s F)
    (hworld : s'.world = { s.world with createShutdownLock := b })
    (htroubled : s'.troubled = false → s.troubled = false) (hm : ∀ t ∈ m, t = lock ∨ t ∈ F)
    (hcount : m.count lock + m.count up = if b then 1 else 0) : ShutdownInv s' m where
  locked := by
    rw [hworld]
    exact hcount
  ok t ht := by
    have hsteady : Steady s.world s'.world := by
      rw [hworld]
      exact { Quiet.refl s.world with }
    rcases hm t ht with rfl | ht
    · exact trivial
    · exact (hinv.ok t ht).steady hsteady htroubled
  pool := by
    rw [hworld]
    exact hinv.pool
  named := by
    rw [hworld]
    exact hinv.named

/-! ### Steps -/

theorem step_intro {a : Action} {post : a.Response → Multiset Ticket → Prop}
    (hhere : shutdownLogic.here a B)
    (h : ∀ s F r s', ShutdownInv s (B + F) → released a r = true →
      sem a s.world r = some s'.world →
      s'.troubled = (s.troubled || (s.world.shuttingDown && raises a r)) →
      ∃ m', ShutdownInv s' (m' + F) ∧ post r m') : Step a B post := by
  refine ⟨hhere, fun s F r s' hinv hs => ?_⟩
  obtain ⟨hreleased, hsem, htroubled⟩ := observeReleased_eq_some hs
  exact h s F r s' hinv hreleased hsem htroubled

/-- A quiet action; a container is only created by a thread that holds `up`. -/
theorem step_quiet {a : Action} (ha : isQuiet a = true)
    (hcreate : ∀ name, a = .containersCreate name → up ∈ B) : Step a B fun _ m => m = B := by
  have hhere : shutdownLogic.here a B := by
    cases a with
    | containersCreate name => exact hcreate name rfl
    | _ => exact trivial
  refine step_intro hhere fun s F r s' hinv _ hsem htroubled => ⟨B, ?_, rfl⟩
  exact hinv.quiet (quiet_of_sem ha hsem) (not_troubled htroubled)

/-- The quiet actions that any thread may perform. -/
def isPlain : Action → Bool
  | .containersCreate _ => false
  | a => isQuiet a

theorem isQuiet_of_isPlain {a : Action} (ha : isPlain a = true) : isQuiet a = true := by
  cases a with
  | containersCreate name => cases ha
  | _ => exact ha

theorem step_plain {a : Action} (ha : isPlain a = true) : Step a B fun _ m => m = B := by
  cases a with
  | containersCreate name => cases ha
  | _ => exact step_quiet ha fun _ h => nomatch h

theorem step_acquireLock : Step .acquireCreateShutdownLock B fun _ m => m = lock ::ₘ B := by
  refine step_intro trivial fun s F r s' hinv _ hsem htroubled => ⟨_, ?_, rfl⟩
  simp only [sem] at hsem
  split at hsem
  next => cases hsem
  next hfree =>
    have hlocked := hinv.locked
    rw [if_neg hfree] at hlocked
    rw [Multiset.cons_add]
    refine hinv.relock (Option.some.inj hsem).symm (not_troubled htroubled) ?_ ?_
    · intro t ht
      exact Multiset.mem_cons.1 ht
    · rw [Multiset.count_cons_self, Multiset.count_cons_of_ne (by decide)]
      show _ = 1
      omega

/-- The lock is given back by the thread that holds it. -/
theorem step_releaseLock (ht : t = lock ∨ t = up) :
    Step .releaseCreateShutdownLock (t ::ₘ B) fun _ m => m = B := by
  refine step_intro trivial fun s F r s' hinv _ hsem htroubled => ⟨B, ?_, rfl⟩
  rw [Multiset.cons_add] at hinv
  refine hinv.relock (Option.some.inj hsem).symm (not_troubled htroubled) ?_ ?_
  · intro u hu
    exact .inr (Multiset.mem_cons_of_mem hu)
  · have hlocked := hinv.locked
    have hone : (if s.world.createShutdownLock then 1 else 0) ≤ 1 := by
      split <;> omega
    show _ = 0
    rcases ht with rfl | rfl
    · rw [Multiset.count_cons_self, Multiset.count_cons_of_ne (by decide)] at hlocked
      omega
    · rw [Multiset.count_cons_self, Multiset.count_cons_of_ne (by decide)] at hlocked
      omega

/-- Under the lock a thread that sees no shutdown knows that there is none. -/
theorem step_readShuttingDown : Step .readShuttingDown (lock ::ₘ B) fun r m =>
    m = if r then lock ::ₘ B else up ::ₘ B := by
  refine step_intro trivial fun s F r s' hinv _ hsem htroubled => ⟨_, ?_, rfl⟩
  have hquiet := hinv.quiet (quiet_of_sem rfl hsem) (not_troubled htroubled)
  cases r with
  | true => exact hquiet
  | false =>
    simp only [sem] at hsem
    split at hsem
    next hup =>
      have hworld := Option.some.inj hsem
      rw [Multiset.cons_add] at hquiet
      show ShutdownInv s' (up ::ₘ B + F)
      rw [Multiset.cons_add]
      refine ⟨?_, ?_, hquiet.pool, hquiet.named⟩
      · have hlocked := hquiet.locked
        rw [Multiset.count_cons_self, Multiset.count_cons_of_ne (by decide)] at hlocked ⊢
        omega
      · intro u hu
        rcases Multiset.mem_cons.1 hu with rfl | hu
        · show s'.world.shuttingDown = false
          rw [← hworld]
          exact hup.symm
        · exact hquiet.ok u (Multiset.mem_cons_of_mem hu)
    next => cases hsem

theorem step_getClient : Step .getClient B fun r m => match r with
    | .ok () => m = client ::ₘ B
    | .error _ => m = B := by
  refine step_intro trivial fun s F r s' hinv _ hsem htroubled => ?_
  have hquiet := hinv.quiet (quiet_of_sem rfl hsem) (not_troubled htroubled)
  cases r with
  | error e => exact ⟨B, hquiet, rfl⟩
  | ok u =>
    refine ⟨client ::ₘ B, ?_, rfl⟩
    simp only [sem] at hsem
    split at hsem
    next => cases hsem
    next =>
      rw [Multiset.cons_add]
      refine hquiet.learn ?_ (by decide) (by decide)
      show s'.world.client = true
      rw [← Option.some.inj hsem]

/-- A thread that holds `up` may add to the records: nothing is to be done yet. -/
theorem ShutdownInv.record (hinv : ShutdownInv s F) (hup : up ∈ F)
    (hlock : s'.world.createShutdownLock = s.world.createShutdownLock)
    (hshutting : s'.world.shuttingDown = s.world.shuttingDown)
    (hclient : s'.world.client = s.world.client) (hpool : s'.world.pool = s.world.pool)
    (hnamed : s'.world.pendingNames.Nonempty → s.world.client = true) : ShutdownInv s' F where
  locked := by
    rw [hlock]
    exact hinv.locked
  ok t ht := by
    have hfalse : s.world.shuttingDown = false := hinv.ok up hup
    have hok := hinv.ok t ht
    cases t with
    | lock => exact trivial
    | up => exact hshutting.trans hok
    | client => exact hclient.trans hok
    | down =>
      have hdown : s.world.shuttingDown = true := hok
      rw [hfalse] at hdown
      cases hdown
    | todo containers names =>
      have hdown : s.world.shuttingDown = true := hok.1
      rw [hfalse] at hdown
      cases hdown
  pool := by
    rw [hshutting, hpool]
    exact hinv.pool
  named := by
    rw [hclient]
    exact hnamed

theorem step_addPendingName (hup : up ∈ B) (hclient : client ∈ B) :
    Step .addPendingName B fun _ m => m = B := by
  refine step_intro trivial fun s F r s' hinv _ hsem htroubled => ⟨B, ?_, rfl⟩
  have hmem : ∀ {t}, t ∈ B → t ∈ B + F := fun ht => Multiset.mem_add.2 (.inl ht)
  simp only [sem] at hsem
  split at hsem
  next => cases hsem
  next =>
    have hworld := Option.some.inj hsem
    refine hinv.record (hmem hup) ?_ ?_ ?_ ?_ fun _ => hinv.ok client (hmem hclient)
    · rw [← hworld]
    · rw [← hworld]
    · rw [← hworld]
    · rw [← hworld]

theorem step_recordManaged {name : ℕ} {c : Container} (hup : up ∈ B) (hclient : client ∈ B) :
    Step (.recordManaged name c) B fun _ m => m = B := by
  refine step_intro trivial fun s F r s' hinv _ hsem htroubled => ⟨B, ?_, rfl⟩
  have hmem : ∀ {t}, t ∈ B → t ∈ B + F := fun ht => Multiset.mem_add.2 (.inl ht)
  have hworld := Option.some.inj hsem
  refine hinv.record (hmem hup) ?_ ?_ ?_ ?_ fun _ => hinv.ok client (hmem hclient)
  · rw [← hworld]
  · rw [← hworld]
  · rw [← hworld]
  · rw [← hworld]

/-- The flag is set and the pool is empty, which a second shutdown finds it to be. -/
theorem world_of_setShuttingDown {w w' : World} {r : Action.Response .setShuttingDown}
    (hpool : w.shuttingDown = true → w.pool = []) (hsem : sem .setShuttingDown w r = some w') :
    w' = { w with shuttingDown := true, pool := [] } := by
  simp only [sem] at hsem
  split at hsem
  next =>
    split at hsem
    next hdown =>
      have hworld := Option.some.inj hsem
      rw [← hworld, ← hpool hdown, ← hdown]
    next => cases hsem
  next =>
    split at hsem
    next => cases hsem
    next => exact (Option.some.inj hsem).symm

/-- The shutdown begins under the lock, so that no thread holds `up`. -/
theorem step_setShuttingDown : Step .setShuttingDown (lock ::ₘ B) fun _ m =>
    m = lock ::ₘ down ::ₘ B := by
  refine step_intro trivial fun s F r s' hinv _ hsem htroubled => ⟨_, ?_, rfl⟩
  have hlocked := hinv.locked
  have hup : up ∉ B + F := by
    -- the lock is held once, here by a thread without `up`
    have hone : (if s.world.createShutdownLock then 1 else 0) ≤ 1 := by
      split <;> omega
    rw [Multiset.cons_add, Multiset.count_cons_self, Multiset.count_cons_of_ne (by decide)]
      at hlocked
    refine Multiset.count_eq_zero.1 ?_
    omega
  have hworld : s'.world = { s.world with shuttingDown := true, pool := [] } :=
    world_of_setShuttingDown hinv.pool hsem
  show ShutdownInv s' (lock ::ₘ down ::ₘ B + F)
  rw [Multiset.cons_add, Multiset.cons_add]
  refine ⟨?_, ?_, ?_, ?_⟩
  · rw [hworld]
    rw [Multiset.cons_add, Multiset.count_cons_self, Multiset.count_cons_of_ne (by decide)]
      at hlocked
    rw [Multiset.count_cons_self, Multiset.count_cons_of_ne (by decide),
      Multiset.count_cons_of_ne (by decide), Multiset.count_cons_of_ne (by decide)]
    exact hlocked
  · intro t ht
    rcases Multiset.mem_cons.1 ht with rfl | ht
    · exact trivial
    rcases Multiset.mem_cons.1 ht with rfl | ht
    · show s'.world.shuttingDown = true
      rw [hworld]
    have hmem : t ∈ lock ::ₘ B + F := by
      rw [Multiset.cons_add]
      exact Multiset.mem_cons_of_mem ht
    have hok := hinv.ok t hmem
    cases t with
    | lock => exact trivial
    | up => exact absurd ht hup
    | client =>
      show s'.world.client = true
      rw [hworld]
      exact hok
    | down =>
      show s'.world.shuttingDown = true
      rw [hworld]
    -- what is left to clean up does not depend on the pool
    | todo containers names =>
      refine ⟨?_, fun hs => ?_⟩
      · rw [hworld]
      · rw [hworld]
        exact hok.2 (not_troubled htroubled hs)
  · rw [hworld]
    exact fun _ => rfl
  · rw [hworld]
    exact hinv.named

/-- `shutdown_pool` reads what is recorded. -/
theorem step_snapshot (hdown : down ∈ B) : Step .snapshot B fun r m =>
    m = todo r.1 r.2.1 ::ₘ B := by
  refine step_intro trivial fun s F r s' hinv _ hsem htroubled => ⟨_, ?_, rfl⟩
  have hquiet := hinv.quiet (quiet_of_sem rfl hsem) (not_troubled htroubled)
  obtain ⟨containers, names, hasClient⟩ := r
  simp only [sem] at hsem
  split at hsem
  next h =>
    obtain ⟨hcontainers, -, hnames, -⟩ := h
    have hworld := Option.some.inj hsem
    rw [Multiset.cons_add]
    refine hquiet.learn ⟨?_, fun _ => ⟨?_, ?_⟩⟩ (by simp) (by simp)
    · exact hquiet.ok down (Multiset.mem_add.2 (.inl hdown))
    · rw [← hworld, ← hcontainers]
      exact fun c hc => hc
    · rw [← hworld, ← hnames]
      exact fun n hn => List.mem_toFinset.1 hn
  next => cases hsem

/-! ### Steps of the clean-up -/

variable {containers : List Container} {names : List ℕ} {c : Container} {name : ℕ}

/-- A `kill`, `get` or `remove` that raises after the shutdown has begun ends what
is promised. -/
theorem step_raises {a : Action} (ha : isPlain a = true) (containers' : List Container)
    (names' : List ℕ) :
    Step a (todo containers names ::ₘ B) fun r m =>
      m = if raises a r then todo containers' names' ::ₘ B else todo containers names ::ₘ B := by
  refine step_intro (step_plain ha).1 fun s F r s' hinv _ hsem htroubled => ⟨_, ?_, rfl⟩
  have hquiet := hinv.quiet (quiet_of_sem (isQuiet_of_isPlain ha) hsem) (not_troubled htroubled)
  have hdown : s.world.shuttingDown = true := (hinv.ok (todo containers names) (by simp)).1
  have hdown' : s'.world.shuttingDown = true := (hquiet.ok (todo containers names) (by simp)).1
  cases hr : raises a r with
  | false => exact hquiet
  | true =>
    show ShutdownInv s' (todo containers' names' ::ₘ B + F)
    rw [Multiset.cons_add] at hquiet ⊢
    refine (hquiet.forget (by simp) (by simp)).learn ⟨hdown', fun hs => ?_⟩ (by simp) (by simp)
    rw [htroubled, hdown, hr, Bool.true_and, Bool.or_true] at hs
    cases hs

/-- The tickets after a quiet step that has done a part of what is to be done. -/
theorem ShutdownInv.advance {containers' : List Container} {names' : List ℕ}
    (hinv : ShutdownInv s (todo containers names ::ₘ F))
    (h : (∀ d ∈ s.world.managed, d ∈ containers) → (∀ n ∈ s.world.pendingNames, n ∈ names) →
      (∀ d ∈ s.world.managed, d ∈ containers') ∧ ∀ n ∈ s.world.pendingNames, n ∈ names') :
    ShutdownInv s (todo containers' names' ::ₘ F) := by
  obtain ⟨hdown, hall⟩ := hinv.ok (todo containers names) (by simp)
  refine (hinv.forget (by simp) (by simp)).learn ⟨hdown, fun hs => ?_⟩ (by simp) (by simp)
  exact h (hall hs).1 (hall hs).2

theorem step_popManaged : Step (.popManaged c) (todo (c :: containers) names ::ₘ B) fun _ m =>
    m = todo containers names ::ₘ B := by
  refine step_intro trivial fun s F r s' hinv _ hsem htroubled => ⟨_, ?_, rfl⟩
  have hquiet := hinv.quiet (quiet_of_sem rfl hsem) (not_troubled htroubled)
  rw [Multiset.cons_add] at hquiet ⊢
  refine hquiet.advance fun hmanaged hpending => ⟨fun d hd => ?_, hpending⟩
  have hne : d ≠ c := by
    rintro rfl
    simp only [sem] at hsem
    split at hsem
    next =>
      rw [← Option.some.inj hsem] at hd
      have hid := (List.mem_filter.1 hd).2
      rw [bne_self_eq_false] at hid
      cases hid
    next => cases hsem
  exact (List.mem_cons.1 (hmanaged d hd)).resolve_left hne

theorem step_discardPendingName :
    Step (.discardPendingName name) (todo containers (name :: names) ::ₘ B) fun _ m =>
      m = todo containers names ::ₘ B := by
  refine step_intro trivial fun s F r s' hinv _ hsem htroubled => ⟨_, ?_, rfl⟩
  have hquiet := hinv.quiet (quiet_of_sem rfl hsem) (not_troubled htroubled)
  rw [Multiset.cons_add] at hquiet ⊢
  refine hquiet.advance fun hmanaged hpending => ⟨hmanaged, fun n hn => ?_⟩
  have hne : n ≠ name := by
    rintro rfl
    simp only [sem] at hsem
    split at hsem
    next =>
      rw [← Option.some.inj hsem] at hn
      exact Finset.notMem_erase _ _ hn
    next => cases hsem
  exact (List.mem_cons.1 (hpending n hn)).resolve_left hne

/-- Without a client no name is pending. -/
theorem step_readClient : Step .readClient (todo containers (name :: names) ::ₘ B) fun r m =>
    m = if r then todo containers (name :: names) ::ₘ B else todo containers names ::ₘ B := by
  refine step_intro trivial fun s F r s' hinv _ hsem htroubled => ⟨_, ?_, rfl⟩
  have hquiet := hinv.quiet (quiet_of_sem rfl hsem) (not_troubled htroubled)
  cases r with
  | true => exact hquiet
  | false =>
    show ShutdownInv s' (todo containers names ::ₘ B + F)
    rw [Multiset.cons_add] at hquiet ⊢
    refine hquiet.advance fun hmanaged _ => ⟨hmanaged, fun n hn => ?_⟩
    have hclient := hquiet.named ⟨n, hn⟩
    simp only [sem] at hsem
    split at hsem
    next hr =>
      rw [← Option.some.inj hsem, ← hr] at hclient
      cases hclient
    next => cases hsem

theorem step_releaseSlot : Step .releaseSlot B fun r m => r = .ok () ∧ m = B := by
  refine step_intro trivial fun s F r s' hinv hreleased hsem htroubled => ⟨B, ?_, ?_, rfl⟩
  · exact hinv.quiet (quiet_of_sem rfl hsem) (not_troubled htroubled)
  · cases r with
    | ok u => rfl
    | error e => cases hreleased

/-! ### Methods that leave the tickets of their thread alone -/

/-- The program ends with the tickets it starts with, when these satisfy `K`. -/
def Keeps {α : Type} (K : Multiset Ticket → Prop) (p : M α) : Prop :=
  ∀ m, K m → Lasts (fun _ m' => m' = m) p m

section Keeps

variable {α β : Type} {K : Multiset Ticket → Prop}

theorem keeps_done (r : Except Exc α) : Keeps K (.done r) := fun _ _ => rfl

theorem Keeps.mono {K' : Multiset Ticket → Prop} {p : M α} (h : Keeps K p)
    (hK : ∀ m, K' m → K m) : Keeps K' p := fun m hm => h m (hK m hm)

theorem Keeps.bind {p : M α} {f : α → M β} (hp : Keeps K p) (hf : ∀ a, Keeps K (f a)) :
    Keeps K (p >>= f) := by
  intro m hm
  refine Safe.bind (hp m hm) ?_ ?_
  · rintro a m' rfl
    exact hf a m' hm
  · exact fun _ _ h => h

theorem Keeps.tryCatch {p : M α} {f : Exc → M α} (hp : Keeps K p) (hf : ∀ e, Keeps K (f e)) :
    Keeps K (MonadExcept.tryCatch p f) := by
  intro m hm
  refine Safe.tryCatch (hp m hm) (fun _ _ h => h) ?_
  rintro e m' rfl
  exact hf e m' hm

theorem Keeps.finally' {p : M α} {last : M Unit} (hp : Keeps K p) (hlast : Keeps K last) :
    Keeps K (p.finally' last) := by
  intro m hm
  refine Safe.finally' (hp m hm) ?_
  rintro r m' rfl
  refine Safe.mono (hlast m' hm) ?_
  rintro x m'' rfl
  cases x with
  | ok _ => exact rfl
  | error _ => exact rfl

theorem Keeps.ite {b : Bool} {p q : M α} (hp : Keeps K p) (hq : Keeps K q) :
    Keeps K (if b then p else q) := by
  cases b with
  | true => exact hp
  | false => exact hq

theorem keeps_perform {a : Action} (ha : isPlain a = true) : Keeps K (perform a) := by
  intro m _
  exact Safe.perform (step_plain ha) fun _ _ h => h

theorem keeps_withCleanupLock {body : M α} (h : Keeps K body) : Keeps K (withCleanupLock body) :=
  (keeps_perform rfl).bind fun _ => h.finally' (keeps_perform rfl)

theorem keeps_forgetRemovedContainer (c : Container) : Keeps K (forgetRemovedContainer c) := by
  refine (keeps_perform rfl).bind fun removed => .ite ?_ (keeps_done _)
  exact (keeps_perform rfl).bind fun released => keeps_done released

theorem keeps_forgetPendingName (name : ℕ) : Keeps K (forgetPendingName name) := by
  refine (keeps_perform rfl).bind fun removed => .ite ?_ (keeps_done _)
  exact (keeps_perform rfl).bind fun released => keeps_done released

theorem keeps_cleanupPendingContainer (name : ℕ) (acceptNotFound : Bool) :
    Keeps K (cleanupPendingContainer name acceptNotFound) := by
  refine (keeps_perform rfl).bind fun client => .ite ?_ (keeps_done _)
  refine keeps_withCleanupLock ((keeps_perform rfl).bind fun found => ?_)
  cases found with
  | notFound => exact keeps_done _
  | raised _ => exact keeps_done _
  | ok c =>
    refine (keeps_perform rfl).bind fun removed => ?_
    cases removed with
    | ok _ => exact keeps_done _
    | notFound => exact keeps_done _
    | raised _ => exact keeps_done _

theorem keeps_cleanupContainer (c : Container) (kill : Bool) :
    Keeps K (cleanupContainer c kill) := by
  have hremove : Keeps K (removeAndForget c) := by
    refine (keeps_perform rfl).bind fun removed => ?_
    have hforget : Keeps K (do
        forgetRemovedContainer c
        pure true) := (keeps_forgetRemovedContainer c).bind fun _ => keeps_done _
    cases removed with
    | ok _ => exact hforget
    | notFound => exact hforget
    | raised _ => exact keeps_done _
  refine keeps_withCleanupLock (.ite ?_ hremove)
  exact (keeps_perform rfl).bind fun _ => hremove

/-- The tickets under which a container is created. -/
def Creating (m : Multiset Ticket) : Prop := up ∈ m ∧ client ∈ m

theorem keeps_createInSlot : Keeps Creating createInSlot := by
  have hname : Keeps Creating (perform .addPendingName) := fun m hm =>
    Safe.perform (step_addPendingName hm.1 hm.2) fun _ _ h => h
  have hcreate : ∀ name, Keeps Creating (perform (.containersCreate name)) := fun name m hm =>
    Safe.perform (step_quiet rfl fun _ _ => hm.1) fun _ _ h => h
  have hrecord : ∀ name c, Keeps Creating (perform (.recordManaged name c)) := fun name c m hm =>
    Safe.perform (step_recordManaged hm.1 hm.2) fun _ _ h => h
  have hvalidate : ∀ name, Keeps Creating (createAndValidate name) := by
    intro name
    refine (hcreate name).bind fun answer => ?_
    cases answer with
    | raised _ => exact keeps_done _
    | created c =>
      refine (keeps_perform rfl).bind fun mounts => ?_
      exact (keeps_done mounts).bind fun _ => keeps_done _
  -- the name stays recorded until the container is, or is gone
  refine hname.bind fun name => ?_
  refine Keeps.bind ((hvalidate name).tryCatch fun e => ?_) fun c => ?_
  · refine (keeps_cleanupPendingContainer name false).bind fun cleaned => .ite ?_ (keeps_done _)
    exact (keeps_forgetPendingName name).bind fun _ => keeps_done _
  refine (hrecord name c).bind fun _ => ?_
  have hclean : ∀ kill e, Keeps Creating (do
      let _ ← cleanupContainer c kill
      throw e : M Unit) := fun kill e =>
    (keeps_cleanupContainer c kill).bind fun _ => keeps_done _
  refine (keeps_perform rfl).bind fun started => ?_
  refine ((keeps_done started).tryCatch (hclean false)).bind fun _ => ?_
  refine (keeps_perform rfl).bind fun limits => ?_
  exact ((keeps_done limits).tryCatch (hclean true)).bind fun _ => keeps_done _

end Keeps

/-! ### Methods under the creation lock -/

/-- The tickets of a thread that holds the creation lock. -/
inductive Held (B : Multiset Ticket) : Multiset Ticket → Prop
  | lock : Held B (lock ::ₘ B)
  | up : Held B (up ::ₘ B)
  | client : Held B (up ::ₘ client ::ₘ B)

theorem step_releaseHeld (h : Held B m) :
    Step .releaseCreateShutdownLock m fun _ m' => m' = B := by
  cases h with
  | lock => exact step_releaseLock (.inl rfl)
  | up => exact step_releaseLock (.inr rfl)
  | client =>
    refine (step_releaseLock (.inr rfl)).shift fun _ m' hm' => ⟨B, ?_, rfl⟩
    subst hm'
    intro s F hinv
    have hinv : ShutdownInv s (client ::ₘ B + F) := hinv
    rw [Multiset.cons_add] at hinv
    exact hinv.forget (by decide) (by decide)

theorem lasts_withCreateShutdownLock {α : Type} {post : Except Exc α → Multiset Ticket → Prop}
    {body : M α} (hbody : Lasts (fun r m => ∃ B', Held B' m ∧ post r B') body (lock ::ₘ B)) :
    Lasts post (withCreateShutdownLock body) B := by
  refine Safe.perform_bind step_acquireLock ?_
  rintro _ m rfl
  refine Safe.finally' hbody ?_
  rintro r m ⟨B', hheld, hpost⟩
  refine Safe.perform (step_releaseHeld hheld) ?_
  rintro _ m' rfl
  exact hpost

theorem keeps_createContainer (K : Multiset Ticket → Prop) : Keeps K createContainer := by
  intro B _
  refine lasts_withCreateShutdownLock ?_
  refine Safe.perform_bind step_readShuttingDown ?_
  rintro shuttingDown m rfl
  cases shuttingDown with
  | true => exact ⟨B, .lock, rfl⟩
  | false =>
    refine Safe.perform_bind step_getClient fun client m hm => ?_
    cases client with
    | error e => exact ⟨B, hm ▸ .up, rfl⟩
    | ok u =>
      have hm : m = Ticket.client ::ₘ up ::ₘ B := hm
      subst hm
      have hheld : Held B (Ticket.client ::ₘ up ::ₘ B) := by
        rw [Multiset.cons_swap]
        exact .client
      -- once there is a client, the rest creates under the same tickets
      have hrest : Keeps Creating (do
          let image : Except Exc Unit ← perform .ensureSandboxImage
          unwrap image
          let acquired : Bool ← perform .acquireSlot
          raiseIf (!acquired) .capacity
          createInSlot) := by
        refine (keeps_perform rfl).bind fun image => (keeps_done image).bind fun _ => ?_
        refine (keeps_perform rfl).bind fun acquired => ?_
        refine Keeps.bind ?_ fun _ => keeps_createInSlot
        exact .ite (keeps_done _) (keeps_done _)
      refine Safe.mono (hrest _ ⟨by simp, by simp⟩) ?_
      rintro r m rfl
      exact ⟨B, hheld, rfl⟩

theorem keeps_createAndAdd (K : Multiset Ticket → Prop) : Keeps K createAndAdd := by
  refine (keeps_createContainer K).bind fun c => ?_
  refine (keeps_perform rfl).bind fun added => .ite (keeps_done _) ?_
  exact (keeps_cleanupContainer c true).bind fun _ => keeps_done _

theorem keeps_lease (K : Multiset Ticket → Prop) : Keeps K lease := by
  have hget : Keeps K getContainer := by
    refine (keeps_perform rfl).bind fun answer => ?_
    cases answer with
    | shuttingDown => exact keeps_done _
    | leased c => exact keeps_done _
    | empty =>
      refine (keeps_createContainer K).tryCatch fun e => ?_
      by_cases he : e = .capacity
      · rw [if_pos he]
        exact (keeps_perform rfl).bind fun _ => keeps_done _
      · rw [if_neg he]
        exact (keeps_perform rfl).bind fun _ => keeps_done _
  refine hget.bind fun c => (keeps_perform rfl).bind fun alreadyStopped => ?_
  refine (keeps_cleanupContainer c _).bind fun removed => .ite ?_ ?_
  · refine (keeps_perform rfl).bind fun shuttingDown => .ite (keeps_done _) ?_
    refine Keeps.tryCatch ?_ fun _ => keeps_perform rfl
    exact (keeps_createAndAdd K).bind fun _ => keeps_done _
  · refine (keeps_perform rfl).bind fun _ => ?_
    exact (keeps_perform rfl).bind fun _ => keeps_done _

/-! ### Shutting down -/

theorem lasts_withCleanupLock {α : Type} {post : Except Exc α → Multiset Ticket → Prop}
    {body : M α} (hbody : Lasts post body B) : Lasts post (withCleanupLock body) B := by
  refine Safe.perform_bind (step_plain rfl) ?_
  rintro _ m rfl
  refine Safe.finally' hbody fun r m hpost => ?_
  refine Safe.perform (step_plain rfl) ?_
  rintro _ m' rfl
  exact hpost

theorem lasts_killAll (cs : List Container) :
    Lasts (fun r m => r = .ok () ∧ m = B) (killAll cs) B := by
  induction cs with
  | nil => exact ⟨rfl, rfl⟩
  | cons c cs ih =>
    have hkill : Lasts (fun r m => (∃ answer, r = .ok answer) ∧ m = B)
        (withCleanupLock (perform (.kill c))) B :=
      lasts_withCleanupLock (Safe.perform (step_plain rfl) fun answer _ h => ⟨⟨answer, rfl⟩, h⟩)
    refine Safe.bind hkill ?_ ?_
    · rintro _ m ⟨-, rfl⟩
      exact ih
    · rintro e m ⟨⟨_, he⟩, -⟩
      cases he

/-- After `begin_shutdown` a thread knows that the shutdown has begun. -/
theorem lasts_beginShutdown :
    Lasts (fun r m => r = .ok () ∧ m = down ::ₘ B) beginShutdown B := by
  have hset : Lasts (fun r m => (∃ started, r = .ok started) ∧ m = down ::ₘ B)
      (withCreateShutdownLock (perform .setShuttingDown)) B := by
    refine lasts_withCreateShutdownLock (Safe.perform step_setShuttingDown ?_)
    rintro started m rfl
    exact ⟨_, .lock, ⟨started, rfl⟩, rfl⟩
  refine Safe.bind hset ?_ ?_
  · rintro started m ⟨-, rfl⟩
    cases started with
    | none => exact ⟨rfl, rfl⟩
    | some cs => exact lasts_killAll cs
  · rintro e m ⟨⟨_, he⟩, -⟩
    cases he

theorem keeps_reconcileStaleContainers (K : Multiset Ticket → Prop) :
    Keeps K reconcileStaleContainers := by
  have hremove : ∀ stale, Keeps K (removeStaleContainers stale) := by
    intro stale
    induction stale with
    | nil => exact keeps_done _
    | cons c stale ih =>
      refine (keeps_withCleanupLock (keeps_perform rfl)).bind fun removed => ?_
      cases removed with
      | ok _ => exact ih
      | notFound => exact ih
      | raised _ => exact keeps_done _
  refine (keeps_perform rfl).bind fun client => (keeps_done client).bind fun _ => ?_
  refine (keeps_perform rfl).bind fun listed => (keeps_done listed).bind fun stale => ?_
  exact hremove stale

/-- The slot of a container or name that was recorded is given back. -/
theorem lasts_releaseSlot (removed : Bool) : Lasts (fun r m => r = .ok () ∧ m = B)
    (if removed then do
      let released : Except Exc Unit ← perform .releaseSlot
      Prog.unwrap released
    else pure ()) B := by
  cases removed with
  | false => exact ⟨rfl, rfl⟩
  | true =>
    refine Safe.perform_bind step_releaseSlot ?_
    rintro released m ⟨rfl, rfl⟩
    exact ⟨rfl, rfl⟩

/-- A recorded container is cleaned up, or a Docker call raises. -/
theorem lasts_cleanupContainer : Lasts (fun r m => (∃ removed, r = .ok removed) ∧
    m = todo containers names ::ₘ B) (cleanupContainer c false)
    (todo (c :: containers) names ::ₘ B) := by
  refine lasts_withCleanupLock ?_
  have hforget : Lasts (fun r m => r = .ok true ∧ m = todo containers names ::ₘ B) (do
      forgetRemovedContainer c
      pure true) (todo (c :: containers) names ::ₘ B) := by
    have hpop : Lasts (fun r m => r = .ok () ∧ m = todo containers names ::ₘ B)
        (forgetRemovedContainer c) (todo (c :: containers) names ::ₘ B) := by
      refine Safe.perform_bind step_popManaged ?_
      rintro removed m rfl
      exact lasts_releaseSlot removed
    refine Safe.bind hpop ?_ ?_
    · rintro u m ⟨-, rfl⟩
      exact ⟨rfl, rfl⟩
    · rintro e m ⟨he, -⟩
      cases he
  refine Safe.perform_bind (step_raises rfl containers names) ?_
  rintro removed m rfl
  cases removed with
  | raised _ => exact ⟨⟨false, rfl⟩, rfl⟩
  | ok _ => exact Safe.mono hforget fun r m h => ⟨⟨true, h.1⟩, h.2⟩
  | notFound => exact Safe.mono hforget fun r m h => ⟨⟨true, h.1⟩, h.2⟩

theorem lasts_cleanupAll : Lasts (fun r m => r = .ok () ∧ m = todo [] names ::ₘ B)
    (cleanupAll containers) (todo containers names ::ₘ B) := by
  induction containers with
  | nil => exact ⟨rfl, rfl⟩
  | cons c containers ih =>
    refine Safe.bind lasts_cleanupContainer ?_ ?_
    · rintro _ m ⟨-, rfl⟩
      exact ih
    · rintro e m ⟨⟨_, he⟩, -⟩
      cases he

/-- A pending name is resolved, or it is cleaned up when it is forgotten. -/
theorem lasts_cleanupPendingContainer :
    Lasts (fun r m => r = .ok false ∧ m = todo containers names ::ₘ B ∨
      r = .ok true ∧ m = todo containers (name :: names) ::ₘ B)
      (cleanupPendingContainer name true) (todo containers (name :: names) ::ₘ B) := by
  refine Safe.perform_bind step_readClient ?_
  rintro client m rfl
  cases client with
  | false => exact .inl ⟨rfl, rfl⟩
  | true =>
    refine lasts_withCleanupLock (Safe.perform_bind (step_raises rfl containers names) ?_)
    rintro found m rfl
    cases found with
    | raised _ => exact .inl ⟨rfl, rfl⟩
    | notFound => exact .inr ⟨rfl, rfl⟩
    | ok c =>
      refine Safe.perform_bind (step_raises rfl containers names) ?_
      rintro removed m rfl
      cases removed with
      | raised _ => exact .inl ⟨rfl, rfl⟩
      | ok _ => exact .inr ⟨rfl, rfl⟩
      | notFound => exact .inr ⟨rfl, rfl⟩

theorem lasts_cleanupAllPending : Lasts (fun r m => r = .ok () ∧ m = todo containers [] ::ₘ B)
    (cleanupAllPending names) (todo containers names ::ₘ B) := by
  induction names with
  | nil => exact ⟨rfl, rfl⟩
  | cons name names ih =>
    refine Safe.bind lasts_cleanupPendingContainer ?_ ?_
    · rintro cleaned m (⟨hcleaned, rfl⟩ | ⟨hcleaned, rfl⟩)
      · obtain rfl := Except.ok.inj hcleaned
        exact ih
      · obtain rfl := Except.ok.inj hcleaned
        have hdiscard : Lasts (fun r m => r = .ok () ∧ m = todo containers names ::ₘ B)
            (forgetPendingName name) (todo containers (name :: names) ::ₘ B) := by
          refine Safe.perform_bind step_discardPendingName ?_
          rintro removed m rfl
          exact lasts_releaseSlot removed
        refine Safe.bind hdiscard ?_ ?_
        · rintro u m ⟨-, rfl⟩
          exact ih
        · rintro e m ⟨he, -⟩
          cases he
    · rintro e m (⟨he, -⟩ | ⟨he, -⟩)
      · cases he
      · cases he

/-- When `shutdown_pool` has ended, nothing is left to be done. -/
theorem lasts_shutdownPool : Lasts (fun _ m => todo [] [] ∈ m) shutdownPool B := by
  refine Safe.bind lasts_beginShutdown ?_ ?_
  rotate_left
  · rintro e m ⟨he, -⟩
    cases he
  rintro _ m ⟨-, rfl⟩
  -- the snapshot is all that is left to clean up: nothing is created any more
  have hsnapshot : Lasts (fun r m => ∃ answer : List Container × List ℕ × Bool,
      r = .ok answer ∧ m = todo answer.1 answer.2.1 ::ₘ down ::ₘ B)
      (withCreateShutdownLock (perform .snapshot)) (down ::ₘ B) := by
    refine lasts_withCreateShutdownLock (Safe.perform (step_snapshot (by simp)) ?_)
    rintro answer m rfl
    refine ⟨todo answer.1 answer.2.1 ::ₘ down ::ₘ B, ?_, answer, rfl, rfl⟩
    rw [Multiset.cons_swap _ lock]
    exact .lock
  refine Safe.bind hsnapshot ?_ ?_
  rotate_left
  · rintro e m ⟨_, he, -⟩
    cases he
  rintro _ m ⟨⟨containers, names, client⟩, hanswer, rfl⟩
  obtain rfl := Except.ok.inj hanswer
  refine Safe.bind lasts_cleanupAll ?_ ?_
  rotate_left
  · rintro e m ⟨he, -⟩
    cases he
  rintro _ m ⟨-, rfl⟩
  refine Safe.bind lasts_cleanupAllPending ?_ ?_
  rotate_left
  · rintro e m ⟨he, -⟩
    cases he
  rintro _ m ⟨-, rfl⟩
  -- closing the client changes nothing that counts
  have hclose : Keeps (fun _ => True) (if client then do
      let closed : Except Exc Unit ← perform .closeClient
      Prog.unwrap closed
    else pure ()) := by
    refine .ite ?_ (keeps_done _)
    exact (keeps_perform rfl).bind fun closed => keeps_done closed
  refine Safe.mono (hclose _ trivial) ?_
  rintro r m rfl
  simp

theorem lasts_initializePool (poolSize : ℕ) (imageId : Option String) :
    Lasts (fun _ _ => True) (initializePool poolSize imageId) B := by
  have hall : ∀ n, Keeps (fun _ => True) (createAndAddAll n) := by
    intro n
    induction n with
    | zero => exact keeps_done _
    | succ n ih => exact (keeps_createAndAdd _).bind fun _ => ih
  have hbody : Keeps (fun _ => True) (do
      reconcileStaleContainers
      createAndAddAll poolSize) := (keeps_reconcileStaleContainers _).bind fun _ => hall poolSize
  have hraise : Keeps (fun _ => True) (raiseIf imageId.isNone .imageRequired) :=
    .ite (keeps_done _) (keeps_done _)
  refine Safe.bind (hraise B trivial) ?_ fun _ _ _ => trivial
  rintro _ m rfl
  have htry : Lasts (fun _ _ => True) (tryCatch (do
      reconcileStaleContainers
      createAndAddAll poolSize) fun e => do
        shutdownPool
        throw e) m := by
    refine Safe.tryCatch (hbody _ trivial) (fun _ _ _ => trivial) ?_
    rintro e m rfl
    exact Safe.bind lasts_shutdownPool (fun _ _ _ => trivial) fun _ _ _ => trivial
  refine Safe.bind htry ?_ fun _ _ _ => trivial
  intro _ m _
  exact Safe.perform (step_plain rfl) fun _ _ _ => trivial

/-- What a call ends with: after `shutdown_pool` nothing is left to be done. -/
def callPost (call : Call) (_ : Except Exc Unit) (m : Multiset Ticket) : Prop :=
  call = .shutdownPool → todo [] [] ∈ m

theorem lasts_call (poolSize : ℕ) (imageId : Option String) (call : Call) :
    Lasts (callPost call) (call.program poolSize imageId) 0 := by
  cases call with
  | initializePool =>
    refine Safe.mono (lasts_initializePool poolSize imageId) fun _ _ _ h => ?_
    cases h
  | lease =>
    refine Safe.mono (keeps_lease (fun _ => True) 0 trivial) fun _ _ _ h => ?_
    cases h
  | beginShutdown =>
    refine Safe.mono lasts_beginShutdown fun _ _ _ h => ?_
    cases h
  | shutdownPool => exact Safe.mono lasts_shutdownPool fun _ _ h _ => h

/-! ### Runs -/

section Runs

variable {poolSize : ℕ} {imageId : Option String} {hasClient : Bool}
  {x y : ThreadSystem.State Observed Thread}

theorem told_of_reachable (hx : (recordedCallers poolSize imageId hasClient).Reachable x) :
    ∀ t ∈ x.threads, ∀ e ∈ t.past, Told x.shared.world e := by
  refine events_hold (P := fun e s => Told s.world e) hx ?_ ?_ ?_
  · intro a s r s' h
    exact told_of_sem a s.world r s'.world (observe_eq_some h).1
  · intro e a s r s' h he
    exact he.step (observe_eq_some h).1
  · rintro e s s' ⟨c, rfl⟩ he
    exact he

/-- **Degradation is sticky.**  Once a release has returned after a failure, or a
lease has raised anything but the capacity error, the manager is never ready. -/
theorem degradation_sticky (hx : (recordedCallers poolSize imageId hasClient).Reachable x)
    (hrun : Relation.ReflTransGen (recordedCallers poolSize imageId hasClient).Step x y)
    {t : Thread} (ht : t ∈ x.threads) (hfailed : ReturnedAfterFailure t ∨ GetRaised t) :
    y.shared.world.isReady = false := by
  have htold := told_of_reachable hx t ht
  have hmarked : x.shared.world.Marked := by
    rcases hfailed with ⟨c, alreadyStopped, before, events, after, hpast, hends, hfailed⟩ |
      ⟨before, events, after, e, hpast, hends, he⟩
    · have hmem := markDegraded_mem_of_release hends hfailed
      exact htold ⟨.markDegraded, ()⟩ (by rw [hpast]; simp [hmem])
    · rcases mem_of_getContainer hends he with hmem | hmem
      · exact .inr (htold ⟨.popPool, PoolAnswer.shuttingDown⟩ (by rw [hpast]; simp [hmem]))
      · exact htold ⟨.markDegraded, ()⟩ (by rw [hpast]; simp [hmem])
  have hlater : y.shared.world.Marked := by
    refine step_invariant (Q := fun s => s.world.Marked) ?_ ?_ hrun hmarked
    · exact fun a s r s' h hs => hs.step (observe_eq_some h).1
    · rintro s s' ⟨c, rfl⟩ hs
      exact hs
  exact hlater.not_ready

/-- No step of a run releases the semaphore too often. -/
theorem reachable_released (hx : (recordedCallers poolSize imageId hasClient).Reachable x) :
    (recorded observeReleased (Call.program poolSize imageId)
      (fun s => s = ⟨World.fresh poolSize imageId hasClient, false⟩)
      fun s s' => ∃ c, s' = { s with world := s.world.gone c }).Reachable x := by
  refine @ThreadSystem.Reachable.restrict _ _ (recordedCallers poolSize imageId hasClient)
    (RecordedStep observeReleased) ?_ x hx
  rintro s before t after s' t' hreach ⟨hsem⟩
  rename_i call past a k r
  have hcapacity := capacity (reachable_anyCallers hreach)
  have hreleased : released a r = true := by
    cases a with
    | releaseSlot =>
      cases r with
      | ok u => rfl
      | error e =>
        obtain ⟨hslots, -⟩ := hcapacity.release (.act .releaseSlot k) (by simp) rfl
        have hnone := (observe_eq_some hsem).1
        have hslots : s.world.slots < s.world.poolSize := hslots
        cases e with
        | valueError =>
          simp only [sem, if_pos hslots] at hnone
          cases hnone
        | _ => cases hnone
    | _ => rfl
  refine .act ?_
  rw [observeReleased, if_pos hreleased]
  exact hsem

/-- Every reachable state can be annotated with tickets. -/
theorem tickets_of_reachable (hx : (recordedCallers poolSize imageId hasClient).Reachable x) :
    ∃ ann : List (Thread × Multiset Ticket), ann.map Prod.fst = x.threads ∧
      (∀ a ∈ ann, Lasts (callPost a.1.call) a.1.rest a.2) ∧
      ShutdownInv x.shared (ThreadSystem.tokens ann) := by
  refine (Logic.recordedOutline shutdownLogic callPost (Call.program poolSize imageId)
    ?_ ?_ ?_).annotated (reachable_released hx)
  · rintro s rfl
    exact {
      locked := rfl
      ok := fun t ht => absurd ht (Multiset.notMem_zero t)
      pool := fun h => nomatch h
      named := fun h => absurd h Finset.not_nonempty_empty }
  · rintro s s' m ⟨c, rfl⟩ hinv
    exact ShutdownInv.quiet hinv { Quiet.refl s.world with } id
  · intro s m call hinv
    refine ⟨0, lasts_call poolSize imageId call, ?_⟩
    rw [zero_add]
    exact hinv

/-- Once a `begin_shutdown` has returned the shutdown has begun. -/
theorem shuttingDown_of_begun (hx : (recordedCallers poolSize imageId hasClient).Reachable x)
    {t : Thread} (ht : t ∈ x.threads) (hbegun : ShutdownBegun t) :
    x.shared.world.shuttingDown = true := by
  obtain ⟨before, events, after, hpast, hends⟩ := hbegun
  obtain ⟨r, hmem⟩ := setShuttingDown_mem hends
  exact told_of_reachable hx t ht ⟨.setShuttingDown, r⟩ (by rw [hpast]; simp [hmem])

/-- A thread about to create a container holds `up`. -/
theorem not_creating (hx : (recordedCallers poolSize imageId hasClient).Reachable x)
    (hdown : x.shared.world.shuttingDown = true) {t : Thread} (ht : t ∈ x.threads) (name : ℕ) :
    t.rest.head ≠ some (.containersCreate name) := by
  intro hhead
  obtain ⟨ann, hthreads, howns, hinv⟩ := tickets_of_reachable hx
  rw [← hthreads] at ht
  obtain ⟨a, ha, rfl⟩ := List.mem_map.1 ht
  have hhere : up ∈ a.2 := Safe.here (howns a ha) hhead
  have hup : x.shared.world.shuttingDown = false :=
    hinv.ok up (ThreadSystem.mem_tokens ha hhere)
  rw [hdown] at hup
  cases hup

/-- What holds after a shutdown has begun, with the threads from `started` on
being those that were started since. -/
structure ShutDown (started : ℕ) (s : World) (threads : List Thread) : Prop where
  pool : s.pool = []
  not_ready : s.isReady = false
  not_creating : ∀ t ∈ threads, ∀ name, t.rest.head ≠ some (.containersCreate name)
  not_leased : ∀ i t, started ≤ i → threads[i]? = some t → ¬ GetSucceeded t

/-- **A shutdown is final.** -/
theorem shutdown_final (hx : (recordedCallers poolSize imageId hasClient).Reachable x)
    (hrun : Relation.ReflTransGen (recordedCallers poolSize imageId hasClient).Step x y)
    {t : Thread} (ht : t ∈ x.threads) (hbegun : ShutdownBegun t) :
    ShutDown x.threads.length y.shared.world y.threads := by
  have hdown := shuttingDown_of_begun hx ht hbegun
  have hsem : ∀ a s r s', observe a s r = some s' → s.world.shuttingDown = true →
      s'.world.shuttingDown = true := fun a s r s' h => sem_shuttingDown (observe_eq_some h).1
  have henv : ∀ s s' : Observed, (∃ c, s' = { s with world := s.world.gone c }) →
      s.world.shuttingDown = true → s'.world.shuttingDown = true := by
    rintro s s' ⟨c, rfl⟩ h
    exact h
  have hy := hx.trans hrun
  have hlater : y.shared.world.shuttingDown = true :=
    step_invariant (Q := fun s => s.world.shuttingDown = true) hsem henv hrun hdown
  obtain ⟨ann, hthreads, howns, hinv⟩ := tickets_of_reachable hy
  refine ⟨hinv.pool hlater, World.Marked.not_ready (.inr hlater), ?_, ?_⟩
  · exact fun t ht name => not_creating hy hlater ht name
  · intro i t hi ht hsucceeded
    obtain ⟨before, events, after, c, hpast, hends⟩ := hsucceeded
    obtain ⟨answer, hmem, hanswer⟩ := popPool_mem_of_getContainer hends
    -- a thread that was started later has only been told of the shutdown
    have hevents : ∀ e ∈ t.past, ∀ r, e = ⟨.popPool, r⟩ → r = PoolAnswer.shuttingDown := by
      refine later_events (Q := fun s => s.world.shuttingDown = true) ?_ hsem henv hrun hdown hi ht
      rintro a s r s' hs h r' heq
      obtain ⟨rfl, heq⟩ := Sigma.mk.inj heq
      obtain rfl := eq_of_heq heq
      have hsem := (observe_eq_some h).1
      simp only [sem, if_pos hs] at hsem
      split at hsem
      next hr => exact hr
      next => cases hsem
    exact hanswer (hevents ⟨.popPool, answer⟩ (by rw [hpast]; simp [hmem]) answer rfl)

/-- **A shutdown is complete.**  When all calls have ended, one of them
`shutdown_pool`, and no `kill`, `get` or `remove` has raised since the shutdown
began, nothing is left. -/
theorem shutdown_complete (hx : (recordedCallers poolSize imageId hasClient).Reachable x)
    {t : Thread} (ht : t ∈ x.threads) (hcall : t.call = .shutdownPool)
    (hended : ∀ t ∈ x.threads, t.rest.finished = true) (htroubled : x.shared.troubled = false) :
    x.shared.world.managedCount = 0 ∧ x.shared.world.slots = poolSize ∧
      x.shared.world.existing = [] := by
  obtain ⟨ann, hthreads, howns, hinv⟩ := tickets_of_reachable hx
  have hmem : t ∈ ann.map Prod.fst := by
    rw [hthreads]
    exact ht
  obtain ⟨a, ha, rfl⟩ := List.mem_map.1 hmem
  obtain ⟨r, hpost⟩ := Safe.post_of_finished (howns a ha) (hended a.1 ht)
  -- the thread that has shut the pool down ends with nothing left to clean up
  obtain ⟨-, hall⟩ := hinv.ok (todo [] []) (ThreadSystem.mem_tokens ha (hpost hcall))
  obtain ⟨hmanaged, hpending⟩ := hall htroubled
  have hmanaged : x.shared.world.managed = [] :=
    List.eq_nil_iff_forall_not_mem.2 fun c hc => List.not_mem_nil (hmanaged c hc)
  have hpending : x.shared.world.pendingNames = ∅ :=
    Finset.eq_empty_of_forall_notMem fun n hn => List.not_mem_nil (hpending n hn)
  have hcapacity := capacity (reachable_anyCallers hx)
  -- all threads have ended, so none holds a slot
  have hholds : (x.threads.map fun t => t.rest).countP holdsSlot = 0 := by
    refine List.countP_eq_zero.2 fun p hp => ?_
    obtain ⟨t, ht, rfl⟩ := List.mem_map.1 hp
    have hfinished := hended t ht
    cases hrest : t.rest with
    | done r => simp [holdsSlot]
    | act a k =>
      rw [hrest] at hfinished
      cases hfinished
  have hslots := hcapacity.slots
  simp only [hholds, hmanaged, hpending, List.length_nil, Finset.card_empty] at hslots
  refine ⟨?_, by omega, List.eq_nil_iff_forall_not_mem.2 fun c hc => ?_⟩
  · rw [World.managedCount, hmanaged, hpending]
    rfl
  · -- a container that exists is recorded or under a pending name
    rcases hcapacity.existing_recorded c hc with hc | hc
    · simp only [hmanaged, List.not_mem_nil] at hc
    · simp only [hpending, Finset.notMem_empty] at hc

/-- **Degradation is sticky and a shutdown is final**, in any interleaving of any
callers and for any pattern of Docker failures. -/
theorem degradation_and_shutdown
    (hx : (recordedCallers poolSize imageId hasClient).Reachable x)
    (hrun : Relation.ReflTransGen (recordedCallers poolSize imageId hasClient).Step x y) :
    (∀ t ∈ x.threads, ReturnedAfterFailure t ∨ GetRaised t →
      y.shared.world.isReady = false) ∧
    (∀ t ∈ x.threads, ShutdownBegun t →
      ShutDown x.threads.length y.shared.world y.threads) ∧
    (∀ t ∈ x.threads, t.call = .shutdownPool → (∀ t ∈ x.threads, t.rest.finished = true) →
      x.shared.troubled = false →
      x.shared.world.managedCount = 0 ∧ x.shared.world.slots = poolSize ∧
        x.shared.world.existing = []) := by
  refine ⟨?_, ?_, ?_⟩
  · exact fun t ht hfailed => degradation_sticky hx hrun ht hfailed
  · exact fun t ht hbegun => shutdown_final hx hrun ht hbegun
  · exact fun t ht hcall hended htroubled => shutdown_complete hx ht hcall hended htroubled

end Runs

/-- The answers of a Docker daemon that never fails. -/
def calmObserved (a : Action) (s : Observed) : a.Response := calm a s.world

/-- The answers of a Docker daemon that removes no container. -/
def keepingObserved : (a : Action) → Observed → a.Response
  | .remove _, _ => .raised false
  | a, s => calm a s.world

/-- A call that has not begun. -/
def Call.thread (call : Call) : Thread := ⟨call, [], call.program 1 (some "image")⟩

/-- A pool of one container is created. -/
def created : Observed × Thread :=
  runThread observe calmObserved 20
    (⟨World.fresh 1 (some "image") true, false⟩, Call.initializePool.thread)

/-- The container is leased, and not removed when it is released. -/
def kept : Observed × Thread :=
  runThread observe keepingObserved 20 (created.1, Call.lease.thread)

/-- A shutdown begins. -/
def begun : Observed × Thread :=
  runThread observe calmObserved 20 (created.1, Call.beginShutdown.thread)

/-- The manager is shut down. -/
def completed : Observed × Thread :=
  runThread observe calmObserved 40 (begun.1, Call.shutdownPool.thread)

theorem reachable_created :
    (recordedCallers 1 (some "image") true).Reachable ⟨created.1, [created.2]⟩ := by
  have hinit : (recordedCallers 1 (some "image") true).Reachable
      ⟨⟨World.fresh 1 (some "image") true, false⟩, []⟩ := .init ⟨rfl, rfl⟩
  exact (hinit.tail (.start ⟨.initializePool, rfl⟩)).trans
    (steps_runThread id calmObserved [] [] 20 (_, _))

theorem reachable_kept :
    (recordedCallers 1 (some "image") true).Reachable ⟨kept.1, [created.2, kept.2]⟩ :=
  (reachable_created.tail (.start ⟨.lease, rfl⟩)).trans
    (steps_runThread id keepingObserved [created.2] [] 20 (created.1, Call.lease.thread))

theorem reachable_begun :
    (recordedCallers 1 (some "image") true).Reachable ⟨begun.1, [created.2, begun.2]⟩ :=
  (reachable_created.tail (.start ⟨.beginShutdown, rfl⟩)).trans
    (steps_runThread id calmObserved [created.2] [] 20 (created.1, Call.beginShutdown.thread))

theorem steps_completed :
    Relation.ReflTransGen (recordedCallers 1 (some "image") true).Step
      ⟨begun.1, [created.2, begun.2]⟩ ⟨completed.1, [created.2, begun.2, completed.2]⟩ :=
  .head (.start ⟨.shutdownPool, rfl⟩)
    (steps_runThread id calmObserved [created.2, begun.2] [] 40 (begun.1, Call.shutdownPool.thread))

/-- What the release of the container was answered. -/
def keptEvents : Events :=
  [⟨.acquireCleanupLock, ()⟩, ⟨.kill ⟨0, 0⟩, .ok ()⟩, ⟨.remove ⟨0, 0⟩, .raised false⟩,
    ⟨.releaseCleanupLock, ()⟩]

theorem returnedAfterFailure_kept : ReturnedAfterFailure kept.2 := by
  refine ⟨⟨0, 0⟩, false, [⟨.popPool, .leased ⟨0, 0⟩⟩, ⟨.useLease ⟨0, 0⟩, (false : Bool)⟩],
    keptEvents ++ [⟨.markDegraded, ()⟩, ⟨.readShuttingDown, (false : Bool)⟩], [], ?_, ?_,
    .inl ⟨keptEvents, _, rfl, ?_⟩⟩
  · rfl
  · exact .cons (.cons (.cons (.cons (.cons (.cons (.nil _))))))
  · exact .cons (.cons (.cons (.cons (.nil _))))

theorem shutdownBegun_begun : ShutdownBegun begun.2 := by
  refine ⟨[], begun.2.past, [], ?_, ?_⟩
  · simp
  · exact ends_of_reachable reachable_begun (by simp) (t := begun.2) rfl

/-- A pool that has kept a container is not ready; one that was shut down is gone. -/
theorem degradation_and_shutdown_runs :
    kept.1.world.isReady = false ∧
    ShutDown 2 completed.1.world [created.2, begun.2, completed.2] ∧
    completed.1.world.created = [⟨0, 0⟩] ∧ completed.1.world.managedCount = 0 ∧
      completed.1.world.slots = 1 ∧ completed.1.world.existing = [] := by
  have hended : ∀ t ∈ [created.2, begun.2, completed.2], t.rest.finished = true := by
    decide +kernel
  refine ⟨?_, ?_, by decide +kernel, ?_⟩
  · exact (degradation_and_shutdown reachable_kept .refl).1 kept.2 (by simp)
      (.inl returnedAfterFailure_kept)
  · exact (degradation_and_shutdown reachable_begun steps_completed).2.1 begun.2 (by simp)
      shutdownBegun_begun
  · exact (degradation_and_shutdown (reachable_begun.trans steps_completed) .refl).2.2 completed.2
      (by simp)
      (by decide +kernel) hended (by decide +kernel)

end ContainerManager
