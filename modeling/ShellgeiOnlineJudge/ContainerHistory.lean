/-
What the methods of the container manager have returned on the way.

A recorded thread keeps the answers to its actions, and `Ends p events r` says
that a method has ended with `r` by these events.  A method that fails leaves
its mark among them, and the flags of the manager are never taken back.

* `markDegraded_mem_of_release`, `mem_of_getContainer` — what a failed release
  or lease has done;
* `getContainer_capacity`, `getContainer_cases` — how a lease fails for lack of
  capacity, and how it is served from the pool;
* `sem_degraded`, `sem_shuttingDown`, `sem_raised` — flags that stay set;
* `told_of_sem` — what an event says about the state from then on.
-/
import ShellgeiOnlineJudge.ContainerCapacity
import ShellgeiOnlineJudge.ProgPath

namespace ContainerManager

open Prog

/-- The actions of a run with their answers. -/
abbrev Events := List (Prog.Event Action Action.Response)

/-! ### What a method has returned on the way -/

/-- The removal in a `release_container` has failed. -/
def RemovalFailed (c : Container) (alreadyStopped : Bool) (events : Events) : Prop :=
  ∃ front back, events = front ++ back ∧
    Ends (cleanupContainer c (!alreadyStopped)) front (.ok false)

/-- The replenishment in a `release_container` has failed. -/
def ReplenishmentFailed (c : Container) (alreadyStopped : Bool) (events : Events) : Prop :=
  ∃ front middle back e,
    events = front ++ ⟨.readShuttingDown, (false : Bool)⟩ :: (middle ++ back) ∧
    Ends (cleanupContainer c (!alreadyStopped)) front (.ok true) ∧
    Ends createAndAdd middle (.error e)

theorem Ends.of_withCreateShutdownLock {α : Type} {body : M α} {events : Events}
    {r : Except Exc α} (h : Ends (withCreateShutdownLock body) events r) :
    ∃ middle o, Ends body middle o ∧ middle ⊆ events := by
  obtain ⟨x, rest, rfl, hrest⟩ := Ends.of_perform_bind h
  obtain ⟨middle, back, o, rfl, hbody, -⟩ := ends_handle.1 hrest
  refine ⟨middle, o, hbody, ?_⟩
  exact List.Subset.trans (List.subset_append_left middle back) (List.subset_cons_self _ _)

theorem setShuttingDown_mem {events : Events} {r : Except Exc Unit}
    (h : Ends beginShutdown events r) : ∃ x, ⟨.setShuttingDown, x⟩ ∈ events := by
  have hlock : ∀ {front : Events} {o : Except Exc (Option (List Container))},
      Ends (withCreateShutdownLock (perform .setShuttingDown)) front o →
      ∃ x, ⟨.setShuttingDown, x⟩ ∈ front := by
    intro front o hfront
    obtain ⟨middle, o', hbody, hsub⟩ := Ends.of_withCreateShutdownLock hfront
    obtain ⟨x, rest, rfl, -⟩ := ends_act.1 hbody
    exact ⟨x, hsub List.mem_cons_self⟩
  rcases h.of_bind with ⟨front, back, a, rfl, hfront, -⟩ | ⟨e, hfront, -⟩
  · obtain ⟨x, hx⟩ := hlock hfront
    exact ⟨x, List.mem_append_left _ hx⟩
  · exact hlock hfront

/-- What fails in a `release_container` is marked before it ends. -/
theorem markDegraded_mem_of_release {c : Container} {alreadyStopped : Bool} {events : Events}
    {r : Except Exc Unit} (h : Ends (releaseContainer c alreadyStopped) events r)
    (hfailed : RemovalFailed c alreadyStopped events ∨
      ReplenishmentFailed c alreadyStopped events) :
    ⟨.markDegraded, ()⟩ ∈ events := by
  rcases h.of_bind with ⟨front, back, removed, rfl, hfront, hback⟩ | ⟨e, hraised, -⟩
  · rcases hfailed with ⟨front', back', heq, hremoval⟩ | ⟨front', middle, back', e, heq, hremoved,
      hcreate⟩
    · obtain ⟨-, -, hr⟩ := hfront.unique hremoval heq
      obtain rfl := Except.ok.inj hr
      obtain ⟨x, rest, rfl, -⟩ := Ends.of_perform_bind hback
      exact List.mem_append_right _ List.mem_cons_self
    · obtain ⟨-, rfl, hr⟩ := hfront.unique hremoved heq
      obtain rfl := Except.ok.inj hr
      obtain ⟨x, rest, hrest, hreplenish⟩ := Ends.of_perform_bind hback
      obtain ⟨hx, rfl⟩ := List.cons.inj hrest
      rw [Sigma.mk.injEq] at hx
      obtain rfl := eq_of_heq hx.2
      rcases Ends.of_tryCatch hreplenish with ⟨u, hadded, -⟩ | ⟨front'', back'', e', heq', -, hmark⟩
      · -- the creation raises, so it is not followed by the end of the body
        obtain ⟨front'', back'', a, heq', hcreated, -⟩ := hadded.of_bind_ok
        obtain ⟨-, -, hr⟩ := hcreated.unique hcreate heq'.symm
        cases hr
      · obtain ⟨x, rest, rfl, -⟩ := ends_act.1 hmark
        rw [heq']
        simp
  · -- a cleanup that raises is neither a failed removal nor a successful one
    have hnot : ∀ {front back removed}, events = front ++ back →
        ¬ Ends (cleanupContainer c (!alreadyStopped)) front (.ok removed) := by
      intro front back removed heq hremoved
      obtain ⟨-, -, hr⟩ := hraised.unique hremoved ((List.append_nil _).trans heq)
      cases hr
    rcases hfailed with ⟨front, back, heq, hremoval⟩ | ⟨front, middle, back, e', heq, hremoved, -⟩
    · exact absurd hremoval (hnot heq)
    · exact absurd hremoved (hnot heq)

/-- A `get_container` that raises has seen the shutdown, the capacity, or has
marked the pool. -/
theorem mem_of_getContainer {events : Events} {e : Exc} (h : Ends getContainer events (.error e))
    (he : e ≠ .capacity) :
    ⟨.popPool, PoolAnswer.shuttingDown⟩ ∈ events ∨ ⟨.markDegraded, ()⟩ ∈ events := by
  obtain ⟨answer, rest, rfl, hrest⟩ := Ends.of_perform_bind h
  cases answer with
  | shuttingDown => exact .inl List.mem_cons_self
  | leased c =>
    obtain ⟨-, hr⟩ := ends_done.1 hrest
    cases hr
  | empty =>
    right
    rcases Ends.of_tryCatch hrest with ⟨c, -, hr⟩ | ⟨front, back, e', rfl, -, hback⟩
    · cases hr
    · by_cases hcapacity : e' = .capacity
      · rw [if_pos hcapacity] at hback
        obtain ⟨x, rest, rfl, hthrow⟩ := Ends.of_perform_bind hback
        obtain ⟨-, hr⟩ := ends_done.1 hthrow
        exact absurd ((Except.error.inj hr).trans hcapacity) he
      · rw [if_neg hcapacity] at hback
        obtain ⟨x, rest, rfl, -⟩ := Ends.of_perform_bind hback
        exact List.mem_cons_of_mem _ (List.mem_append_right _ List.mem_cons_self)

/-- A `get_container` that returns has not seen the shutdown. -/
theorem popPool_mem_of_getContainer {events : Events} {c : Container}
    (h : Ends getContainer events (.ok c)) :
    ∃ answer, ⟨.popPool, answer⟩ ∈ events ∧ answer ≠ PoolAnswer.shuttingDown := by
  obtain ⟨answer, rest, rfl, hrest⟩ := Ends.of_perform_bind h
  refine ⟨answer, List.mem_cons_self, ?_⟩
  rintro rfl
  obtain ⟨-, hr⟩ := ends_done.1 hrest
  cases hr

/-- A `get_container` that raises `ContainerCapacityError` has found the pool empty,
and raises it as it came out of `_create_container`. -/
theorem getContainer_capacity {events : Events}
    (h : Ends getContainer events (.error .capacity)) :
    ∃ middle, events = ⟨.popPool, PoolAnswer.empty⟩ :: (middle ++ [⟨.raiseCapacity, ()⟩]) := by
  obtain ⟨answer, rest, rfl, hrest⟩ := Ends.of_perform_bind h
  cases answer with
  | shuttingDown =>
    obtain ⟨-, hr⟩ := ends_done.1 hrest
    cases hr
  | leased c =>
    obtain ⟨-, hr⟩ := ends_done.1 hrest
    cases hr
  | empty =>
    rcases Ends.of_tryCatch hrest with ⟨c, -, hr⟩ | ⟨middle, back, e, rfl, -, hback⟩
    · cases hr
    · refine ⟨middle, ?_⟩
      by_cases hcapacity : e = .capacity
      · rw [if_pos hcapacity] at hback
        obtain ⟨x, rest, rfl, hthrow⟩ := Ends.of_perform_bind hback
        obtain ⟨rfl, -⟩ := ends_done.1 hthrow
        rfl
      · -- any other exception is raised again as it is
        rw [if_neg hcapacity] at hback
        obtain ⟨x, rest, rfl, hthrow⟩ := Ends.of_perform_bind hback
        obtain ⟨-, hr⟩ := ends_done.1 hthrow
        exact absurd (Except.error.inj hr).symm hcapacity

/-- A `get_container` is served from the pool at once, or the pool has told it that
it is shutting down or empty. -/
theorem getContainer_cases {events : Events} {r : Except Exc Container}
    (h : Ends getContainer events r) :
    (∃ c, r = .ok c ∧ events = [⟨.popPool, PoolAnswer.leased c⟩]) ∨
      ⟨.popPool, PoolAnswer.shuttingDown⟩ ∈ events ∨ ⟨.popPool, PoolAnswer.empty⟩ ∈ events := by
  obtain ⟨answer, rest, rfl, hrest⟩ := Ends.of_perform_bind h
  cases answer with
  | shuttingDown => exact .inr (.inl List.mem_cons_self)
  | leased c =>
    obtain ⟨rfl, rfl⟩ := ends_done.1 hrest
    exact .inl ⟨c, rfl, rfl⟩
  | empty => exact .inr (.inr List.mem_cons_self)

/-! ### Flags that are never taken back -/

/-- The parts of the state that only grow or only shrink in a step that does not
touch the records or the shutdown flag. -/
structure Steady (s s' : World) : Prop where
  shutting : s'.shuttingDown = s.shuttingDown
  degraded : s.degraded = true → s'.degraded = true
  managed : ∀ c ∈ s'.managed, c ∈ s.managed
  pending : ∀ name ∈ s'.pendingNames, name ∈ s.pendingNames
  client : s.client = true → s'.client = true
  pool : s.shuttingDown = true → s.pool = [] → s'.pool = []

/-- A step that does not touch the creation lock either. -/
structure Quiet (s s' : World) : Prop extends Steady s s' where
  lock : s'.createShutdownLock = s.createShutdownLock

theorem Quiet.refl (s : World) : Quiet s s where
  lock := rfl
  shutting := rfl
  degraded := id
  managed _ h := h
  pending _ h := h
  client := id
  pool _ h := h

/-- The actions whose steps are quiet. -/
def isQuiet : Action → Bool
  | .acquireCreateShutdownLock | .releaseCreateShutdownLock | .addPendingName
  | .recordManaged _ _ | .setShuttingDown => false
  | _ => true

theorem quiet_of_fallible {s s' : World} {r : Except Exc Unit} (h : s.fallible r = some s') :
    Quiet s s' := by
  rcases fallible_cases h with ⟨-, rfl⟩ | ⟨-, rfl⟩
  · exact .refl _
  · exact { Quiet.refl s with }

theorem quiet_of_create {s s' : World} {name : ℕ} {c : Container}
    (h : s.create name c = some s') : Quiet s s' := by
  rw [World.create] at h
  split at h
  · cases h
    exact { Quiet.refl s with }
  · cases h

theorem quiet_of_sem {a : Action} {s s' : World} {r : a.Response} (ha : isQuiet a = true)
    (h : sem a s r = some s') : Quiet s s' := by
  cases a with
  | validateContainerMounts c => exact quiet_of_fallible h
  | start c => exact quiet_of_fallible h
  | validateContainerResourceLimits c => exact quiet_of_fallible h
  | closeClient => exact quiet_of_fallible h
  | containersCreate name =>
    match r with
    | .created c => exact quiet_of_create h
    | .raised none =>
      cases h
      exact { Quiet.refl s with }
    | .raised (some c) =>
      have hcreate := quiet_of_create h
      exact { hcreate with }
  | remove c =>
    match r with
    | .ok () =>
      cases h
      exact { Quiet.refl s with }
    | .notFound =>
      cases h
      exact { Quiet.refl s with }
    | .raised false =>
      cases h
      exact { Quiet.refl s with }
    | .raised true =>
      cases h
      exact { Quiet.refl s with }
  | popPool =>
    simp only [sem] at h
    split at h
    next hdown =>
      split at h <;> cases h
      exact .refl _
    next hup =>
      split at h
      next => 
        split at h <;> cases h
        exact .refl _
      next c rest hpool =>
        split at h <;> cases h
        exact { Quiet.refl s with pool := fun hdown => absurd hdown hup }
  | appendPool c =>
    simp only [sem] at h
    split at h
    next hr =>
      cases h
      split
      next hadded =>
        refine { Quiet.refl s with pool := fun hdown => ?_ }
        rw [hr, hdown] at hadded
        cases hadded
      next => exact .refl _
    next => cases h
  | popManaged c =>
    simp only [sem] at h
    split at h <;> cases h
    exact { Quiet.refl s with managed := fun d hd => List.mem_of_mem_filter hd }
  | discardPendingName name =>
    simp only [sem] at h
    split at h <;> cases h
    exact { Quiet.refl s with pending := fun n hn => Finset.mem_of_mem_erase hn }
  | markDegraded =>
    cases h
    split
    next => exact .refl _
    next => exact { Quiet.refl s with degraded := fun _ => rfl }
  | acquireSlot =>
    simp only [sem] at h
    split at h <;> cases h
    split
    next => exact { Quiet.refl s with }
    next => exact .refl _
  | acquireCreateShutdownLock => cases ha
  | releaseCreateShutdownLock => cases ha
  | addPendingName => cases ha
  | recordManaged name c => cases ha
  | setShuttingDown => cases ha
  | _ =>
    -- the other steps change nothing that is spoken of here
    simp only [sem] at h
    repeat' split at h
    all_goals cases h
    all_goals first
      | exact .refl _
      | exact { Quiet.refl s with }
      | exact { Quiet.refl s with client := fun _ => rfl }

/-- A step that is not quiet keeps the flags, or sets the shutdown flag. -/
theorem flags_of_sem {a : Action} {s s' : World} {r : a.Response} (ha : isQuiet a = false)
    (h : sem a s r = some s') :
    s'.degraded = s.degraded ∧ (s.shuttingDown = true → s'.shuttingDown = true) := by
  cases a with
  | setShuttingDown =>
    simp only [sem] at h
    split at h
    next =>
      split at h <;> cases h
      exact ⟨rfl, id⟩
    next =>
      split at h <;> cases h
      exact ⟨rfl, fun _ => rfl⟩
  | acquireCreateShutdownLock =>
    simp only [sem] at h
    split at h <;> cases h
    exact ⟨rfl, id⟩
  | addPendingName =>
    simp only [sem] at h
    split at h <;> cases h
    exact ⟨rfl, id⟩
  | releaseCreateShutdownLock =>
    cases h
    exact ⟨rfl, id⟩
  | recordManaged name c =>
    cases h
    exact ⟨rfl, id⟩
  | _ => cases ha

theorem sem_shuttingDown {a : Action} {s s' : World} {r : a.Response} (h : sem a s r = some s')
    (hdown : s.shuttingDown = true) : s'.shuttingDown = true := by
  cases ha : isQuiet a with
  | true =>
    rw [(quiet_of_sem ha h).shutting]
    exact hdown
  | false => exact (flags_of_sem ha h).2 hdown

theorem sem_degraded {a : Action} {s s' : World} {r : a.Response} (h : sem a s r = some s')
    (hdegraded : s.degraded = true) : s'.degraded = true := by
  cases ha : isQuiet a with
  | true => exact (quiet_of_sem ha h).degraded hdegraded
  | false =>
    rw [(flags_of_sem ha h).1]
    exact hdegraded

theorem World.fallible_raised {s s' : World} {r : Except Exc Unit}
    (h : s.fallible r = some s') (hs : s.raised = true) : s'.raised = true := by
  rcases fallible_cases h with ⟨-, rfl⟩ | ⟨-, rfl⟩
  · exact hs
  · rfl

theorem World.create_raised {s s' : World} {name : ℕ} {c : Container}
    (h : s.create name c = some s') : s'.raised = s.raised := by
  rw [World.create] at h
  split at h
  · cases h
    rfl
  · cases h

/-- A Docker call that has raised is not forgotten. -/
theorem sem_raised {a : Action} {s s' : World} {r : a.Response} (h : sem a s r = some s')
    (hraised : s.raised = true) : s'.raised = true := by
  cases a with
  | validateContainerMounts c => exact World.fallible_raised h hraised
  | start c => exact World.fallible_raised h hraised
  | validateContainerResourceLimits c => exact World.fallible_raised h hraised
  | closeClient => exact World.fallible_raised h hraised
  | containersCreate name =>
    match r with
    | .created c => exact (World.create_raised h).trans hraised
    | .raised none =>
      cases h
      rfl
    | .raised (some c) => exact World.create_raised h
  | remove c =>
    match r with
    | .ok () =>
      cases h
      exact hraised
    | .notFound =>
      cases h
      exact hraised
    | .raised effect =>
      cases h
      rfl
  | markDegraded =>
    cases h
    split
    · exact hraised
    · exact hraised
  | acquireSlot =>
    simp only [sem] at h
    split at h <;> cases h
    split
    · exact hraised
    · exact hraised
  | _ =>
    -- the other steps keep the flag, or set it
    simp only [sem] at h
    repeat' split at h
    all_goals cases h
    all_goals first
      | exact hraised
      | rfl

/-- The pool is degraded, or is shutting down. -/
def World.Marked (s : World) : Prop := s.degraded = true ∨ s.shuttingDown = true

theorem World.Marked.step {a : Action} {s s' : World} {r : a.Response} (hs : s.Marked)
    (h : sem a s r = some s') : s'.Marked :=
  hs.imp (sem_degraded h) (sem_shuttingDown h)

theorem World.Marked.not_ready {s : World} (hs : s.Marked) : s.isReady = false := by
  rcases hs with h | h
  · simp [World.isReady, h]
  · simp [World.isReady, h]

/-- What an event says about the state from then on. -/
def Told (s : World) : Prog.Event Action Action.Response → Prop
  | ⟨.setShuttingDown, _⟩ => s.shuttingDown = true
  | ⟨.popPool, .shuttingDown⟩ => s.shuttingDown = true
  | ⟨.markDegraded, _⟩ => s.Marked
  | _ => True

theorem told_of_sem (a : Action) (s : World) (r : a.Response) (s' : World)
    (h : sem a s r = some s') : Told s' ⟨a, r⟩ := by
  cases a with
  | setShuttingDown =>
    simp only [sem] at h
    split at h
    next =>
      split at h <;> cases h
      assumption
    next =>
      split at h <;> cases h
      rfl
  -- the pool says that it is shutting down when the flag is set
  | popPool =>
    cases r with
    | shuttingDown =>
      simp only [sem] at h
      split at h
      next hdown =>
        cases h
        exact hdown
      next =>
        split at h
        next => cases h
        next => cases h
    | leased c => exact trivial
    | empty => exact trivial
  | markDegraded =>
    cases h
    split
    -- after the shutdown has begun nothing is marked
    next hdown => exact .inr hdown
    next => exact .inl rfl
  | _ => exact trivial

theorem Told.step {e : Prog.Event Action Action.Response} {a : Action} {s s' : World}
    {r : a.Response} (he : Told s e) (h : sem a s r = some s') : Told s' e := by
  obtain ⟨b, answer⟩ := e
  cases b with
  | setShuttingDown => exact sem_shuttingDown h he
  | popPool =>
    cases answer with
    | shuttingDown => exact sem_shuttingDown h he
    | leased c => exact trivial
    | empty => exact trivial
  | markDegraded => exact World.Marked.step he h
  | _ => exact trivial

end ContainerManager
