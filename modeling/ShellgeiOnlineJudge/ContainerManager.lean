/-
The sandbox container pool (soj_runner/container_manager.py).

`World` is the state of one `ContainerManager` with the Docker daemon it talks
to, `Action` lists the atomic steps of its methods (critical sections of
`self.lock`, semaphore operations, the two longer locks, Docker calls), and
each method is a `Prog` over these actions under its name in the source:
`createContainer`, `createAndAdd`, `initializePool`, `getContainer`,
`releaseContainer`, `beginShutdown`, `shutdownPool` and the cleanup helpers.

Docker is free to answer any call with an exception.  A `NotFound` answer
means that the container is gone, whoever removed it; a creation or removal
that raises may have taken effect all the same.
-/
import Mathlib.Data.Finset.Card
import Mathlib.Data.Finset.Dedup
import ShellgeiOnlineJudge.Prog

namespace ContainerManager

/-- A container: its Docker ID and the name it was created under. -/
structure Container where
  id : ℕ
  name : ℕ
  deriving DecidableEq, Repr

/-- The exceptions that leave the methods of the manager. -/
inductive Exc
  /-- `RuntimeError("container manager is shutting down")` -/
  | shuttingDown
  /-- `ContainerCapacityError` -/
  | capacity
  /-- `SandboxImageConfigurationError`: `SANDBOX_IMAGE_ID` is required -/
  | imageRequired
  /-- a Docker call or the validation of its answer failed -/
  | docker
  /-- `BoundedSemaphore.release` above the initial value -/
  | valueError
  deriving DecidableEq, Repr

/-- The manager and the daemon it talks to. -/
structure World where
  poolSize : ℕ
  imageId : Option String
  /-- `self.client is not None` -/
  client : Bool
  pool : List Container
  createShutdownLock : Bool
  cleanupLock : Bool
  /-- the value of the `BoundedSemaphore` -/
  slots : ℕ
  /-- the dict `_managed` in insertion order, keyed by `Container.id` -/
  managed : List Container
  pendingNames : Finset ℕ
  shuttingDown : Bool
  initialized : Bool
  degraded : Bool
  imageValidated : Bool
  /-- Docker: the containers of this manager that exist now -/
  existing : List Container
  /-- Docker: all containers ever created by this manager -/
  created : List Container
  /-- the names drawn from `uuid4` so far -/
  usedNames : Finset ℕ
  /-- some Docker call has raised an exception other than `NotFound` -/
  raised : Bool
  /-- executions between admission and end (`ShellgeiDockerClient`) -/
  active : ℕ

/-- `ContainerManager.__init__`, with or without an injected client. -/
def World.fresh (poolSize : ℕ) (imageId : Option String) (client : Bool) : World where
  poolSize := poolSize
  imageId := imageId
  client := client
  pool := []
  createShutdownLock := false
  cleanupLock := false
  slots := poolSize
  managed := []
  pendingNames := ∅
  shuttingDown := false
  initialized := false
  degraded := false
  imageValidated := false
  existing := []
  created := []
  usedNames := ∅
  raised := false
  active := 0

/-- `self._managed[self._container_id(container)] = container` -/
def dictSet (d : List Container) (c : Container) : List Container :=
  if d.any (·.id == c.id) then d.map fun e => if e.id = c.id then c else e else d ++ [c]

/-- `self._managed.pop(self._container_id(container), None)`: the dict without
the key. -/
def dictPop (d : List Container) (c : Container) : List Container :=
  d.filter (·.id != c.id)

/-- The answer to a Docker call: a value, `NotFound`, or another exception that
was raised with or without the effect of the call. -/
inductive Outcome (α : Type)
  | ok (a : α)
  | notFound
  | raised (effect : Bool)

/-- The answer to `containers.create`. -/
inductive CreateOutcome
  | created (c : Container)
  /-- the call raised; `lost` is the container it created all the same -/
  | raised (lost : Option Container)

/-- What `get_container` finds in its critical section. -/
inductive PoolAnswer
  | shuttingDown
  | leased (c : Container)
  | empty
  deriving DecidableEq

/-- The atomic steps of the manager's methods. -/
inductive Action
  | acquireCreateShutdownLock
  | releaseCreateShutdownLock
  | acquireCleanupLock
  | releaseCleanupLock
  | readShuttingDown
  | getClient
  | ensureSandboxImage
  | acquireSlot
  | releaseSlot
  | addPendingName
  | containersCreate (name : ℕ)
  | validateContainerMounts (c : Container)
  | recordManaged (name : ℕ) (c : Container)
  | start (c : Container)
  | validateContainerResourceLimits (c : Container)
  | appendPool (c : Container)
  | popPool
  | markDegraded
  /-- the clause `except ContainerCapacityError: raise` of `get_container` -/
  | raiseCapacity
  | popManaged (c : Container)
  | discardPendingName (name : ℕ)
  | readClient
  | containersGet (name : ℕ)
  | kill (c : Container)
  | remove (c : Container)
  | containersList
  | setShuttingDown
  | snapshot
  | setInitialized
  | closeClient
  /-- the caller works with the container it leased -/
  | useLease (c : Container)
  /-- `ShellgeiDockerClient` admits an execution -/
  | beginExecution
  | endExecution

/-- The response to each action. -/
abbrev Action.Response : Action → Type
  | acquireCreateShutdownLock | releaseCreateShutdownLock => Unit
  | acquireCleanupLock | releaseCleanupLock => Unit
  | readShuttingDown | acquireSlot | readClient => Bool
  | releaseSlot => Except Exc Unit
  | getClient | ensureSandboxImage | closeClient => Except Exc Unit
  | addPendingName => ℕ
  | containersCreate _ => CreateOutcome
  | validateContainerMounts _ | start _ | validateContainerResourceLimits _ => Except Exc Unit
  | recordManaged _ _ | markDegraded | raiseCapacity | setInitialized => Unit
  | appendPool _ | popManaged _ | discardPendingName _ => Bool
  | popPool => PoolAnswer
  | containersGet _ => Outcome Container
  | kill _ | remove _ => Outcome Unit
  | containersList => Except Exc (List Container)
  | setShuttingDown => Option (List Container)
  | snapshot => List Container × List ℕ × Bool
  | useLease _ => Bool
  | beginExecution | endExecution => Unit

namespace World

/-- Docker creates `c`, under a fresh ID and the requested name. -/
def create (s : World) (name : ℕ) (c : Container) : Option World :=
  if c.name = name ∧ ∀ d ∈ s.created, d.id ≠ c.id then
    some { s with existing := c :: s.existing, created := c :: s.created }
  else none

/-- The container is no longer there. -/
def gone (s : World) (c : Container) : World :=
  { s with existing := s.existing.filter (· ≠ c) }

/-- A Docker call that validates or starts a container: it succeeds or raises. -/
def fallible (s : World) : Except Exc Unit → Option World
  | .ok () => some s
  | .error .docker => some { s with raised := true }
  | .error _ => none

end World

/-- The state after an action that was answered by the given response; `none`
when the action cannot be answered so. -/
def sem : (a : Action) → World → a.Response → Option World
  | .acquireCreateShutdownLock, s, () =>
    if s.createShutdownLock then none else some { s with createShutdownLock := true }
  | .releaseCreateShutdownLock, s, () => some { s with createShutdownLock := false }
  | .acquireCleanupLock, s, () =>
    if s.cleanupLock then none else some { s with cleanupLock := true }
  | .releaseCleanupLock, s, () => some { s with cleanupLock := false }
  | .readShuttingDown, s, r => if r = s.shuttingDown then some s else none
  | .getClient, s, r => match r with
    | .error .shuttingDown => if s.shuttingDown then some s else none
    | .ok () => if s.shuttingDown then none else some { s with client := true }
    | .error .docker =>
      if s.shuttingDown || s.client then none else some { s with raised := true }
    | .error _ => none
  | .ensureSandboxImage, s, r => match r with
    | .ok () =>
      if s.imageValidated || s.imageId.isSome then some { s with imageValidated := true } else none
    | .error .imageRequired => if s.imageValidated || s.imageId.isSome then none else some s
    | .error .docker =>
      if s.imageValidated || s.imageId.isNone then none else some { s with raised := true }
    | .error _ => none
  | .acquireSlot, s, r =>
    if r = decide (0 < s.slots) then some (if r then { s with slots := s.slots - 1 } else s)
    else none
  | .releaseSlot, s, r => match r with
    | .ok () => if s.slots < s.poolSize then some { s with slots := s.slots + 1 } else none
    | .error .valueError => if s.slots < s.poolSize then none else some s
    | .error _ => none
  | .addPendingName, s, name =>
    if name ∈ s.usedNames then none
    else some { s with
      pendingNames := insert name s.pendingNames, usedNames := insert name s.usedNames }
  | .containersCreate name, s, r => match r with
    | .created c => s.create name c
    | .raised none => some { s with raised := true }
    | .raised (some c) => { s with raised := true }.create name c
  | .validateContainerMounts _, s, r => s.fallible r
  | .recordManaged name c, s, () => some { s with
      pendingNames := s.pendingNames.erase name, managed := dictSet s.managed c }
  | .start _, s, r => s.fallible r
  | .validateContainerResourceLimits _, s, r => s.fallible r
  | .appendPool c, s, r =>
    if r = !s.shuttingDown then some (if r then { s with pool := s.pool ++ [c] } else s) else none
  | .popPool, s, r =>
    if s.shuttingDown then (if r = .shuttingDown then some s else none)
    else match s.pool with
      | [] => if r = .empty then some s else none
      | c :: rest => if r = .leased c then some { s with pool := rest } else none
  | .markDegraded, s, () => some (if s.shuttingDown then s else { s with degraded := true })
  | .raiseCapacity, s, () => some s
  | .popManaged c, s, r =>
    if r = s.managed.any (·.id == c.id) then some { s with managed := dictPop s.managed c }
    else none
  | .discardPendingName name, s, r =>
    if r = decide (name ∈ s.pendingNames) then
      some { s with pendingNames := s.pendingNames.erase name }
    else none
  | .readClient, s, r => if r = s.client then some s else none
  | .containersGet name, s, r => match r with
    | .ok c => if c ∈ s.existing ∧ c.name = name then some s else none
    | .notFound => some { s with existing := s.existing.filter (·.name ≠ name) }
    | .raised _ => some { s with raised := true }
  | .kill _, s, r => match r with
    | .ok () => some s
    | .notFound => some s
    | .raised _ => some { s with raised := true }
  | .remove c, s, r => match r with
    | .ok () => some (s.gone c)
    | .notFound => some (s.gone c)
    | .raised effect => some { (if effect then s.gone c else s) with raised := true }
  | .containersList, s, r => match r with
    | .ok _ => some s
    | .error .docker => some { s with raised := true }
    | .error _ => none
  | .setShuttingDown, s, r => match r with
    | none => if s.shuttingDown then some s else none
    | some containers =>
      if s.shuttingDown ∨ containers ≠ s.managed then none
      else some { s with shuttingDown := true, pool := [] }
  | .snapshot, s, (containers, names, client) =>
    if containers = s.managed ∧ names.Nodup ∧ names.toFinset = s.pendingNames ∧ client = s.client
    then some s else none
  | .setInitialized, s, () => some { s with initialized := true }
  | .closeClient, s, r => s.fallible r
  | .useLease _, s, _ => some s
  | .beginExecution, s, () =>
    if s.initialized ∧ s.active < s.poolSize then some { s with active := s.active + 1 } else none
  | .endExecution, s, () => some { s with active := s.active - 1 }

/-! ### The methods -/

/-- Programs of the manager. -/
abbrev M (α : Type) := Prog Action Action.Response Exc α

open Prog (unwrap)

/-- Do an action. -/
abbrev perform (a : Action) : M a.Response := Prog.perform a

/-- `with self._create_shutdown_lock: ...` -/
def withCreateShutdownLock {α : Type} (body : M α) : M α := do
  perform .acquireCreateShutdownLock
  body.finally' (perform .releaseCreateShutdownLock)

/-- `with self._cleanup_lock: ...` -/
def withCleanupLock {α : Type} (body : M α) : M α := do
  perform .acquireCleanupLock
  body.finally' (perform .releaseCleanupLock)

/-- `raise e` if the condition holds. -/
def raiseIf (b : Bool) (e : Exc) : M Unit := if b then throw e else pure ()

/-- `_forget_removed_container` -/
def forgetRemovedContainer (c : Container) : M Unit := do
  let removed : Bool ← perform (.popManaged c)
  if removed then do
    let released : Except Exc Unit ← perform .releaseSlot
    unwrap released
  else pure ()

/-- `_forget_pending_name` -/
def forgetPendingName (name : ℕ) : M Unit := do
  let removed : Bool ← perform (.discardPendingName name)
  if removed then do
    let released : Except Exc Unit ← perform .releaseSlot
    unwrap released
  else pure ()

/-- The part of `_cleanup_pending_container` under the cleanup lock. -/
def cleanupPendingContainerLocked (name : ℕ) (acceptNotFound : Bool) : M Bool := do
  let found : Outcome Container ← perform (.containersGet name)
  match found with
  | .notFound => pure acceptNotFound
  | .raised _ => pure false
  | .ok c => do
    let removed : Outcome Unit ← perform (.remove c)
    match removed with
    | .ok _ => pure true
    | .notFound => pure true
    | .raised _ => pure false

/-- `_cleanup_pending_container` -/
def cleanupPendingContainer (name : ℕ) (acceptNotFound : Bool) : M Bool := do
  let client : Bool ← perform .readClient
  if client then withCleanupLock (cleanupPendingContainerLocked name acceptNotFound)
  else pure false

/-- The removal in `_cleanup_container_locked`, after the optional kill. -/
def removeAndForget (c : Container) : M Bool := do
  let removed : Outcome Unit ← perform (.remove c)
  match removed with
  | .raised _ => pure false
  | _ => do
    forgetRemovedContainer c
    pure true

/-- `_cleanup_container_locked`; whatever the kill answers, the removal follows. -/
def cleanupContainerLocked (c : Container) (kill : Bool) : M Bool := do
  if kill then do
    let _ : Outcome Unit ← perform (.kill c)
    removeAndForget c
  else removeAndForget c

/-- `_cleanup_container` -/
def cleanupContainer (c : Container) (kill : Bool) : M Bool :=
  withCleanupLock (cleanupContainerLocked c kill)

/-- `containers.create` and the mount validation of `_create_container`. -/
def createAndValidate (name : ℕ) : M Container := do
  let answer : CreateOutcome ← perform (.containersCreate name)
  match answer with
  | .raised _ => throw .docker
  | .created c => do
    let mounts : Except Exc Unit ← perform (.validateContainerMounts c)
    unwrap mounts
    pure c

/-- `_create_container` from the point where the slot is taken. -/
def createInSlot : M Container := do
  let name : ℕ ← perform .addPendingName
  let c ← tryCatch (createAndValidate name) fun e => do
    let cleaned ← cleanupPendingContainer name false
    if cleaned then do
      forgetPendingName name
      throw e
    else throw e
  perform (.recordManaged name c)
  let started : Except Exc Unit ← perform (.start c)
  tryCatch (unwrap started) fun e => do
    let _ ← cleanupContainer c false
    throw e
  let limits : Except Exc Unit ← perform (.validateContainerResourceLimits c)
  tryCatch (unwrap limits) fun e => do
    let _ ← cleanupContainer c true
    throw e
  pure c

/-- `_create_container` -/
def createContainer : M Container := withCreateShutdownLock do
  let shuttingDown : Bool ← perform .readShuttingDown
  raiseIf shuttingDown .shuttingDown
  let client : Except Exc Unit ← perform .getClient
  unwrap client
  let image : Except Exc Unit ← perform .ensureSandboxImage
  unwrap image
  let acquired : Bool ← perform .acquireSlot
  raiseIf (!acquired) .capacity
  createInSlot

/-- `_create_and_add` -/
def createAndAdd : M Container := do
  let c ← createContainer
  let added : Bool ← perform (.appendPool c)
  if added then pure c
  else do
    let _ ← cleanupContainer c true
    throw .shuttingDown

/-- The loop of `_reconcile_stale_containers` over the listed containers. -/
def removeStaleContainers : List Container → M Unit
  | [] => pure ()
  | c :: rest => do
    let removed : Outcome Unit ← withCleanupLock (perform (.remove c))
    match removed with
    | .raised _ => throw .docker
    | _ => removeStaleContainers rest

/-- `_reconcile_stale_containers` -/
def reconcileStaleContainers : M Unit := do
  let client : Except Exc Unit ← perform .getClient
  unwrap client
  let listed : Except Exc (List Container) ← perform .containersList
  let stale ← unwrap listed
  removeStaleContainers stale

/-- The kills of `begin_shutdown`, after its critical section. -/
def killAll : List Container → M Unit
  | [] => pure ()
  | c :: rest => do
    let _ : Outcome Unit ← withCleanupLock (perform (.kill c))
    killAll rest

/-- `begin_shutdown` -/
def beginShutdown : M Unit := do
  let containers : Option (List Container) ← withCreateShutdownLock (perform .setShuttingDown)
  match containers with
  | none => pure ()
  | some cs => killAll cs

/-- The removal loop of `shutdown_pool` over the managed containers. -/
def cleanupAll : List Container → M Unit
  | [] => pure ()
  | c :: rest => do
    let _ ← cleanupContainer c false
    cleanupAll rest

/-- The removal loop of `shutdown_pool` over the pending names. -/
def cleanupAllPending : List ℕ → M Unit
  | [] => pure ()
  | name :: rest => do
    let cleaned ← cleanupPendingContainer name true
    if cleaned then do
      forgetPendingName name
      cleanupAllPending rest
    else cleanupAllPending rest

/-- `shutdown_pool` -/
def shutdownPool : M Unit := do
  beginShutdown
  let (containers, names, client) : List Container × List ℕ × Bool ←
    withCreateShutdownLock (perform .snapshot)
  cleanupAll containers
  cleanupAllPending names
  if client then do
    let closed : Except Exc Unit ← perform .closeClient
    unwrap closed
  else pure ()

/-- The loop of `initialize_pool`. -/
def createAndAddAll : ℕ → M Unit
  | 0 => pure ()
  | n + 1 => do
    let _ ← createAndAdd
    createAndAddAll n

/-- `initialize_pool` of a manager with the given `pool_size` and `image_id`. -/
def initializePool (poolSize : ℕ) (imageId : Option String) : M Unit := do
  raiseIf imageId.isNone .imageRequired
  tryCatch (do
    reconcileStaleContainers
    createAndAddAll poolSize) fun e => do
      shutdownPool
      throw e
  perform .setInitialized

/-- The creation branch of `get_container`, taken when the pool is empty. -/
def createForLease : M Container :=
  tryCatch createContainer fun e =>
    if e = .capacity then do
      perform .raiseCapacity
      throw e
    else do
      perform .markDegraded
      throw e

/-- `get_container` -/
def getContainer : M Container := do
  let answer : PoolAnswer ← perform .popPool
  match answer with
  | .shuttingDown => throw .shuttingDown
  | .leased c => pure c
  | .empty => createForLease

/-- The replenishment of `release_container`. -/
def replenish : M Unit :=
  tryCatch (do
    let _ ← createAndAdd
    pure ()) fun _ => perform .markDegraded

/-- `release_container` -/
def releaseContainer (c : Container) (alreadyStopped : Bool) : M Unit := do
  let removed ← cleanupContainer c (!alreadyStopped)
  if removed then do
    let shuttingDown : Bool ← perform .readShuttingDown
    if shuttingDown then pure () else replenish
  else do
    perform .markDegraded
    let _ : Bool ← perform .readShuttingDown
    pure ()

/-! ### Callers -/

/-- A caller that leases a container and, when it got one, returns it once. -/
def lease : M Unit := do
  let c ← getContainer
  let alreadyStopped : Bool ← perform (.useLease c)
  releaseContainer c alreadyStopped

/-- One execution of `ShellgeiDockerClient`, admitted within its capacity. -/
def execution : M Unit := do
  perform .beginExecution
  lease.finally' (perform .endExecution)

/-- The container a thread has leased: `get_container` returned it to the
caller, and `release_container` has not been called with it. -/
def leased (p : M Unit) : Option Container :=
  match p.head with
  | some (.useLease c) => some c
  | _ => none

/-- The thread has acquired a slot but not yet recorded the name, or removed a
record but not yet released its slot. -/
def holdsSlot (p : M Unit) : Bool :=
  match p.head with
  | some .addPendingName => true
  | some .releaseSlot => true
  | _ => false

/-- `is_ready` -/
def World.isReady (s : World) : Bool :=
  s.initialized && !s.degraded && !s.shuttingDown && s.managed.length == s.poolSize &&
    s.pendingNames.card == 0

/-- `managed_count` -/
def World.managedCount (s : World) : ℕ := s.managed.length + s.pendingNames.card

end ContainerManager
