/-
The capacity of the container pool, for any callers whatsoever.

Any number of threads run `initialize_pool`, lease and release containers,
begin a shutdown or shut the pool down, in any interleaving; `capacity` says
that no slot is ever lost or released twice, that pooled and leased containers
are kept apart, and that no more than `pool_size` containers exist.
-/
import ShellgeiOnlineJudge.ContainerMethods

namespace ContainerManager

open Token Prog

/-- The calls that other threads make. -/
inductive Caller (poolSize : ℕ) (imageId : Option String) : M Unit → Prop
  | initializePool : Caller poolSize imageId (initializePool poolSize imageId)
  | lease : Caller poolSize imageId lease
  | beginShutdown : Caller poolSize imageId beginShutdown
  | shutdownPool : Caller poolSize imageId shutdownPool

/-- A manager that starts fresh, with any callers at any time.  A container may
disappear at any time, too. -/
def anyCallers (poolSize : ℕ) (imageId : Option String) (client : Bool) :
    ThreadSystem World (M Unit) :=
  Prog.system sem (fun s threads => s = World.fresh poolSize imageId client ∧ threads = [])
    (fun s s' => ∃ c, s' = s.gone c) fun _ _ p => Caller poolSize imageId p

theorem World.create_poolSize {s s' : World} {name : ℕ} {c : Container}
    (h : s.create name c = some s') : s'.poolSize = s.poolSize := by
  rw [World.create] at h
  split at h <;> cases h
  rfl

theorem World.fallible_poolSize {s s' : World} {r : Except Exc Unit}
    (h : s.fallible r = some s') : s'.poolSize = s.poolSize := by
  rcases fallible_cases h with ⟨-, rfl⟩ | ⟨-, rfl⟩ <;> rfl

/-- No action changes `pool_size`. -/
theorem sem_poolSize {a : Action} {s s' : World} {r : a.Response} (h : sem a s r = some s') :
    s'.poolSize = s.poolSize := by
  cases a with
  | validateContainerMounts c => exact World.fallible_poolSize h
  | start c => exact World.fallible_poolSize h
  | validateContainerResourceLimits c => exact World.fallible_poolSize h
  | closeClient => exact World.fallible_poolSize h
  -- a container may exist although its creation raised
  | containersCreate name =>
    match r with
    | .created c => exact World.create_poolSize h
    | .raised none => cases h; rfl
    | .raised (some c) => exact (World.create_poolSize (s := { s with raised := true }) h)
  | remove c =>
    match r with
    | .ok () => cases h; rfl
    | .notFound => cases h; rfl
    | .raised false => cases h; rfl
    | .raised true => cases h; rfl
  | markDegraded =>
    cases h
    split <;> rfl
  | acquireSlot =>
    simp only [sem] at h
    split at h <;> cases h
    split <;> rfl
  | _ =>
    simp only [sem] at h
    repeat' split at h
    all_goals cases h
    all_goals rfl

/-- Without a bound on the executions, the tokens of `Live` are free. -/
theorem Inv.learn_unbounded {s : World} {F : Multiset Token} {t : Token} (h : Inv False s F)
    (ht : t = idle ∨ t = entitled ∨ ∃ k, t = init k) : Inv False s (t ::ₘ F) where
  core := by
    rcases ht with rfl | rfl | ⟨k, rfl⟩
    · exact h.core.learn rfl (by simp) (by simp) trivial (by simp) (by simp)
    · exact h.core.learn rfl (by simp) (by simp) trivial (by simp) (by simp)
    · exact h.core.learn rfl (by simp) (by simp) False.elim (by simp) (by simp)
  image := False.elim
  failed := False.elim
  live := False.elim

theorem Inv.learn_all_unbounded {s : World} {F : Multiset Token} (m : Multiset Token)
    (h : Inv False s F) (hm : ∀ t ∈ m, t = idle ∨ t = entitled ∨ ∃ k, t = init k) :
    Inv False s (m + F) := by
  induction m using Multiset.induction_on with
  | empty => simpa using h
  | cons t m ih =>
    rw [Multiset.cons_add]
    exact (ih fun u hu => hm u (Multiset.mem_cons_of_mem hu)).learn_unbounded (hm t (by simp))

theorem World.fresh_ok (poolSize : ℕ) (imageId : Option String) (client : Bool) :
    (World.fresh poolSize imageId client).Ok where
  pool_nodup := List.nodup_nil
  pool_managed := by simp [World.fresh]
  managed_created := by simp [World.fresh]
  managed_nodup := List.nodup_nil
  managed_names := by simp [World.fresh]
  created_ids := by simp [World.fresh]
  created_names := by simp [World.fresh]
  created_used := by simp [World.fresh]
  existing_created := by simp [World.fresh]
  existing_nodup := List.nodup_nil
  existing_recorded := by simp [World.fresh]
  pending_used := by simp [World.fresh]
  shutdown := by simp [World.fresh]

theorem core_fresh (bounded : Prop) (poolSize : ℕ) (imageId : Option String) (client : Bool) :
    Core bounded (World.fresh poolSize imageId client) 0 where
  world := World.fresh_ok poolSize imageId client
  slots := by simp [World.fresh]
  ok := by simp
  exclusive := {
    owned_once := by simp
    lock_once := rfl
    fresh_not_owned := by simp
    stale_not_locked := by simp
    goneName_not_creating := by simp }

/-- Every caller starts with tokens that are free when executions are unbounded. -/
theorem Caller.safe {poolSize : ℕ} {imageId : Option String} {p : M Unit}
    (h : Caller poolSize imageId p) : ∃ m : Multiset Token,
      (∀ t ∈ m, t = idle ∨ t = entitled ∨ ∃ k, t = init k) ∧
      Safe False (fun _ m => slot ∉ m) p m := by
  cases h with
  | initializePool =>
    refine ⟨initTokens poolSize imageId, fun t ht => ?_, ?_⟩
    -- an initialization is entitled to the whole pool
    · rw [initTokens] at ht
      split at ht
      · simp at ht
      · rcases Multiset.mem_cons.mp ht with rfl | ht
        · exact .inr (.inr ⟨poolSize, rfl⟩)
        · exact .inr (.inl (Multiset.eq_of_mem_replicate ht))
    · exact Safe.mono (initializePool_safe poolSize imageId) fun _ _ h => h.slot_notMem
  | lease =>
    refine ⟨{idle}, by simp, ?_⟩
    exact Safe.mono lease_safe fun _ _ h => h.slot_notMem
  | beginShutdown =>
    refine ⟨0, by simp, ?_⟩
    refine Safe.mono (beginShutdown_safe (Multiset.notMem_zero _) rfl False.elim) ?_
    rintro r m ⟨-, rfl⟩
    simp
  | shutdownPool =>
    refine ⟨0, by simp, ?_⟩
    exact Safe.mono (shutdownPool_safe (Multiset.notMem_zero _) rfl False.elim)
      fun _ _ h => h.slot_notMem

/-- The proof outline of the system. -/
def capacityOutline (poolSize : ℕ) (imageId : Option String) (client : Bool) :
    (anyCallers poolSize imageId client).Outline Token :=
  (logic False).outline (fun _ m => slot ∉ m)
    (by
      rintro s threads ⟨rfl, rfl⟩
      exact ⟨[], rfl, by simp, core_fresh False poolSize imageId client, False.elim, False.elim,
        False.elim⟩)
    (by
      rintro s s' m ⟨c, rfl⟩ h
      exact h.shrink (gone_sublist s))
    (by
      intro s p ann hp hsafe h
      obtain ⟨m, hm, hsafe'⟩ := hp.safe
      exact ⟨m, hsafe', h.learn_all_unbounded m hm⟩)

theorem slot_notMem_of_here {a : Action} {m : Multiset Token} (h : here a m)
    (hadd : a ≠ .addPendingName) (hrel : a ≠ .releaseSlot) : slot ∉ m := by
  cases a with
  | addPendingName => exact absurd rfl hadd
  | releaseSlot => exact absurd rfl hrel
  | beginExecution =>
    obtain rfl : m = 0 := h
    exact Multiset.notMem_zero _
  | useLease => exact h.1
  | popPool => exact h.1
  | markDegraded => exact h.1
  | raiseCapacity => exact h.1
  | _ => exact h

/-- A thread holds a slot token exactly where it holds a slot. -/
theorem count_slot {bounded : Prop} {post : Except Exc Unit → Multiset Token → Prop} {p : M Unit}
    {m : Multiset Token} (h : Safe bounded post p m) (hpost : ∀ r m, post r m → slot ∉ m) :
    m.count slot = if holdsSlot p then 1 else 0 := by
  cases p with
  | done r => exact Multiset.count_eq_zero.mpr (hpost r m h)
  | act a k =>
    have hhere : here a m := h.1
    by_cases hadd : a = .addPendingName
    · subst hadd
      exact hhere
    · by_cases hrel : a = .releaseSlot
      · subst hrel
        exact hhere
      · have hnot : holdsSlot (.act a k) = false := by
          cases a <;> first | rfl | contradiction
        rw [hnot, if_neg Bool.false_ne_true]
        exact Multiset.count_eq_zero.mpr (slot_notMem_of_here hhere hadd hrel)

/-- A thread that has leased a container owns it. -/
theorem owns_of_leased {bounded : Prop} {post : Except Exc Unit → Multiset Token → Prop}
    {p : M Unit} {m : Multiset Token} {c : Container} (h : Safe bounded post p m)
    (hc : leased p = some c) : owns c ∈ m := by
  cases p with
  | done r => cases hc
  | act a k =>
    have hhere : here a m := h.1
    cases a with
    | useLease d =>
      obtain rfl : d = c := by simpa [leased] using hc
      exact hhere.2
    | _ => cases hc

/-- Existing containers are recorded under their ID or their pending name. -/
theorem World.Ok.existing_le {s : World} (h : s.Ok) :
    s.existing.length ≤ s.managed.length + s.pendingNames.card := by
  have hsplit := s.existing.length_eq_length_filter_add (fun c => decide (c ∈ s.managed))
  have hmanaged :
      (s.existing.filter fun c => decide (c ∈ s.managed)).length ≤ s.managed.length := by
    refine (List.subperm_of_subset (h.existing_nodup.filter _) fun c hc => ?_).length_le
    simpa using (List.mem_filter.mp hc).2
  have hpending : (s.existing.filter fun c => !decide (c ∈ s.managed)).length ≤
      s.pendingNames.card := by
    have hsub : ((s.existing.filter fun c => !decide (c ∈ s.managed)).map Container.name).toFinset ⊆
        s.pendingNames := by
      intro n hn
      obtain ⟨c, hc, rfl⟩ := List.mem_map.mp (List.mem_toFinset.mp hn)
      obtain ⟨he, hm⟩ := List.mem_filter.mp hc
      exact (h.existing_recorded c he).resolve_left (by simpa using hm)
    have hnodup : ((s.existing.filter fun c => !decide (c ∈ s.managed)).map
        Container.name).Nodup := by
      refine (h.existing_nodup.filter _).map_on fun c hc d hd hcd => ?_
      exact h.created_names c (h.existing_created c (List.mem_of_mem_filter hc)) d
        (h.existing_created d (List.mem_of_mem_filter hd)) hcd
    have := Finset.card_le_card hsub
    rwa [List.toFinset_card_of_nodup hnodup, List.length_map] at this
  omega

/-- What holds of a manager of `poolSize` slots and its callers at any time. -/
structure CapacityInvariant (poolSize : ℕ) (s : World) (threads : List (M Unit)) : Prop where
  /-- no slot is lost -/
  slots : s.slots + s.managed.length + s.pendingNames.card + threads.countP holdsSlot = poolSize
  /-- the semaphore is never released above its initial value -/
  release : ∀ p ∈ threads, p.head = some .releaseSlot → s.slots < s.poolSize ∧ s.poolSize = poolSize
  pool_managed : ∀ c ∈ s.pool, c ∈ s.managed
  pool_once : ∀ c ∈ s.pool, s.pool.count c = 1
  pool_not_leased : ∀ c ∈ s.pool, ∀ p ∈ threads, leased p ≠ some c
  leased_once : (threads.filterMap leased).Nodup
  /-- no more than `pool_size` containers exist -/
  existing_le : s.existing.length ≤ poolSize
  existing_recorded : ∀ c ∈ s.existing, c ∈ s.managed ∨ c.name ∈ s.pendingNames

/-- The size of the pool is set once and for all. -/
theorem poolSize_of_reachable {init : World → List (M Unit) → Prop}
    {spawn : World → List (M Unit) → M Unit → Prop} {poolSize : ℕ}
    {x : ThreadSystem.State World (M Unit)}
    (hinit : ∀ s threads, init s threads → s.poolSize = poolSize)
    (hx : (Prog.system sem init (fun s s' => ∃ c, s' = s.gone c) spawn).Reachable x) :
    x.shared.poolSize = poolSize := by
  refine hx.invariant (P := fun s => s.poolSize = poolSize) ?_ ?_ ?_
  · intro s threads h
    exact hinit s threads h
  · rintro s p s' p' ⟨h⟩ hs
    exact (sem_poolSize h).trans hs
  · rintro s s' ⟨c, rfl⟩ hs
    exact hs

/-- **Capacity of the pool**: no interleaving of any callers and no pattern of
Docker failures breaks the invariant. -/
theorem capacity {poolSize : ℕ} {imageId : Option String} {client : Bool}
    {x : ThreadSystem.State World (M Unit)}
    (hx : (anyCallers poolSize imageId client).Reachable x) :
    CapacityInvariant poolSize x.shared x.threads := by
  have hsize : x.shared.poolSize = poolSize := by
    refine poolSize_of_reachable ?_ hx
    rintro s threads ⟨rfl, rfl⟩
    rfl
  obtain ⟨ann, hthreads, howns, hinv⟩ := (capacityOutline poolSize imageId client).annotated hx
  have hinv : Inv False x.shared (ThreadSystem.tokens ann) := hinv
  have howns : ∀ a ∈ ann, Safe False (fun _ m => slot ∉ m) a.1 a.2 := howns
  have hw := hinv.core.world
  -- a thread has the token `slot` exactly where it holds a slot
  have hcount : (ThreadSystem.tokens ann).count slot = x.threads.countP holdsSlot := by
    rw [← hthreads]
    exact ThreadSystem.count_tokens fun a ha => count_slot (howns a ha) fun _ _ h => h
  have hslots := hinv.core.slots
  rw [hcount, hsize] at hslots
  have hof : ∀ p ∈ x.threads, ∃ a ∈ ann, a.1 = p := fun p hp => by
    rw [← hthreads] at hp
    exact List.mem_map.mp hp
  refine ⟨hslots, ?_, hw.pool_managed, ?_, ?_, ?_, ?_, hw.existing_recorded⟩
  · -- the thread about to release is among those that hold a slot
    intro p hp hhead
    have hpos : 0 < x.threads.countP holdsSlot :=
      List.countP_pos_iff.mpr ⟨p, hp, by simp [holdsSlot, hhead]⟩
    exact ⟨by omega, hsize⟩
  · exact fun c hc => List.count_eq_one_of_mem hw.pool_nodup hc
  · intro c hc p hp hleased
    -- a leased container is owned, and what is owned is not pooled
    obtain ⟨a, ha, rfl⟩ := hof p hp
    have hown := ThreadSystem.mem_tokens ha (owns_of_leased (howns a ha) hleased)
    exact (hinv.core.ok (owns c) hown).2.1 hc
  · rw [← hthreads]
    exact ThreadSystem.nodup_tokens (fun a ha c hc => owns_of_leased (howns a ha) hc)
      hinv.core.exclusive.owned_once
  · have := hw.existing_le
    omega

/-- The answers of a Docker daemon that never fails and numbers its containers. -/
def calm : (a : Action) → World → a.Response
  | .acquireCreateShutdownLock, _ | .releaseCreateShutdownLock, _ => ()
  | .acquireCleanupLock, _ | .releaseCleanupLock, _ => ()
  | .readShuttingDown, s => s.shuttingDown
  | .getClient, _ | .ensureSandboxImage, _ | .closeClient, _ => .ok ()
  | .acquireSlot, s => decide (0 < s.slots)
  | .releaseSlot, _ => .ok ()
  | .addPendingName, s => s.created.length
  | .containersCreate name, s => .created ⟨s.created.length, name⟩
  | .validateContainerMounts _, _ | .start _, _ | .validateContainerResourceLimits _, _ => .ok ()
  | .recordManaged _ _, _ | .markDegraded, _ | .raiseCapacity, _ | .setInitialized, _ => ()
  | .appendPool _, s => !s.shuttingDown
  | .popPool, s =>
    if s.shuttingDown then .shuttingDown
    else match s.pool with
      | [] => .empty
      | c :: _ => .leased c
  | .popManaged c, s => s.managed.any (·.id == c.id)
  | .discardPendingName name, s => decide (name ∈ s.pendingNames)
  | .readClient, s => s.client
  | .containersGet _, _ => .notFound
  | .kill _, _ | .remove _, _ => .ok ()
  | .containersList, _ => .ok []
  | .setShuttingDown, s => if s.shuttingDown then none else some s.managed
  | .snapshot, s => (s.managed, [], s.client)
  | .useLease _, _ => false
  | .beginExecution, _ | .endExecution, _ => ()

/-- A manager of one slot after `initialize_pool`, and the thread that ran it. -/
def warm : World × M Unit :=
  Prog.run sem calm 17 (World.fresh 1 (some "image") true, initializePool 1 (some "image"))

/-- A caller leases the container. -/
def warmLeased : World × M Unit := Prog.run sem calm 1 (warm.1, lease)

theorem reachable_warmLeased :
    (anyCallers 1 (some "image") true).Reachable ⟨warmLeased.1, [warm.2, warmLeased.2]⟩ := by
  have hinit : (anyCallers 1 (some "image") true).Reachable
      ⟨World.fresh 1 (some "image") true, []⟩ := .init ⟨rfl, rfl⟩
  have hpool : Caller 1 (some "image") (initializePool 1 (some "image")) := .initializePool
  have hwarm : (anyCallers 1 (some "image") true).Reachable ⟨warm.1, [warm.2]⟩ :=
    reachable_run calm 17 (_, _) (hinit.tail (.start hpool))
  have hlease : Caller 1 (some "image") lease := .lease
  exact reachable_run calm 1 (warm.1, lease) (hwarm.tail (.start hlease))

/-- One container is created and leased. -/
theorem capacity_warmLeased :
    [warm.2, warmLeased.2].filterMap leased = [⟨0, 0⟩] ∧ warmLeased.1.slots = 0 ∧
    CapacityInvariant 1 warmLeased.1 [warm.2, warmLeased.2] := 
  ⟨by decide +kernel, by decide +kernel, capacity reachable_warmLeased⟩

end ContainerManager
