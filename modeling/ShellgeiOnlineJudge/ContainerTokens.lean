/-
Tokens and the invariant of the container pool.

A thread of the manager carries tokens for what it holds on its way through
the methods: an acquired slot, exclusive hold of a container, a pending name
under the creation lock, and facts it has learned that stay true.  `Inv` is
the invariant that relates them to the state:

* `Core` — what holds for any callers whatsoever;
* `Live` — what holds in addition when the executions are `bounded`, that is,
  the pool was initialised once and at most `pool_size` executions are active,
  as long as no shutdown has begun.
-/
import ShellgeiOnlineJudge.ContainerManager

namespace ContainerManager

/-- What a thread holds or knows. -/
inductive Token
  /-- a slot that is acquired and not recorded, or no longer recorded -/
  | slot
  /-- the container is this thread's: leased, just created, or being destroyed -/
  | owns (c : Container)
  /-- holds `_create_shutdown_lock`, no creation under way -/
  | lock
  /-- holds the lock and is about to create a container under the name -/
  | creating (name : ℕ)
  /-- holds the lock; the creation under the name has been answered -/
  | pending (name : ℕ)
  /-- holds the lock; the container was created under the name, not yet recorded -/
  | fresh (name : ℕ) (c : Container)
  /-- the name was pending when `shutdown_pool` looked -/
  | stale (name : ℕ)
  /-- the container does not exist -/
  | gone (c : Container)
  /-- no container with the name exists, or will exist -/
  | goneName (name : ℕ)
  /-- the container was created by this manager -/
  | known (c : Container)
  | sawShutdown
  /-- an active execution whose container the pool need not miss -/
  | idle
  /-- an active execution that owes the pool a container -/
  | owed
  /-- `initialize_pool` still has to add so many containers -/
  | init (remaining : ℕ)
  /-- a free slot is reserved for this thread -/
  | entitled
  /-- the pool is degraded, or is shutting down -/
  | sawDegraded
  /-- a Docker call has failed, or the pool is shutting down -/
  | sawRaised
  deriving DecidableEq

namespace Token

/-- The tokens of a thread that holds `_create_shutdown_lock`. -/
def isLock : Token → Bool
  | lock | creating _ | pending _ | fresh _ _ => true
  | _ => false

/-- The tokens of a thread that has a name under way. -/
def isName : Token → Bool
  | creating _ | pending _ | fresh _ _ => true
  | _ => false

/-- The token is held by an initialization. -/
def isInit : Token → Bool
  | init _ => true
  | _ => false

/-- The tokens that no count is kept of: a thread may forget them at any time. -/
def droppable : Token → Bool
  | slot | idle | owed | entitled => false
  | lock | creating _ | pending _ | fresh _ _ => false
  | _ => true

/-- How many tokens of a kind there are. -/
def number (kind : Token → Bool) (m : Multiset Token) : ℕ := m.countP (kind ·)

@[simp] theorem number_cons (kind : Token → Bool) (t : Token) (m : Multiset Token) :
    number kind (t ::ₘ m) = number kind m + if kind t then 1 else 0 := by
  simp [number, Multiset.countP_cons]

@[simp] theorem number_add (kind : Token → Bool) (m m' : Multiset Token) :
    number kind (m + m') = number kind m + number kind m' :=
  Multiset.countP_add _ _ _

theorem number_pos {kind : Token → Bool} {m : Multiset Token} {t : Token} (ht : t ∈ m)
    (hk : kind t = true) : 0 < number kind m :=
  Multiset.countP_pos.mpr ⟨t, ht, hk⟩

/-- What a token says about the state.  The last facts are only kept for
bounded executions before a shutdown. -/
def Ok (bounded : Prop) (s : World) : Token → Prop
  | owns c => c ∈ s.created ∧ c ∉ s.pool ∧ (s.shuttingDown = false → c ∈ s.managed)
  | creating name => name ∈ s.pendingNames ∧ ∀ c ∈ s.created, c.name ≠ name
  | pending name => name ∈ s.pendingNames
  | fresh name c => name ∈ s.pendingNames ∧ c ∈ s.created ∧ c.name = name
  | stale name => name ∈ s.usedNames
  | gone c => c ∈ s.created ∧ c ∉ s.existing
  | known c => c ∈ s.created
  | goneName name => name ∈ s.usedNames ∧ ∀ c ∈ s.existing, c.name ≠ name
  | sawShutdown => s.shuttingDown = true
  | init remaining => bounded → s.shuttingDown = false ∧
      s.initialized = false ∧ s.pool.length + remaining = s.poolSize
  | sawDegraded => bounded → s.shuttingDown = false → s.degraded = true
  | sawRaised => bounded → s.shuttingDown = false → s.raised = true
  | slot | lock | idle | owed | entitled => True

end Token

open Token

/-- What holds of the state alone. -/
structure World.Ok (s : World) : Prop where
  pool_nodup : s.pool.Nodup
  pool_managed : ∀ c ∈ s.pool, c ∈ s.managed
  managed_created : ∀ c ∈ s.managed, c ∈ s.created
  managed_nodup : s.managed.Nodup
  managed_names : ∀ c ∈ s.managed, c.name ∉ s.pendingNames
  created_ids : ∀ c ∈ s.created, ∀ d ∈ s.created, c.id = d.id → c = d
  created_names : ∀ c ∈ s.created, ∀ d ∈ s.created, c.name = d.name → c = d
  created_used : ∀ c ∈ s.created, c.name ∈ s.usedNames
  existing_created : ∀ c ∈ s.existing, c ∈ s.created
  existing_nodup : s.existing.Nodup
  existing_recorded : ∀ c ∈ s.existing, c ∈ s.managed ∨ c.name ∈ s.pendingNames
  pending_used : ∀ name ∈ s.pendingNames, name ∈ s.usedNames
  shutdown : s.shuttingDown = true → s.pool = []

/-- What holds of the tokens alone: which of them exclude each other. -/
structure Exclusive (locked : Bool) (m : Multiset Token) : Prop where
  owned_once : ∀ c, m.count (owns c) ≤ 1
  lock_once : number isLock m = if locked then 1 else 0
  fresh_not_owned : ∀ name c, fresh name c ∈ m → owns c ∉ m
  stale_not_locked : ∀ name, stale name ∈ m →
    creating name ∉ m ∧ pending name ∉ m ∧ ∀ c, fresh name c ∉ m
  goneName_not_creating : ∀ name, goneName name ∈ m → creating name ∉ m

/-- The part of the invariant that does not depend on the callers. -/
structure Core (bounded : Prop) (s : World) (m : Multiset Token) : Prop where
  world : s.Ok
  /-- every slot is free, recorded, or held by a thread on its way -/
  slots : s.slots + s.managed.length + s.pendingNames.card + m.count slot = s.poolSize
  ok : ∀ t ∈ m, t.Ok bounded s
  exclusive : Exclusive s.createShutdownLock m

/-- The part of the invariant for bounded executions before any shutdown: the
pool and the containers owed to it make up `pool_size` unless it is degraded,
and as long as no Docker call has failed every free slot is reserved. -/
structure Live (s : World) (m : Multiset Token) : Prop where
  covered : s.initialized = true → s.degraded = false → s.pool.length + m.count owed = s.poolSize
  active : m.count idle + m.count owed = s.active
  active_le : s.active ≤ s.poolSize
  notInit : s.initialized = false → s.active = 0
  clean : s.raised = false →
    s.degraded = false ∧ s.slots = m.count entitled ∧ s.pendingNames.card = number isName m
  init_once : number isInit m ≤ 1

/-- The invariant of the manager. -/
structure Inv (bounded : Prop) (s : World) (m : Multiset Token) : Prop where
  core : Core bounded s m
  image : bounded → s.imageId.isSome = true
  failed : bounded → s.shuttingDown = true → s.initialized = false
  live : bounded → s.shuttingDown = false → Live s m

/-! ### Which tokens exclude each other -/

variable {bounded : Prop} {s s' : World} {F : Multiset Token} {t r : Token} {locked : Bool}

namespace Exclusive

theorem drop (h : Exclusive locked (t ::ₘ F)) (ht : t.isLock = false) : Exclusive locked F where
  owned_once c := le_trans (Multiset.count_le_count_cons _ _ _) (h.owned_once c)
  lock_once := by simpa [ht] using h.lock_once
  fresh_not_owned name c hf ho :=
    h.fresh_not_owned name c (Multiset.mem_cons_of_mem hf) (Multiset.mem_cons_of_mem ho)
  stale_not_locked name hs := by
    have := h.stale_not_locked name (Multiset.mem_cons_of_mem hs)
    simp only [Multiset.mem_cons, not_or] at this
    exact ⟨this.1.2, this.2.1.2, fun c => (this.2.2 c).2⟩
  goneName_not_creating name hg hc :=
    h.goneName_not_creating name (Multiset.mem_cons_of_mem hg) (Multiset.mem_cons_of_mem hc)

/-- While one thread holds the creation lock, no other thread does. -/
theorem no_lock (h : Exclusive locked (t ::ₘ F)) (ht : t.isLock = true) :
    ∀ u ∈ F, u.isLock = false := by
  intro u hu
  by_contra hc
  have hpos : 0 < number isLock F := number_pos hu (by simpa using hc)
  have hone := h.lock_once
  rw [number_cons, if_pos ht] at hone
  split at hone <;> omega

theorem not_mem_of_lock (h : Exclusive locked (t ::ₘ F)) (ht : t.isLock = true)
    (ht' : r.isLock = true) : r ∉ F := by
  intro hmem
  have := h.no_lock ht r hmem
  simp [ht'] at this

theorem acquire (h : Exclusive false F) : Exclusive true (lock ::ₘ F) where
  owned_once c := by simpa [Multiset.count_cons] using h.owned_once c
  lock_once := by simpa [isLock] using h.lock_once
  fresh_not_owned name c := by simpa using h.fresh_not_owned name c
  stale_not_locked name := by simpa using h.stale_not_locked name
  goneName_not_creating name := by simpa using h.goneName_not_creating name

theorem release (h : Exclusive locked (lock ::ₘ F)) : Exclusive false F where
  owned_once c := by simpa [Multiset.count_cons] using h.owned_once c
  lock_once := by
    refine Multiset.countP_eq_zero.mpr fun u hu => ?_
    simp [h.no_lock rfl u hu]
  fresh_not_owned name c := by simpa using h.fresh_not_owned name c
  stale_not_locked name := by simpa using h.stale_not_locked name
  goneName_not_creating name := by simpa using h.goneName_not_creating name

/-- The thread with the creation lock moves on to another of its tokens. -/
theorem swap (h : Exclusive locked (t ::ₘ F)) (ht : t.isLock = true) (ht' : r.isLock = true)
    (hfresh : ∀ name c, r = fresh name c → owns c ∉ F)
    (hstale : ∀ name, stale name ∈ F →
      r ≠ creating name ∧ r ≠ pending name ∧ ∀ c, r ≠ fresh name c)
    (hgone : ∀ name, goneName name ∈ F → r ≠ creating name) :
    Exclusive locked (r ::ₘ F) where
  owned_once c := by
    have hne : owns c ≠ r := by rintro rfl; simp [isLock] at ht'
    have := h.owned_once c
    rw [Multiset.count_cons_of_ne hne]
    exact le_trans (Multiset.count_le_count_cons _ _ _) this
  lock_once := by simpa [ht, ht'] using h.lock_once
  fresh_not_owned name c hf := by
    have hmem : fresh name c ∉ F := h.not_mem_of_lock ht rfl
    have hne : owns c ≠ r := by rintro rfl; simp [isLock] at ht'
    -- a fresh container is that of the thread with the lock
    have heq : r = fresh name c := by
      rcases Multiset.mem_cons.mp hf with hf | hf
      · exact hf.symm
      · exact absurd hf hmem
    simp [hne, hfresh name c heq]
  stale_not_locked name hs := by
    have hne : stale name ≠ r := by rintro rfl; simp [isLock] at ht'
    have hF : stale name ∈ F := by
      rcases Multiset.mem_cons.mp hs with hs | hs
      · exact absurd hs hne
      · exact hs
    -- no other thread has a name under way, and this one has another name
    obtain ⟨h1, h2, h3⟩ := hstale name hF
    have hc : creating name ∉ F := h.not_mem_of_lock ht rfl
    have hp : pending name ∉ F := h.not_mem_of_lock ht rfl
    have hfr : ∀ c, fresh name c ∉ F := fun c => h.not_mem_of_lock ht rfl
    simp [h1.symm, h2.symm, hc, hp, hfr, fun c => (h3 c).symm]
  goneName_not_creating name hg := by
    have hne : goneName name ≠ r := by rintro rfl; simp [isLock] at ht'
    have hF : goneName name ∈ F := by
      rcases Multiset.mem_cons.mp hg with hg | hg
      · exact absurd hg hne
      · exact hg
    have hc : creating name ∉ F := h.not_mem_of_lock ht rfl
    simp [(hgone name hF).symm, hc]

/-- A thread takes hold of a container nobody holds. -/
theorem own {c : Container} (h : Exclusive locked F) (hc : owns c ∉ F)
    (hf : ∀ name, fresh name c ∉ F) : Exclusive locked (owns c ::ₘ F) where
  owned_once d := by
    have := h.owned_once d
    rw [Multiset.count_cons]
    split
    · next hd =>
      obtain rfl : d = c := by simpa using hd
      simp [Multiset.count_eq_zero.mpr hc]
    · simpa using this
  lock_once := by simpa [isLock] using h.lock_once
  fresh_not_owned name d hd := by
    have hF : fresh name d ∈ F := by simpa using hd
    have hne : d ≠ c := by rintro rfl; exact hf name hF
    simpa [hne] using h.fresh_not_owned name d hF
  stale_not_locked name := by simpa using h.stale_not_locked name
  goneName_not_creating name := by simpa using h.goneName_not_creating name

/-- A thread takes a token that excludes no other. -/
theorem learn (h : Exclusive locked F) (ht : t.isLock = false) (ho : ∀ c, t ≠ owns c)
    (hs : ∀ name, t = stale name → creating name ∉ F ∧ pending name ∉ F ∧ ∀ c, fresh name c ∉ F)
    (hg : ∀ name, t = goneName name → creating name ∉ F) : Exclusive locked (t ::ₘ F) where
  owned_once c := by
    rw [Multiset.count_cons_of_ne (ho c).symm]
    exact h.owned_once c
  lock_once := by simpa [ht] using h.lock_once
  fresh_not_owned name c hf := by
    have hne : fresh name c ≠ t := by rintro rfl; simp [isLock] at ht
    have hF : fresh name c ∈ F := (Multiset.mem_cons.mp hf).resolve_left hne
    simpa [(ho c).symm] using h.fresh_not_owned name c hF
  stale_not_locked name hst := by
    have h1 : creating name ≠ t := by rintro rfl; simp [isLock] at ht
    have h2 : pending name ≠ t := by rintro rfl; simp [isLock] at ht
    have h3 : ∀ c, fresh name c ≠ t := by rintro c rfl; simp [isLock] at ht
    have := (Multiset.mem_cons.mp hst).elim (fun e => hs name e.symm) (h.stale_not_locked name)
    simpa [h1, h2, h3] using this
  goneName_not_creating name hgn := by
    have h1 : creating name ≠ t := by rintro rfl; simp [isLock] at ht
    have := (Multiset.mem_cons.mp hgn).elim (fun e => hg name e.symm) (h.goneName_not_creating name)
    simpa [h1] using this

end Exclusive

/-! ### Forgetting and learning tokens -/

theorem Token.isLock_of_droppable (ht : t.droppable = true) : t.isLock = false := by
  cases t <;> simp_all [droppable, isLock]

theorem Token.slot_ne_of_droppable (ht : t.droppable = true) : slot ≠ t := by
  rintro rfl
  simp [droppable] at ht

theorem Core.drop (h : Core bounded s (t ::ₘ F)) (ht : t.isLock = false) (hslot : slot ≠ t) :
    Core bounded s F where
  world := h.world
  slots := by simpa [Multiset.count_cons, hslot] using h.slots
  ok u hu := h.ok u (Multiset.mem_cons_of_mem hu)
  exclusive := h.exclusive.drop ht

theorem Core.drop_all (B : Multiset Token) (h : Core bounded s (B + F))
    (hslot : B.count slot = 0) (hlock : number isLock B = 0) : Core bounded s F := by
  induction B using Multiset.induction_on with
  | empty => simpa using h
  | cons t B ih =>
    rw [Multiset.cons_add] at h
    have hne : slot ≠ t := by rintro rfl; simp at hslot
    have ht : t.isLock = false := by
      by_contra hc
      simp [hc] at hlock
    refine ih (h.drop ht hne) ?_ ?_
    · simpa [Multiset.count_cons, hne] using hslot
    · simpa [ht] using hlock

theorem Core.learn (h : Core bounded s F) (ht : t.isLock = false) (hslot : slot ≠ t)
    (ho : ∀ c, t ≠ owns c) (hok : t.Ok bounded s)
    (hs : ∀ name, t = stale name → creating name ∉ F ∧ pending name ∉ F ∧ ∀ c, fresh name c ∉ F)
    (hg : ∀ name, t = goneName name → creating name ∉ F) : Core bounded s (t ::ₘ F) where
  world := h.world
  slots := by simpa [Multiset.count_cons, hslot] using h.slots
  ok u hu := by
    rcases Multiset.mem_cons.mp hu with rfl | hu
    · exact hok
    · exact h.ok u hu
  exclusive := h.exclusive.learn ht ho hs hg

/-- `Live` only looks at a few counts of the tokens. -/
theorem Live.retoken {m n : Multiset Token} (h : Live s m) (howed : n.count owed = m.count owed)
    (hidle : n.count idle = m.count idle) (hent : n.count entitled = m.count entitled)
    (hname : number isName n = number isName m) (hinit : number isInit n ≤ number isInit m) :
    Live s n :=
  { h with
    covered := by rw [howed]; exact h.covered
    active := by rw [hidle, howed]; exact h.active
    clean := by rw [hent, hname]; exact h.clean
    init_once := le_trans hinit h.init_once }

/-- A step of the slots and the names: as long as no call has failed, the reserved
slots and the names under way are counted along. -/
theorem Live.recount {m n : Multiset Token} (h : Live s m) {slots : ℕ}
    {pendingNames usedNames : Finset ℕ} {managed : List Container}
    (howed : n.count owed = m.count owed) (hidle : n.count idle = m.count idle)
    (hinit : number isInit n ≤ number isInit m)
    (hclean : s.raised = false → s.slots = m.count entitled →
      s.pendingNames.card = number isName m →
      slots = n.count entitled ∧ pendingNames.card = number isName n) :
    Live { s with
      slots := slots, pendingNames := pendingNames, usedNames := usedNames,
      managed := managed } n where
  covered := by
    rw [howed]
    exact h.covered
  active := by
    rw [hidle, howed]
    exact h.active
  active_le := h.active_le
  notInit := h.notInit
  clean hr := by
    obtain ⟨hd, hfree, hname⟩ := h.clean hr
    exact ⟨hd, hclean hr hfree hname⟩
  init_once := le_trans hinit h.init_once

theorem Live.drop (h : Live s (t ::ₘ F)) (ht : t.droppable = true) : Live s F := by
  have hidle : idle ≠ t := by rintro rfl; simp [droppable] at ht
  have howed : owed ≠ t := by rintro rfl; simp [droppable] at ht
  have hent : entitled ≠ t := by rintro rfl; simp [droppable] at ht
  have hname : t.isName = false := by cases t <;> simp_all [droppable, isName]
  refine h.retoken ?_ ?_ ?_ ?_ ?_ <;> simp [hidle, howed, hent, hname]

/-- A thread may forget what no count is kept of. -/
theorem Inv.drop (h : Inv bounded s (t ::ₘ F)) (ht : t.droppable = true) : Inv bounded s F :=
  { h with
    core := h.core.drop (isLock_of_droppable ht) (slot_ne_of_droppable ht)
    live := fun hb hs => (h.live hb hs).drop ht }

/-- A reserved slot may be given up once a Docker call has failed. -/
theorem Inv.drop_entitled (h : Inv bounded s (entitled ::ₘ F)) (hr : sawRaised ∈ F) :
    Inv bounded s F :=
  { h with
    core := h.core.drop rfl (by simp)
    live := fun hb hs => by
      have hraised : s.raised = true := h.core.ok sawRaised (by simp [hr]) hb hs
      exact (h.live hb hs).recount (by simp) (by simp) (by simp [isInit])
        fun hnot => by simp [hraised] at hnot }

/-- Once the shutdown has begun, only slots and the creation lock count. -/
theorem Inv.drop_of_shutdown (h : Inv bounded s (t ::ₘ F)) (hs : s.shuttingDown = true)
    (ht : t.isLock = false) (hslot : slot ≠ t) : Inv bounded s F :=
  { h with
    core := h.core.drop ht hslot
    live := fun _ hs' => by simp [hs] at hs' }

end ContainerManager
