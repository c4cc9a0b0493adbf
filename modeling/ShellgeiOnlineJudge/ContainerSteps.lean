/-
What each atomic step of the container pool does to the invariant.

For every action that changes the state there is one lemma: from the invariant
with the tokens the acting thread has before the step, to the invariant of the
new state with its tokens after it, for any tokens `F` of the other threads.
-/
import ShellgeiOnlineJudge.ContainerTokens

namespace ContainerManager

open Token

variable {bounded : Prop} {s : World} {F : Multiset Token} {t : Token} {name : ℕ}

theorem dictSet_of_fresh {d : List Container} {c : Container}
    (h : ∀ e ∈ d, e.id ≠ c.id) : dictSet d c = d ++ [c] := by
  rw [dictSet, if_neg]
  simpa using h

/-- A name that was never used becomes pending. -/
theorem World.Ok.insertPending (h : s.Ok) (hn : name ∉ s.usedNames) :
    World.Ok { s with
      pendingNames := insert name s.pendingNames, usedNames := insert name s.usedNames } :=
  { h with
    managed_names := fun c hc hp => by
      rcases Finset.mem_insert.mp hp with he | hp
      · exact hn (he ▸ h.created_used c (h.managed_created c hc))
      · exact h.managed_names c hc hp
    created_used := fun c hc => Finset.mem_insert_of_mem (h.created_used c hc)
    existing_recorded := fun c hc => (h.existing_recorded c hc).imp_right Finset.mem_insert_of_mem
    pending_used := fun n hp => by
      rcases Finset.mem_insert.mp hp with rfl | hp
      · exact Finset.mem_insert_self _ _
      · exact Finset.mem_insert_of_mem (h.pending_used n hp) }

/-- Docker creates a container with an ID of its own under a pending name that no
container has. -/
theorem World.Ok.created {c : Container} (h : s.Ok) (hpend : c.name ∈ s.pendingNames)
    (hid : ∀ d ∈ s.created, d.id ≠ c.id) (hname : ∀ d ∈ s.created, d.name ≠ c.name) :
    World.Ok { s with created := c :: s.created, existing := c :: s.existing } :=
  have hnew : c ∉ s.created := fun hc => hid c hc rfl
  { h with
    managed_created := fun d hd => List.mem_cons_of_mem _ (h.managed_created d hd)
    created_ids := fun d hd e he hde => by
      rcases List.mem_cons.mp hd with hd' | hd' <;> rcases List.mem_cons.mp he with he' | he'
      · rw [hd', he']
      · exact absurd (hd' ▸ hde).symm (hid e he')
      · exact absurd (he' ▸ hde) (hid d hd')
      · exact h.created_ids d hd' e he' hde
    created_names := fun d hd e he hde => by
      rcases List.mem_cons.mp hd with hd' | hd' <;> rcases List.mem_cons.mp he with he' | he'
      · rw [hd', he']
      · exact absurd (hd' ▸ hde).symm (hname e he')
      · exact absurd (he' ▸ hde) (hname d hd')
      · exact h.created_names d hd' e he' hde
    created_used := fun d hd => by
      rcases List.mem_cons.mp hd with rfl | hd
      · exact h.pending_used _ hpend
      · exact h.created_used d hd
    existing_created := fun d hd => by
      rcases List.mem_cons.mp hd with rfl | hd
      · exact List.mem_cons_self
      · exact List.mem_cons_of_mem _ (h.existing_created d hd)
    existing_nodup := List.nodup_cons.mpr
      ⟨fun he => hnew (h.existing_created c he), h.existing_nodup⟩
    existing_recorded := fun d hd => by
      rcases List.mem_cons.mp hd with rfl | hd
      · exact .inr hpend
      · exact h.existing_recorded d hd }

/-- A created container is recorded, and its name is no longer pending. -/
theorem World.Ok.recorded {c : Container} (h : s.Ok) (hcreated : c ∈ s.created)
    (hnew : c ∉ s.managed) :
    World.Ok { s with
      pendingNames := s.pendingNames.erase c.name, managed := s.managed ++ [c] } :=
  { h with
    pool_managed := fun d hd => List.mem_append_left _ (h.pool_managed d hd)
    managed_created := fun d hd => by
      rcases List.mem_append.mp hd with hd | hd
      · exact h.managed_created d hd
      · exact List.mem_singleton.mp hd ▸ hcreated
    managed_nodup := List.concat_eq_append ▸ h.managed_nodup.concat hnew
    managed_names := fun d hd => by
      rcases List.mem_append.mp hd with hd | hd
      · exact fun hn => h.managed_names d hd (Finset.mem_of_mem_erase hn)
      · rw [List.mem_singleton.mp hd]
        exact Finset.notMem_erase c.name _
    existing_recorded := fun d hd => by
      rcases h.existing_recorded d hd with hm | hn
      · exact .inl (List.mem_append_left _ hm)
      · by_cases hdn : d.name = c.name
        · have : d = c := h.created_names d (h.existing_created d hd) c hcreated hdn
          exact .inl (by simp [this])
        · exact .inr (Finset.mem_erase.mpr ⟨hdn, hn⟩)
    pending_used := fun n hn => h.pending_used n (Finset.mem_of_mem_erase hn) }

/-- IDs are unique, so the record that is removed is that of the container. -/
theorem World.Ok.dictPop_eq {c : Container} (h : s.Ok) (hc : c ∈ s.managed) :
    dictPop s.managed c = s.managed.erase c := by
  rw [h.managed_nodup.erase_eq_filter]
  refine List.filter_congr fun d hd => ?_
  by_cases hdc : d = c
  · simp [hdc]
  · have : d.id ≠ c.id := fun hid =>
      hdc (h.created_ids d (h.managed_created d hd) c (h.managed_created c hc) hid)
    exact (bne_iff_ne.mpr this).trans (bne_iff_ne.mpr hdc).symm

/-- The record of a container that neither exists nor is pooled is removed. -/
theorem World.Ok.eraseManaged {c : Container} (h : s.Ok) (he : c ∉ s.existing)
    (hp : c ∉ s.pool) : World.Ok { s with managed := s.managed.erase c } :=
  have hmem : ∀ {d}, d ≠ c → d ∈ s.managed → d ∈ s.managed.erase c := fun hd hm =>
    (List.mem_erase_of_ne hd).mpr hm
  { h with
    pool_managed := fun d hd => hmem (by rintro rfl; exact hp hd) (h.pool_managed d hd)
    managed_created := fun d hd => h.managed_created d (List.mem_of_mem_erase hd)
    managed_nodup := h.managed_nodup.erase c
    managed_names := fun d hd => h.managed_names d (List.mem_of_mem_erase hd)
    existing_recorded := fun d hd =>
      (h.existing_recorded d hd).imp_left (hmem (by rintro rfl; exact he hd)) }

/-- A name under which no container exists need not be pending. -/
theorem World.Ok.erasePending (h : s.Ok) (hgone : ∀ c ∈ s.existing, c.name ≠ name) :
    World.Ok { s with pendingNames := s.pendingNames.erase name } :=
  { h with
    managed_names := fun c hc hn => h.managed_names c hc (Finset.mem_of_mem_erase hn)
    existing_recorded := fun c hc => (h.existing_recorded c hc).imp_right fun hn =>
      Finset.mem_erase.mpr ⟨hgone c hc, hn⟩
    pending_used := fun n hn => h.pending_used n (Finset.mem_of_mem_erase hn) }

/-- A free slot becomes a token. -/
theorem Core.takeSlot (h : Core bounded s F) (hs : 0 < s.slots) :
    Core bounded { s with slots := s.slots - 1 } (slot ::ₘ F) where
  world := { h.world with }
  slots := by
    have := h.slots
    simp only [Multiset.count_cons_self]
    omega
  ok := by
    intro u hu
    rcases Multiset.mem_cons.mp hu with rfl | hu
    · trivial
    · exact h.ok u hu
  exclusive := h.exclusive.learn rfl (by simp) (by simp) (by simp)

/-- An execution is counted as one of two tokens. -/
theorem count_execution (F : Multiset Token) (ht : t = idle ∨ t = owed) :
    (t ::ₘ F).count idle + (t ::ₘ F).count owed = F.count idle + F.count owed + 1 := by
  rcases ht with rfl | rfl
  · simp only [Multiset.count_cons_self, ne_eq, reduceCtorEq, not_false_eq_true,
      Multiset.count_cons_of_ne]
    omega
  · simp only [Multiset.count_cons_self, ne_eq, reduceCtorEq, not_false_eq_true,
      Multiset.count_cons_of_ne]
    omega

theorem number_execution (F : Multiset Token) (ht : t = idle ∨ t = owed) :
    (t ::ₘ F).count entitled = F.count entitled ∧ number isName (t ::ₘ F) = number isName F ∧
      number isInit (t ::ₘ F) = number isInit F := by
  rcases ht with rfl | rfl
  · simp [isName, isInit]
  · simp [isName, isInit]

/-- An execution ends. -/
theorem Live.endExecution (h : Live s (t ::ₘ F)) (ht : t = idle ∨ t = owed)
    (hcovered : s.initialized = true → s.degraded = false →
      s.pool.length + F.count owed = s.poolSize) :
    Live { s with active := s.active - 1 } F := by
  have hact := h.active
  have hle := h.active_le
  rw [count_execution F ht] at hact
  obtain ⟨hentitled, hname, hinit⟩ := number_execution F ht
  exact {
    covered := hcovered
    active := by
      show F.count idle + F.count owed = s.active - 1
      omega
    active_le := by
      show s.active - 1 ≤ s.poolSize
      omega
    notInit := fun hi => by
      show s.active - 1 = 0
      rw [h.notInit hi]
    clean := by
      rw [← hentitled, ← hname]
      exact h.clean
    init_once := by
      rw [← hinit]
      exact h.init_once }

/-- The pool changes, and with it whether an execution owes it a container. -/
theorem Live.repool {u : Token} {pool : List Container} (h : Live s (t ::ₘ F))
    (ht : t = idle ∨ t = owed) (hu : u = idle ∨ u = owed)
    (hcovered : s.initialized = true → s.degraded = false →
      pool.length + (u ::ₘ F).count owed = s.poolSize) :
    Live { s with pool := pool } (u ::ₘ F) := by
  obtain ⟨hentitled, hname, hinit⟩ := number_execution F ht
  obtain ⟨hentitled', hname', hinit'⟩ := number_execution F hu
  exact {
    covered := hcovered
    active := by
      rw [count_execution F hu, ← count_execution F ht]
      exact h.active
    active_le := h.active_le
    notInit := h.notInit
    clean := by
      rw [hentitled', hname', ← hentitled, ← hname]
      exact h.clean
    init_once := by
      rw [hinit', ← hinit]
      exact h.init_once }

namespace Inv

/-- The fields that only the locks, the client and the image check use. -/
theorem neutral (h : Inv bounded s F) (cleanupLock client imageValidated : Bool) :
    Inv bounded { s with
      cleanupLock := cleanupLock, client := client, imageValidated := imageValidated } F where
  core := { h.core with world := { h.core.world with } }
  image := h.image
  failed := h.failed
  live hb hs := { h.live hb hs with }

/-- A thread learns something that holds of the state. -/
theorem learn (h : Inv bounded s F) (hd : t.droppable = true) (hi : t.isInit = false)
    (ho : ∀ c, t ≠ owns c) (hok : t.Ok bounded s)
    (hs : ∀ name, t = stale name → creating name ∉ F ∧ pending name ∉ F ∧ ∀ c, fresh name c ∉ F)
    (hg : ∀ name, t = goneName name → creating name ∉ F) : Inv bounded s (t ::ₘ F) where
  core := h.core.learn (isLock_of_droppable hd) (slot_ne_of_droppable hd) ho hok hs hg
  image := h.image
  failed := h.failed
  live hb hs' := by
    have hlive := h.live hb hs'
    have hidle : idle ≠ t := by rintro rfl; simp [droppable] at hd
    have howed : owed ≠ t := by rintro rfl; simp [droppable] at hd
    have hent : entitled ≠ t := by rintro rfl; simp [droppable] at hd
    have hname : t.isName = false := by cases t <;> simp_all [droppable, isName]
    refine hlive.retoken ?_ ?_ ?_ ?_ ?_ <;>
      simp [hidle, howed, hent, hname, hi]

theorem learn_sawShutdown (h : Inv bounded s F) (hs : s.shuttingDown = true) :
    Inv bounded s (sawShutdown ::ₘ F) :=
  h.learn rfl rfl (by simp) hs (by simp) (by simp)

theorem learn_known (h : Inv bounded s F) {c : Container} (hc : c ∈ s.created) :
    Inv bounded s (known c ::ₘ F) :=
  h.learn rfl rfl (by simp) hc (by simp) (by simp)

theorem learn_gone (h : Inv bounded s F) {c : Container} (hc : c ∈ s.created)
    (he : c ∉ s.existing) : Inv bounded s (gone c ::ₘ F) :=
  h.learn rfl rfl (by simp) ⟨hc, he⟩ (by simp) (by simp)

theorem learn_sawRaised (h : Inv bounded s F)
    (hr : bounded → s.shuttingDown = false → s.raised = true) :
    Inv bounded s (sawRaised ::ₘ F) :=
  h.learn rfl rfl (by simp) hr (by simp) (by simp)

theorem learn_sawDegraded (h : Inv bounded s F)
    (hd : bounded → s.shuttingDown = false → s.degraded = true) :
    Inv bounded s (sawDegraded ::ₘ F) :=
  h.learn rfl rfl (by simp) hd (by simp) (by simp)

theorem learn_goneName (h : Inv bounded s F) {name : ℕ} (hu : name ∈ s.usedNames)
    (he : ∀ c ∈ s.existing, c.name ≠ name) (hc : creating name ∉ F) :
    Inv bounded s (goneName name ::ₘ F) :=
  h.learn rfl rfl (by simp) ⟨hu, he⟩ (by simp) (by rintro n h; cases h; exact hc)

/-- A Docker call raises. -/
theorem raise (h : Inv bounded s F) : Inv bounded { s with raised := true } F where
  core := {
    h.core with
    world := { h.core.world with }
    ok := by
      intro u hu
      have := h.core.ok u hu
      cases u <;> simp_all [Ok] }
  image := h.image
  failed := h.failed
  live hb hs := { h.live hb hs with clean := by simp }

/-- Containers disappear. -/
theorem shrink (h : Inv bounded s F) {existing : List Container}
    (hsub : existing.Sublist s.existing) : Inv bounded { s with existing := existing } F where
  core := {
    h.core with
    world := {
      h.core.world with
      existing_created := fun c hc => h.core.world.existing_created c (hsub.subset hc)
      existing_nodup := hsub.nodup h.core.world.existing_nodup
      existing_recorded := fun c hc => h.core.world.existing_recorded c (hsub.subset hc) }
    ok := by
      intro u hu
      have hu' := h.core.ok u hu
      cases u with
      | gone c => exact ⟨hu'.1, fun hc => hu'.2 (hsub.subset hc)⟩
      | goneName name => exact ⟨hu'.1, fun c hc => hu'.2 c (hsub.subset hc)⟩
      | _ => exact hu' }
  image := h.image
  failed := h.failed
  live hb hs := { h.live hb hs with }

/-! ### The creation lock -/

theorem acquireLock (h : Inv bounded s F) (hl : s.createShutdownLock = false) :
    Inv bounded { s with createShutdownLock := true } (lock ::ₘ F) where
  core := {
    world := { h.core.world with }
    slots := by simpa [Multiset.count_cons] using h.core.slots
    ok := by
      intro u hu
      rcases Multiset.mem_cons.mp hu with rfl | hu
      · trivial
      · exact h.core.ok u hu
    exclusive := (hl ▸ h.core.exclusive).acquire }
  image := h.image
  failed := h.failed
  live hb hs := by
    have hlive := (h.live hb hs).retoken (n := lock ::ₘ F) (by simp) (by simp) (by simp)
      (by simp [isName]) (by simp [isInit])
    exact { hlive with }

theorem releaseLock (h : Inv bounded s (lock ::ₘ F)) :
    Inv bounded { s with createShutdownLock := false } F where
  core := {
    world := { h.core.world with }
    slots := by simpa [Multiset.count_cons] using h.core.slots
    ok := fun u hu => h.core.ok u (Multiset.mem_cons_of_mem hu)
    exclusive := h.core.exclusive.release }
  image := h.image
  failed := h.failed
  live hb hs := by
    have hlive := (h.live hb hs).retoken (n := F) (by simp) (by simp) (by simp)
      (by simp [isName]) (by simp [isInit])
    exact { hlive with }

/-! ### Slots -/

/-- `acquire(blocking=False)` succeeds: either the slot was reserved, or a
Docker call has failed before. -/
theorem acquireSlot (h : Inv bounded s (entitled ::ₘ F)) (hs : 0 < s.slots) :
    Inv bounded { s with slots := s.slots - 1 } (slot ::ₘ F) where
  core := (h.core.drop rfl (by simp)).takeSlot hs
  image := h.image
  failed := h.failed
  live hb hs' := by
    -- the free slot that is taken is the one that was reserved
    refine (h.live hb hs').recount (by simp) (by simp) (by simp [isInit]) fun _ hfree hname => ?_
    refine ⟨?_, by simpa [isName] using hname⟩
    simp only [Multiset.count_cons_self] at hfree
    simp only [ne_eq, reduceCtorEq, not_false_eq_true, Multiset.count_cons_of_ne]
    omega

/-- The same when the slot was not reserved, which only happens after a failure. -/
theorem acquireSlot_of_raised (h : Inv bounded s F) (hr : sawRaised ∈ F) (hs : 0 < s.slots) :
    Inv bounded { s with slots := s.slots - 1 } (slot ::ₘ F) where
  core := h.core.takeSlot hs
  image := h.image
  failed := h.failed
  live hb hs' := by
    have hraised : s.raised = true := h.core.ok sawRaised hr hb hs'
    -- once a call has failed, no reservations are counted
    exact (h.live hb hs').recount (by simp) (by simp) (by simp [isInit])
      fun hnot => by simp [hraised] at hnot

/-- A thread that holds a slot may release it: the semaphore is below its
initial value. -/
theorem slots_lt (h : Inv bounded s (slot ::ₘ F)) : s.slots < s.poolSize := by
  have := h.core.slots
  simp only [Multiset.count_cons_self] at this
  omega

theorem releaseSlot (h : Inv bounded s (slot ::ₘ F)) :
    Inv bounded { s with slots := s.slots + 1 } (entitled ::ₘ F) where
  core := {
    world := { h.core.world with }
    slots := by
      have := h.core.slots
      simp only [Multiset.count_cons_self, ne_eq, reduceCtorEq, not_false_eq_true,
        Multiset.count_cons_of_ne] at this ⊢
      omega
    ok := by
      intro u hu
      rcases Multiset.mem_cons.mp hu with rfl | hu
      · trivial
      · exact h.core.ok u (Multiset.mem_cons_of_mem hu)
    exclusive := (h.core.exclusive.drop rfl).learn rfl (by simp) (by simp) (by simp) }
  image := h.image
  failed := h.failed
  live hb hs' := by
    -- the slot stays reserved for the thread that has released it
    refine (h.live hb hs').recount (by simp) (by simp) (by simp [isInit]) fun _ hfree hname => ?_
    refine ⟨?_, by simpa [isName] using hname⟩
    simp only [ne_eq, reduceCtorEq, not_false_eq_true, Multiset.count_cons_of_ne] at hfree
    simp only [Multiset.count_cons_self, hfree]

/-! ### Creating a container -/

theorem addPendingName (h : Inv bounded s (slot ::ₘ lock ::ₘ F)) {name : ℕ}
    (hn : name ∉ s.usedNames) :
    Inv bounded { s with
      pendingNames := insert name s.pendingNames
      usedNames := insert name s.usedNames } (creating name ::ₘ F) := by
  have hw := h.core.world
  have hpend : name ∉ s.pendingNames := fun hc => hn (hw.pending_used name hc)
  have hfresh : ∀ c ∈ s.created, c.name ≠ name := fun c hc he => hn (he ▸ hw.created_used c hc)
  have hcard : (insert name s.pendingNames).card = s.pendingNames.card + 1 :=
    Finset.card_insert_of_notMem hpend
  refine ⟨⟨hw.insertPending hn, ?_, ?_, ?_⟩, h.image, h.failed, ?_⟩
  · -- the slot of the thread is from now on counted by its pending name
    have := h.core.slots
    simp only [Multiset.count_cons_self, ne_eq, reduceCtorEq, not_false_eq_true,
      Multiset.count_cons_of_ne] at this ⊢
    omega
  · intro u hu
    rcases Multiset.mem_cons.mp hu with rfl | hu
    · exact ⟨Finset.mem_insert_self _ _, hfresh⟩
    · -- what the other threads say of pending and used names stays true of larger sets
      have hu' := h.core.ok u (by simp [hu])
      cases u with
      | creating n => exact ⟨Finset.mem_insert_of_mem hu'.1, hu'.2⟩
      | pending n => exact Finset.mem_insert_of_mem hu'
      | fresh n c => exact ⟨Finset.mem_insert_of_mem hu'.1, hu'.2⟩
      | stale n => exact Finset.mem_insert_of_mem hu'
      | goneName n => exact ⟨Finset.mem_insert_of_mem hu'.1, hu'.2⟩
      | _ => exact hu'
  · -- the name is fresh, so no thread has learned anything about it yet
    refine (h.core.exclusive.drop rfl).swap rfl rfl (by simp) ?_ ?_
    · intro n hst
      have hused : n ∈ s.usedNames := h.core.ok (stale n) (by simp [hst])
      have hne : n ≠ name := fun e => hn (e ▸ hused)
      simp [hne.symm]
    · intro n hgn
      have hused : n ∈ s.usedNames := (h.core.ok (goneName n) (by simp [hgn])).1
      have hne : n ≠ name := fun e => hn (e ▸ hused)
      simp [hne.symm]
  · intro hb hs
    refine (h.live hb hs).recount (by simp) (by simp) (by simp [isInit]) fun _ hfree hname => ?_
    refine ⟨by simpa using hfree, ?_⟩
    simp only [number_cons, isName, if_true, Bool.false_eq_true, if_false] at hname ⊢
    omega

/-- A creation that has raised leaves its name pending. -/
theorem keepPending (h : Inv bounded s (t ::ₘ F)) (ht : t = creating name ∨ ∃ c, t = fresh name c) :
    Inv bounded s (pending name ::ₘ F) := by
  have hlock : t.isLock = true := by
    rcases ht with rfl | ⟨c, rfl⟩
    · rfl
    · rfl
  have hok := h.core.ok t (Multiset.mem_cons_self t F)
  have hpend : name ∈ s.pendingNames := by
    rcases ht with rfl | ⟨c, rfl⟩
    · exact hok.1
    · exact hok.1
  -- the name is not stale, since its creation is under way
  have hstale : ∀ n, stale n ∈ F → name ≠ n := by
    rintro n hst rfl
    obtain ⟨hcreating, -, hfresh⟩ :=
      h.core.exclusive.stale_not_locked name (Multiset.mem_cons_of_mem hst)
    rcases ht with rfl | ⟨c, rfl⟩
    · exact hcreating (Multiset.mem_cons_self _ F)
    · exact hfresh c (Multiset.mem_cons_self _ F)
  refine ⟨⟨h.core.world, ?_, ?_, ?_⟩, h.image, h.failed, ?_⟩
  · have := h.core.slots
    rcases ht with rfl | ⟨c, rfl⟩
    · simpa [Multiset.count_cons] using this
    · simpa [Multiset.count_cons] using this
  · intro u hu
    rcases Multiset.mem_cons.mp hu with rfl | hu
    · exact hpend
    · exact h.core.ok u (Multiset.mem_cons_of_mem hu)
  · exact h.core.exclusive.swap hlock rfl (by simp) (fun n hst => by simp [hstale n hst]) (by simp)
  · intro hb hs
    rcases ht with rfl | ⟨c, rfl⟩
    · exact (h.live hb hs).retoken (by simp) (by simp) (by simp) (by simp [isName])
        (by simp [isInit])
    · exact (h.live hb hs).retoken (by simp) (by simp) (by simp) (by simp [isName])
        (by simp [isInit])

/-- The creation has raised without effect. -/
theorem createFailed (h : Inv bounded s (creating name ::ₘ F)) :
    Inv bounded s (pending name ::ₘ F) :=
  h.keepPending (.inl rfl)

/-- Docker has created a container under the name. -/
theorem createDone (h : Inv bounded s (creating name ::ₘ F)) {c : Container} {s' : World}
    (hs' : s.create name c = some s') : Inv bounded s' (fresh name c ::ₘ F) := by
  simp only [World.create] at hs'
  split at hs'
  case isFalse => cases hs'
  case isTrue hc =>
  cases hs'
  obtain ⟨hcn, hid⟩ := hc
  obtain ⟨hpend, hname⟩ := h.core.ok (creating name) (by simp)
  have hnew : c ∉ s.created := fun hc => hid c hc rfl
  have hworld := h.core.world.created (hcn.symm ▸ hpend) hid (hcn.symm ▸ hname)
  refine ⟨⟨hworld, ?_, ?_, ?_⟩, h.image, h.failed, ?_⟩
  · simpa [Multiset.count_cons] using h.core.slots
  · intro u hu
    rcases Multiset.mem_cons.mp hu with rfl | hu
    · exact ⟨hpend, List.mem_cons_self, hcn⟩
    · -- the others may know containers, but only this thread creates any
      have hlock := h.core.exclusive.no_lock rfl u hu
      have hmem := hu
      have hu' := h.core.ok u (Multiset.mem_cons_of_mem hu)
      cases u with
      | owns d => exact ⟨List.mem_cons_of_mem _ hu'.1, hu'.2⟩
      | creating n => simp [isLock] at hlock
      | fresh n d => simp [isLock] at hlock
      | gone d =>
        refine ⟨List.mem_cons_of_mem _ hu'.1, fun hd => ?_⟩
        rcases List.mem_cons.mp hd with rfl | hd
        · exact hnew hu'.1
        · exact hu'.2 hd
      | known d => exact List.mem_cons_of_mem _ hu'
      | goneName n =>
        refine ⟨hu'.1, fun d hd => ?_⟩
        rcases List.mem_cons.mp hd with rfl | hd
        · -- the new container could bring a name back that a thread has seen gone
          rintro rfl
          have := h.core.exclusive.goneName_not_creating _ (Multiset.mem_cons_of_mem hmem)
          simp [hcn] at this
        · exact hu'.2 d hd
      | _ => exact hu'
  · refine h.core.exclusive.swap rfl rfl ?_ ?_ (by simp)
    · rintro n d heq ho
      cases heq
      exact hnew (h.core.ok (owns c) (Multiset.mem_cons_of_mem ho)).1
    · intro n hst
      have := (h.core.exclusive.stale_not_locked n (Multiset.mem_cons_of_mem hst)).1
      have hne : name ≠ n := by rintro rfl; simp at this
      simp [hne]
  · intro hb hs
    have hlive := (h.live hb hs).retoken (n := fresh name c ::ₘ F) (by simp) (by simp) (by simp)
      (by simp [isName]) (by simp [isInit])
    exact { hlive with }

/-- The creation had an effect, but the call or the mount validation raised. -/
theorem createLost {c : Container} (h : Inv bounded s (fresh name c ::ₘ F)) :
    Inv bounded s (pending name ::ₘ F) :=
  h.keepPending (.inr ⟨c, rfl⟩)

/-- Once a creation has failed, its name may stay pending. -/
theorem abandonName (h : Inv bounded s (pending name ::ₘ F)) (hr : sawRaised ∈ F) :
    Inv bounded s (lock ::ₘ F) := by
  refine ⟨⟨h.core.world, ?_, ?_, ?_⟩, h.image, h.failed, ?_⟩
  · simpa [Multiset.count_cons] using h.core.slots
  · intro u hu
    rcases Multiset.mem_cons.mp hu with rfl | hu
    · trivial
    · exact h.core.ok u (Multiset.mem_cons_of_mem hu)
  · exact h.core.exclusive.swap rfl rfl (by simp) (by simp) (by simp)
  · intro hb hs
    have hraised : s.raised = true := h.core.ok sawRaised (by simp [hr]) hb hs
    exact (h.live hb hs).recount (by simp) (by simp) (by simp [isInit])
      fun hnot => by simp [hraised] at hnot

/-- The container is recorded, and its name is no longer pending. -/
theorem recordManaged {c : Container} (h : Inv bounded s (fresh name c ::ₘ F)) :
    Inv bounded { s with
      pendingNames := s.pendingNames.erase name
      managed := dictSet s.managed c } (owns c ::ₘ lock ::ₘ F) := by
  have hw := h.core.world
  obtain ⟨hpend, hcreated, hcn⟩ := h.core.ok (fresh name c) (by simp)
  -- a recorded container is not under a pending name, but this one still is
  have hnew : c ∉ s.managed := fun hc => hw.managed_names c hc (hcn ▸ hpend)
  have hset : dictSet s.managed c = s.managed ++ [c] := dictSet_of_fresh fun e he hid =>
    hnew (hw.created_ids e (hw.managed_created e he) c hcreated hid ▸ he)
  have hcard : (s.pendingNames.erase name).card + 1 = s.pendingNames.card :=
    Finset.card_erase_add_one hpend
  rw [hset]
  refine ⟨⟨hcn ▸ hw.recorded hcreated hnew, ?_, ?_, ?_⟩, h.image, h.failed, ?_⟩
  · -- the slot moves from the pending name to the record
    have := h.core.slots
    simp only [ne_eq, reduceCtorEq, not_false_eq_true, Multiset.count_cons_of_ne,
      List.length_append, List.length_singleton] at this ⊢
    omega
  · intro u hu
    rcases Multiset.mem_cons.mp hu with rfl | hu
    · exact ⟨hcreated, fun hp => hnew (hw.pool_managed c hp), fun _ => by simp⟩
    rcases Multiset.mem_cons.mp hu with rfl | hu
    · trivial
    -- no other thread counts on a pending name: this one holds the creation lock
    have hlock := h.core.exclusive.no_lock rfl u hu
    have hu' := h.core.ok u (Multiset.mem_cons_of_mem hu)
    cases u with
    | owns d => exact ⟨hu'.1, hu'.2.1, fun hs => List.mem_append_left _ (hu'.2.2 hs)⟩
    | creating n => simp [isLock] at hlock
    | pending n => simp [isLock] at hlock
    | fresh n d => simp [isLock] at hlock
    | _ => exact hu'
  · -- nobody holds a container that has only just been created
    have hnot : owns c ∉ F := fun ho =>
      h.core.exclusive.fresh_not_owned name c (by simp) (Multiset.mem_cons_of_mem ho)
    have hfr : ∀ n, fresh n c ∉ F := fun n => h.core.exclusive.not_mem_of_lock rfl rfl
    exact (h.core.exclusive.swap rfl rfl (by simp) (by simp) (by simp)).own
      (by simpa using hnot) (by simpa using hfr)
  · intro hb hs
    refine (h.live hb hs).recount (by simp) (by simp) (by simp [isInit]) fun _ hfree hname => ?_
    refine ⟨by simpa using hfree, ?_⟩
    simp only [number_cons, isName, if_true, Bool.false_eq_true, if_false] at hname ⊢
    omega

/-! ### Removing a container -/

/-- The record of a container that is gone is removed; its slot is now held by
the thread. -/
theorem popManaged {c : Container} (h : Inv bounded s F) (hc : c ∈ s.managed)
    (he : c ∉ s.existing) (hp : c ∉ s.pool) (ho : s.shuttingDown = false → owns c ∉ F) :
    Inv bounded { s with managed := dictPop s.managed c } (slot ::ₘ F) := by
  have hw := h.core.world
  have hmem : ∀ {d}, d ≠ c → d ∈ s.managed → d ∈ s.managed.erase c := fun hd hm =>
    (List.mem_erase_of_ne hd).mpr hm
  have hlen : (s.managed.erase c).length + 1 = s.managed.length := by
    have := List.length_pos_of_mem hc
    rw [List.length_erase_of_mem hc]
    omega
  rw [hw.dictPop_eq hc]
  refine ⟨⟨hw.eraseManaged he hp, ?_, ?_, ?_⟩, h.image, h.failed, ?_⟩
  · -- the slot of the record is held by the thread from now on
    have := h.core.slots
    simp only [Multiset.count_cons_self]
    omega
  · intro u hu
    rcases Multiset.mem_cons.mp hu with rfl | hu
    · trivial
    have hmem' := hu
    have hu' := h.core.ok u hu
    cases u with
    -- what another thread holds is still recorded, as it is another container
    | owns d =>
      refine ⟨hu'.1, hu'.2.1, fun hs => hmem ?_ (hu'.2.2 hs)⟩
      rintro rfl
      exact ho hs hmem'
    | _ => exact hu'
  · exact h.core.exclusive.learn rfl (by simp) (by simp) (by simp)
  · intro hb hs
    have hlive := (h.live hb hs).retoken (n := slot ::ₘ F) (by simp) (by simp) (by simp)
      (by simp [isName]) (by simp [isInit])
    exact { hlive with }

/-- The pending name of a failed creation is given up by its creator. -/
theorem discardPendingName (h : Inv bounded s (goneName name ::ₘ pending name ::ₘ F)) :
    Inv bounded { s with pendingNames := s.pendingNames.erase name } (slot ::ₘ lock ::ₘ F) := by
  have hpend : name ∈ s.pendingNames := h.core.ok (pending name) (by simp)
  obtain ⟨-, hgone⟩ := h.core.ok (goneName name) (by simp)
  have hcard : (s.pendingNames.erase name).card + 1 = s.pendingNames.card :=
    Finset.card_erase_add_one hpend
  have hex := h.core.exclusive.drop rfl
  refine ⟨⟨h.core.world.erasePending hgone, ?_, ?_, ?_⟩, h.image, h.failed, ?_⟩
  · have := h.core.slots
    simp only [Multiset.count_cons_self, ne_eq, reduceCtorEq, not_false_eq_true,
      Multiset.count_cons_of_ne] at this ⊢
    omega
  · intro u hu
    rcases Multiset.mem_cons.mp hu with rfl | hu
    · trivial
    rcases Multiset.mem_cons.mp hu with rfl | hu
    · trivial
    -- no other thread has a name under way: this one holds the creation lock
    have hlock := hex.no_lock rfl u hu
    have hu' := h.core.ok u (by simp [hu])
    cases u with
    | creating n => simp [isLock] at hlock
    | pending n => simp [isLock] at hlock
    | fresh n d => simp [isLock] at hlock
    | _ => exact hu'
  · exact (hex.swap (r := lock) rfl rfl (by simp) (by simp) (by simp)).learn rfl
      (by simp) (by simp) (by simp)
  · intro hb hs
    refine (h.live hb hs).recount (by simp) (by simp) (by simp [isInit]) fun _ hfree hname => ?_
    refine ⟨by simpa using hfree, ?_⟩
    simp only [number_cons, isName, if_true, Bool.false_eq_true, if_false] at hname ⊢
    omega

/-- The pending name of a failed creation is given up by `shutdown_pool`. -/
theorem discardStaleName (h : Inv bounded s F) (hpend : name ∈ s.pendingNames)
    (hst : stale name ∈ F) (hgn : goneName name ∈ F) (hs : s.shuttingDown = true) :
    Inv bounded { s with pendingNames := s.pendingNames.erase name } (slot ::ₘ F) := by
  obtain ⟨-, hgone⟩ := h.core.ok (goneName name) hgn
  have hcard : (s.pendingNames.erase name).card + 1 = s.pendingNames.card :=
    Finset.card_erase_add_one hpend
  -- no creation is under way for the name, so no other thread counts on its being pending
  obtain ⟨hcr, hpe, hfr⟩ := h.core.exclusive.stale_not_locked name hst
  have hmem : ∀ {n}, n ≠ name → n ∈ s.pendingNames → n ∈ s.pendingNames.erase name :=
    fun hn hp => Finset.mem_erase.mpr ⟨hn, hp⟩
  refine ⟨⟨h.core.world.erasePending hgone, ?_, ?_, ?_⟩, h.image, h.failed, ?_⟩
  · have := h.core.slots
    simp only [Multiset.count_cons_self]
    omega
  · intro u hu
    rcases Multiset.mem_cons.mp hu with rfl | hu
    · trivial
    have hmem' := hu
    have hu' := h.core.ok u hu
    cases u with
    | creating n => exact ⟨hmem (by rintro rfl; exact hcr hmem') hu'.1, hu'.2⟩
    | pending n => exact hmem (by rintro rfl; exact hpe hmem') hu'
    | fresh n d => exact ⟨hmem (by rintro rfl; exact hfr d hmem') hu'.1, hu'.2⟩
    | _ => exact hu'
  · exact h.core.exclusive.learn rfl (by simp) (by simp) (by simp)
  · intro _ hs'
    simp [hs] at hs'

/-! ### The pool -/

/-- The part of adding a container to the pool that does not count anything. -/
theorem appendPool_core {c : Container} (h : Core bounded s (owns c ::ₘ F))
    (hs : s.shuttingDown = false)
    (hinit : ∀ t ∈ F, t.isInit = true → t.Ok bounded { s with pool := s.pool ++ [c] }) :
    Core bounded { s with pool := s.pool ++ [c] } F := by
  have hw := h.world
  obtain ⟨-, hnp, hm⟩ := h.ok (owns c) (by simp)
  refine ⟨?_, ?_, ?_, h.exclusive.drop rfl⟩
  · exact {
      hw with
      pool_nodup := List.concat_eq_append ▸ hw.pool_nodup.concat hnp
      pool_managed := fun d hd => by
        rcases List.mem_append.mp hd with hd | hd
        · exact hw.pool_managed d hd
        · exact List.mem_singleton.mp hd ▸ hm hs
      shutdown := by simp [hs] }
  · simpa [Multiset.count_cons] using h.slots
  · intro u hu
    have hmem := hu
    have hu' := h.ok u (Multiset.mem_cons_of_mem hu)
    cases u with
    -- no thread holds the container that is given back, so none finds it pooled
    | owns d =>
      have hone := h.exclusive.owned_once c
      have hne : d ≠ c := by
        rintro rfl
        have := Multiset.one_le_count_iff_mem.mpr hmem
        simp only [Multiset.count_cons_self] at hone
        omega
      exact ⟨hu'.1, by simp [hne, hu'.2.1], hu'.2.2⟩
    | init k => exact hinit _ hmem rfl
    | _ => exact hu'

/-- An execution is active only after `initialize_pool` has returned. -/
theorem initialized_of_active (h : Inv bounded s F) (hb : bounded) (hs : s.shuttingDown = false)
    (ht : idle ∈ F ∨ owed ∈ F) : s.initialized = true := by
  by_contra hi
  have hlive := h.live hb hs
  have hzero := hlive.notInit (by simpa using hi)
  have hact := hlive.active
  rcases ht with ht | ht
  · have := Multiset.one_le_count_iff_mem.mpr ht
    omega
  · have := Multiset.one_le_count_iff_mem.mpr ht
    omega

theorem init_of_active (h : Inv bounded s F) (hs : s.shuttingDown = false)
    (ht : idle ∈ F ∨ owed ∈ F) {t : Token} (hmem : t ∈ F) (hi : t.isInit = true) {s' : World} :
    t.Ok bounded s' := by
  have hok := h.core.ok t hmem
  cases t with
  | init k =>
    intro hb
    have := (hok hb).2.1
    rw [h.initialized_of_active hb hs ht] at this
    cases this
  | _ => simp [isInit] at hi

/-- `initialize_pool` adds a container. -/
theorem appendPool_init {c : Container} {k : ℕ} (h : Inv bounded s (owns c ::ₘ init (k + 1) ::ₘ F))
    (hs : s.shuttingDown = false) :
    Inv bounded { s with pool := s.pool ++ [c] } (init k ::ₘ F) where
  core := by
    have hok : (init (k + 1)).Ok bounded s := h.core.ok _ (by simp)
    have hother : ∀ t ∈ F, t.isInit = true → t.Ok bounded { s with pool := s.pool ++ [c] } := by
      intro t ht hi
      cases t with
      | init k' =>
        -- only one thread initialises the pool
        intro hb
        have hone := (h.live hb hs).init_once
        have hpos : 0 < number isInit F := number_pos ht rfl
        simp only [number_cons, isInit, if_true, Bool.false_eq_true, if_false] at hone
        omega
      | _ => simp [isInit] at hi
    have hcore := h.core
    rw [Multiset.cons_swap] at hcore
    refine (appendPool_core (hcore.drop rfl (by simp)) hs hother).learn rfl (by simp) (by simp) ?_
      (by simp) (by simp)
    intro hb
    obtain ⟨-, hi, hlen⟩ := hok hb
    refine ⟨hs, hi, ?_⟩
    simp only [List.length_append, List.length_singleton]
    omega
  image := h.image
  failed := h.failed
  live hb hs' := by
    -- before the pool is initialised it need not be covered
    have hlive := (h.live hb hs').retoken (n := init k ::ₘ F) (by simp) (by simp) (by simp)
      (by simp [isName]) (by simp [isInit])
    have hi : s.initialized = false := (h.core.ok (init (k + 1)) (by simp) hb).2.1
    exact { hlive with covered := by simp [hi] }

/-- An execution returns the container it owes. -/
theorem appendPool_owed {c : Container} (h : Inv bounded s (owns c ::ₘ owed ::ₘ F))
    (hs : s.shuttingDown = false) :
    Inv bounded { s with pool := s.pool ++ [c] } (idle ::ₘ F) where
  core := by
    have hcore := appendPool_core h.core hs fun t ht hi =>
      h.init_of_active hs (by simp) (Multiset.mem_cons_of_mem ht) hi
    exact (hcore.drop rfl (by simp)).learn rfl (by simp) (by simp) trivial (by simp) (by simp)
  image := h.image
  failed := h.failed
  live hb hs' := by
    have hlive := (h.live hb hs').drop rfl
    refine hlive.repool (.inr rfl) (.inl rfl) fun hi hd => ?_
    -- the container that was owed is in the pool again
    have := hlive.covered hi hd
    simp only [Multiset.count_cons_self, ne_eq, reduceCtorEq, not_false_eq_true,
      Multiset.count_cons_of_ne, List.length_append, List.length_singleton] at this ⊢
    omega

/-- An execution that found the pool empty adds a container to a degraded pool. -/
theorem appendPool_degraded {c : Container} (h : Inv bounded s (owns c ::ₘ F))
    (hs : s.shuttingDown = false) (hi : idle ∈ F) (hd : sawDegraded ∈ F) :
    Inv bounded { s with pool := s.pool ++ [c] } F where
  core := appendPool_core h.core hs fun t ht hi' =>
    h.init_of_active hs (by simp [hi]) (Multiset.mem_cons_of_mem ht) hi'
  image := h.image
  failed := h.failed
  live hb hs' := by
    have hlive := (h.live hb hs').drop rfl
    have hdeg : s.degraded = true := h.core.ok sawDegraded (by simp [hd]) hb hs
    exact { hlive with covered := by simp [hdeg] }

/-- A container is taken from the pool; the execution owes the pool another. -/
theorem popPool {c : Container} {rest : List Container} (h : Inv bounded s (idle ::ₘ F))
    (hpool : s.pool = c :: rest) (hs : s.shuttingDown = false) :
    Inv bounded { s with pool := rest } (owns c ::ₘ owed ::ₘ F) := by
  have hw := h.core.world
  have hcp : c ∈ s.pool := by simp [hpool]
  have hnodup := hw.pool_nodup
  rw [hpool, List.nodup_cons] at hnodup
  have hsub : ∀ {d}, d ∈ rest → d ∈ s.pool := fun hd => by simp [hpool, hd]
  have hcm := hw.pool_managed c hcp
  have hown : owns c ∉ F := fun ho => (h.core.ok (owns c) (by simp [ho])).2.1 hcp
  -- a pooled container is recorded, so it is not under a pending name
  have hfr : ∀ n, fresh n c ∉ F := fun n hf => by
    obtain ⟨hpend, -, hcn⟩ := h.core.ok (fresh n c) (by simp [hf])
    exact hw.managed_names c hcm (hcn ▸ hpend)
  refine ⟨⟨?_, ?_, ?_, ?_⟩, h.image, h.failed, ?_⟩
  · exact {
      hw with
      pool_nodup := hnodup.2
      pool_managed := fun d hd => hw.pool_managed d (hsub hd)
      shutdown := by simp [hs] }
  · simpa [Multiset.count_cons] using h.core.slots
  · intro u hu
    rcases Multiset.mem_cons.mp hu with rfl | hu
    · exact ⟨hw.managed_created c hcm, hnodup.1, fun _ => hcm⟩
    rcases Multiset.mem_cons.mp hu with rfl | hu
    · trivial
    have hmem : u ∈ idle ::ₘ F := Multiset.mem_cons_of_mem hu
    have hu' := h.core.ok u hmem
    cases u with
    | owns d => exact ⟨hu'.1, fun hd => hu'.2.1 (hsub hd), hu'.2.2⟩
    | init k => exact h.init_of_active hs (by simp) hmem rfl
    | _ => exact hu'
  · exact ((h.core.exclusive.drop rfl).learn (t := owed) rfl (by simp) (by simp) (by simp)).own
      (by simpa using hown) (by simpa using hfr)
  · intro hb hs'
    have hlive := h.live hb hs'
    have hpopped : Live { s with pool := rest } (owed ::ₘ F) := by
      refine hlive.repool (.inl rfl) (.inr rfl) fun hi hd => ?_
      -- the execution owes the container that has left the pool
      have := hlive.covered hi hd
      simp only [hpool, Multiset.count_cons_self, ne_eq, reduceCtorEq, not_false_eq_true,
        Multiset.count_cons_of_ne, List.length_cons] at this ⊢
      omega
    exact hpopped.retoken (by simp) (by simp) (by simp) (by simp [isName]) (by simp [isInit])

/-- An execution that finds the pool empty knows that the pool is degraded:
otherwise the pool and the other executions would make up `pool_size`. -/
theorem degraded_of_empty (h : Inv bounded s F) (hi : idle ∈ F) (hpool : s.pool = []) :
    bounded → s.shuttingDown = false → s.degraded = true := by
  intro hb hs
  by_contra hd
  have hlive := h.live hb hs
  have hcov := hlive.covered (h.initialized_of_active hb hs (.inl hi)) (by simpa using hd)
  have hone := Multiset.one_le_count_iff_mem.mpr hi
  have hact := hlive.active
  have hle := hlive.active_le
  -- all of `pool_size` would be owed, and this execution would be one too many
  rw [hpool, List.length_nil] at hcov
  omega

/-- The pool is only degraded after a Docker call has failed. -/
theorem raised_of_degraded (h : Inv bounded s F) (hd : s.degraded = true) (hb : bounded)
    (hs : s.shuttingDown = false) : s.raised = true := by
  by_contra hr
  have := ((h.live hb hs).clean (by simpa using hr)).1
  rw [hd] at this
  cases this

theorem popPool_empty (h : Inv bounded s F) (hi : idle ∈ F) (hpool : s.pool = []) :
    Inv bounded s (sawDegraded ::ₘ sawRaised ::ₘ F) := by
  have hdeg := h.degraded_of_empty hi hpool
  refine (h.learn_sawRaised fun hb hs => h.raised_of_degraded (hdeg hb hs) hb hs).learn_sawDegraded
    hdeg

/-- `_mark_degraded`, after a Docker call has failed. -/
theorem markDegraded (h : Inv bounded s F) (hr : sawRaised ∈ F) (hs : s.shuttingDown = false) :
    Inv bounded { s with degraded := true } F where
  core := {
    h.core with
    world := { h.core.world with }
    ok := by
      intro u hu
      have := h.core.ok u hu
      cases u <;> simp_all [Ok] }
  image := h.image
  failed := h.failed
  live hb hs' := {
    h.live hb hs' with
    covered := by simp
    clean := fun hr' => by
      have hraised : s.raised = true := h.core.ok sawRaised hr hb hs
      rw [hraised] at hr'
      cases hr' }

/-! ### Shutdown -/

/-- `begin_shutdown` empties the pool; from then on only slots and the creation
lock count.  Of bounded executions, only `initialize_pool` gets here. -/
theorem setShuttingDown {B : Multiset Token} (h : Inv bounded s (B + lock ::ₘ F))
    (hslot : B.count slot = 0) (hlock : number isLock B = 0)
    (hi : bounded → s.shuttingDown = false → ∃ k, init k ∈ B) :
    Inv bounded { s with shuttingDown := true, pool := [] } (sawShutdown ::ₘ lock ::ₘ F) := by
  have hw := h.core.world
  have hcore := h.core.drop_all B hslot hlock
  have hdown : Inv bounded { s with shuttingDown := true, pool := [] } (lock ::ₘ F) := by
    refine ⟨⟨?_, hcore.slots, ?_, hcore.exclusive⟩, h.image, ?_, by simp⟩
    · exact {
        hw with
        pool_nodup := List.nodup_nil
        pool_managed := by simp
        shutdown := by simp }
    · intro u hu
      have hu' := hcore.ok u hu
      cases u with
      | owns d => exact ⟨hu'.1, by simp, by simp⟩
      -- of bounded executions only one thread initialises the pool, and it is this one
      | init k =>
        intro hb
        have hs := (hu' hb).1
        obtain ⟨k', hk'⟩ := hi hb hs
        have hone := (h.live hb hs).init_once
        have h1 : 0 < number isInit B := number_pos hk' rfl
        have h2 : 0 < number isInit (lock ::ₘ F) := number_pos hu rfl
        rw [number_add] at hone
        omega
      | _ => simp_all [Ok]
    · intro hb _
      by_cases hs : s.shuttingDown = true
      · exact h.failed hb hs
      · obtain ⟨k, hk⟩ := hi hb (by simpa using hs)
        exact (h.core.ok (init k) (by simp [hk]) hb).2.1
  exact hdown.learn_sawShutdown rfl

/-- What `shutdown_pool` reads under the creation lock. -/
theorem learn_stale (h : Inv bounded s (lock ::ₘ F)) (hn : name ∈ s.usedNames) :
    Inv bounded s (stale name ::ₘ lock ::ₘ F) := by
  refine h.learn rfl rfl (by simp) hn ?_ (by simp)
  rintro n ⟨⟩
  have hno : ∀ {t : Token}, t.isLock = true → t ∉ F := fun ht =>
    h.core.exclusive.not_mem_of_lock rfl ht
  exact ⟨by simpa using hno rfl, by simpa using hno rfl, fun c => by simpa using hno rfl⟩

theorem learn_all_known {cs : List Container} (h : Inv bounded s F)
    (hcs : ∀ c ∈ cs, c ∈ s.created) :
    Inv bounded s ((cs.map known : Multiset Token) + F) := by
  induction cs with
  | nil => simpa using h
  | cons c cs ih =>
    rw [List.map_cons, ← Multiset.cons_coe, Multiset.cons_add]
    exact (ih fun d hd => hcs d (by simp [hd])).learn_known (hcs c (by simp))

theorem learn_all_stale {names : List ℕ} (h : Inv bounded s (lock ::ₘ F))
    (hn : ∀ name ∈ names, name ∈ s.usedNames) :
    Inv bounded s (lock ::ₘ ((names.map stale : Multiset Token) + F)) := by
  induction names with
  | nil => simpa using h
  | cons n names ih =>
    rw [List.map_cons, ← Multiset.cons_coe, Multiset.cons_add, Multiset.cons_swap]
    exact (ih fun m hm => hn m (by simp [hm])).learn_stale (hn n (by simp))

/-! ### Initialisation and executions -/

/-- `initialize_pool` has added all containers. -/
theorem setInitialized (h : Inv bounded s (init 0 ::ₘ F)) :
    Inv bounded { s with initialized := true } F where
  core := {
    world := { h.core.world with }
    slots := by simpa [Multiset.count_cons] using h.core.slots
    ok := by
      intro u hu
      have hu' := h.core.ok u (Multiset.mem_cons_of_mem hu)
      cases u with
      -- no other thread initialises the pool
      | init k =>
        intro hb
        have hone := (h.live hb (hu' hb).1).init_once
        have hpos : 0 < number isInit F := number_pos hu rfl
        simp only [number_cons, isInit, if_true] at hone
        omega
      | _ => exact hu'
    exclusive := h.core.exclusive.drop rfl }
  image := h.image
  failed hb hs := by
    have := (h.core.ok (init 0) (by simp) hb).1
    simp_all
  live hb hs := by
    have hlive := (h.live hb hs).drop rfl
    obtain ⟨-, hi, hlen⟩ := h.core.ok (init 0) (by simp) hb
    have hact := hlive.active
    have hzero := hlive.notInit hi
    exact {
      hlive with
      -- all containers are in the pool, and no execution has begun
      covered := fun _ _ => by
        simp only at hlen ⊢
        omega
      notInit := by simp }

theorem beginExecution (h : Inv bounded s F) (hi : s.initialized = true)
    (ha : s.active < s.poolSize) :
    Inv bounded { s with active := s.active + 1 } (idle ::ₘ F) where
  core := by
    have hcore := h.core.learn (t := idle) rfl (by simp) (by simp) trivial (by simp) (by simp)
    exact { hcore with world := { h.core.world with } }
  image := h.image
  failed := h.failed
  live hb hs := by
    have hlive := h.live hb hs
    have hact := hlive.active
    exact {
      hlive with
      covered := by simpa [Multiset.count_cons] using hlive.covered
      active := by
        simp only [Multiset.count_cons_self, ne_eq, reduceCtorEq, not_false_eq_true,
          Multiset.count_cons_of_ne]
        omega
      active_le := ha
      notInit := by simp [hi]
      clean := by simpa [Multiset.count_cons, isName] using hlive.clean
      init_once := by simpa [isInit] using hlive.init_once }

/-- An execution that does not owe the pool a container ends. -/
theorem endExecution (h : Inv bounded s (idle ::ₘ F)) :
    Inv bounded { s with active := s.active - 1 } F where
  core := { h.core.drop rfl (by simp) with world := { h.core.world with } }
  image := h.image
  failed := h.failed
  live hb hs := by
    have hlive := h.live hb hs
    exact hlive.endExecution (.inl rfl) (by simpa [Multiset.count_cons] using hlive.covered)

/-- An execution ends that has not returned a container: the pool is degraded. -/
theorem endExecution_degraded (h : Inv bounded s (owed ::ₘ F)) (hd : sawDegraded ∈ F) :
    Inv bounded { s with active := s.active - 1 } F where
  core := { h.core.drop rfl (by simp) with world := { h.core.world with } }
  image := h.image
  failed := h.failed
  live hb hs := by
    have hdeg : s.degraded = true := h.core.ok sawDegraded (by simp [hd]) hb hs
    exact (h.live hb hs).endExecution (.inr rfl) (by simp [hdeg])

end Inv

end ContainerManager
