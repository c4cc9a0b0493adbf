/-
The methods of the container pool keep its invariant.

Bottom up, one specification for each method: which tokens it starts with, and
which it ends with when it returns and when it raises.  `B` stands for the
tokens of the caller that the method does not touch.
-/
import ShellgeiOnlineJudge.ContainerActions

namespace ContainerManager

open Token Prog

variable {bounded : Prop} {B B' B'' : Multiset Token} {α : Type} {c : Container} {name : ℕ}

/-! ### Locks -/

/-- A `with self._cleanup_lock` block.  Releasing the lock is a step, at which
tokens may be exchanged. -/
theorem withCleanupLock_safe {body : M α} {post post' : Except Exc α → Multiset Token → Prop}
    (hB : slot ∉ B) (hbody : Safe bounded post body B)
    (hpost : ∀ r m, post r m → slot ∉ m ∧ ∃ m', Shift bounded m m' ∧ post' r m') :
    Safe bounded post' (withCleanupLock body) B := by
  refine Safe.perform_bind (triple_acquireCleanupLock hB) ?_
  rintro _ _ rfl
  refine Safe.finally' hbody fun r m hr => ?_
  obtain ⟨hm, m', hshift, hr'⟩ := hpost r m hr
  have hrelease : Triple bounded .releaseCleanupLock m fun _ m'' => m'' = m' :=
    (triple_releaseCleanupLock hm).shift fun _ _ h => ⟨m', h ▸ hshift, rfl⟩
  exact Safe.perform hrelease fun _ _ h => h ▸ hr'

/-- A single Docker call under the cleanup lock. -/
theorem withCleanupLock_perform_safe {a : Action} (hB : slot ∉ B)
    (ha : Triple bounded a B fun _ m => m = B) :
    Safe bounded (fun r m => (∃ x, r = .ok x) ∧ m = B) (withCleanupLock (perform a)) B := by
  have hbody : Safe bounded (fun r m => (∃ x, r = .ok x) ∧ m = B) (perform a) B :=
    Safe.perform ha fun r m h => ⟨⟨r, rfl⟩, h⟩
  refine withCleanupLock_safe hB hbody ?_
  rintro r m ⟨hr, rfl⟩
  exact ⟨hB, m, shift_refl, hr, rfl⟩

/-- A `with self._create_shutdown_lock` block. -/
theorem withCreateShutdownLock_safe {body : M α} {post : Except Exc α → Multiset Token → Prop}
    (hB : slot ∉ B)
    (hbody : Safe bounded (fun r m => ∃ B', Locked B' m ∧ slot ∉ B' ∧ post r B') body
      (lock ::ₘ B)) :
    Safe bounded post (withCreateShutdownLock body) B := by
  refine Safe.perform_bind (triple_acquireCreateShutdownLock hB) ?_
  rintro _ _ rfl
  refine Safe.finally' hbody fun r m hr => ?_
  obtain ⟨B', hm, hB', hr'⟩ := hr
  exact Safe.perform (triple_releaseCreateShutdownLock hm hB') fun _ _ h => h ▸ hr'

/-! ### Cleaning up -/

/-- What a cleanup ends with: one multiset when it succeeds, another when not. -/
def Cleaned (X Y : Multiset Token) (r : Except Exc Bool) (m : Multiset Token) : Prop :=
  (r = .ok true ∧ m = X) ∨ (r = .ok false ∧ m = Y)

theorem forgetRemovedContainer_safe (hB : slot ∉ B) :
    Safe bounded (fun r m => r = .ok () ∧ m = entitled ::ₘ B) (forgetRemovedContainer c)
      (gone c ::ₘ owns c ::ₘ B) := by
  refine Safe.perform_bind (triple_popManaged hB) ?_
  rintro removed m rfl
  cases removed with
  | false => exact Safe.pure ⟨rfl, rfl⟩
  | true =>
    refine Safe.perform_bind (triple_releaseSlot hB shift_refl) ?_
    rintro r m ⟨rfl, rfl⟩
    exact ⟨rfl, rfl⟩

/-- After a shutdown, the freed slot needs no reservation. -/
theorem forgetRemovedContainer_safe_shutdown (hB : slot ∉ B) (hs : sawShutdown ∈ B) :
    Safe bounded (fun r m => r = .ok () ∧ m = B) (forgetRemovedContainer c) (gone c ::ₘ B) := by
  refine Safe.perform_bind (triple_popManaged_shutdown hB hs) ?_
  rintro removed m rfl
  cases removed with
  | false => exact Safe.pure ⟨rfl, rfl⟩
  | true =>
    refine Safe.perform_bind (triple_releaseSlot hB (shift_of_sawShutdown hs rfl (by simp))) ?_
    rintro r m ⟨rfl, rfl⟩
    exact ⟨rfl, rfl⟩

theorem removeAndForget_safe {C D : Multiset Token} (hc : owns c ∈ C ∨ known c ∈ C) (hC : slot ∉ C)
    (hforget : Safe bounded (fun r m => r = .ok () ∧ m = D) (forgetRemovedContainer c)
      (gone c ::ₘ C)) :
    Safe bounded (Cleaned D (sawRaised ::ₘ C)) (removeAndForget c) C := by
  refine Safe.perform_bind (triple_remove hc hC) ?_
  have hgone : Safe bounded (Cleaned D (sawRaised ::ₘ C))
      (forgetRemovedContainer c >>= fun _ => Pure.pure true) (gone c ::ₘ C) := by
    refine Safe.bind hforget ?_ ?_
    · rintro _ m ⟨-, rfl⟩
      exact .inl ⟨rfl, rfl⟩
    · rintro e m ⟨⟨⟩, -⟩
  rintro r m hr
  cases r with
  | ok => exact hr ▸ hgone
  | notFound => exact hr ▸ hgone
  | raised => exact .inr ⟨rfl, hr⟩

theorem cleanupContainerLocked_safe {C D : Multiset Token} {kill : Bool}
    (hc : owns c ∈ C ∨ known c ∈ C) (hC : slot ∉ C)
    (hforget : Safe bounded (fun r m => r = .ok () ∧ m = D) (forgetRemovedContainer c)
      (gone c ::ₘ C)) :
    Safe bounded (Cleaned D (sawRaised ::ₘ C)) (cleanupContainerLocked c kill) C := by
  cases kill with
  | false => exact removeAndForget_safe hc hC hforget
  | true =>
    refine Safe.perform_bind (triple_kill hC) ?_
    rintro r m rfl
    exact removeAndForget_safe hc hC hforget

theorem cleanupContainer_safe_of {C D X Y : Multiset Token} {kill : Bool}
    (hc : owns c ∈ C ∨ known c ∈ C) (hC : slot ∉ C) (hD : slot ∉ D)
    (hforget : Safe bounded (fun r m => r = .ok () ∧ m = D) (forgetRemovedContainer c)
      (gone c ::ₘ C))
    (hX : Shift bounded D X) (hY : Shift bounded (sawRaised ::ₘ C) Y) :
    Safe bounded (Cleaned X Y) (cleanupContainer c kill) C := by
  refine withCleanupLock_safe hC (cleanupContainerLocked_safe hc hC hforget) ?_
  rintro r m (⟨rfl, rfl⟩ | ⟨rfl, rfl⟩)
  · exact ⟨hD, X, hX, .inl ⟨rfl, rfl⟩⟩
  · exact ⟨by simpa using hC, Y, hY, .inr ⟨rfl, rfl⟩⟩

theorem shift_drop_owns : Shift bounded (sawRaised ::ₘ owns c ::ₘ B) (sawRaised ::ₘ B) := by
  rw [Multiset.cons_swap]
  exact shift_drop rfl

/-- The owner of a container removes it: it is left with a reserved slot, or
with the knowledge that Docker has failed. -/
theorem cleanupContainer_safe {kill : Bool} (hB : slot ∉ B) :
    Safe bounded (Cleaned (entitled ::ₘ B) (sawRaised ::ₘ B)) (cleanupContainer c kill)
      (owns c ::ₘ B) :=
  cleanupContainer_safe_of (.inl (by simp)) (by simpa using hB) (by simpa using hB)
    (forgetRemovedContainer_safe hB) shift_refl shift_drop_owns

/-- When Docker has failed before, the owner of a container is left with nothing. -/
theorem cleanupContainer_safe_raised {kill : Bool} (hB : slot ∉ B) (hr : sawRaised ∈ B) :
    Safe bounded (Cleaned B B) (cleanupContainer c kill) (owns c ::ₘ B) :=
  cleanupContainer_safe_of (.inl (by simp)) (by simpa using hB) (by simpa using hB)
    (forgetRemovedContainer_safe hB) (shift_entitled hr) fun s F h =>
      shift_drop rfl s F (shift_drop_owns s F h)

/-- `shutdown_pool` removes a container, whoever owns it. -/
theorem cleanupContainer_safe_shutdown {kill : Bool} (hB : slot ∉ B) (hs : sawShutdown ∈ B)
    (hc : known c ∈ B) : Safe bounded (Cleaned B B) (cleanupContainer c kill) B :=
  cleanupContainer_safe_of (.inr hc) hB hB (forgetRemovedContainer_safe_shutdown hB hs)
    shift_refl (shift_drop rfl)

theorem cleanupPendingContainerLocked_safe {acceptNotFound : Bool} (hB : slot ∉ B)
    (hn : pending name ∈ B ∨ stale name ∈ B) :
    Safe bounded (fun r m => (r = .ok true ∧ m = goneName name ::ₘ B) ∨
        (r = .ok false ∧ (m = goneName name ::ₘ B ∨ m = B)))
      (cleanupPendingContainerLocked name acceptNotFound) B := by
  refine Safe.perform_bind (triple_containersGet hn hB) ?_
  rintro r m hr
  match r with
  | .notFound =>
    cases acceptNotFound with
    | false => exact .inr ⟨rfl, .inl hr⟩
    | true => exact .inl ⟨rfl, hr⟩
  | .raised _ => exact .inr ⟨rfl, .inr hr⟩
  | .ok c =>
    obtain ⟨hcn, rfl⟩ := hr
    refine Safe.perform_bind (triple_remove_pending hn hcn hB) ?_
    rintro r m hr
    match r with
    | .ok () => exact .inl ⟨rfl, hr⟩
    | .notFound => exact .inl ⟨rfl, hr⟩
    | .raised _ => exact .inr ⟨rfl, .inr hr⟩

theorem cleanupPendingContainer_safe {acceptNotFound : Bool} (hB : slot ∉ B)
    (hn : pending name ∈ B ∨ stale name ∈ B) :
    Safe bounded (Cleaned (goneName name ::ₘ B) B) (cleanupPendingContainer name acceptNotFound)
      B := by
  refine Safe.perform_bind (triple_readClient hB) ?_
  rintro client m rfl
  cases client with
  | false => exact .inr ⟨rfl, rfl⟩
  | true =>
    refine withCleanupLock_safe hB (cleanupPendingContainerLocked_safe hB hn) ?_
    rintro r m (⟨rfl, rfl⟩ | ⟨rfl, rfl | rfl⟩)
    · exact ⟨by simpa using hB, _, shift_refl, .inl ⟨rfl, rfl⟩⟩
    · exact ⟨by simpa using hB, _, shift_drop rfl, .inr ⟨rfl, rfl⟩⟩
    · exact ⟨hB, _, shift_refl, .inr ⟨rfl, rfl⟩⟩

/-- The creator gives up a pending name, and its slot with it. -/
theorem forgetPendingName_safe (hB : slot ∉ B) (hr : sawRaised ∈ B) :
    Safe bounded (fun r m => r = .ok () ∧ m = lock ::ₘ B) (forgetPendingName name)
      (goneName name ::ₘ pending name ::ₘ B) := by
  refine Safe.perform_bind (triple_discardPendingName hB) ?_
  rintro removed m ⟨rfl, rfl⟩
  refine Safe.perform_bind
    (triple_releaseSlot (by simpa using hB) (shift_entitled (by simp [hr]))) ?_
  rintro r m ⟨rfl, rfl⟩
  exact ⟨rfl, rfl⟩

theorem forgetPendingName_safe_shutdown (hB : slot ∉ B) (hs : sawShutdown ∈ B)
    (hst : stale name ∈ B) :
    Safe bounded (fun r m => r = .ok () ∧ m = B) (forgetPendingName name)
      (goneName name ::ₘ B) := by
  refine Safe.perform_bind (triple_discardStaleName hB hst hs) ?_
  rintro removed m rfl
  cases removed with
  | false => exact Safe.pure ⟨rfl, rfl⟩
  | true =>
    refine Safe.perform_bind (triple_releaseSlot hB (shift_of_sawShutdown hs rfl (by simp))) ?_
    rintro r m ⟨rfl, rfl⟩
    exact ⟨rfl, rfl⟩

/-! ### Creating -/

theorem createAndValidate_safe (hB : slot ∉ B) :
    Safe bounded (fun r m => match r with
      | .ok c => m = fresh name c ::ₘ B
      | .error _ => m = sawRaised ::ₘ pending name ::ₘ B)
      (createAndValidate name) (creating name ::ₘ B) := by
  refine Safe.perform_bind (triple_containersCreate hB) ?_
  rintro r m hr
  match r with
  | .raised _ => exact hr
  | .created c =>
    obtain rfl := hr
    refine Safe.perform_bind (triple_validateContainerMounts hB) ?_
    rintro r m hr
    match r with
    | .ok () => exact hr
    | .error _ => exact hr

/-- A created container is removed when a later step of its creation fails. -/
theorem unwrap_or_cleanup_safe {answer : Except Exc Unit} {kill : Bool} {m : Multiset Token}
    (hB : slot ∉ B) (hm : MayFail (owns c ::ₘ lock ::ₘ B) answer m) :
    Safe bounded (fun r m => match r with
      | .ok () => m = owns c ::ₘ lock ::ₘ B
      | .error _ => Locked (sawRaised ::ₘ B) m)
      (tryCatch (unwrap answer) fun e => do
        let _ ← cleanupContainer c kill
        throw e) m := by
  rcases answer with e | ⟨⟨⟩⟩
  · obtain rfl := hm
    rw [Multiset.cons_swap sawRaised (owns c), Multiset.cons_swap sawRaised lock]
    have hmem : sawRaised ∈ lock ::ₘ sawRaised ::ₘ B := by simp
    refine Safe.bind (cleanupContainer_safe_raised (by simpa using hB) hmem) ?_ ?_
    · rintro _ m (⟨-, rfl⟩ | ⟨-, rfl⟩)
      · exact .free
      · exact .free
    · rintro e m (⟨⟨⟩, -⟩ | ⟨⟨⟩, -⟩)
  · exact hm

/-- A failed creation leaves its name pending unless nothing of it remains. -/
theorem createAndValidate_or_cleanup_safe (hB : slot ∉ B) :
    Safe bounded (fun r m => match r with
      | .ok c => m = fresh name c ::ₘ B
      | .error _ => Locked (sawRaised ::ₘ B) m)
      (tryCatch (createAndValidate name) fun e => do
        let cleaned ← cleanupPendingContainer name false
        if cleaned then do
          forgetPendingName name
          throw e
        else throw e) (creating name ::ₘ B) := by
  refine Safe.tryCatch (createAndValidate_safe hB) (fun _ _ h => h) ?_
  rintro e m rfl
  rw [Multiset.cons_swap]
  refine Safe.bind (cleanupPendingContainer_safe (by simpa using hB) (.inl (by simp))) ?_ ?_
  · rintro cleaned m (⟨⟨rfl⟩, rfl⟩ | ⟨⟨rfl⟩, rfl⟩)
    · refine Safe.bind (forgetPendingName_safe (by simpa using hB) (by simp)) ?_ ?_
      · rintro _ m ⟨-, rfl⟩
        exact .free
      · rintro e m ⟨⟨⟩, -⟩
    · exact .failed (by simp)
  · rintro e m (⟨⟨⟩, -⟩ | ⟨⟨⟩, -⟩)

/-- Creating a container in a slot that has been acquired. -/
theorem createInSlot_safe (hB : slot ∉ B) :
    Safe bounded (fun r m => match r with
      | .ok c => m = owns c ::ₘ lock ::ₘ B
      | .error _ => Locked (sawRaised ::ₘ B) m) createInSlot (slot ::ₘ lock ::ₘ B) := by
  refine Safe.perform_bind (triple_addPendingName hB) ?_
  rintro name m rfl
  refine Safe.bind (createAndValidate_or_cleanup_safe hB) ?_ fun _ _ h => h
  rintro c m rfl
  have howns : slot ∉ owns c ::ₘ lock ::ₘ B := by simpa using hB
  refine Safe.perform_bind (triple_recordManaged hB) ?_
  rintro _ m rfl
  refine Safe.perform_bind (triple_start howns) fun started m hm => ?_
  refine Safe.bind (unwrap_or_cleanup_safe hB hm) ?_ fun _ _ h => h
  rintro _ m rfl
  refine Safe.perform_bind (triple_validateContainerResourceLimits howns) fun limits m hm => ?_
  refine Safe.bind (unwrap_or_cleanup_safe hB hm) ?_ fun _ _ h => h
  rintro _ m rfl
  exact rfl

/-- What a creation ends with: the container is the thread's, or Docker has
failed (or the manager is shutting down). -/
def Supplied (B : Multiset Token) (r : Except Exc Container) (m : Multiset Token) : Prop :=
  match r with
  | .ok c => m = owns c ::ₘ B
  | .error _ => m = sawRaised ::ₘ B

theorem createContainer_safe (hl : Licence B B') (hB : slot ∉ B') :
    Safe bounded (Supplied B') createContainer B := by
  have hB₀ := hl.slot_notMem hB
  -- after a failure below, the caller knows of it and has its licence no more
  have hfail : ∀ {e : Exc}, ∃ B'', Locked B'' (sawRaised ::ₘ lock ::ₘ B') ∧ slot ∉ B'' ∧
      Supplied B' (.error e) B'' :=
    ⟨sawRaised ::ₘ B', by rw [Multiset.cons_swap]; exact .free, by simpa using hB, rfl⟩
  refine withCreateShutdownLock_safe hB₀ ?_
  have hread : Triple bounded .readShuttingDown (lock ::ₘ B) fun down m =>
      m = if down then sawRaised ::ₘ lock ::ₘ B' else lock ::ₘ B := by
    refine (triple_readShuttingDown (by simpa using hB₀)).shift fun down m hm => ?_
    cases down with
    | false => exact ⟨_, hm ▸ shift_refl, rfl⟩
    | true => exact ⟨_, hm ▸ hl.shift_of_shutdown, rfl⟩
  refine Safe.perform_bind hread ?_
  rintro down m rfl
  cases down with
  | true => exact hfail
  | false =>
  refine Safe.perform_bind (triple_getClient hl hB) fun client m hm => ?_
  rcases client with e | ⟨⟨⟩⟩
  · exact hm ▸ hfail
  obtain rfl := hm
  refine Safe.perform_bind (triple_ensureSandboxImage hl hB) fun image m hm => ?_
  rcases image with e | ⟨⟨⟩⟩
  · exact hm ▸ hfail
  obtain rfl := hm
  refine Safe.perform_bind (triple_acquireSlot hl hB) ?_
  rintro acquired m rfl
  cases acquired with
  -- no slot
  | false => exact hfail
  | true =>
    refine Safe.mono (createInSlot_safe hB) fun r m hr => ?_
    match r with
    | .ok c =>
      obtain rfl := hr
      exact ⟨owns c ::ₘ B', by rw [Multiset.cons_swap]; exact .free, by simpa using hB, rfl⟩
    | .error _ => exact ⟨sawRaised ::ₘ B', hr, by simpa using hB, rfl⟩

/-- A created container goes to the pool, unless a shutdown has begun. -/
theorem createAndAdd_safe (hl : Licence B B') (hd : Debt B' B'') (hB : slot ∉ B') :
    Safe bounded (fun r m => match r with
      | .ok _ => m = B''
      | .error _ => m = sawRaised ::ₘ B') createAndAdd B := by
  refine Safe.bind (createContainer_safe hl hB) ?_ fun _ _ h => h
  rintro c m rfl
  refine Safe.perform_bind (triple_appendPool hd hB) ?_
  rintro added m rfl
  cases added with
  | true => exact rfl
  | false =>
    have hmem : sawRaised ∈ sawRaised ::ₘ B' := by simp
    refine Safe.bind (cleanupContainer_safe_raised (by simpa using hB) hmem) ?_ ?_
    · rintro _ m (⟨-, rfl⟩ | ⟨-, rfl⟩)
      · exact rfl
      · exact rfl
    · rintro e m (⟨⟨⟩, -⟩ | ⟨⟨⟩, -⟩)

/-! ### Shutdown -/

theorem removeStaleContainers_safe {cs : List Container} (hB : slot ∉ B) :
    Safe bounded (fun _ m => m = B) (removeStaleContainers cs) B := by
  induction cs with
  | nil => exact rfl
  | cons c cs ih =>
    refine Safe.bind (withCleanupLock_perform_safe hB (triple_remove_any hB)) ?_ fun _ _ h => h.2
    rintro removed m ⟨-, rfl⟩
    cases removed with
    | raised => exact rfl
    | _ => exact ih

theorem reconcileStaleContainers_safe (hB : slot ∉ B) :
    Safe bounded (fun _ m => m = B) reconcileStaleContainers B := by
  refine Safe.perform_bind (triple_getClient_any hB) ?_
  rintro client m rfl
  refine Safe.unwrap_bind (fun _ _ => ?_) fun _ _ => rfl
  refine Safe.perform_bind (triple_containersList hB) ?_
  rintro listed m rfl
  exact Safe.unwrap_bind (fun stale _ => removeStaleContainers_safe hB) fun _ _ => rfl

theorem killAll_safe {cs : List Container} (hB : slot ∉ B) :
    Safe bounded (fun r m => r = .ok () ∧ m = B) (killAll cs) B := by
  induction cs with
  | nil => exact ⟨rfl, rfl⟩
  | cons c cs ih =>
    refine Safe.bind (withCleanupLock_perform_safe hB (triple_kill hB)) ?_ ?_
    · rintro _ m ⟨-, rfl⟩
      exact ih
    · rintro e m ⟨⟨a, ⟨⟩⟩, -⟩

/-- `begin_shutdown` leaves a thread with nothing but what it has learned. -/
theorem beginShutdown_safe (hB : slot ∉ B) (hlock : number isLock B = 0)
    (hi : bounded → ∃ k, init k ∈ B) :
    Safe bounded (fun r m => r = .ok () ∧ m = {sawShutdown}) beginShutdown B := by
  have hset : Safe bounded (fun r m => (∃ a, r = .ok a) ∧ m = {sawShutdown})
      (withCreateShutdownLock (perform .setShuttingDown)) B := by
    refine withCreateShutdownLock_safe hB ?_
    refine Safe.perform (triple_setShuttingDown hB hlock hi) fun r m h => ?_
    refine ⟨{sawShutdown}, ?_, by simp, ⟨r, rfl⟩, rfl⟩
    rw [h.trans (Multiset.cons_swap sawShutdown lock 0)]
    exact .free
  refine Safe.bind hset ?_ ?_
  · rintro containers m ⟨-, rfl⟩
    cases containers with
    | none => exact ⟨rfl, rfl⟩
    | some cs => exact killAll_safe (by simp)
  · rintro e m ⟨⟨a, ⟨⟩⟩, -⟩

theorem cleanupAll_safe {cs : List Container} (hB : slot ∉ B) (hs : sawShutdown ∈ B)
    (hcs : ∀ c ∈ cs, known c ∈ B) :
    Safe bounded (fun r m => r = .ok () ∧ m = B) (cleanupAll cs) B := by
  induction cs with
  | nil => exact ⟨rfl, rfl⟩
  | cons c cs ih =>
    refine Safe.bind (cleanupContainer_safe_shutdown hB hs (hcs c (by simp))) ?_ ?_
    · rintro _ m (⟨-, rfl⟩ | ⟨-, rfl⟩)
      · exact ih fun d hd => hcs d (by simp [hd])
      · exact ih fun d hd => hcs d (by simp [hd])
    · rintro e m (⟨⟨⟩, -⟩ | ⟨⟨⟩, -⟩)

theorem cleanupAllPending_safe {names : List ℕ} (hB : slot ∉ B) (hs : sawShutdown ∈ B)
    (hn : ∀ name ∈ names, stale name ∈ B) :
    Safe bounded (fun r m => r = .ok () ∧ m = B) (cleanupAllPending names) B := by
  induction names with
  | nil => exact ⟨rfl, rfl⟩
  | cons n names ih =>
    have hst : stale n ∈ B := hn n (by simp)
    have htail := ih fun k hk => hn k (by simp [hk])
    refine Safe.bind (cleanupPendingContainer_safe hB (.inr hst)) ?_ ?_
    · rintro cleaned m (⟨⟨rfl⟩, rfl⟩ | ⟨⟨rfl⟩, rfl⟩)
      · refine Safe.bind (forgetPendingName_safe_shutdown hB hs hst) ?_ ?_
        · rintro _ m ⟨-, rfl⟩
          exact htail
        · rintro e m ⟨⟨⟩, -⟩
      · exact htail
    · rintro e m (⟨⟨⟩, -⟩ | ⟨⟨⟩, -⟩)

/-- What `shutdown_pool` has read: the containers and names it has to remove. -/
def snapshotTokens (containers : List Container) (names : List ℕ) : Multiset Token :=
  (names.map stale : Multiset Token) + ((containers.map known : Multiset Token) + {sawShutdown})

theorem settled_snapshotTokens (containers : List Container) (names : List ℕ) :
    Settled (snapshotTokens containers names) := by
  intro t ht
  simp only [snapshotTokens, Multiset.mem_add, Multiset.mem_coe, List.mem_map,
    Multiset.mem_singleton] at ht
  rcases ht with ⟨n, -, rfl⟩ | ⟨c, -, rfl⟩ | rfl <;> rfl

theorem shutdownPool_safe (hB : slot ∉ B) (hlock : number isLock B = 0)
    (hi : bounded → ∃ k, init k ∈ B) :
    Safe bounded (fun _ m => Settled m) shutdownPool B := by
  refine Safe.bind (beginShutdown_safe hB hlock hi) ?_ ?_
  case refine_2 => rintro e m ⟨⟨⟩, -⟩
  rintro _ m ⟨-, rfl⟩
  -- the snapshot is taken under the lock, after the flag is set
  have hsnapshot : Safe bounded (fun r m => ∃ containers names client,
      r = .ok (containers, names, client) ∧ m = snapshotTokens containers names)
      (withCreateShutdownLock (perform .snapshot)) {sawShutdown} := by
    refine withCreateShutdownLock_safe (by simp) ?_
    refine Safe.perform (triple_snapshot (by simp)) ?_
    rintro ⟨containers, names, client⟩ m rfl
    refine ⟨snapshotTokens containers names, .free, ?_, containers, names, client, rfl, rfl⟩
    exact (settled_snapshotTokens containers names).slot_notMem
  refine Safe.bind hsnapshot ?_ ?_
  case refine_2 => rintro e m ⟨_, _, _, ⟨⟩, -⟩
  rintro _ m ⟨containers, names, client, ⟨rfl⟩, rfl⟩
  have hK := settled_snapshotTokens containers names
  have hslot := hK.slot_notMem
  have hs : sawShutdown ∈ snapshotTokens containers names := by simp [snapshotTokens]
  -- neither loop raises, whatever becomes of the single containers
  refine Safe.bind (cleanupAll_safe hslot hs fun c hc => ?_) ?_ ?_
  case refine_1 => simp [snapshotTokens, hc]
  case refine_3 => rintro e m ⟨⟨⟩, -⟩
  rintro _ m ⟨-, rfl⟩
  refine Safe.bind (cleanupAllPending_safe hslot hs fun n hn => ?_) ?_ ?_
  case refine_1 => simp [snapshotTokens, hn]
  case refine_3 => rintro e m ⟨⟨⟩, -⟩
  rintro _ m ⟨-, rfl⟩
  cases client with
  | false => exact hK
  | true =>
    refine Safe.perform_bind (triple_closeClient hslot) fun closed m hm => ?_
    have hm' : Settled m := by
      rcases closed with e | ⟨⟨⟩⟩
      · exact hm ▸ hK.learn rfl
      · exact hm ▸ hK
    exact hm'

/-! ### Initialisation -/

/-- The loop of `initialize_pool`. -/
theorem createAndAddAll_safe (k : ℕ) :
    Safe bounded (fun r m => match r with
      | .ok () => m = {init 0}
      | .error _ => slot ∉ m ∧ number isLock m = 0 ∧ ∃ k, init k ∈ m) (createAndAddAll k)
      (init k ::ₘ Multiset.replicate k entitled) := by
  induction k with
  | zero => exact rfl
  | succ k ih =>
    have hslot : slot ∉ init (k + 1) ::ₘ Multiset.replicate k entitled := by
      simp [Multiset.mem_replicate]
    have hlock : number isLock (Multiset.replicate k entitled) = 0 := by
      refine Multiset.countP_eq_zero.mpr fun t ht => ?_
      obtain rfl := Multiset.eq_of_mem_replicate ht
      simp [isLock]
    have hl : Licence (init (k + 1) ::ₘ Multiset.replicate (k + 1) entitled)
        (init (k + 1) ::ₘ Multiset.replicate k entitled) := by
      rw [Multiset.replicate_succ, Multiset.cons_swap]
      exact .reserved
    refine Safe.bind (createAndAdd_safe hl .init hslot) ?_ ?_
    · rintro _ m rfl
      exact ih
    · rintro e m rfl
      exact ⟨by simpa using hslot, by simp [isLock, hlock], k + 1, by simp⟩

/-- The tokens with which `initialize_pool` starts. -/
def initTokens (poolSize : ℕ) (imageId : Option String) : Multiset Token :=
  if imageId.isNone then 0 else init poolSize ::ₘ Multiset.replicate poolSize entitled

theorem initTokens_slot_notMem (poolSize : ℕ) (imageId : Option String) :
    slot ∉ initTokens poolSize imageId := by
  unfold initTokens
  split <;> simp [Multiset.mem_replicate]

theorem raiseIf_bind_safe {b : Bool} {e : Exc} {f : Unit → M α} {m : Multiset Token}
    {post : Except Exc α → Multiset Token → Prop} (htrue : b = true → post (.error e) m)
    (hfalse : b = false → Safe bounded post (f ()) m) :
    Safe bounded post (raiseIf b e >>= f) m := by
  cases b with
  | true => exact htrue rfl
  | false => exact hfalse rfl

theorem initializePool_safe (poolSize : ℕ) (imageId : Option String) :
    Safe bounded (fun _ m => Settled m) (initializePool poolSize imageId)
      (initTokens poolSize imageId) := by
  have hslot := initTokens_slot_notMem poolSize imageId
  refine raiseIf_bind_safe (fun hnone => ?_) fun hsome => ?_
  · rw [initTokens, if_pos hnone]
    exact Settled.zero
  simp only [initTokens, hsome, Bool.false_eq_true, if_false] at hslot ⊢
  have hlock : number isLock (init poolSize ::ₘ Multiset.replicate poolSize entitled) = 0 := by
    refine Multiset.countP_eq_zero.mpr fun t ht => ?_
    rcases Multiset.mem_cons.mp ht with rfl | ht
    · simp [isLock]
    · obtain rfl := Multiset.eq_of_mem_replicate ht
      simp [isLock]
  have hbody : Safe bounded (fun r m => match r with
      | .ok () => m = {init 0}
      | .error _ => slot ∉ m ∧ number isLock m = 0 ∧ ∃ k, init k ∈ m)
      (reconcileStaleContainers >>= fun _ => createAndAddAll poolSize)
      (init poolSize ::ₘ Multiset.replicate poolSize entitled) := by
    refine Safe.bind (reconcileStaleContainers_safe hslot) ?_ ?_
    · rintro _ m rfl
      exact createAndAddAll_safe poolSize
    · rintro e m rfl
      exact ⟨hslot, hlock, poolSize, by simp⟩
  -- any failure shuts the manager down
  have htry : Safe bounded (fun r m => match r with
      | .ok () => m = {init 0}
      | .error _ => Settled m)
      (tryCatch (reconcileStaleContainers >>= fun _ => createAndAddAll poolSize) fun e => do
        shutdownPool
        throw e)
      (init poolSize ::ₘ Multiset.replicate poolSize entitled) := by
    refine Safe.tryCatch hbody (fun _ _ h => h) ?_
    rintro e m ⟨hm, hm', hi⟩
    have hdown := shutdownPool_safe hm hm' fun _ : bounded => hi
    refine Safe.bind hdown ?_ ?_
    · exact fun _ _ h => h
    · exact fun _ _ h => h
  refine Safe.bind htry ?_ ?_
  case refine_2 => exact fun _ _ h => h
  rintro _ m rfl
  refine Safe.perform (triple_setInitialized (Multiset.notMem_zero _)) ?_
  rintro _ m rfl
  exact Settled.zero

/-! ### Leasing -/

/-- The tokens of an execution that works with a container, and those it will
have when it has replaced the container. -/
inductive Lease : Multiset Token → Multiset Token → Prop
  | taken : Lease {owed} {idle}
  | created : Lease (sawDegraded ::ₘ sawRaised ::ₘ {idle}) (sawDegraded ::ₘ sawRaised ::ₘ {idle})

theorem Lease.slot_notMem (h : Lease B B') : slot ∉ B := by
  cases h <;> simp

theorem Lease.debt (h : Lease B B') : Debt B B' := by
  cases h with
  | taken => exact .owed
  | created => exact .none (by simp) (by simp)

theorem Lease.returned (h : Lease B B') : Returned B' := by
  cases h with
  | taken => exact .idle Settled.zero
  | created => exact ((Returned.idle Settled.zero).learn rfl).learn rfl

/-- What is left of a lease when the pool has not got a container back. -/
theorem Lease.returned_degraded {D : Multiset Token} (h : Lease B B') (hD : Settled D) :
    Returned (sawDegraded ::ₘ (D + B)) := by
  cases h with
  | taken =>
    have : sawDegraded ::ₘ (D + {owed}) = owed ::ₘ sawDegraded ::ₘ D := by
      rw [add_comm, Multiset.singleton_add, Multiset.cons_swap]
    rw [this]
    exact .owed (hD.learn rfl) (by simp)
  | created =>
    have : D + sawDegraded ::ₘ sawRaised ::ₘ {idle} =
        sawDegraded ::ₘ sawRaised ::ₘ idle ::ₘ D := by
      rw [Multiset.add_cons, Multiset.add_cons, add_comm, Multiset.singleton_add]
    rw [this]
    exact (((Returned.idle hD).learn rfl).learn rfl).learn rfl

/-- What `get_container` ends with. -/
def Leased (r : Except Exc Container) (m : Multiset Token) : Prop :=
  match r with
  | .ok c => ∃ X Y, Lease X Y ∧ m = owns c ::ₘ X
  | .error _ => Returned m

/-- The creation branch: only a degraded pool is ever found empty. -/
theorem createForLease_safe :
    Safe bounded Leased createForLease (sawDegraded ::ₘ sawRaised ::ₘ {idle}) := by
  have hraised : sawRaised ∈ sawDegraded ::ₘ sawRaised ::ₘ {idle} := by simp
  have hret : Returned (sawRaised ::ₘ sawDegraded ::ₘ sawRaised ::ₘ {idle}) :=
    (((Returned.idle Settled.zero).learn rfl).learn rfl).learn rfl
  refine Safe.tryCatch (createContainer_safe (.raised hraised) (by simp)) ?_ ?_
  · rintro c m rfl
    exact ⟨_, _, .created, rfl⟩
  · rintro e m rfl
    by_cases he : e = .capacity
    · rw [if_pos he]
      refine Safe.perform_bind (triple_raiseCapacity (by simp) hret.slot_notMem) ?_
      rintro _ m rfl
      exact hret
    · rw [if_neg he]
      refine Safe.perform_bind (triple_markDegraded (by simp) hret.slot_notMem) ?_
      rintro _ m rfl
      exact hret.learn rfl

theorem getContainer_safe : Safe bounded Leased getContainer {idle} := by
  refine Safe.perform_bind (triple_popPool (Multiset.notMem_zero _)) fun answer m hm => ?_
  cases answer with
  | shuttingDown => exact hm ▸ Returned.idle Settled.zero
  | leased c => exact ⟨_, _, .taken, hm⟩
  | empty => exact hm ▸ createForLease_safe

/-- The replenishment of a lease whose slot has been freed. -/
theorem replenish_safe (h : Lease B B') :
    Safe bounded (fun _ m => Returned m) replenish (entitled ::ₘ B) := by
  have hadd : Safe bounded (fun r m => match r with
      | .ok _ => m = B'
      | .error _ => m = sawRaised ::ₘ B) (createAndAdd >>= fun _ => Pure.pure ())
      (entitled ::ₘ B) :=
    Safe.bind (createAndAdd_safe .reserved h.debt h.slot_notMem) (fun _ _ h => h) fun _ _ h => h
  refine Safe.tryCatch hadd ?_ ?_
  · rintro _ m rfl
    exact h.returned
  · rintro e m rfl
    refine Safe.perform (triple_markDegraded (by simp) (by simpa using h.slot_notMem)) ?_
    rintro _ m rfl
    exact h.returned_degraded (D := {sawRaised}) (Settled.zero.learn rfl)

/-- `release_container` removes the container and returns another to the pool,
or knows that the pool is degraded. -/
theorem releaseContainer_safe {alreadyStopped : Bool} (h : Lease B B') :
    Safe bounded (fun _ m => Returned m) (releaseContainer c alreadyStopped) (owns c ::ₘ B) := by
  have hslot := h.slot_notMem
  refine Safe.bind (cleanupContainer_safe hslot) ?_ ?_
  case refine_2 => rintro e m (⟨⟨⟩, -⟩ | ⟨⟨⟩, -⟩)
  rintro removed m (⟨⟨rfl⟩, rfl⟩ | ⟨⟨rfl⟩, rfl⟩)
  -- a removed container is replaced, unless a shutdown has begun
  · have hread : Triple bounded .readShuttingDown (entitled ::ₘ B) fun down m =>
        m = if down then sawDegraded ::ₘ B else entitled ::ₘ B := by
      refine (triple_readShuttingDown (by simpa using hslot)).shift fun down m hm => ?_
      cases down with
      | false => exact ⟨_, hm ▸ shift_refl, rfl⟩
      | true => exact ⟨_, hm ▸ shift_sawDegraded_of_shutdown, rfl⟩
    refine Safe.perform_bind hread ?_
    rintro down m rfl
    cases down with
    | true =>
      have := h.returned_degraded Settled.zero
      rw [zero_add] at this
      exact this
    | false => exact replenish_safe h
  -- one that stays degrades the pool
  · refine Safe.perform_bind (triple_markDegraded (by simp) (by simpa using hslot)) ?_
    rintro _ m rfl
    refine Safe.perform_bind (triple_readShuttingDown (by simpa using hslot)) ?_
    rintro down m rfl
    have hret := h.returned_degraded (Settled.zero.learn (t := sawRaised) rfl)
    cases down with
    | true => exact hret.learn rfl
    | false => exact hret

theorem lease_safe : Safe bounded (fun _ m => Returned m) lease {idle} := by
  refine Safe.bind getContainer_safe ?_ fun _ _ h => h
  rintro c m ⟨X, Y, h, rfl⟩
  refine Safe.perform_bind (triple_useLease h.slot_notMem) ?_
  rintro alreadyStopped m rfl
  exact releaseContainer_safe h

theorem execution_safe : Safe bounded (fun _ m => Settled m) execution 0 := by
  refine Safe.perform_bind triple_beginExecution ?_
  rintro _ m rfl
  refine Safe.finally' lease_safe fun r m hr => ?_
  refine Safe.perform (triple_endExecution hr) fun _ m hm => ?_
  exact hm

end ContainerManager
