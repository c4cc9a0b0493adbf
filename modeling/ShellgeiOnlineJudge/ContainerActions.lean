/-
The program logic of the container pool: what each action does to the tokens.

One triple for each action and each kind of thread that performs it, read off
the step lemmas.  `here` says what is known of a thread's tokens at an action;
the theorems about reachable states are read off it.
-/
import ShellgeiOnlineJudge.ContainerSteps

namespace ContainerManager

open Token Prog

/-- What is known of the tokens of a thread at an action. -/
def here : Action → Multiset Token → Prop
  | .addPendingName, m | .releaseSlot, m => m.count slot = 1
  | .useLease c, m => slot ∉ m ∧ owns c ∈ m
  | .popPool, m => slot ∉ m ∧ idle ∈ m
  | .markDegraded, m => slot ∉ m ∧ sawRaised ∈ m
  | .raiseCapacity, m => slot ∉ m ∧ sawDegraded ∈ m
  | .beginExecution, m => m = 0
  | _, m => slot ∉ m

/-- The program logic of the manager. -/
def logic (bounded : Prop) : Logic Action Action.Response World Token where
  sem := sem
  inv := Inv bounded
  here := here

variable {bounded : Prop} {B B' B'' : Multiset Token} {α : Type} {c : Container} {name : ℕ}

/-- Triples and specifications in the logic of the manager. -/
abbrev Triple (bounded : Prop) (a : Action) (m : Multiset Token)
    (post : a.Response → Multiset Token → Prop) : Prop :=
  Prog.Triple (logic bounded) a m post

/-- A program that owns these tokens keeps the invariant and ends in the postcondition. -/
abbrev Safe (bounded : Prop) (post : Except Exc α → Multiset Token → Prop) (p : M α)
    (m : Multiset Token) : Prop :=
  Prog.Safe (logic bounded) post p m

/-- The first tokens can be exchanged for the second without a step. -/
abbrev Shift (bounded : Prop) (m m' : Multiset Token) : Prop :=
  Prog.Shift (logic bounded) m m'

theorem fallible_cases {s s' : World} {r : Except Exc Unit} (h : s.fallible r = some s') :
    (r = .ok () ∧ s' = s) ∨ (r = .error .docker ∧ s' = { s with raised := true }) := by
  rcases r with e | ⟨⟨⟩⟩
  · cases e <;> cases h
    exact .inr ⟨rfl, rfl⟩
  · cases h
    exact .inl ⟨rfl, rfl⟩

theorem dictPop_of_any_false {d : List Container} (h : d.any (·.id == c.id) = false) :
    dictPop d c = d := by
  rw [dictPop, List.filter_eq_self]
  intro e he
  have := List.any_eq_false.mp h e he
  simpa using this

/-- The dict is keyed by the Docker ID, which no other container has. -/
theorem World.Ok.mem_of_any_id {s : World} (h : s.Ok) (hc : c ∈ s.created)
    (hany : s.managed.any (·.id == c.id) = true) : c ∈ s.managed := by
  obtain ⟨d, hd, hid⟩ := List.any_eq_true.mp hany
  have : d = c := h.created_ids d (h.managed_created d hd) c hc (by simpa using hid)
  exact this ▸ hd

/-! ### Exchanging tokens -/

theorem shift_refl : Shift bounded B B := fun _ _ h => h

theorem shift_drop {t : Token} (ht : t.droppable = true) : Shift bounded (t ::ₘ B) B := by
  intro s F h
  rw [Multiset.cons_add] at h
  exact Inv.drop h ht

theorem shift_entitled (hr : sawRaised ∈ B) : Shift bounded (entitled ::ₘ B) B := by
  intro s F h
  rw [Multiset.cons_add] at h
  exact Inv.drop_entitled h (by simp [hr])

/-- After a shutdown reservations are worthless. -/
theorem shift_of_sawShutdown {t : Token} (hs : sawShutdown ∈ B) (ht : t.isLock = false)
    (hslot : slot ≠ t) : Shift bounded (t ::ₘ B) B := by
  intro s F h
  rw [Multiset.cons_add] at h
  exact Inv.drop_of_shutdown h (h.core.ok sawShutdown (by simp [hs])) ht hslot

theorem shift_sawDegraded_of_shutdown :
    Shift bounded (sawShutdown ::ₘ entitled ::ₘ B) (sawDegraded ::ₘ B) := by
  intro s F h
  simp only [logic, Multiset.cons_add] at h ⊢
  have hdown : s.shuttingDown = true := h.core.ok sawShutdown (by simp)
  have hB := (h.drop rfl).drop_of_shutdown hdown rfl (by simp)
  exact hB.learn_sawDegraded fun _ hup => by simp [hdown] at hup

/-! ### Actions -/

theorem triple_acquireCleanupLock (hB : slot ∉ B) :
    Triple bounded .acquireCleanupLock B fun _ m => m = B := by
  refine ⟨hB, fun s F r s' h hs => ⟨B, ?_, rfl⟩⟩
  simp only [logic, sem] at hs
  split at hs <;> cases hs
  exact Inv.neutral h true s.client s.imageValidated

theorem triple_releaseCleanupLock (hB : slot ∉ B) :
    Triple bounded .releaseCleanupLock B fun _ m => m = B := by
  refine ⟨hB, fun s F r s' h hs => ⟨B, ?_, rfl⟩⟩
  cases hs
  exact Inv.neutral h false s.client s.imageValidated

theorem triple_acquireCreateShutdownLock (hB : slot ∉ B) :
    Triple bounded .acquireCreateShutdownLock B fun _ m => m = lock ::ₘ B := by
  refine ⟨hB, fun s F r s' h hs => ⟨lock ::ₘ B, ?_, rfl⟩⟩
  simp only [logic, sem] at hs
  split at hs
  · cases hs
  · next hl =>
    cases hs
    rw [Multiset.cons_add]
    exact Inv.acquireLock h (by simpa using hl)

/-- The tokens of the thread that holds the creation lock, where it may release
it: no creation is under way, or one has failed. -/
inductive Locked (B : Multiset Token) : Multiset Token → Prop
  | free : Locked B (lock ::ₘ B)
  | failed {name : ℕ} (hr : sawRaised ∈ B) : Locked B (pending name ::ₘ B)

theorem triple_releaseCreateShutdownLock {m : Multiset Token} (hm : Locked B m) (hB : slot ∉ B) :
    Triple bounded .releaseCreateShutdownLock m fun _ m' => m' = B := by
  refine ⟨by cases hm <;> simpa [logic, here] using hB, fun s F r s' h hs => ⟨B, ?_, rfl⟩⟩
  cases hs
  cases hm with
  | free =>
    simp only [logic, Multiset.cons_add] at h ⊢
    exact h.releaseLock
  | failed hr =>
    simp only [logic, Multiset.cons_add] at h ⊢
    exact (h.abandonName (by simp [hr])).releaseLock

/-- A thread's claim to a free slot: a reservation, or a failure that has made
reservations worthless. -/
inductive Licence : Multiset Token → Multiset Token → Prop
  | reserved {B : Multiset Token} : Licence (entitled ::ₘ B) B
  | raised {B : Multiset Token} (hmem : sawRaised ∈ B) : Licence B B

theorem Licence.slot_notMem (hl : Licence B B') (hB : slot ∉ B') : slot ∉ B := by
  cases hl <;> simpa using hB

/-- A failure has happened, so the claim is given up. -/
theorem Licence.forfeit {s : World} {F : Multiset Token} (hl : Licence B B')
    (h : Inv bounded s (lock ::ₘ (B + F)))
    (hr : bounded → s.shuttingDown = false → s.raised = true) :
    Inv bounded s (sawRaised ::ₘ lock ::ₘ (B' + F)) := by
  cases hl with
  | reserved =>
    have h' : Inv bounded s (entitled ::ₘ sawRaised ::ₘ lock ::ₘ (B' + F)) := by
      have h' := h.learn_sawRaised hr
      rwa [Multiset.cons_add, Multiset.cons_swap lock, Multiset.cons_swap sawRaised] at h'
    exact h'.drop_entitled (by simp)
  | raised => exact h.learn_sawRaised hr

theorem Licence.shift_of_shutdown (hl : Licence B B') :
    Shift bounded (sawShutdown ::ₘ lock ::ₘ B) (sawRaised ::ₘ lock ::ₘ B') := by
  intro s F h
  simp only [logic, Multiset.cons_add] at h ⊢
  have hdown : s.shuttingDown = true := h.core.ok sawShutdown (by simp)
  exact hl.forfeit (h.drop rfl) fun _ hup => by simp [hdown] at hup

/-- The answer to a call that may fail, made under the creation lock. -/
def Licenced (B B' : Multiset Token) : Except Exc Unit → Multiset Token → Prop
  | .ok (), m => m = lock ::ₘ B
  | .error _, m => m = sawRaised ::ₘ lock ::ₘ B'

theorem triple_readShuttingDown (hB : slot ∉ B) :
    Triple bounded .readShuttingDown B fun down m =>
      m = if down then sawShutdown ::ₘ B else B := by
  refine ⟨hB, fun s F r s' h hs => ⟨_, ?_, rfl⟩⟩
  simp only [logic, sem] at h hs ⊢
  split at hs <;> cases hs
  next hr =>
  cases r with
  | false => simpa using h
  | true =>
    rw [if_pos rfl, Multiset.cons_add]
    exact h.learn_sawShutdown hr.symm

theorem triple_getClient (hl : Licence B B') (hB : slot ∉ B') :
    Triple bounded .getClient (lock ::ₘ B) (Licenced B B') := by
  refine ⟨by simpa [logic, here] using hl.slot_notMem hB, fun s F r s' h hs => ?_⟩
  simp only [logic, sem] at h hs
  rw [Multiset.cons_add] at h
  rcases r with e | ⟨⟨⟩⟩
  · refine ⟨sawRaised ::ₘ lock ::ₘ B', ?_, rfl⟩
    simp only [logic, Multiset.cons_add]
    cases e with
    | shuttingDown =>
      simp only at hs
      split at hs <;> cases hs
      next hd => exact hl.forfeit h fun _ hd' => absurd hd (by simp [hd'])
    | docker =>
      simp only at hs
      split at hs <;> cases hs
      exact hl.forfeit h.raise fun _ _ => rfl
    | _ => cases hs
  · refine ⟨lock ::ₘ B, ?_, rfl⟩
    simp only at hs
    split at hs <;> cases hs
    simpa [logic] using Inv.neutral h s.cleanupLock true s.imageValidated

theorem triple_ensureSandboxImage (hl : Licence B B') (hB : slot ∉ B') :
    Triple bounded .ensureSandboxImage (lock ::ₘ B) (Licenced B B') := by
  refine ⟨by simpa [logic, here] using hl.slot_notMem hB, fun s F r s' h hs => ?_⟩
  simp only [logic, sem] at h hs
  rw [Multiset.cons_add] at h
  rcases r with e | ⟨⟨⟩⟩
  · refine ⟨sawRaised ::ₘ lock ::ₘ B', ?_, rfl⟩
    simp only [logic, Multiset.cons_add]
    cases e with
    | imageRequired =>
      simp only at hs
      split at hs <;> cases hs
      next hi =>
        refine hl.forfeit h fun hb _ => absurd (h.image hb) ?_
        simp only [Bool.or_eq_true, not_or] at hi
        exact hi.2
    | docker =>
      simp only at hs
      split at hs <;> cases hs
      exact hl.forfeit h.raise fun _ _ => rfl
    | _ => cases hs
  · refine ⟨lock ::ₘ B, ?_, rfl⟩
    simp only at hs
    split at hs <;> cases hs
    simpa [logic] using Inv.neutral h s.cleanupLock s.client true

/-- Without a failure every free slot is reserved, so that a reservation is
honoured. -/
theorem triple_acquireSlot (hl : Licence B B') (hB : slot ∉ B') :
    Triple bounded .acquireSlot (lock ::ₘ B) fun acquired m =>
      m = if acquired then slot ::ₘ lock ::ₘ B' else sawRaised ::ₘ lock ::ₘ B' := by
  refine ⟨by simpa [logic, here] using hl.slot_notMem hB, fun s F r s' h hs => ?_⟩
  simp only [logic, sem] at h hs
  rw [Multiset.cons_add] at h
  split at hs <;> cases hs
  next hr =>
  cases r with
  -- a slot is free: the reserved one, or any after a failure
  | true =>
    refine ⟨_, ?_, rfl⟩
    have hpos : 0 < s.slots := by simpa using hr.symm
    simp only [logic, if_true, Multiset.cons_add]
    cases hl with
    | reserved =>
      rw [Multiset.cons_add, Multiset.cons_swap] at h
      exact h.acquireSlot hpos
    | raised hmem => exact h.acquireSlot_of_raised (by simp [hmem]) hpos
  -- no slot is free, which for a reserved one only happens after a failure
  | false =>
    refine ⟨_, ?_, rfl⟩
    have hzero : s.slots = 0 := by simpa using hr.symm
    simp only [logic, Bool.false_eq_true, if_false, Multiset.cons_add]
    refine hl.forfeit h fun hb hd => ?_
    cases hl with
    | reserved =>
      by_contra hraised
      have hfree := ((h.live hb hd).clean (by simpa using hraised)).2.1
      rw [hzero, Multiset.cons_add] at hfree
      simp at hfree
    | raised hmem => exact h.core.ok sawRaised (by simp [hmem]) hb hd

/-! ### Creating a container -/

theorem triple_addPendingName (hB : slot ∉ B) :
    Triple bounded .addPendingName (slot ::ₘ lock ::ₘ B) fun name m => m = creating name ::ₘ B := by
  refine ⟨by simpa [logic, here] using hB, fun s F name s' h hs => ⟨_, ?_, rfl⟩⟩
  simp only [logic, sem, Multiset.cons_add] at h hs ⊢
  split at hs <;> cases hs
  next hn => exact h.addPendingName hn

theorem triple_containersCreate (hB : slot ∉ B) :
    Triple bounded (.containersCreate name) (creating name ::ₘ B) fun r m => match r with
      | .created c => m = fresh name c ::ₘ B
      | .raised _ => m = sawRaised ::ₘ pending name ::ₘ B := by
  refine ⟨by simpa [logic, here] using hB, fun s F r s' h hs => ?_⟩
  simp only [logic, sem, Multiset.cons_add] at h hs ⊢
  match r with
  | .created c =>
    refine ⟨_, ?_, rfl⟩
    rw [Multiset.cons_add]
    exact h.createDone hs
  | .raised none =>
    cases hs
    refine ⟨_, ?_, rfl⟩
    simp only [Multiset.cons_add]
    exact h.createFailed.raise.learn_sawRaised fun _ _ => rfl
  | .raised (some c) =>
    refine ⟨_, ?_, rfl⟩
    simp only [Multiset.cons_add]
    have hraised : s'.raised = true := by
      simp only [World.create] at hs
      split at hs <;> cases hs
      rfl
    exact (h.raise.createDone hs).createLost.learn_sawRaised fun _ _ => hraised

theorem triple_validateContainerMounts (hB : slot ∉ B) :
    Triple bounded (.validateContainerMounts c) (fresh name c ::ₘ B) fun r m => match r with
      | .ok () => m = fresh name c ::ₘ B
      | .error _ => m = sawRaised ::ₘ pending name ::ₘ B := by
  refine ⟨by simpa [logic, here] using hB, fun s F r s' h hs => ?_⟩
  simp only [logic, sem, Multiset.cons_add] at h hs ⊢
  rcases fallible_cases hs with ⟨rfl, rfl⟩ | ⟨rfl, rfl⟩
  · exact ⟨_, by simpa using h, rfl⟩
  · refine ⟨_, ?_, rfl⟩
    simp only [Multiset.cons_add]
    exact h.raise.createLost.learn_sawRaised fun _ _ => rfl

/-- The answer to a call that may fail. -/
def MayFail (B : Multiset Token) : Except Exc Unit → Multiset Token → Prop
  | .ok (), m => m = B
  | .error _, m => m = sawRaised ::ₘ B

theorem mayFail_of_fallible {s s' : World} {F : Multiset Token} {r : Except Exc Unit}
    (h : Inv bounded s (B + F)) (hs : s.fallible r = some s') :
    ∃ m, Inv bounded s' (m + F) ∧ MayFail B r m := by
  rcases fallible_cases hs with ⟨rfl, rfl⟩ | ⟨rfl, rfl⟩
  · exact ⟨B, h, rfl⟩
  · refine ⟨sawRaised ::ₘ B, ?_, rfl⟩
    rw [Multiset.cons_add]
    exact h.raise.learn_sawRaised fun _ _ => rfl

theorem triple_start (hB : slot ∉ B) : Triple bounded (.start c) B (MayFail B) :=
  ⟨hB, fun _ _ _ _ h hs => mayFail_of_fallible h hs⟩

theorem triple_validateContainerResourceLimits (hB : slot ∉ B) :
    Triple bounded (.validateContainerResourceLimits c) B (MayFail B) :=
  ⟨hB, fun _ _ _ _ h hs => mayFail_of_fallible h hs⟩

theorem triple_closeClient (hB : slot ∉ B) : Triple bounded .closeClient B (MayFail B) :=
  ⟨hB, fun _ _ _ _ h hs => mayFail_of_fallible h hs⟩

theorem triple_recordManaged (hB : slot ∉ B) :
    Triple bounded (.recordManaged name c) (fresh name c ::ₘ B)
      fun _ m => m = owns c ::ₘ lock ::ₘ B := by
  refine ⟨by simpa [logic, here] using hB, fun s F r s' h hs => ⟨_, ?_, rfl⟩⟩
  cases hs
  simp only [logic, Multiset.cons_add] at h ⊢
  exact h.recordManaged

/-! ### Removing a container -/

theorem triple_kill (hB : slot ∉ B) : Triple bounded (.kill c) B fun _ m => m = B := by
  refine ⟨hB, fun s F r s' h hs => ⟨B, ?_, rfl⟩⟩
  match r with
  | .ok () => cases hs; exact h
  | .notFound => cases hs; exact h
  | .raised _ => cases hs; exact Inv.raise h

theorem gone_sublist (s : World) : (s.gone c).existing.Sublist s.existing :=
  List.filter_sublist

/-- Docker removes a container, whoever created it. -/
theorem triple_remove_any (hB : slot ∉ B) : Triple bounded (.remove c) B fun _ m => m = B := by
  refine ⟨hB, fun s F r s' h hs => ⟨B, ?_, rfl⟩⟩
  have hgone : Inv bounded (s.gone c) (B + F) := Inv.shrink h (gone_sublist s)
  match r with
  | .ok () => cases hs; exact hgone
  | .notFound => cases hs; exact hgone
  | .raised false => cases hs; exact Inv.raise h
  | .raised true => cases hs; exact hgone.raise

/-- Docker removes a container that this manager has created. -/
theorem triple_remove (hc : owns c ∈ B ∨ known c ∈ B) (hB : slot ∉ B) :
    Triple bounded (.remove c) B fun r m => match r with
      | .raised _ => m = sawRaised ::ₘ B
      | _ => m = gone c ::ₘ B := by
  refine ⟨hB, fun s F r s' h hs => ?_⟩
  have hcreated : c ∈ s.created := by
    rcases hc with hc | hc
    · exact (h.core.ok (owns c) (by simp [hc])).1
    · exact h.core.ok (known c) (by simp [hc])
  have hgone : Inv bounded (s.gone c) (B + F) := Inv.shrink h (gone_sublist s)
  have hlearn : Inv bounded (s.gone c) (gone c ::ₘ (B + F)) :=
    hgone.learn_gone hcreated (by simp [World.gone])
  match r with
  | .ok () => cases hs; exact ⟨_, by simpa [logic] using hlearn, rfl⟩
  | .notFound => cases hs; exact ⟨_, by simpa [logic] using hlearn, rfl⟩
  | .raised false =>
    cases hs
    refine ⟨_, ?_, rfl⟩
    rw [Multiset.cons_add]
    exact (Inv.raise h).learn_sawRaised fun _ _ => rfl
  | .raised true =>
    cases hs
    refine ⟨_, ?_, rfl⟩
    rw [Multiset.cons_add]
    exact hgone.raise.learn_sawRaised fun _ _ => rfl

/-- The owner of a container removes its record.  The record can only be
missing when a shutdown has taken it. -/
theorem triple_popManaged (hB : slot ∉ B) :
    Triple bounded (.popManaged c) (gone c ::ₘ owns c ::ₘ B) fun removed m =>
      m = if removed then slot ::ₘ B else entitled ::ₘ B := by
  refine ⟨by simpa [logic, here] using hB, fun s F r s' h hs => ⟨_, ?_, rfl⟩⟩
  simp only [logic, sem, Multiset.cons_add] at h hs ⊢
  split at hs <;> cases hs
  next hr =>
  obtain ⟨hcreated, hne⟩ := h.core.ok (gone c) (by simp)
  obtain ⟨-, hnp, hm⟩ := h.core.ok (owns c) (by simp)
  have hown := h.drop rfl
  cases r with
  | true =>
    rw [if_pos rfl, Multiset.cons_add]
    -- the token of the container is the only one
    have hnot : owns c ∉ B + F := by
      have hone := hown.core.exclusive.owned_once c
      intro hmem
      have := Multiset.one_le_count_iff_mem.mpr hmem
      rw [Multiset.count_cons_self] at hone
      omega
    exact (hown.drop rfl).popManaged (h.core.world.mem_of_any_id hcreated hr.symm) hne hnp
      fun _ => hnot
  | false =>
    -- only `shutdown_pool` removes a record before its holder does
    have hdown : s.shuttingDown = true := by
      by_contra hd
      have := List.any_eq_false.mp hr.symm c (hm (by simpa using hd))
      simp at this
    have hsame : dictPop s.managed c = s.managed := dictPop_of_any_false hr.symm
    rw [if_neg (by simp), Multiset.cons_add, hsame]
    exact {
      hown.drop rfl with
      core := (hown.drop rfl).core.learn rfl (by simp) (by simp) trivial (by simp) (by simp)
      live := fun _ hd => by simp [hdown] at hd }

/-- `shutdown_pool` removes the record of any container. -/
theorem triple_popManaged_shutdown (hB : slot ∉ B) (hs : sawShutdown ∈ B) :
    Triple bounded (.popManaged c) (gone c ::ₘ B) fun removed m =>
      m = if removed then slot ::ₘ B else B := by
  refine ⟨by simpa [logic, here] using hB, fun s F r s' h hsem => ⟨_, ?_, rfl⟩⟩
  simp only [logic, sem, Multiset.cons_add] at h hsem ⊢
  split at hsem <;> cases hsem
  next hr =>
  obtain ⟨hcreated, hne⟩ := h.core.ok (gone c) (by simp)
  have hdown : s.shuttingDown = true := h.core.ok sawShutdown (by simp [hs])
  cases r with
  | true =>
    rw [if_pos rfl, Multiset.cons_add]
    refine (h.drop rfl).popManaged (h.core.world.mem_of_any_id hcreated hr.symm) hne ?_ ?_
    · simp [h.core.world.shutdown hdown]
    · simp [hdown]
  | false =>
    have hsame : dictPop s.managed c = s.managed := dictPop_of_any_false hr.symm
    rw [if_neg (by simp), hsame]
    exact h.drop rfl

/-- The semaphore is below its initial value, so releasing it succeeds. -/
theorem triple_releaseSlot (hB : slot ∉ B) (hshift : Shift bounded (entitled ::ₘ B) B') :
    Triple bounded .releaseSlot (slot ::ₘ B) fun r m => r = .ok () ∧ m = B' := by
  refine ⟨by simpa [logic, here] using hB, fun s F r s' h hs => ⟨B', ?_⟩⟩
  simp only [logic, sem, Multiset.cons_add] at h hs
  have hlt := h.slots_lt
  rcases r with e | ⟨⟨⟩⟩
  · cases e <;> simp [hlt] at hs
  · simp only [hlt, if_true, Option.some.injEq] at hs
    subst hs
    refine ⟨hshift _ F ?_, rfl, rfl⟩
    rw [Multiset.cons_add]
    exact h.releaseSlot

theorem triple_discardPendingName (hB : slot ∉ B) :
    Triple bounded (.discardPendingName name) (goneName name ::ₘ pending name ::ₘ B)
      fun removed m => removed = true ∧ m = slot ::ₘ lock ::ₘ B := by
  refine ⟨by simpa [logic, here] using hB, fun s F r s' h hs => ⟨slot ::ₘ lock ::ₘ B, ?_⟩⟩
  simp only [logic, sem, Multiset.cons_add] at h hs ⊢
  split at hs <;> cases hs
  next hr =>
  have hpend : name ∈ s.pendingNames := h.core.ok (pending name) (by simp)
  exact ⟨h.discardPendingName, by simpa [hpend] using hr⟩

theorem triple_discardStaleName (hB : slot ∉ B) (hst : stale name ∈ B) (hs : sawShutdown ∈ B) :
    Triple bounded (.discardPendingName name) (goneName name ::ₘ B)
      fun removed m => m = if removed then slot ::ₘ B else B := by
  refine ⟨by simpa [logic, here] using hB, fun s F r s' h hsem => ⟨_, ?_, rfl⟩⟩
  simp only [logic, sem, Multiset.cons_add] at h hsem ⊢
  split at hsem <;> cases hsem
  next hr =>
  have hdown : s.shuttingDown = true := h.core.ok sawShutdown (by simp [hs])
  cases r with
  | true =>
    have hpend : name ∈ s.pendingNames := by simpa using hr.symm
    have h' := h.discardStaleName hpend (by simp [hst]) (by simp) hdown
    rw [if_pos rfl, Multiset.cons_add]
    rw [Multiset.cons_swap] at h'
    exact h'.drop rfl
  | false =>
    have hpend : name ∉ s.pendingNames := by simpa using hr.symm
    rw [if_neg (by simp), Finset.erase_eq_of_notMem hpend]
    exact h.drop rfl

/-! ### Removing what a failed creation left behind -/

theorem triple_readClient (hB : slot ∉ B) : Triple bounded .readClient B fun _ m => m = B := by
  refine ⟨hB, fun s F r s' h hs => ⟨B, ?_, rfl⟩⟩
  simp only [logic, sem] at h hs ⊢
  split at hs <;> cases hs
  exact h

/-- No container will be created under a name whose creation has been answered. -/
theorem Inv.creating_notMem {s : World} {F : Multiset Token} (h : Inv bounded s F)
    (hn : pending name ∈ F ∨ stale name ∈ F) : creating name ∉ F ∧ name ∈ s.usedNames := by
  rcases hn with hn | hn
  · obtain ⟨G, rfl⟩ := Multiset.exists_cons_of_mem hn
    have hno : creating name ∉ G := h.core.exclusive.not_mem_of_lock rfl rfl
    exact ⟨by simpa using hno, h.core.world.pending_used name (h.core.ok _ hn)⟩
  · exact ⟨(h.core.exclusive.stale_not_locked name hn).1, h.core.ok _ hn⟩

theorem triple_containersGet (hn : pending name ∈ B ∨ stale name ∈ B) (hB : slot ∉ B) :
    Triple bounded (.containersGet name) B fun r m => match r with
      | .ok c => c.name = name ∧ m = known c ::ₘ B
      | .notFound => m = goneName name ::ₘ B
      | .raised _ => m = B := by
  refine ⟨hB, fun s F r s' h hs => ?_⟩
  simp only [logic, sem] at h hs ⊢
  cases r with
  | ok c =>
    simp only at hs
    split at hs <;> cases hs
    next hc =>
    refine ⟨known c ::ₘ B, ?_, hc.2, rfl⟩
    rw [Multiset.cons_add]
    exact h.learn_known (h.core.world.existing_created c hc.1)
  | notFound =>
    cases hs
    refine ⟨_, ?_, rfl⟩
    obtain ⟨hcr, hused⟩ := h.creating_notMem (by simpa using hn.imp .inl .inl)
    rw [Multiset.cons_add]
    exact (h.shrink List.filter_sublist).learn_goneName hused (by simp) hcr
  | raised _ =>
    cases hs
    exact ⟨B, h.raise, rfl⟩

/-- Removing the one container with the name. -/
theorem triple_remove_pending (hn : pending name ∈ B ∨ stale name ∈ B) (hc : c.name = name)
    (hB : slot ∉ B) : Triple bounded (.remove c) (known c ::ₘ B) fun r m => match r with
      | .raised _ => m = B
      | _ => m = goneName name ::ₘ B := by
  refine (triple_remove (.inr (Multiset.mem_cons_self _ _)) (by simpa using hB)).shift
    fun r m hr => ?_
  have hforget : Shift bounded (sawRaised ::ₘ known c ::ₘ B) B := fun s F h =>
    shift_drop rfl s F (shift_drop rfl s F h)
  have hgone : Shift bounded (gone c ::ₘ known c ::ₘ B) (goneName name ::ₘ B) := by
    intro s F h
    simp only [logic, Multiset.cons_add] at h ⊢
    have hknown : c ∈ s.created := h.core.ok (known c) (by simp)
    obtain ⟨-, hne⟩ := h.core.ok (gone c) (by simp)
    have hB' := (h.drop rfl).drop rfl
    obtain ⟨hcr, hused⟩ := hB'.creating_notMem (by simpa using hn.imp .inl .inl)
    refine hB'.learn_goneName hused (fun d hd hdn => ?_) hcr
    have : d = c := h.core.world.created_names d (h.core.world.existing_created d hd) c hknown
      (hdn.trans hc.symm)
    exact hne (this ▸ hd)
  match r with
  | .raised _ => exact ⟨B, hr ▸ hforget, rfl⟩
  | .ok () => exact ⟨_, hr ▸ hgone, rfl⟩
  | .notFound => exact ⟨_, hr ▸ hgone, rfl⟩

/-! ### The pool -/

/-- What an execution owes the pool, before and after it has added a container. -/
inductive Debt : Multiset Token → Multiset Token → Prop
  | init {B : Multiset Token} {k : ℕ} : Debt (init (k + 1) ::ₘ B) (init k ::ₘ B)
  | owed {B : Multiset Token} : Debt (owed ::ₘ B) (idle ::ₘ B)
  | none {B : Multiset Token} (hi : idle ∈ B) (hd : sawDegraded ∈ B) : Debt B B

theorem triple_appendPool (hd : Debt B B') (hB : slot ∉ B) :
    Triple bounded (.appendPool c) (owns c ::ₘ B) fun added m =>
      m = if added then B' else owns c ::ₘ sawRaised ::ₘ B := by
  refine ⟨by simpa [logic, here] using hB, fun s F r s' h hs => ⟨_, ?_, rfl⟩⟩
  simp only [logic, sem, Multiset.cons_add] at h hs ⊢
  split at hs <;> cases hs
  next hr =>
  cases r with
  | true =>
    have hup : s.shuttingDown = false := by simpa using hr
    rw [if_pos rfl, if_pos rfl]
    cases hd with
    | init => simpa using Inv.appendPool_init (by simpa using h) hup
    | owed => simpa using Inv.appendPool_owed (by simpa using h) hup
    | none hi hd => exact h.appendPool_degraded hup (by simp [hi]) (by simp [hd])
  | false =>
    have hdown : s.shuttingDown = true := by simpa using hr
    simp only [Bool.false_eq_true, if_false, Multiset.cons_add]
    rw [Multiset.cons_swap]
    exact h.learn_sawRaised fun _ hup => by simp [hdown] at hup

theorem triple_popPool (hB : slot ∉ B) :
    Triple bounded .popPool (idle ::ₘ B) fun r m => match r with
      | .shuttingDown => m = idle ::ₘ B
      | .leased c => m = owns c ::ₘ owed ::ₘ B
      | .empty => m = sawDegraded ::ₘ sawRaised ::ₘ idle ::ₘ B := by
  refine ⟨⟨by simpa using hB, by simp⟩, fun s F r s' h hs => ?_⟩
  simp only [logic, sem, Multiset.cons_add] at h hs ⊢
  split at hs
  · split at hs <;> cases hs
    next hr =>
    subst hr
    exact ⟨_, by simpa using h, rfl⟩
  next hup =>
  split at hs
  · next hpool =>
    split at hs <;> cases hs
    next hr =>
    subst hr
    exact ⟨_, by simpa using h.popPool_empty (by simp) hpool, rfl⟩
  · next c rest hpool =>
    split at hs <;> cases hs
    next hr =>
    subst hr
    exact ⟨_, by simpa using h.popPool hpool (by simpa using hup), rfl⟩

theorem triple_markDegraded (hr : sawRaised ∈ B) (hB : slot ∉ B) :
    Triple bounded .markDegraded B fun _ m => m = sawDegraded ::ₘ B := by
  refine ⟨⟨hB, hr⟩, fun s F r s' h hs => ⟨_, ?_, rfl⟩⟩
  cases hs
  rw [Multiset.cons_add]
  by_cases hdown : s.shuttingDown = true
  · rw [if_pos hdown]
    exact h.learn_sawDegraded fun _ hup => by simp [hdown] at hup
  · rw [if_neg hdown]
    exact (h.markDegraded (by simp [hr]) (by simpa using hdown)).learn_sawDegraded fun _ _ => rfl

theorem triple_raiseCapacity (hd : sawDegraded ∈ B) (hB : slot ∉ B) :
    Triple bounded .raiseCapacity B fun _ m => m = B := by
  refine ⟨⟨hB, hd⟩, fun s F r s' h hs => ⟨B, ?_, rfl⟩⟩
  cases hs
  exact h

theorem triple_useLease (hB : slot ∉ B) :
    Triple bounded (.useLease c) (owns c ::ₘ B) fun _ m => m = owns c ::ₘ B := by
  refine ⟨⟨by simpa using hB, by simp⟩, fun s F r s' h hs => ⟨_, ?_, rfl⟩⟩
  cases hs
  exact h

/-! ### Shutdown, initialisation and executions -/

/-- `begin_shutdown` gives up everything the thread held. -/
theorem triple_setShuttingDown (hB : slot ∉ B) (hlock : number isLock B = 0)
    (hi : bounded → ∃ k, init k ∈ B) :
    Triple bounded .setShuttingDown (lock ::ₘ B) fun _ m => m = sawShutdown ::ₘ {lock} := by
  refine ⟨by simpa [logic, here] using hB, fun s F r s' h hs => ⟨_, ?_, rfl⟩⟩
  simp only [logic, sem, Multiset.cons_add, Multiset.singleton_add] at h hs ⊢
  rw [← Multiset.add_cons] at h
  have hslot : B.count slot = 0 := Multiset.count_eq_zero.mpr hB
  match r with
  | none =>
    simp only at hs
    split at hs <;> cases hs
    next hdown =>
    have hF : Inv bounded s (lock ::ₘ F) :=
      { h with
        core := h.core.drop_all B hslot hlock
        live := fun _ hup => by simp [hdown] at hup }
    exact hF.learn_sawShutdown hdown
  | some cs =>
    simp only at hs
    split at hs <;> cases hs
    exact h.setShuttingDown hslot hlock fun hb _ => hi hb

theorem triple_snapshot (hB : slot ∉ B) :
    Triple bounded .snapshot (lock ::ₘ B) fun (containers, names, _) m =>
      m = lock ::ₘ ((names.map stale : Multiset Token) +
        ((containers.map known : Multiset Token) + B)) := by
  refine ⟨by simpa [logic, here] using hB, fun s F r s' h hs => ?_⟩
  obtain ⟨containers, names, client⟩ := r
  refine ⟨_, ?_, rfl⟩
  simp only [logic, sem, Multiset.cons_add, add_assoc] at h hs ⊢
  split at hs <;> cases hs
  next hr =>
  obtain ⟨rfl, -, hnames, -⟩ := hr
  have hw := h.core.world
  have hknown := h.learn_all_known hw.managed_created
  rw [Multiset.add_cons] at hknown
  refine hknown.learn_all_stale fun name hn => hw.pending_used name ?_
  rw [← hnames]
  exact List.mem_toFinset.mpr hn

theorem triple_containersList (hB : slot ∉ B) :
    Triple bounded .containersList B fun _ m => m = B := by
  refine ⟨hB, fun s F r s' h hs => ⟨B, ?_, rfl⟩⟩
  match r with
  | .ok _ => cases hs; exact h
  | .error .docker => cases hs; exact h.raise

theorem triple_getClient_any (hB : slot ∉ B) :
    Triple bounded .getClient B fun _ m => m = B := by
  refine ⟨hB, fun s F r s' h hs => ⟨B, ?_, rfl⟩⟩
  match r with
  | .ok () =>
    simp only [logic, sem] at hs
    split at hs <;> cases hs
    exact Inv.neutral h s.cleanupLock true s.imageValidated
  | .error .shuttingDown =>
    simp only [logic, sem] at hs
    split at hs <;> cases hs
    exact h
  | .error .docker =>
    simp only [logic, sem] at hs
    split at hs <;> cases hs
    exact h.raise

theorem triple_setInitialized (hB : slot ∉ B) :
    Triple bounded .setInitialized (init 0 ::ₘ B) fun _ m => m = B := by
  refine ⟨by simpa [logic, here] using hB, fun s F r s' h hs => ⟨B, ?_, rfl⟩⟩
  cases hs
  simp only [logic, Multiset.cons_add] at h ⊢
  exact h.setInitialized

theorem triple_beginExecution :
    Triple bounded .beginExecution 0 fun _ m => m = {idle} := by
  refine ⟨rfl, fun s F r s' h hs => ⟨_, ?_, rfl⟩⟩
  simp only [logic, sem, zero_add, Multiset.singleton_add] at h hs ⊢
  split at hs <;> cases hs
  next ha => exact h.beginExecution ha.1 ha.2

/-- The tokens of a thread that keeps nothing a count is kept of. -/
def Settled (m : Multiset Token) : Prop := ∀ t ∈ m, t.droppable = true

theorem Settled.zero : Settled 0 := fun _ ht => absurd ht (Multiset.notMem_zero _)

theorem Settled.learn {t : Token} (h : Settled B) (ht : t.droppable = true) :
    Settled (t ::ₘ B) := by
  intro u hu
  rcases Multiset.mem_cons.mp hu with rfl | hu
  · exact ht
  · exact h u hu

theorem Settled.slot_notMem (h : Settled B) : slot ∉ B :=
  fun hc => slot_ne_of_droppable (h slot hc) rfl

/-- The tokens of an execution that has given back what it leased, or whose
container is lost to a degraded pool. -/
inductive Returned : Multiset Token → Prop
  | idle {D : Multiset Token} (h : Settled D) : Returned (idle ::ₘ D)
  | owed {D : Multiset Token} (h : Settled D) (hd : sawDegraded ∈ D) : Returned (owed ::ₘ D)

theorem Returned.learn {t : Token} (h : Returned B) (ht : t.droppable = true) :
    Returned (t ::ₘ B) := by
  cases h with
  | idle h =>
    rw [Multiset.cons_swap]
    exact .idle (h.learn ht)
  | owed h hd =>
    rw [Multiset.cons_swap]
    exact .owed (h.learn ht) (Multiset.mem_cons_of_mem hd)

theorem Returned.slot_notMem (h : Returned B) : slot ∉ B := by
  cases h with
  | idle h => simpa using h.slot_notMem
  | owed h => simpa using h.slot_notMem

theorem triple_endExecution (hB : Returned B) :
    Triple bounded .endExecution B fun _ m => Settled m := by
  refine ⟨hB.slot_notMem, fun s F r s' h hs => ?_⟩
  cases hs
  cases hB with
  | @idle D hdrop =>
    refine ⟨D, ?_, hdrop⟩
    simp only [logic, Multiset.cons_add] at h ⊢
    exact h.endExecution
  | @owed D hdrop hdeg =>
    refine ⟨D, ?_, hdrop⟩
    simp only [logic, Multiset.cons_add] at h ⊢
    exact h.endExecution_degraded (by simp [hdeg])

end ContainerManager
