/-
A thread pool with a work queue, and slots that bound its work items
(the concurrency library, part 3).

`Executor` is a pool seen through its futures: the queued items, the running
items, and the done callbacks that still have to run.  `Accounts` keeps the
books of a semaphore whose slots are held by callers, by futures in the hands
of callers, or by done callbacks: every operation of the pool has a lemma that
says how it moves a slot, and `Accounts.unfinished_le` bounds the unfinished
items by the slots that are not free.
-/
import Mathlib.Algebra.Order.Group.Multiset
import Mathlib.Data.Finset.Card
import Mathlib.Data.Finset.Dedup

/-- A thread pool, seen through the futures of its work items. -/
structure Executor where
  /-- queued items, oldest first -/
  queue : List ℕ
  running : Multiset ℕ
  /-- done callbacks that have not run yet, each with the future it was added to -/
  callbacks : Multiset ℕ
  /-- the futures handed out so far are those below `next` -/
  next : ℕ
  deriving DecidableEq

/-- What `submit` answers: a future, or an exception that was raised with or
without the item being queued. -/
inductive SubmitOutcome
  | future (i : ℕ)
  | raised (queued : Bool)
  deriving DecidableEq

namespace Executor

/-- A pool before its first item. -/
def empty : Executor := ⟨[], 0, 0, 0⟩

/-- A new item is queued. -/
def enqueue (e : Executor) : Executor :=
  { e with queue := e.queue ++ [e.next], next := e.next + 1 }

/-- The item is queued or running. -/
def Pending (e : Executor) (i : ℕ) : Prop := i ∈ e.queue ∨ i ∈ e.running

/-- `future.done()` -/
def Done (e : Executor) (i : ℕ) : Prop := ¬ e.Pending i

instance (e : Executor) (i : ℕ) : Decidable (e.Pending i) := inferInstanceAs (Decidable (_ ∨ _))

instance (e : Executor) (i : ℕ) : Decidable (e.Done i) := inferInstanceAs (Decidable (¬ _))

/-- A callback is added to a future that is not done. -/
def addCallback (e : Executor) (i : ℕ) : Executor := { e with callbacks := i ::ₘ e.callbacks }

/-- A callback has run. -/
def dropCallback (e : Executor) (i : ℕ) : Executor := { e with callbacks := e.callbacks.erase i }

/-- What the pool does by itself: a worker takes the oldest item, an item ends
(normally or with an exception), and, if the pool is `cancelling`, a queued
item is cancelled. -/
inductive Work (cancelling : Prop) (e : Executor) : Executor → Prop
  | start {i : ℕ} {rest : List ℕ} (h : e.queue = i :: rest) :
      Work cancelling e { e with queue := rest, running := i ::ₘ e.running }
  | complete {i : ℕ} (h : i ∈ e.running) :
      Work cancelling e { e with running := e.running.erase i }
  | cancel {i : ℕ} (hc : cancelling) (h : i ∈ e.queue) :
      Work cancelling e { e with queue := e.queue.erase i }

/-- The items that have not finished: queued, running, or done with callbacks
that have not run. -/
def unfinished (e : Executor) : Finset ℕ :=
  e.queue.toFinset ∪ e.running.toFinset ∪ e.callbacks.toFinset

theorem mem_unfinished {e : Executor} {i : ℕ} :
    i ∈ e.unfinished ↔ e.Pending i ∨ i ∈ e.callbacks := by
  simp [unfinished, Pending, or_assoc]

variable {e e' : Executor} {i j : ℕ} {cancelling : Prop}

theorem pending_enqueue : e.enqueue.Pending i ↔ e.Pending i ∨ i = e.next := by
  simp only [Pending, enqueue, List.mem_append, List.mem_singleton]
  tauto

/-- The pool never makes a finished item pending again. -/
theorem Work.pending (h : Work cancelling e e') (hi : e'.Pending i) : e.Pending i := by
  cases h with
  | start hq =>
    simp only [Pending, hq, List.mem_cons, Multiset.mem_cons] at hi ⊢
    tauto
  | complete _ => exact hi.imp_right Multiset.mem_of_mem_erase
  | cancel _ _ => exact hi.imp_left List.mem_of_mem_erase

theorem Work.callbacks_eq (h : Work cancelling e e') : e'.callbacks = e.callbacks := by
  cases h <;> rfl

theorem Work.next_eq (h : Work cancelling e e') : e'.next = e.next := by
  cases h <;> rfl

/-! ### Slots -/

/-- The books of a semaphore of `capacity` slots: `slots` are free, `taken` are
held by callers without an item, one by each future in `held`, which its caller
has not let go of, and one by each done callback.  Every pending item is behind
a held slot, apart from the `leaked` ones. -/
structure Accounts (capacity slots taken : ℕ) (held leaked : Multiset ℕ) (e : Executor) : Prop where
  total : slots + taken + held.card + e.callbacks.card = capacity
  backed : ∀ i, e.Pending i → i ∈ held ∨ i ∈ e.callbacks ∨ i ∈ leaked

namespace Accounts

variable {capacity slots taken : ℕ} {held leaked : Multiset ℕ}

theorem empty (capacity : ℕ) : Accounts capacity capacity 0 0 0 .empty where
  total := by simp [Executor.empty]
  backed := by simp [Executor.empty, Pending]

theorem acquire (h : Accounts capacity slots taken held leaked e) (hs : 0 < slots) :
    Accounts capacity (slots - 1) (taken + 1) held leaked e where
  total := by
    have := h.total
    omega
  backed := h.backed

theorem lt_of_taken (h : Accounts capacity slots (taken + 1) held leaked e) : slots < capacity := by
  have := h.total
  omega

theorem lt_of_held (h : Accounts capacity slots taken (i ::ₘ held) leaked e) :
    slots < capacity := by
  have := h.total
  rw [Multiset.card_cons] at this
  omega

theorem lt_of_callback (h : Accounts capacity slots taken held leaked e) (hi : i ∈ e.callbacks) :
    slots < capacity := by
  have := h.total
  have hpos := Multiset.card_pos_iff_exists_mem.mpr ⟨i, hi⟩
  omega

theorem release (h : Accounts capacity slots (taken + 1) held leaked e) :
    Accounts capacity (slots + 1) taken held leaked e where
  total := by
    have := h.total
    omega
  backed := h.backed

/-- A caller's slot becomes the slot of its future. -/
theorem submit (h : Accounts capacity slots (taken + 1) held leaked e) :
    Accounts capacity slots taken (e.next ::ₘ held) leaked e.enqueue where
  total := by
    have := h.total
    rw [Multiset.card_cons]
    simp only [enqueue]
    omega
  backed i hi := by
    rcases pending_enqueue.mp hi with hi | rfl
    · exact (h.backed i hi).imp_left Multiset.mem_cons_of_mem
    · exact .inl (Multiset.mem_cons_self _ _)

/-- An item is queued, but its future lost. -/
theorem leak (h : Accounts capacity slots taken held leaked e) :
    Accounts capacity slots taken held (e.next ::ₘ leaked) e.enqueue where
  total := h.total
  backed i hi := by
    rcases pending_enqueue.mp hi with hi | rfl
    · exact (h.backed i hi).imp_right (Or.imp_right Multiset.mem_cons_of_mem)
    · exact .inr (.inr (Multiset.mem_cons_self _ _))

/-- The caller of a future that is done takes its slot back. -/
theorem finish (h : Accounts capacity slots taken (i ::ₘ held) leaked e) (hi : e.Done i) :
    Accounts capacity slots (taken + 1) held leaked e where
  total := by
    have := h.total
    rw [Multiset.card_cons] at this
    omega
  backed j hj := by
    have hne : j ≠ i := by rintro rfl; exact hi hj
    rcases h.backed j hj with hm | hm
    · exact .inl ((Multiset.mem_cons.mp hm).resolve_left hne)
    · exact .inr hm

/-- The slot of a future is left to a done callback. -/
theorem addCallback (h : Accounts capacity slots taken (i ::ₘ held) leaked e) :
    Accounts capacity slots taken held leaked (e.addCallback i) where
  total := by
    have := h.total
    rw [Multiset.card_cons] at this
    simp only [Executor.addCallback, Multiset.card_cons]
    omega
  backed j hj := by
    rcases h.backed j hj with hm | hm | hm
    · rcases Multiset.mem_cons.mp hm with rfl | hm
      · exact .inr (.inl (Multiset.mem_cons_self _ _))
      · exact .inl hm
    · exact .inr (.inl (Multiset.mem_cons_of_mem hm))
    · exact .inr (.inr hm)

/-- A done callback releases the slot. -/
theorem runCallback (h : Accounts capacity slots taken held leaked e) (hi : i ∈ e.callbacks)
    (hd : e.Done i) : Accounts capacity (slots + 1) taken held leaked (e.dropCallback i) where
  total := by
    have := h.total
    have hcard := Multiset.card_erase_add_one hi
    simp only [dropCallback]
    omega
  backed j hj := by
    have hne : j ≠ i := by rintro rfl; exact hd hj
    rcases h.backed j hj with hm | hm | hm
    · exact .inl hm
    · exact .inr (.inl ((Multiset.mem_erase_of_ne hne).mpr hm))
    · exact .inr (.inr hm)

theorem work (h : Accounts capacity slots taken held leaked e) (hw : Work cancelling e e') :
    Accounts capacity slots taken held leaked e' where
  total := by
    rw [hw.callbacks_eq]
    exact h.total
  backed i hi := by
    rw [hw.callbacks_eq]
    exact h.backed i (hw.pending hi)

/-- **The slots bound the work**: apart from leaked items, there are no more
unfinished items than slots that are not free. -/
theorem unfinished_le (h : Accounts capacity slots taken held leaked e) :
    e.unfinished.card + slots + taken ≤ capacity + leaked.card := by
  have hsub : e.unfinished ⊆ (held + e.callbacks + leaked).toFinset := by
    intro i hi
    rw [Multiset.mem_toFinset, Multiset.mem_add, Multiset.mem_add, or_assoc]
    rcases mem_unfinished.mp hi with hp | hc
    · exact h.backed i hp
    · exact .inr (.inl hc)
  have hcard := (Finset.card_le_card hsub).trans (Multiset.toFinset_card_le _)
  rw [Multiset.card_add, Multiset.card_add] at hcard
  have := h.total
  omega

end Accounts

end Executor
