/-
The retention of execution logs under concurrent saves
(soj_backend/execution_log_retention.py and execution_log_repository.py).

A `Database` has the committed rows of `execution_logs`, each known by its ID,
and the transactions in flight, each known by the ID of the row it has inserted:
before its insert a save has no effect, and IDs come from one increasing
sequence.  A statement sees the committed rows and what its own transaction has
done; it may fail, and the save then rolls back.

* `retention_kept` — the table keeps at most `max_rows` rows as long as no save
  commits that was overtaken between its delete and its commit;
* `two_rows` — two saves that overtake each other leave two rows where one is
  allowed.
-/
import ShellgeiOnlineJudge.Prog
import Mathlib.Data.Finset.Max
import Mathlib.Data.Finset.Prod
import Mathlib.Order.Interval.Finset.Nat

namespace ExecutionLogRetention

/-- `EXECUTION_LOG_WORKER_CAPACITY` -/
def executionLogWorkerCapacity : ℕ := 4

/-- The table and the transactions on it. -/
structure Database where
  /-- the committed rows -/
  rows : Finset ℕ
  /-- the sequence: no ID from here on has been used -/
  nextId : ℕ
  /-- the rows that are inserted, but not committed -/
  pending : Finset ℕ
  /-- what the transaction of a pending row has deleted -/
  deleted : ℕ → Finset ℕ
  /-- the newest ID by which the transaction of a row has deleted -/
  newest : ℕ → Option ℕ
  /-- the transactions that have committed -/
  committed : Finset ℕ
  /-- the delete of the first one's transaction did not see the second row,
  which was in flight, and would have deleted it -/
  missed : Finset (ℕ × ℕ)
  /-- how many saves have committed although they were overtaken -/
  overtaken : ℕ

/-- Committed rows, and no save under way. -/
def Database.fresh (initial : Finset ℕ) (first : ℕ) : Database where
  rows := initial
  nextId := first
  pending := ∅
  deleted := fun _ => ∅
  newest := fun _ => none
  committed := ∅
  missed := ∅
  overtaken := 0

/-- What a statement of the transaction of row `i` sees. -/
def Database.visible (s : Database) (i : ℕ) : Finset ℕ := insert i s.rows \ s.deleted i

/-- `select(func.max(ExecutionLog.id))` -/
def Database.newestId (s : Database) (i : ℕ) : Option ℕ :=
  if h : (s.visible i).Nonempty then some ((s.visible i).max' h) else none

/-- `ExecutionLog.id < oldest_retained_id` -/
def belowWindow (maxRows : ℕ) (newest : Option ℕ) (r : ℕ) : Bool :=
  newest.any fun n => decide ((r : ℤ) < (n : ℤ) - maxRows + 1)

/-- The rows that the delete statement deletes; `expired` are those that are too old. -/
def Database.outdated (s : Database) (maxRows i : ℕ) (newest : Option ℕ) (expired : Finset ℕ) :
    Finset ℕ :=
  (s.visible i).filter fun r => r ∈ expired ∨ belowWindow maxRows newest r = true

/-- The save of row `i` was overtaken between its delete and its commit: a save
that has committed had missed its row, or it has missed a row that is committed. -/
def Database.Overtaken (s : Database) (i : ℕ) : Prop :=
  (i ∉ s.deleted i ∧ ∃ k ∈ s.committed, (k, i) ∈ s.missed) ∨ ∃ r ∈ s.rows, (i, r) ∈ s.missed

instance (s : Database) (i : ℕ) : Decidable (s.Overtaken i) := inferInstanceAs (Decidable (_ ∨ _))

/-- What a save may raise. -/
inductive Exc
  /-- any exception of a statement -/
  | databaseError
  /-- `ExecutionLogRepositoryError` -/
  | repositoryError

/-- The statements of a save. -/
inductive Action
  /-- `db.add` and `db.flush` -/
  | insert
  | selectMax (i : ℕ)
  | delete (i : ℕ) (newest : Option ℕ)
  | commit (i : ℕ)
  | rollback (i : ℕ)
  deriving DecidableEq

/-- A delete is answered by the rows that have expired. -/
abbrev Action.Response : Action → Type
  | insert => Except Exc ℕ
  | selectMax _ => Except Exc (Option ℕ)
  | delete _ _ => Except Exc (Finset ℕ)
  | commit _ => Except Exc Unit
  | rollback _ => Unit

/-- The state after a statement that was answered by the given response; a
statement that fails changes nothing. -/
def sem (maxRows : ℕ) : (a : Action) → Database → a.Response → Option Database
  | .insert, s, r => match r with
    | .error _ => some s
    | .ok i =>
      -- the sequence may have gaps
      if s.nextId ≤ i then some { s with
        nextId := i + 1
        pending := Insert.insert i s.pending
        deleted := Function.update s.deleted i ∅ }
      else none
  | .selectMax i, s, r => match r with
    | .error _ => some s
    | .ok newest => if newest = s.newestId i then some s else none
  | .delete i newest, s, r => match r with
    | .error _ => some s
    | .ok expired => some { s with
        deleted := Function.update s.deleted i (s.deleted i ∪ s.outdated maxRows i newest expired)
        newest := Function.update s.newest i newest
        missed := s.missed ∪
          ((s.pending.erase i).filter fun j => belowWindow maxRows newest j = true).image (i, ·) }
  | .commit i, s, r => match r with
    | .error _ => some s
    | .ok () => some { s with
        rows := Insert.insert i s.rows \ s.deleted i
        pending := s.pending.erase i
        committed := Insert.insert i s.committed
        overtaken := if s.Overtaken i then s.overtaken + 1 else s.overtaken }
  | .rollback i, s, _ => some { s with pending := s.pending.erase i }

/-- A part of a save. -/
abbrev M (α : Type) := Prog Action Action.Response Exc α

/-- Do an action. -/
abbrev perform (a : Action) : M a.Response := Prog.perform a

/-- The exception handler of `save`. -/
def saveFailed (i : ℕ) : M ℕ := do
  perform (.rollback i)
  throw .repositoryError

/-- `ExecutionLogRepo.save` with `prune_execution_logs`. -/
def save (maxRows : ℕ) : M ℕ :=
  if maxRows < 1 then throw .repositoryError
  else do
    let inserted : Except Exc ℕ ← perform .insert
    match inserted with
    | .error _ => throw .repositoryError
    | .ok i => do
      let newest : Except Exc (Option ℕ) ← perform (.selectMax i)
      match newest with
      | .error _ => saveFailed i
      | .ok newest => do
        let deleted : Except Exc (Finset ℕ) ← perform (.delete i newest)
        match deleted with
        | .error _ => saveFailed i
        | .ok _ => do
          let committed : Except Exc Unit ← perform (.commit i)
          match committed with
          | .error _ => saveFailed i
          | .ok () => pure i

/-- The saves that have not ended. -/
def inFlight (threads : List (M ℕ)) : ℕ := threads.countP fun p => !p.finished

/-- A table with the rows `initial`, the sequence at `first`, and saves that
start at any time, at most `capacity` of them in flight. -/
def saves (maxRows capacity : ℕ) (initial : Finset ℕ) (first : ℕ) : ThreadSystem Database (M ℕ) :=
  Prog.system (sem maxRows) (fun s threads => s = .fresh initial first ∧ threads = [])
    (fun _ _ => False) fun _ threads p => inFlight threads < capacity ∧ p = save maxRows

theorem belowWindow_some {maxRows n r : ℕ} :
    belowWindow maxRows (some n) r = true ↔ r + maxRows ≤ n := by
  show decide ((r : ℤ) < (n : ℤ) - maxRows + 1) = true ↔ _
  rw [decide_eq_true_iff]
  omega

theorem mem_visible {s : Database} {i r : ℕ} :
    r ∈ s.visible i ↔ (r = i ∨ r ∈ s.rows) ∧ r ∉ s.deleted i := by
  rw [Database.visible, Finset.mem_sdiff, Finset.mem_insert]

theorem mem_outdated {s : Database} {maxRows i n r : ℕ} {expired : Finset ℕ}
    (hr : r ∈ s.visible i) (hlt : r + maxRows ≤ n) :
    r ∈ s.outdated maxRows i (some n) expired :=
  Finset.mem_filter.mpr ⟨hr, .inr (belowWindow_some.mpr hlt)⟩

/-- A transaction that has deleted nothing sees its own row. -/
theorem newestId_spec {s : Database} {i : ℕ} (hdeleted : s.deleted i = ∅) :
    ∃ n, s.newestId i = some n ∧ i ≤ n ∧ (n = i ∨ n ∈ s.rows) := by
  have hi : i ∈ s.visible i := by
    rw [mem_visible, hdeleted]
    exact ⟨.inl rfl, Finset.notMem_empty i⟩
  have hne : (s.visible i).Nonempty := ⟨i, hi⟩
  refine ⟨(s.visible i).max' hne, dif_pos hne, Finset.le_max' _ i hi, ?_⟩
  exact (mem_visible.mp (Finset.max'_mem _ hne)).1

/-! ### The books of the table -/

/-- The transaction of this row may still commit, or has committed. -/
def Database.Alive (s : Database) (i : ℕ) : Prop := i ∈ s.pending ∨ i ∈ s.committed

/-- Which rows there may be below the window of a transaction that has deleted. -/
structure Books (maxRows : ℕ) (initial : Finset ℕ) (s : Database) : Prop where
  rows_lt : ∀ r ∈ s.rows, r < s.nextId
  alive_lt : ∀ i, s.Alive i → i < s.nextId
  initial_lt : ∀ r ∈ initial, r < s.nextId ∧ ∀ i, s.Alive i → r < i
  apart : ∀ i ∈ s.pending, i ∉ s.committed
  origin : ∀ r ∈ s.rows, r ∈ initial ∨ r ∈ s.committed
  newest_lt : ∀ i n, s.newest i = some n → i ≤ n ∧ n < s.nextId
  done : ∀ i ∈ s.committed, ∃ n, s.newest i = some n
  /-- a pending transaction has deleted its own row, -/
  own : ∀ i ∈ s.pending, ∀ n, s.newest i = some n → i + maxRows ≤ n → i ∈ s.deleted i
  /-- and the committed rows, apart from those it has missed; -/
  rows_pending : ∀ i ∈ s.pending, ∀ n, s.newest i = some n → ∀ r ∈ s.rows, r + maxRows ≤ n →
    r ∈ s.deleted i ∨ (i, r) ∈ s.missed
  /-- it has missed the rows that are still pending; -/
  missed : ∀ i, s.Alive i → ∀ n, s.newest i = some n → ∀ j ∈ s.pending, j ≠ i →
    j + maxRows ≤ n → (i, j) ∈ s.missed
  /-- and below the window of a committed one there is nothing -/
  rows_committed : s.overtaken = 0 → ∀ i ∈ s.committed, ∀ n, s.newest i = some n →
    ∀ r ∈ s.rows, n < r + maxRows

variable {maxRows : ℕ} {initial : Finset ℕ} {s : Database}

theorem Books.fresh {first : ℕ} (hfirst : ∀ r ∈ initial, r < first) :
    Books maxRows initial (.fresh initial first) := by
  have hnone : ∀ i, ¬ (Database.fresh initial first).Alive i := by
    intro i hi
    exact hi.elim (Finset.notMem_empty i) (Finset.notMem_empty i)
  refine ⟨hfirst, fun i hi => absurd hi (hnone i),
    fun r hr => ⟨hfirst r hr, fun i hi => absurd hi (hnone i)⟩, fun i _ => Finset.notMem_empty i,
    fun r hr => .inl hr, ?_, ?_, ?_, ?_, fun i hi => absurd hi (hnone i), ?_⟩
  · intro i n hn
    cases hn
  · intro i hi
    exact absurd hi (Finset.notMem_empty i)
  · intro i hi
    exact absurd hi (Finset.notMem_empty i)
  · intro i hi
    exact absurd hi (Finset.notMem_empty i)
  · intro _ i hi
    exact absurd hi (Finset.notMem_empty i)

/-- A row that is inserted now is above every window there is. -/
theorem Books.insert (h : Books maxRows initial s) {i : ℕ} (hi : s.nextId ≤ i) :
    Books maxRows initial { s with
      nextId := i + 1
      pending := Insert.insert i s.pending
      deleted := Function.update s.deleted i ∅ } := by
  -- a new transaction has not selected a newest row yet
  have hnew : ∀ n, s.newest i ≠ some n := by
    intro n hn
    have := h.newest_lt i n hn
    omega
  -- and its row is not one that is there
  have hne : ∀ j, s.Alive j → j ≠ i := by
    intro j hj
    have := h.alive_lt j hj
    omega
  have hmem : ∀ {j}, j ∈ Insert.insert i s.pending → j = i ∨ j ∈ s.pending :=
    fun hj => Finset.mem_insert.mp hj
  have halive : ∀ {j}, j ∈ Insert.insert i s.pending ∨ j ∈ s.committed → j = i ∨ s.Alive j := by
    intro j hj
    rcases hj with hj | hj
    · exact (hmem hj).imp_right .inl
    · exact .inr (.inr hj)
  refine ⟨?_, ?_, ?_, ?_, h.origin, ?_, h.done, ?_, ?_, ?_, h.rows_committed⟩
  · intro r hr
    have := h.rows_lt r hr
    show r < i + 1
    omega
  · intro j hj
    show j < i + 1
    rcases halive hj with rfl | hj
    · omega
    · have := h.alive_lt j hj
      omega
  · intro r hr
    obtain ⟨hlt, hbelow⟩ := h.initial_lt r hr
    refine ⟨?_, fun j hj => ?_⟩
    · show r < i + 1
      omega
    · rcases halive hj with rfl | hj
      · omega
      · exact hbelow j hj
  · intro j hj hcommitted
    rcases hmem hj with rfl | hj
    · exact hne j (.inr hcommitted) rfl
    · exact h.apart j hj hcommitted
  · intro j n hn
    have := h.newest_lt j n hn
    show j ≤ n ∧ n < i + 1
    omega
  · intro j hj n hn hle
    rcases hmem hj with rfl | hj
    · exact absurd hn (hnew n)
    · show j ∈ Function.update s.deleted i ∅ j
      rw [Function.update_of_ne (hne j (.inl hj))]
      exact h.own j hj n hn hle
  · intro j hj n hn r hr hle
    rcases hmem hj with rfl | hj
    · exact absurd hn (hnew n)
    · show r ∈ Function.update s.deleted i ∅ j ∨ _
      rw [Function.update_of_ne (hne j (.inl hj))]
      exact h.rows_pending j hj n hn r hr hle
  · intro j hj n hn k hk hkj hle
    rcases halive hj with rfl | hj
    · exact absurd hn (hnew n)
    · rcases hmem hk with rfl | hk
      · have := h.newest_lt j n hn
        omega
      · exact h.missed j hj n hn k hk hkj hle

/-- A delete removes what it sees below the window, and misses what is in flight. -/
theorem Books.delete (h : Books maxRows initial s) {i n : ℕ} (hi : i ∈ s.pending)
    (hle : i ≤ n) (hlt : n < s.nextId) (hdeleted : s.deleted i = ∅) (expired : Finset ℕ) :
    Books maxRows initial { s with
      deleted := Function.update s.deleted i
        (s.deleted i ∪ s.outdated maxRows i (some n) expired)
      newest := Function.update s.newest i (some n)
      missed := s.missed ∪
        ((s.pending.erase i).filter fun j => belowWindow maxRows (some n) j = true).image
          (i, ·) } := by
  -- it sees its own row and every committed one, as it has deleted none
  have hvisible : ∀ r, r = i ∨ r ∈ s.rows → r ∈ s.visible i := by
    intro r hr
    rw [mem_visible, hdeleted]
    exact ⟨hr, Finset.notMem_empty r⟩
  have hnewest : ∀ {n'}, Function.update s.newest i (some n) i = some n' → n' = n := by
    intro n' hn'
    rw [Function.update_self] at hn'
    exact (Option.some.inj hn').symm
  -- the other transactions keep the newest row they have selected
  have hold : ∀ {j n'}, j ≠ i → Function.update s.newest i (some n) j = some n' →
      s.newest j = some n' := by
    intro j n' hj hn'
    rwa [Function.update_of_ne hj] at hn'
  refine ⟨h.rows_lt, h.alive_lt, h.initial_lt, h.apart, h.origin, ?_, ?_, ?_, ?_, ?_, ?_⟩
  · intro j n' hn'
    by_cases hj : j = i
    · subst hj
      rw [hnewest hn']
      exact ⟨hle, hlt⟩
    · exact h.newest_lt j n' (hold hj hn')
  · intro j hj
    obtain ⟨n', hn'⟩ := h.done j hj
    refine ⟨n', ?_⟩
    show Function.update s.newest i (some n) j = some n'
    rw [Function.update_of_ne, hn']
    rintro rfl
    exact h.apart j hi hj
  · intro j hj n' hn' hbelow
    by_cases hji : j = i
    · subst hji
      obtain rfl := hnewest hn'
      show j ∈ Function.update s.deleted j _ j
      rw [Function.update_self]
      exact Finset.mem_union_right _ (mem_outdated (hvisible j (.inl rfl)) hbelow)
    · show j ∈ Function.update s.deleted i _ j
      rw [Function.update_of_ne hji]
      exact h.own j hj n' (hold hji hn') hbelow
  · intro j hj n' hn' r hr hbelow
    by_cases hji : j = i
    · subst hji
      obtain rfl := hnewest hn'
      left
      show r ∈ Function.update s.deleted j _ j
      rw [Function.update_self]
      exact Finset.mem_union_right _ (mem_outdated (hvisible r (.inr hr)) hbelow)
    · rcases h.rows_pending j hj n' (hold hji hn') r hr hbelow with hr | hr
      · left
        show r ∈ Function.update s.deleted i _ j
        rwa [Function.update_of_ne hji]
      · exact .inr (Finset.mem_union_left _ hr)
  · intro j hj n' hn' k hk hkj hbelow
    by_cases hji : j = i
    · subst hji
      obtain rfl := hnewest hn'
      -- another pending row below the window is not visible, hence missed
      refine Finset.mem_union_right _ (Finset.mem_image.mpr ⟨k, ?_, rfl⟩)
      exact Finset.mem_filter.mpr ⟨Finset.mem_erase.mpr ⟨hkj, hk⟩, belowWindow_some.mpr hbelow⟩
    · exact Finset.mem_union_left _ (h.missed j hj n' (hold hji hn') k hk hkj hbelow)
  · intro hovertaken j hj n' hn' r hr
    have hji : j ≠ i := by
      rintro rfl
      exact h.apart j hi hj
    exact h.rows_committed hovertaken j hj n' (hold hji hn') r hr

/-- A commit puts its row next to rows above its window, unless it was overtaken. -/
theorem Books.commit (h : Books maxRows initial s) {i : ℕ} (hi : i ∈ s.pending)
    (hdone : ∃ n, s.newest i = some n) :
    Books maxRows initial { s with
      rows := Insert.insert i s.rows \ s.deleted i
      pending := s.pending.erase i
      committed := Insert.insert i s.committed
      overtaken := if s.Overtaken i then s.overtaken + 1 else s.overtaken } := by
  have hrows : ∀ {r}, r ∈ Insert.insert i s.rows \ s.deleted i →
      (r = i ∨ r ∈ s.rows) ∧ r ∉ s.deleted i := fun hr => mem_visible.mp hr
  have hpending : ∀ {j}, j ∈ s.pending.erase i → j ≠ i ∧ j ∈ s.pending :=
    fun hj => Finset.mem_erase.mp hj
  have halive : ∀ {j}, j ∈ s.pending.erase i ∨ j ∈ Insert.insert i s.committed → s.Alive j := by
    intro j hj
    rcases hj with hj | hj
    · exact .inl (hpending hj).2
    · rcases Finset.mem_insert.mp hj with rfl | hj
      · exact .inl hi
      · exact .inr hj
  refine ⟨?_, fun j hj => h.alive_lt j (halive hj),
    fun r hr => ⟨(h.initial_lt r hr).1, fun j hj => (h.initial_lt r hr).2 j (halive hj)⟩,
    ?_, ?_, h.newest_lt, ?_, ?_, ?_, ?_, ?_⟩
  · intro r hr
    rcases (hrows hr).1 with rfl | hr
    · exact h.alive_lt r (.inl hi)
    · exact h.rows_lt r hr
  · intro j hj hcommitted
    obtain ⟨hne, hj⟩ := hpending hj
    exact h.apart j hj ((Finset.mem_insert.mp hcommitted).resolve_left hne)
  · intro r hr
    rcases (hrows hr).1 with rfl | hr
    · exact .inr (Finset.mem_insert_self _ _)
    · exact (h.origin r hr).imp_right Finset.mem_insert_of_mem
  · intro j hj
    rcases Finset.mem_insert.mp hj with rfl | hj
    · exact hdone
    · exact h.done j hj
  · intro j hj
    exact h.own j (hpending hj).2
  · intro j hj n hn r hr hbelow
    obtain ⟨hne, hold⟩ := hpending hj
    rcases (hrows hr).1 with rfl | hr
    · exact .inr (h.missed j (.inl hold) n hn r hi hne.symm hbelow)
    · exact h.rows_pending j hold n hn r hr hbelow
  · intro j hj n hn k hk
    exact h.missed j (halive hj) n hn k (hpending hk).2
  · intro hzero k hk n hn r hr
    have hnot : ¬ s.Overtaken i := by
      intro hover
      have hzero : (if s.Overtaken i then s.overtaken + 1 else s.overtaken) = 0 := hzero
      rw [if_pos hover] at hzero
      omega
    have hold : s.overtaken = 0 := by
      have hzero : (if s.Overtaken i then s.overtaken + 1 else s.overtaken) = 0 := hzero
      rwa [if_neg hnot] at hzero
    obtain ⟨hr, hkept⟩ := hrows hr
    by_contra hbelow
    have hbelow : r + maxRows ≤ n := Nat.le_of_not_lt hbelow
    -- the new row against old windows, the new window against all rows
    rcases Finset.mem_insert.mp hk with rfl | hkc
    · rcases hr with rfl | hr
      · exact hkept (h.own r hi n hn hbelow)
      · rcases h.rows_pending k hi n hn r hr hbelow with hdel | hmiss
        · exact hkept hdel
        · exact hnot (.inr ⟨r, hr, hmiss⟩)
    · rcases hr with rfl | hr
      · have hne : r ≠ k := by
          rintro rfl
          exact h.apart r hi hkc
        exact hnot (.inl ⟨hkept, k, hkc, h.missed k (.inr hkc) n hn r hi hne hbelow⟩)
      · have := h.rows_committed hold k hkc n hn r hr
        omega

/-- A rollback takes a row out of the books. -/
theorem Books.rollback (h : Books maxRows initial s) (i : ℕ) :
    Books maxRows initial { s with pending := s.pending.erase i } := by
  have hpending : ∀ {j}, j ∈ s.pending.erase i → j ∈ s.pending :=
    fun hj => Finset.mem_of_mem_erase hj
  have halive : ∀ {j}, j ∈ s.pending.erase i ∨ j ∈ s.committed → s.Alive j :=
    fun hj => hj.imp_left hpending
  exact ⟨h.rows_lt, fun j hj => h.alive_lt j (halive hj),
    fun r hr => ⟨(h.initial_lt r hr).1, fun j hj => (h.initial_lt r hr).2 j (halive hj)⟩,
    fun j hj => h.apart j (hpending hj), h.origin, h.newest_lt, h.done,
    fun j hj => h.own j (hpending hj), fun j hj => h.rows_pending j (hpending hj),
    fun j hj n hn k hk => h.missed j (halive hj) n hn k (hpending hk), h.rows_committed⟩

/-! ### How many rows there are -/

/-- The table has no more rows than it may, and so each of its rows is among
that many of the highest IDs. -/
def Retained (maxRows : ℕ) (rows : Finset ℕ) : Prop :=
  rows.card ≤ maxRows ∧ ∀ r ∈ rows, (rows.filter (r < ·)).card < maxRows

theorem retained_of_card {rows : Finset ℕ} (h : rows.card ≤ maxRows) : Retained maxRows rows := by
  refine ⟨h, fun r hr => ?_⟩
  have hlt : (rows.filter (r < ·)).card < rows.card := by
    refine Finset.card_lt_card (Finset.filter_ssubset.mpr ⟨r, hr, ?_⟩)
    exact Nat.lt_irrefl r
  omega

/-- Rows in a window of `maxRows` IDs. -/
theorem card_le_of_window {rows : Finset ℕ} {newest : ℕ} (hle : ∀ r ∈ rows, r ≤ newest)
    (hlt : ∀ r ∈ rows, newest < r + maxRows) : rows.card ≤ maxRows := by
  have hsub : rows ⊆ Finset.Icc (newest + 1 - maxRows) newest := by
    intro r hr
    have := hlt r hr
    exact Finset.mem_Icc.mpr ⟨by omega, hle r hr⟩
  have hcard := Finset.card_le_card hsub
  rw [Nat.card_Icc] at hcard
  omega

theorem Books.retained (h : Books maxRows initial s) (hinitial : initial.card ≤ maxRows)
    (hzero : s.overtaken = 0) : Retained maxRows s.rows := by
  refine retained_of_card ?_
  by_cases hsub : s.rows ⊆ initial
  · exact (Finset.card_le_card hsub).trans hinitial
  · -- the newest row was inserted by a save, which has cleared all below its window
    obtain ⟨r, hr, hnot⟩ := Finset.not_subset.mp hsub
    have hne : s.rows.Nonempty := ⟨r, hr⟩
    have hmax := Finset.max'_mem s.rows hne
    have hcommitted : s.rows.max' hne ∈ s.committed := by
      refine (h.origin _ hmax).resolve_left fun hmem => ?_
      have hrc := (h.origin r hr).resolve_left hnot
      have hlt := (h.initial_lt _ hmem).2 r (.inr hrc)
      have hle := Finset.le_max' s.rows r hr
      omega
    obtain ⟨n, hn⟩ := h.done _ hcommitted
    have hle := (h.newest_lt _ n hn).1
    refine @card_le_of_window _ _ (s.rows.max' hne) (Finset.le_max' s.rows) fun r hr => ?_
    have := h.rows_committed hzero _ hcommitted n hn r hr
    omega

/-! ### The saves -/

/-- How far a save has got with its row. -/
inductive Token
  | inserted (i : ℕ)
  | selected (i : ℕ) (newest : Option ℕ)
  | pruned (i : ℕ)

/-- The row that a save has inserted. -/
def Token.row : Token → ℕ
  | inserted i | selected i _ | pruned i => i

/-- What the table has of it. -/
def Token.At (s : Database) : Token → Prop
  | inserted i => s.deleted i = ∅
  | selected i newest => s.deleted i = ∅ ∧ ∃ n, newest = some n ∧ i ≤ n ∧ n < s.nextId
  | pruned i => ∃ n, s.newest i = some n

/-- Each save has a pending row of its own. -/
structure Owned (s : Database) (m : Multiset Token) : Prop where
  pending : ∀ t ∈ m, t.row ∈ s.pending
  nodup : (m.map Token.row).Nodup
  at_ : ∀ t ∈ m, t.At s

/-- The books are right, and each row that is not committed has one save. -/
def Inv (maxRows : ℕ) (initial : Finset ℕ) (s : Database) (m : Multiset Token) : Prop :=
  Books maxRows initial s ∧ Owned s m

/-- The database with what the saves under way own. -/
def logic (maxRows : ℕ) (initial : Finset ℕ) :
    Prog.Logic Action Action.Response Database Token where
  sem := sem maxRows
  inv := Inv maxRows initial
  here := fun _ _ => True

section Owned

variable {s' : Database} {t t' : Token} {F : Multiset Token}

/-- What a save does to its own row does not matter to the others. -/
theorem Owned.rest (h : Owned s (t ::ₘ F))
    (hpending : ∀ i ∈ s.pending, i ≠ t.row → i ∈ s'.pending) (hnext : s.nextId ≤ s'.nextId)
    (hdeleted : ∀ i, i ≠ t.row → s'.deleted i = s.deleted i)
    (hnewest : ∀ i, i ≠ t.row → s'.newest i = s.newest i) : Owned s' F := by
  have hnodup := h.nodup
  rw [Multiset.map_cons, Multiset.nodup_cons] at hnodup
  have hne : ∀ u ∈ F, u.row ≠ t.row := by
    intro u hu heq
    exact hnodup.1 (heq ▸ Multiset.mem_map_of_mem Token.row hu)
  refine ⟨?_, hnodup.2, ?_⟩
  · intro u hu
    exact hpending _ (h.pending u (Multiset.mem_cons_of_mem hu)) (hne u hu)
  · intro u hu
    have hat := h.at_ u (Multiset.mem_cons_of_mem hu)
    have hrow := hne u hu
    cases u with
    | inserted i => exact (hdeleted i hrow).trans hat
    | selected i newest =>
      obtain ⟨hdel, n, hn, hle, hlt⟩ := hat
      exact ⟨(hdeleted i hrow).trans hdel, n, hn, hle, hlt.trans_le hnext⟩
    | pruned i =>
      obtain ⟨n, hn⟩ := hat
      exact ⟨n, (hnewest i hrow).trans hn⟩

/-- A save goes on with its row. -/
theorem Owned.replace (h : Owned s (t ::ₘ F)) (hrow : t'.row = t.row)
    (hpending : s'.pending = s.pending) (hnext : s'.nextId = s.nextId)
    (hdeleted : ∀ i, i ≠ t.row → s'.deleted i = s.deleted i)
    (hnewest : ∀ i, i ≠ t.row → s'.newest i = s.newest i) (hat : t'.At s') :
    Owned s' (t' ::ₘ F) := by
  have hrest : Owned s' F :=
    h.rest (fun i hi _ => hpending ▸ hi) (hnext ▸ Nat.le_refl _) hdeleted hnewest
  have hnodup := h.nodup
  rw [Multiset.map_cons, Multiset.nodup_cons] at hnodup
  refine ⟨?_, ?_, ?_⟩
  · intro u hu
    rcases Multiset.mem_cons.mp hu with rfl | hu
    · rw [hrow, hpending]
      exact h.pending t (Multiset.mem_cons_self _ _)
    · exact hrest.pending u hu
  · rw [Multiset.map_cons, Multiset.nodup_cons, hrow]
    exact hnodup
  · intro u hu
    rcases Multiset.mem_cons.mp hu with rfl | hu
    · exact hat
    · exact hrest.at_ u hu

/-- A save gets a new row. -/
theorem Owned.insert (h : Owned s F) (hlt : ∀ i ∈ s.pending, i < s.nextId) {i : ℕ}
    (hi : s.nextId ≤ i) :
    Owned { s with
      nextId := i + 1
      pending := Insert.insert i s.pending
      deleted := Function.update s.deleted i ∅ } (.inserted i ::ₘ F) := by
  -- the rows of the other threads were inserted before
  have hne : ∀ u ∈ F, u.row ≠ i := by
    intro u hu
    have := hlt _ (h.pending u hu)
    omega
  refine ⟨?_, ?_, ?_⟩
  · intro u hu
    rcases Multiset.mem_cons.mp hu with rfl | hu
    · exact Finset.mem_insert_self _ _
    · exact Finset.mem_insert_of_mem (h.pending u hu)
  · rw [Multiset.map_cons, Multiset.nodup_cons]
    refine ⟨?_, h.nodup⟩
    intro hmem
    obtain ⟨u, hu, heq⟩ := Multiset.mem_map.mp hmem
    exact hne u hu heq
  · intro u hu
    rcases Multiset.mem_cons.mp hu with rfl | hu
    · exact Function.update_self _ _ _
    · have hat := h.at_ u hu
      have hrow := hne u hu
      cases u with
      | inserted j => exact (Function.update_of_ne hrow _ _).trans hat
      | selected j newest =>
        obtain ⟨hdel, n, hn, hle, hlt⟩ := hat
        refine ⟨(Function.update_of_ne hrow _ _).trans hdel, n, hn, hle, ?_⟩
        show n < i + 1
        omega
      | pruned j => exact hat

end Owned

variable {F : Multiset Token}

theorem triple_insert :
    Prog.Triple (logic maxRows initial) .insert 0 fun r m => match r with
      | .ok i => m = {.inserted i}
      | .error _ => m = 0 := by
  refine ⟨trivial, fun s F r s' h hs => ?_⟩
  have h : Inv maxRows initial s (0 + F) := h
  rw [zero_add] at h
  cases r with
  | error e =>
    cases hs
    exact ⟨0, by rwa [zero_add], rfl⟩
  | ok i =>
    obtain ⟨hle, hs'⟩ := Option.ite_none_right_eq_some.mp hs
    cases hs'
    refine ⟨{.inserted i}, ⟨h.1.insert hle, ?_⟩, rfl⟩
    exact h.2.insert (fun j hj => h.1.alive_lt j (.inl hj)) hle

theorem triple_selectMax (i : ℕ) :
    Prog.Triple (logic maxRows initial) (.selectMax i) {.inserted i} fun r m => match r with
      | .ok newest => m = {.selected i newest}
      | .error _ => ∃ t : Token, t.row = i ∧ m = {t} := by
  refine ⟨trivial, fun s F r s' h hs => ?_⟩
  have h : Inv maxRows initial s (.inserted i ::ₘ F) := h
  cases r with
  | error e =>
    cases hs
    exact ⟨{Token.inserted i}, h, _, rfl, rfl⟩
  | ok newest =>
    obtain ⟨hnewest, hs'⟩ := Option.ite_none_right_eq_some.mp hs
    cases hs'
    subst hnewest
    have hdeleted : s.deleted i = ∅ := h.2.at_ _ (Multiset.mem_cons_self _ _)
    have hi : i ∈ s.pending := h.2.pending _ (Multiset.mem_cons_self _ _)
    obtain ⟨n, hn, hle, hmem⟩ := newestId_spec hdeleted
    have hlt : n < s.nextId := by
      rcases hmem with rfl | hmem
      · exact h.1.alive_lt n (.inl hi)
      · exact h.1.rows_lt n hmem
    refine ⟨{.selected i (s.newestId i)}, ⟨h.1, ?_⟩, rfl⟩
    exact h.2.replace rfl rfl rfl (fun _ _ => rfl) (fun _ _ => rfl) ⟨hdeleted, n, hn, hle, hlt⟩

theorem triple_delete (i : ℕ) (newest : Option ℕ) :
    Prog.Triple (logic maxRows initial) (.delete i newest) {.selected i newest} fun r m =>
      match r with
      | .ok _ => m = {.pruned i}
      | .error _ => ∃ t : Token, t.row = i ∧ m = {t} := by
  refine ⟨trivial, fun s F r s' h hs => ?_⟩
  have h : Inv maxRows initial s (.selected i newest ::ₘ F) := h
  cases r with
  | error e =>
    cases hs
    exact ⟨{Token.selected i newest}, h, _, rfl, rfl⟩
  | ok expired =>
    cases hs
    have hi : i ∈ s.pending := h.2.pending _ (Multiset.mem_cons_self _ _)
    obtain ⟨hdeleted, n, rfl, hle, hlt⟩ := h.2.at_ _ (Multiset.mem_cons_self _ _)
    refine ⟨{.pruned i}, ⟨h.1.delete hi hle hlt hdeleted expired, ?_⟩, rfl⟩
    refine h.2.replace rfl rfl rfl ?_ ?_ ⟨n, Function.update_self _ _ _⟩
    · intro j hj
      exact Function.update_of_ne hj _ _
    · intro j hj
      exact Function.update_of_ne hj _ _

theorem triple_commit (i : ℕ) :
    Prog.Triple (logic maxRows initial) (.commit i) {.pruned i} fun r m => match r with
      | .ok () => m = 0
      | .error _ => ∃ t : Token, t.row = i ∧ m = {t} := by
  refine ⟨trivial, fun s F r s' h hs => ?_⟩
  have h : Inv maxRows initial s (.pruned i ::ₘ F) := h
  cases r with
  | error e =>
    cases hs
    exact ⟨{Token.pruned i}, h, _, rfl, rfl⟩
  | ok _ =>
    cases hs
    have hi : i ∈ s.pending := h.2.pending _ (Multiset.mem_cons_self _ _)
    have hdone : ∃ n, s.newest i = some n := h.2.at_ _ (Multiset.mem_cons_self _ _)
    refine ⟨0, ?_, rfl⟩
    rw [zero_add]
    refine ⟨h.1.commit hi hdone, h.2.rest ?_ (Nat.le_refl _) (fun _ _ => rfl) fun _ _ => rfl⟩
    intro j hj hne
    exact Finset.mem_erase.mpr ⟨hne, hj⟩

theorem triple_rollback (t : Token) :
    Prog.Triple (logic maxRows initial) (.rollback t.row) {t} fun _ m => m = 0 := by
  refine ⟨trivial, fun s F r s' h hs => ⟨0, ?_, rfl⟩⟩
  have h : Inv maxRows initial s (t ::ₘ F) := h
  cases hs
  rw [zero_add]
  refine ⟨h.1.rollback t.row, h.2.rest ?_ (Nat.le_refl _) (fun _ _ => rfl) fun _ _ => rfl⟩
  intro j hj hne
  exact Finset.mem_erase.mpr ⟨hne, hj⟩

theorem saveFailed_safe {i : ℕ} {m : Multiset Token} (h : ∃ t : Token, t.row = i ∧ m = {t}) :
    Prog.Safe (logic maxRows initial) (fun _ m => m = 0) (saveFailed i) m := by
  obtain ⟨t, rfl, rfl⟩ := h
  exact Prog.Safe.perform_bind (triple_rollback t) fun _ m hm => hm

/-- A save leaves no pending row behind, on every path. -/
theorem save_safe :
    Prog.Safe (logic maxRows initial) (fun _ m => m = 0) (save maxRows) 0 := by
  rw [save]
  split
  · exact rfl
  · refine Prog.Safe.perform_bind triple_insert fun inserted m hm => ?_
    cases inserted with
    | error e => exact hm
    | ok i =>
      obtain rfl := hm
      refine Prog.Safe.perform_bind (triple_selectMax i) fun newest m hm => ?_
      cases newest with
      -- a statement that fails is rolled back, with the row
      | error e => exact saveFailed_safe hm
      | ok newest =>
        obtain rfl := hm
        refine Prog.Safe.perform_bind (triple_delete i newest) fun deleted m hm => ?_
        cases deleted with
        | error e => exact saveFailed_safe hm
        | ok expired =>
          obtain rfl := hm
          refine Prog.Safe.perform_bind (triple_commit i) fun committed m hm => ?_
          cases committed with
          | error e => exact saveFailed_safe hm
          | ok _ => exact hm

/-- The proof outline of the saves. -/
def savesOutline (maxRows capacity first : ℕ) (initial : Finset ℕ)
    (hfirst : ∀ r ∈ initial, r < first) : (saves maxRows capacity initial first).Outline Token :=
  (logic maxRows initial).outline (fun _ m => m = 0)
    (by
      intro s threads h
      obtain ⟨rfl, rfl⟩ := h
      refine ⟨[], rfl, by simp, Books.fresh hfirst, ?_, Multiset.nodup_zero, ?_⟩
      · intro t ht
        exact absurd ht (Multiset.notMem_zero t)
      · intro t ht
        exact absurd ht (Multiset.notMem_zero t))
    (fun henv _ => henv.elim)
    (by
      intro s p ann hp _ h
      obtain ⟨-, rfl⟩ := hp
      exact ⟨0, save_safe, by rwa [zero_add]⟩)

/-- **The table keeps its limit** in every run in which no save commits that was
overtaken between its delete and its commit. -/
theorem retention_kept {maxRows capacity first : ℕ} {initial : Finset ℕ}
    (hfirst : ∀ r ∈ initial, r < first) (hinitial : initial.card ≤ maxRows)
    {x : ThreadSystem.State Database (M ℕ)}
    (hx : (saves maxRows capacity initial first).Reachable x)
    (hovertaken : x.shared.overtaken = 0) :
    Retained maxRows x.shared.rows := by
  obtain ⟨ann, -, -, hinv⟩ := (savesOutline maxRows capacity first initial hfirst).annotated hx
  have hinv : Inv maxRows initial x.shared (ThreadSystem.tokens ann) := hinv
  exact hinv.1.retained hinitial hovertaken

/-- The answers of a database on which all statements succeed. -/
def succeed : (a : Action) → Database → a.Response
  | .insert, s => .ok s.nextId
  | .selectMax i, s => .ok (s.newestId i)
  | .delete _ _, _ => .ok ∅
  | .commit _, _ => .ok ()
  | .rollback _, _ => ()

/-- One save into a full table. -/
def savedOne : Database × M ℕ := Prog.run (sem 1) succeed 4 (.fresh {0} 1, save 1)

theorem reachable_savedOne : (saves 1 executionLogWorkerCapacity {0} 1).Reachable
    ⟨savedOne.1, [savedOne.2]⟩ := by
  have hinit : (saves 1 executionLogWorkerCapacity {0} 1).Reachable ⟨.fresh {0} 1, []⟩ :=
    .init ⟨rfl, rfl⟩
  have hstart : (saves 1 executionLogWorkerCapacity {0} 1).Reachable
      ⟨.fresh {0} 1, [] ++ [save 1]⟩ :=
    hinit.tail (.start ⟨by decide, rfl⟩)
  exact @Prog.reachable_run _ _ _ _ _ _ succeed _ _ _ [] [] 4 (_, save 1) hstart

theorem retention_kept_savedOne : savedOne.1.rows = {1} ∧ Retained 1 savedOne.1.rows :=
  ⟨by decide +kernel, retention_kept (by decide) (by decide) reachable_savedOne (by decide +kernel)⟩

/-- A first save, before its commit. -/
def firstPruned : Database × M ℕ := Prog.run (sem 1) succeed 3 (.fresh ∅ 0, save 1)

/-- A second one, while the first one's row is in flight. -/
def secondPruned : Database × M ℕ := Prog.run (sem 1) succeed 3 (firstPruned.1, save 1)

/-- Then both commit. -/
def firstSaved : Database × M ℕ := Prog.run (sem 1) succeed 1 (secondPruned.1, firstPruned.2)

/-- The second save commits too. -/
def secondSaved : Database × M ℕ := Prog.run (sem 1) succeed 1 (firstSaved.1, secondPruned.2)

theorem reachable_secondSaved : (saves 1 executionLogWorkerCapacity ∅ 0).Reachable
    ⟨secondSaved.1, [firstSaved.2, secondSaved.2]⟩ := by
  have hinit : (saves 1 executionLogWorkerCapacity ∅ 0).Reachable ⟨.fresh ∅ 0, []⟩ :=
    .init ⟨rfl, rfl⟩
  have hstart : (saves 1 executionLogWorkerCapacity ∅ 0).Reachable ⟨.fresh ∅ 0, [] ++ [save 1]⟩ :=
    hinit.tail (.start ⟨by decide, rfl⟩)
  have hfirst : (saves 1 executionLogWorkerCapacity ∅ 0).Reachable
      ⟨firstPruned.1, [firstPruned.2]⟩ :=
    @Prog.reachable_run _ _ _ _ _ _ succeed _ _ _ [] [] 3 (_, save 1) hstart
  have hsecond : (saves 1 executionLogWorkerCapacity ∅ 0).Reachable
      ⟨secondPruned.1, [firstPruned.2] ++ [secondPruned.2]⟩ :=
    @Prog.reachable_run _ _ _ _ _ _ succeed _ _ _ [firstPruned.2] [] 3 (_, save 1)
      (hfirst.tail (.start ⟨by decide +kernel, rfl⟩))
  have hcommit : (saves 1 executionLogWorkerCapacity ∅ 0).Reachable
      ⟨firstSaved.1, [firstSaved.2] ++ [secondPruned.2]⟩ :=
    @Prog.reachable_run _ _ _ _ _ _ succeed _ _ _ [] [secondPruned.2] 1
      (secondPruned.1, firstPruned.2) hsecond
  exact @Prog.reachable_run _ _ _ _ _ _ succeed _ _ _ [firstSaved.2] [] 1
    (firstSaved.1, secondPruned.2) hcommit

/-- Both saves have committed, and the table has two rows where one is allowed. -/
theorem two_rows : ∃ x : ThreadSystem.State Database (M ℕ),
    (saves 1 executionLogWorkerCapacity ∅ 0).Reachable x ∧ inFlight x.threads = 0 ∧
    x.shared.pending = ∅ ∧ x.shared.rows = {0, 1} ∧ ¬ Retained 1 x.shared.rows :=
  ⟨_, reachable_secondSaved, by decide +kernel, by decide +kernel,
    by decide +kernel, fun h => absurd h.1 (by decide +kernel)⟩

end ExecutionLogRetention
