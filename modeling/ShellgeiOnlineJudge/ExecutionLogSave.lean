/-
Saving an execution log in one transaction (soj_backend/execution_log_retention.py
and execution_log_repository.py), with no other transaction beside it.

A `Store` has the committed rows of `execution_logs` and the session of the save
with what its transaction sees.  Every statement may raise, and then has done
nothing; times are microseconds since the first datetime there is.

* `prune_wp` — what `prune_execution_logs` deletes, counts and keeps;
* `save_wp` — `save` commits the row with its pruning, or changes nothing;
* `save_and_prune` — both, for every run.
-/
import Mathlib.Data.Finset.Card
import Mathlib.Order.Interval.Finset.Nat
import ShellgeiOnlineJudge.ErrorConfinement
import ShellgeiOnlineJudge.ProgRun

namespace ExecutionLogSave

open Utf8 Submission ErrorConfinement

/-- A row; one that was not written by `save` has columns of its own. -/
structure Row where
  id : ℕ
  createdAt : Option ℤ
  columns : Option ExecutionLog
  deriving DecidableEq

/-- The IDs of the rows, in their order. -/
def ids (rows : List Row) : List ℕ := rows.map Row.id

/-- A database session: one transaction and the object that was added. -/
structure Session where
  /-- what its transaction sees -/
  rows : List Row
  /-- added, but not flushed -/
  pending : List ExecutionLog
  /-- the ID of the object that was added, once it is flushed -/
  assigned : Option ℕ

/-- The calls of the session that are looked at. -/
inductive Call
  | create
  | commit
  | rollback
  | close
  deriving DecidableEq

/-- The database with the session of a save and what the save has called. -/
structure Store where
  /-- the committed rows -/
  rows : List Row
  session : Option Session
  calls : List Call
  /-- what the clock has shown last -/
  clock : Option ℤ

/-- What a save may raise. -/
inductive Exc
  /-- any exception of a statement or of the session -/
  | databaseError
  | valueError
  | overflowError
  | runtimeError
  /-- `ExecutionLogRepositoryError` -/
  | repositoryError
  deriving DecidableEq

/-- What a save asks of its session, the clock and the log. -/
inductive Action
  | sessionFactory
  | add (row : ExecutionLog)
  | flush
  /-- `datetime.now(timezone.utc)` -/
  | now
  /-- `db.scalar(select(func.max(ExecutionLog.id)))` -/
  | selectMax
  /-- the rows created before the first time or with an ID below the second argument -/
  | delete (cutoff : ℤ) (oldestRetained : Option ℤ)
  /-- `execution_log.id` -/
  | readId
  | commit
  | rollback
  | close
  /-- `log_safe_event` -/
  | log

/-- No response is an exception. -/
abbrev Action.Response : Action → Type
  | flush => Option (List Row)
  | now => ℤ
  | selectMax => Option (Option ℕ)
  | delete _ _ => Option ℕ
  | readId => Option ℕ
  | log => Unit
  | _ => Option Unit

/-! ### Statements -/

/-- `a < b` in SQL: unknown, if `a` is NULL. -/
def sqlLt (a : Option ℤ) (b : ℤ) : Option Bool := a.map fun a => decide (a < b)

/-- `a OR b` in SQL. -/
def sqlOr : Option Bool → Option Bool → Option Bool
  | some true, _ => some true
  | _, some true => some true
  | some false, some false => some false
  | _, _ => none

/-- `or_(*delete_conditions)` -/
def deleteCondition (cutoff : ℤ) (oldestRetained : Option ℤ) (row : Row) : Option Bool :=
  match oldestRetained with
  | none => sqlLt row.createdAt cutoff
  | some oldest => sqlOr (sqlLt row.createdAt cutoff) (sqlLt (some row.id) oldest)

/-- A delete takes the rows for which the condition is true, and not unknown. -/
def isDeleted (cutoff : ℤ) (oldestRetained : Option ℤ) (row : Row) : Bool :=
  deleteCondition cutoff oldestRetained row = some true

/-- `max(ExecutionLog.id)` -/
def maxId (rows : List Row) : Option ℕ := (ids rows).max?

/-- The rows of a flush: the pending ones, with IDs that are new. -/
def Session.Flushes (session : Session) (inserted : List Row) : Prop :=
  inserted.map Row.columns = session.pending.map some ∧ (ids (session.rows ++ inserted)).Nodup

instance (session : Session) (inserted : List Row) : Decidable (session.Flushes inserted) :=
  inferInstanceAs (Decidable (_ ∧ _))

/-- The pending objects become rows of the transaction. -/
def Session.flush (session : Session) (inserted : List Row) : Session where
  rows := session.rows ++ inserted
  pending := []
  assigned := if inserted = [] then session.assigned else (ids inserted).getLast?

/-- An object waits for the next flush. -/
def Session.add (session : Session) (row : ExecutionLog) : Session :=
  { session with pending := session.pending ++ [row], assigned := none }

/-- What a statement does in the transaction of a session. -/
def Session.statement (session : Session) : (a : Action) → a.Response → Option Session
  | .add row, r => match r with
    | none => some session
    | some () => some (session.add row)
  | .flush, r => match r with
    | none => some session
    | some inserted =>
      if session.Flushes inserted then some (session.flush inserted) else none
  | .selectMax, r => match r with
    | none => some session
    | some newest => if newest = maxId session.rows then some session else none
  | .delete cutoff oldest, r => match r with
    | none => some session
    | some n =>
      if n = (session.rows.filter (isDeleted cutoff oldest)).length then
        some { session with rows := session.rows.filter fun row => !isDeleted cutoff oldest row }
      else none
  | .readId, r => if r = session.assigned then some session else none
  | _, _ => none

/-- The state after an action that was answered by the given response. -/
def sem : (a : Action) → Store → a.Response → Option Store
  | .sessionFactory, s, r => match r with
    | none => some s
    | some () => some { s with
        session := some { rows := s.rows, pending := [], assigned := none }
        calls := s.calls ++ [.create] }
  | .now, s, t => if 0 ≤ t then some { s with clock := some t } else none
  | .commit, s, r => match r, s.session with
    | none, _ => some { s with calls := s.calls ++ [.commit] }
    | some (), some session => some { s with
        rows := session.rows
        calls := s.calls ++ [.commit] }
    | some (), none => none
  | .rollback, s, _ => some { s with
      session := s.session.map fun session => { session with rows := s.rows, pending := [] }
      calls := s.calls ++ [.rollback] }
  | .close, s, _ => some { s with session := none, calls := s.calls ++ [.close] }
  | .log, s, _ => some s
  | a, s, r => (s.session.bind fun session => session.statement a r).map fun session =>
      { s with session := some session }

/-- A part of a save. -/
abbrev M (α : Type) := Prog Action Action.Response Exc α

/-- Do an action. -/
abbrev perform (a : Action) : M a.Response := Prog.perform a

/-- An action without an answer has raised. -/
def orRaise {α : Type} : Option α → M α
  | some a => pure a
  | none => throw .databaseError

theorem orRaise_some_bind {α β : Type} (a : α) (f : α → M β) : orRaise (some a) >>= f = f a := rfl

/-! ### The functions -/

/-- A day in microseconds. -/
def day : ℤ := 24 * 60 * 60 * 1_000_000

/-- `current_time - timedelta(days=retention_days)` -/
def cutoffOf (current retentionDays : ℤ) : Except Exc ℤ :=
  if current - retentionDays * day < 0 then .error .overflowError
  else .ok (current - retentionDays * day)

/-- `now or datetime.now(timezone.utc)` -/
def currentTime : Option ℤ → M ℤ
  | some now => pure now
  | none => perform .now

/-- `prune_execution_logs` -/
def pruneExecutionLogs (now : Option ℤ) (retentionDays maxRows : ℤ) : M ℕ := do
  if retentionDays < 1 ∨ maxRows < 1 then throw .valueError
  else do
    let flushed : Option (List Row) ← perform .flush
    let _ ← orRaise flushed
    let current ← currentTime now
    let cutoff ← Prog.unwrap (cutoffOf current retentionDays)
    let selected : Option (Option ℕ) ← perform .selectMax
    let newest ← orRaise selected
    let oldestRetained := newest.map fun id : ℕ => (id : ℤ) - maxRows + 1
    let deleted : Option ℕ ← perform (.delete cutoff oldestRetained)
    orRaise deleted

/-- A rollback that fails is logged. -/
def rollbackQuietly : M Unit := do
  let rolledBack : Option Unit ← perform .rollback
  match rolledBack with
  | some () => pure ()
  | none => perform .log

/-- A close that fails is logged. -/
def closeQuietly : M Unit := do
  let closed : Option Unit ← perform .close
  match closed with
  | some () => pure ()
  | none => perform .log

/-- What `save` does with a session, up to its commit. -/
def saveRow (retentionDays maxRows : ℤ) (entry : LogFields) : M ℕ := do
  let added : Option Unit ← perform (.add (.ofEntry entry))
  let _ ← orRaise added
  let _ ← pruneExecutionLogs none retentionDays maxRows
  let assigned : Option ℕ ← perform .readId
  match assigned with
  | none => throw .runtimeError
  | some logId => do
    let committed : Option Unit ← perform .commit
    let _ ← orRaise committed
    pure logId

/-- `ExecutionLogRepo.save` -/
def save (retentionDays maxRows : ℤ) (entry : LogFields) : M ℕ := do
  let created : Option Unit ← perform .sessionFactory
  match created with
  -- there is no session to roll back or to close
  | none => throw .repositoryError
  | some () =>
    (MonadExcept.tryCatch (saveRow retentionDays maxRows entry) fun _ => do
      rollbackQuietly
      throw .repositoryError).finally' closeQuietly

/-! ### What is deleted -/

/-- The row is older than the cutoff. -/
def expired (cutoff : ℤ) (row : Row) : Bool := row.createdAt.any fun t => decide (t < cutoff)

/-- `id <= max_id - max_rows` -/
def belowWindow (maxRows : ℤ) (rows : List Row) (row : Row) : Bool :=
  (maxId rows).any fun newest : ℕ => decide ((row.id : ℤ) ≤ newest - maxRows)

/-- What is left of the rows, and how many of them are not. -/
structure Pruned (rows : List Row) (cutoff maxRows : ℤ) (kept : List Row) (n : ℕ) : Prop where
  kept_eq : kept = rows.filter fun row => !(expired cutoff row || belowWindow maxRows rows row)
  count : n = (rows.filter fun row => expired cutoff row || belowWindow maxRows rows row).length
  length_le : (kept.length : ℤ) ≤ maxRows
  kept_of : ∀ row ∈ rows, expired cutoff row = false → belowWindow maxRows rows row = false →
    row ∈ kept

/-- NULL counts as not expired. -/
theorem isDeleted_eq (cutoff maxRows : ℤ) (rows : List Row) (row : Row) :
    isDeleted cutoff ((maxId rows).map fun id : ℕ => (id : ℤ) - maxRows + 1) row =
      (expired cutoff row || belowWindow maxRows rows row) := by
  -- the bound of the code, as a bound on the newest ID
  have hbelow : ∀ newest : ℕ, decide ((row.id : ℤ) < newest - maxRows + 1) =
      decide ((row.id : ℤ) ≤ newest - maxRows) := by
    intro newest
    rw [decide_eq_decide]
    omega
  rw [isDeleted, deleteCondition.eq_def, expired, belowWindow]
  cases maxId rows with
  | none =>
    cases row.createdAt with
    | none => rfl
    | some t => simp [sqlLt]
  | some newest =>
    cases row.createdAt with
    | none =>
      simp only [Option.map_some, Option.any_some, Option.any_none, Bool.false_or, sqlLt,
        Option.map_none, hbelow]
      by_cases h : (row.id : ℤ) ≤ newest - maxRows
      · simp [sqlOr, h]
      · simp [sqlOr, h]
    | some t =>
      simp only [Option.map_some, Option.any_some, sqlLt, hbelow]
      by_cases ht : t < cutoff
      · simp [sqlOr, ht]
      · by_cases h : (row.id : ℤ) ≤ newest - maxRows
        · simp [sqlOr, ht, h]
        · simp [sqlOr, ht, h]

theorem length_ids (rows : List Row) : (ids rows).length = rows.length := List.length_map Row.id

/-- Distinct IDs above the lower end of the window are at most as many as it is wide. -/
theorem length_kept_le {rows kept : List Row} {maxRows : ℤ} (hnodup : (ids rows).Nodup)
    (hpos : 0 ≤ maxRows) (hsub : kept.Sublist rows)
    (hkept : ∀ row ∈ kept, belowWindow maxRows rows row = false) :
    (kept.length : ℤ) ≤ maxRows := by
  cases hmax : maxId rows with
  | none =>
    have hnil : rows = [] := List.map_eq_nil_iff.1 (List.max?_eq_none_iff.1 hmax)
    subst hnil
    rw [List.eq_nil_of_sublist_nil hsub]
    exact hpos
  | some newest =>
    have hle : ∀ id ∈ ids rows, id ≤ newest := (List.max?_eq_some_iff.1 hmax).2
    have hsubset : (ids kept).toFinset ⊆ Finset.Ico (newest + 1 - maxRows.toNat) (newest + 1) := by
      intro id hid
      rw [List.mem_toFinset] at hid
      obtain ⟨row, hrow, rfl⟩ := List.mem_map.1 hid
      have hnewest := hle row.id (List.mem_map_of_mem (hsub.subset hrow))
      have hwindow := hkept row hrow
      rw [belowWindow, hmax, Option.any_some, decide_eq_false_iff_not] at hwindow
      rw [Finset.mem_Ico]
      omega
    have hcard := Finset.card_le_card hsubset
    have hkeptNodup : (ids kept).Nodup := hnodup.sublist (hsub.map Row.id)
    rw [List.toFinset_card_of_nodup hkeptNodup, length_ids, Nat.card_Ico] at hcard
    omega

theorem pruned_filter {rows : List Row} {cutoff maxRows : ℤ} (hnodup : (ids rows).Nodup)
    (hpos : 0 ≤ maxRows) :
    Pruned rows cutoff maxRows
      (rows.filter fun row =>
        !isDeleted cutoff ((maxId rows).map fun id : ℕ => (id : ℤ) - maxRows + 1) row)
      (rows.filter
        (isDeleted cutoff ((maxId rows).map fun id : ℕ => (id : ℤ) - maxRows + 1))).length := by
  refine ⟨?_, ?_, ?_, ?_⟩
  · simp only [isDeleted_eq]
  · rw [funext (isDeleted_eq cutoff maxRows rows)]
  · refine length_kept_le hnodup hpos List.filter_sublist fun row hrow => ?_
    have hkept := (List.mem_filter.1 hrow).2
    rw [isDeleted_eq, Bool.not_eq_true', Bool.or_eq_false_iff] at hkept
    exact hkept.2
  · intro row hrow hexpired hbelow
    rw [List.mem_filter, isDeleted_eq, hexpired, hbelow]
    exact ⟨hrow, rfl⟩

/-! ### The prune -/

/-- A statement works in the session of a store. -/
theorem statement_of_sem {a : Action} {s s' : Store} {session : Session} {r : a.Response}
    (ha : sem a s r = (s.session.bind fun session => session.statement a r).map
      fun session => { s with session := some session })
    (hs : s.session = some session) (h : sem a s r = some s') :
    ∃ after, session.statement a r = some after ∧ s' = { s with session := some after } := by
  rw [ha, hs, Option.bind_some, Option.map_eq_some_iff] at h
  obtain ⟨after, hafter, rfl⟩ := h
  exact ⟨after, hafter, rfl⟩

theorem Store.with_session {s : Store} {session : Session} (hs : s.session = some session) :
    { s with session := some session } = s := by
  rw [← hs]

theorem sem_flush {s s' : Store} {session : Session} {r : Option (List Row)}
    (hs : s.session = some session) (h : sem .flush s r = some s') :
    (r = none ∧ s' = s) ∨ ∃ inserted, r = some inserted ∧ session.Flushes inserted ∧
      s' = { s with session := some (session.flush inserted) } := by
  obtain ⟨after, hafter, rfl⟩ := statement_of_sem rfl hs h
  cases r with
  | none =>
    cases hafter
    exact .inl ⟨rfl, Store.with_session hs⟩
  | some inserted =>
    obtain ⟨hflushes, hafter⟩ := Option.ite_none_right_eq_some.1 hafter
    cases hafter
    exact .inr ⟨inserted, rfl, hflushes, rfl⟩

theorem sem_selectMax {s s' : Store} {session : Session} {r : Option (Option ℕ)}
    (hs : s.session = some session) (h : sem .selectMax s r = some s') :
    s' = s ∧ ∀ newest, r = some newest → newest = maxId session.rows := by
  obtain ⟨after, hafter, rfl⟩ := statement_of_sem rfl hs h
  cases r with
  | none =>
    cases hafter
    exact ⟨Store.with_session hs, fun newest hnewest => nomatch hnewest⟩
  | some newest =>
    obtain ⟨hnewest, hafter⟩ := Option.ite_none_right_eq_some.1 hafter
    cases hafter
    refine ⟨Store.with_session hs, fun newest' hnewest' => ?_⟩
    rw [← Option.some.inj hnewest', hnewest]

theorem sem_delete {s s' : Store} {session : Session} {cutoff : ℤ} {oldest : Option ℤ}
    {r : Option ℕ} (hs : s.session = some session) (h : sem (.delete cutoff oldest) s r = some s') :
    (r = none ∧ s' = s) ∨ (r = some (session.rows.filter (isDeleted cutoff oldest)).length ∧
      s' = { s with session := some { session with
        rows := session.rows.filter fun row => !isDeleted cutoff oldest row } }) := by
  obtain ⟨after, hafter, rfl⟩ := statement_of_sem rfl hs h
  cases r with
  | none =>
    cases hafter
    exact .inl ⟨rfl, Store.with_session hs⟩
  | some n =>
    obtain ⟨hn, hafter⟩ := Option.ite_none_right_eq_some.1 hafter
    cases hafter
    exact .inr ⟨by rw [hn], rfl⟩

/-- How a prune ends on a session: all rows are flushed, and then pruned; it
raises when a statement does, or when there is no such cutoff. -/
def PruneEnds (s : Store) (session : Session) (now : Option ℤ) (retentionDays maxRows : ℤ)
    (r : Except Exc ℕ) (s' : Store) : Prop :=
  s'.rows = s.rows ∧ s'.calls = s.calls ∧ match r with
    | .ok n => ∃ inserted current kept, session.Flushes inserted ∧
        now.or s'.clock = some current ∧ 0 ≤ current - retentionDays * day ∧
        Pruned (session.rows ++ inserted) (current - retentionDays * day) maxRows kept n ∧
        s'.session = some { session.flush inserted with rows := kept }
    | .error e => e = .databaseError ∨ e = .overflowError ∧
        ∃ current, now.or s'.clock = some current ∧ current - retentionDays * day < 0

/-- The time is read, and nothing else changes. -/
theorem currentTime_wp (now : Option ℤ) (s : Store) :
    Prog.Wp sem (currentTime now) (fun r s' => s'.rows = s.rows ∧ s'.calls = s.calls ∧
      s'.session = s.session ∧ ∃ current, r = .ok current ∧ now.or s'.clock = some current) s := by
  cases now with
  | some t => exact ⟨rfl, rfl, rfl, t, rfl, rfl⟩
  | none =>
    intro t s' ht
    obtain ⟨-, rfl⟩ := (Option.ite_none_right_eq_some.1 ht).imp_right Option.some.inj
    exact ⟨rfl, rfl, rfl, t, rfl, rfl⟩

theorem prune_wp {s : Store} {session : Session} (now : Option ℤ) {retentionDays maxRows : ℤ}
    (hs : s.session = some session) (hdays : 1 ≤ retentionDays) (hmax : 1 ≤ maxRows) :
    Prog.Wp sem (pruneExecutionLogs now retentionDays maxRows)
      (PruneEnds s session now retentionDays maxRows) s := by
  rw [pruneExecutionLogs, if_neg (by omega)]
  refine Prog.Wp.perform_bind fun flushed s₁ hflushed => ?_
  -- each statement may fail; then nothing was deleted
  rcases sem_flush hs hflushed with ⟨rfl, rfl⟩ | ⟨inserted, rfl, hflushes, rfl⟩
  · exact ⟨rfl, rfl, .inl rfl⟩
  rw [orRaise_some_bind]
  refine Prog.Wp.bind (currentTime_wp now _) ?_ ?_
  swap
  · rintro e s₂ ⟨-, -, -, current, h, -⟩
    cases h
  rintro current s₂ ⟨hrows, hcalls, hsession, current', h, hcurrent⟩
  cases h
  refine Prog.Wp.unwrap_bind (fun cutoff hcutoff => ?_) (fun e he => ?_)
  swap
  · rw [cutoffOf] at he
    split at he
    · next hlt =>
      cases he
      exact ⟨hrows, hcalls, .inr ⟨rfl, current, hcurrent, hlt⟩⟩
    · cases he
  rw [cutoffOf] at hcutoff
  split at hcutoff
  · cases hcutoff
  next hnonneg =>
  cases hcutoff
  refine Prog.Wp.perform_bind fun selected s₃ hselected => ?_
  obtain ⟨rfl, hnewest⟩ := sem_selectMax hsession hselected
  cases selected with
  | none => exact ⟨hrows, hcalls, .inl rfl⟩
  | some newest =>
    obtain rfl := hnewest newest rfl
    refine Prog.Wp.perform_bind fun deleted s₄ hdeleted => ?_
    rcases sem_delete hsession hdeleted with ⟨rfl, rfl⟩ | ⟨rfl, rfl⟩
    · exact ⟨hrows, hcalls, .inl rfl⟩
    · exact ⟨hrows, hcalls, inserted, current, _, hflushes, hcurrent, by omega,
        pruned_filter hflushes.2 (by omega), rfl⟩

/-- Rows with IDs in a row. -/
def freshRows (first : ℕ) : List ExecutionLog → List Row
  | [] => []
  | columns :: rest =>
    { id := first, createdAt := none, columns := some columns } :: freshRows (first + 1) rest

theorem ids_freshRows (first : ℕ) (pending : List ExecutionLog) :
    ids (freshRows first pending) = List.range' first pending.length := by
  induction pending generalizing first with
  | nil => rfl
  | cons columns rest ih => rw [freshRows, ids, List.map_cons, ← ids, ih, List.length_cons,
      List.range'_succ]

theorem columns_freshRows (first : ℕ) (pending : List ExecutionLog) :
    (freshRows first pending).map Row.columns = pending.map some := by
  induction pending generalizing first with
  | nil => rfl
  | cons columns rest ih => rw [freshRows, List.map_cons, ih, List.map_cons]

/-- The pending rows can be flushed with IDs above all there are. -/
theorem exists_flushes {session : Session} (h : (ids session.rows).Nodup) :
    ∃ inserted, session.Flushes inserted := by
  refine ⟨freshRows ((maxId session.rows).getD 0 + 1) session.pending,
    columns_freshRows _ _, ?_⟩
  rw [ids, List.map_append, ← ids, ← ids, ids_freshRows]
  refine List.nodup_append.2 ⟨h, List.nodup_range', ?_⟩
  rintro id hid fresh hfresh rfl
  have hle := (List.mem_range'_1.1 hfresh).1
  cases hmax : maxId session.rows with
  | none =>
    rw [List.max?_eq_none_iff.1 hmax] at hid
    cases hid
  | some newest =>
    have := (List.max?_eq_some_iff.1 hmax).2 id hid
    rw [hmax, Option.getD_some] at hle
    omega

/-- When every statement succeeds, a prune returns. -/
theorem prune_returns {s : Store} {session : Session} {now retentionDays maxRows : ℤ}
    (hs : s.session = some session) (hnodup : (ids session.rows).Nodup)
    (hdays : 1 ≤ retentionDays) (hmax : 1 ≤ maxRows) (hcutoff : 0 ≤ now - retentionDays * day) :
    Prog.May sem (pruneExecutionLogs (some now) retentionDays maxRows)
      (fun r _ => ∃ n, r = .ok n) s := by
  obtain ⟨inserted, hflushes⟩ := exists_flushes hnodup
  have hok : cutoffOf now retentionDays = .ok (now - retentionDays * day) := by
    rw [cutoffOf, if_neg (by omega)]
  have hdelete : ∀ oldest, sem (.delete (now - retentionDays * day) oldest)
      { s with session := some (session.flush inserted) }
      (some ((session.flush inserted).rows.filter
        (isDeleted (now - retentionDays * day) oldest)).length) =
      some { s with session := some { session.flush inserted with
        rows := (session.flush inserted).rows.filter fun row =>
          !isDeleted (now - retentionDays * day) oldest row } } := by
    intro oldest
    simp only [sem, Option.bind_some, Session.statement, if_true, Option.map_some]
  rw [pruneExecutionLogs, if_neg (by omega)]
  refine .perform_bind (some inserted) { s with session := some (session.flush inserted) } ?_ ?_
  · simp only [sem, hs, Option.bind_some, Session.statement, if_pos hflushes, Option.map_some]
  show Prog.May sem (Prog.unwrap (cutoffOf now retentionDays) >>= _) _ _
  rw [hok]
  refine Prog.May.perform_bind (some (maxId (session.flush inserted).rows))
    { s with session := some (session.flush inserted) } ?_ ?_
  · simp only [sem, Option.bind_some, Session.statement, if_true, Option.map_some]
  · exact Prog.May.perform_bind _ _ (hdelete _) (Prog.may_done ⟨_, rfl⟩)

/-! ### The save -/

variable {entry : LogFields} {retentionDays maxRows : ℤ}

/-- The committed rows after a save: with the row that was added, and pruned. -/
structure Saved (rows : List Row) (entry : LogFields) (retentionDays maxRows : ℤ) (logId : ℕ)
    (row : Row) (current : ℤ) (kept : List Row) : Prop where
  id_eq : row.id = logId
  columns_eq : row.columns = some (.ofEntry entry)
  nodup : (ids (rows ++ [row])).Nodup
  pruned : ∃ n, Pruned (rows ++ [row]) (current - retentionDays * day) maxRows kept n

/-- How the part of a save ends that has a session: it commits, or the rows that
are committed stay. -/
def SaveRowEnds (s : Store) (entry : LogFields) (retentionDays maxRows : ℤ) :
    Except Exc ℕ → Store → Prop
  | .ok logId, s' => s'.calls = s.calls ++ [.commit] ∧
      ∃ row current, s'.clock = some current ∧
        Saved s.rows entry retentionDays maxRows logId row current s'.rows
  | .error _, s' => s'.rows = s.rows ∧ ∃ attempted, s'.calls = s.calls ++ attempted

theorem sem_add {s s' : Store} {session : Session} {row : ExecutionLog} {r : Option Unit}
    (hs : s.session = some session) (h : sem (.add row) s r = some s') :
    (r = none ∧ s' = s) ∨ (r = some () ∧ s' = { s with session := some (session.add row) }) := by
  obtain ⟨after, hafter, rfl⟩ := statement_of_sem rfl hs h
  cases r with
  | none =>
    cases hafter
    exact .inl ⟨rfl, Store.with_session hs⟩
  | some u =>
    cases hafter
    exact .inr ⟨rfl, rfl⟩

theorem sem_readId {s s' : Store} {session : Session} {r : Option ℕ}
    (hs : s.session = some session) (h : sem .readId s r = some s') :
    s' = s ∧ r = session.assigned := by
  obtain ⟨after, hafter, rfl⟩ := statement_of_sem rfl hs h
  obtain ⟨hr, hafter⟩ := Option.ite_none_right_eq_some.1 hafter
  cases hafter
  exact ⟨Store.with_session hs, hr⟩

theorem sem_commit {s s' : Store} {session : Session} {r : Option Unit}
    (hs : s.session = some session) (h : sem .commit s r = some s') :
    s'.calls = s.calls ++ [.commit] ∧ s'.clock = s.clock ∧
      ((r = none ∧ s'.rows = s.rows) ∨ (r = some () ∧ s'.rows = session.rows)) := by
  simp only [sem, hs] at h
  cases r with
  | none =>
    cases h
    exact ⟨rfl, rfl, .inl ⟨rfl, rfl⟩⟩
  | some u =>
    cases h
    exact ⟨rfl, rfl, .inr ⟨rfl, rfl⟩⟩

theorem saveRow_wp {s : Store} (hs : s.session = some ⟨s.rows, [], none⟩)
    (hdays : 1 ≤ retentionDays) (hmax : 1 ≤ maxRows) :
    Prog.Wp sem (saveRow retentionDays maxRows entry)
      (SaveRowEnds s entry retentionDays maxRows) s := by
  refine Prog.Wp.perform_bind fun added s₁ hadded => ?_
  have hsame : s.calls = s.calls ++ [] := (List.append_nil _).symm
  rcases sem_add hs hadded with ⟨rfl, rfl⟩ | ⟨rfl, rfl⟩
  · exact ⟨rfl, [], hsame⟩
  rw [orRaise_some_bind]
  refine Prog.Wp.bind (prune_wp none rfl hdays hmax) ?_ ?_
  swap
  · rintro e s₂ ⟨hrows, hcalls, -⟩
    exact ⟨hrows, [], hcalls.trans hsame⟩
  rintro n s₂ ⟨hrows, hcalls, inserted, current, kept, ⟨hcolumns, hnodup⟩, hcurrent, -, hpruned,
    hsession⟩
  -- the one row that was flushed is the one that was added
  obtain ⟨row, rfl, hrow⟩ : ∃ row, inserted = [row] ∧ row.columns = some (.ofEntry entry) := by
    obtain ⟨row, rest, rfl, hrow, hrest⟩ := List.map_eq_cons_iff.1 hcolumns
    exact ⟨row, by rw [List.map_eq_nil_iff.1 hrest], hrow⟩
  refine Prog.Wp.perform_bind fun assigned s₃ hassigned => ?_
  obtain ⟨rfl, rfl⟩ := sem_readId hsession hassigned
  show Prog.Wp sem (perform .commit >>= fun committed => orRaise committed >>= fun _ =>
    pure row.id) _ _
  refine Prog.Wp.perform_bind fun committed s₄ hcommitted => ?_
  obtain ⟨hcalls₄, hclock, ⟨rfl, hrows₄⟩ | ⟨rfl, hrows₄⟩⟩ := sem_commit hsession hcommitted
  · exact ⟨hrows₄.trans hrows, [.commit], hcalls₄.trans (congrArg (· ++ [.commit]) hcalls)⟩
  · refine ⟨hcalls₄.trans (congrArg (· ++ [.commit]) hcalls), row, current,
      hclock.trans hcurrent, rfl, hrow, hnodup, n, ?_⟩
    rw [hrows₄]
    exact hpruned

theorem rollbackQuietly_wp (s : Store) :
    Prog.Wp sem rollbackQuietly (fun r s' => r = .ok () ∧ s'.rows = s.rows ∧
      s'.calls = s.calls ++ [.rollback]) s := by
  refine Prog.Wp.perform_bind fun rolledBack s₁ h => ?_
  cases h
  cases rolledBack with
  | some u => exact ⟨rfl, rfl, rfl⟩
  | none =>
    intro _ s₂ h
    cases h
    exact ⟨rfl, rfl, rfl⟩

theorem closeQuietly_wp (s : Store) :
    Prog.Wp sem closeQuietly (fun r s' => r = .ok () ∧ s'.rows = s.rows ∧
      s'.calls = s.calls ++ [.close] ∧ s'.clock = s.clock) s := by
  refine Prog.Wp.perform_bind fun closed s₁ h => ?_
  cases h
  cases closed with
  | some u => exact ⟨rfl, rfl, rfl, rfl⟩
  | none =>
    intro _ s₂ h
    cases h
    exact ⟨rfl, rfl, rfl, rfl⟩

/-- How a save ends. -/
def SaveEnds (s : Store) (entry : LogFields) (retentionDays maxRows : ℤ) :
    Except Exc ℕ → Store → Prop
  | .ok logId, s' => s'.calls = s.calls ++ [.create, .commit, .close] ∧
      ∃ row current, s'.clock = some current ∧
        Saved s.rows entry retentionDays maxRows logId row current s'.rows
  | .error e, s' => e = .repositoryError ∧ s'.rows = s.rows ∧
      (s'.calls = s.calls ∨
        ∃ attempted, s'.calls = s.calls ++ .create :: attempted ++ [.rollback, .close])

theorem save_wp (s : Store) (hdays : 1 ≤ retentionDays) (hmax : 1 ≤ maxRows) :
    Prog.Wp sem (save retentionDays maxRows entry) (SaveEnds s entry retentionDays maxRows) s := by
  refine Prog.Wp.perform_bind fun created s₁ h => ?_
  cases created with
  | none =>
    cases h
    exact ⟨rfl, rfl, .inl rfl⟩
  | some u =>
    cases h
    -- before the session is closed: committed, or rolled back without a change
    refine Prog.Wp.finally' (Q := fun r s₂ => match r with
      | .ok logId => s₂.calls = s.calls ++ [.create, .commit] ∧
          ∃ row current, s₂.clock = some current ∧
            Saved s.rows entry retentionDays maxRows logId row current s₂.rows
      | .error e => e = .repositoryError ∧ s₂.rows = s.rows ∧
          ∃ attempted, s₂.calls = s.calls ++ .create :: attempted ++ [.rollback]) ?_ ?_
    · refine Prog.Wp.tryCatch (saveRow_wp rfl hdays hmax) ?_ ?_
      · rintro logId s₂ ⟨hcalls, hsaved⟩
        refine ⟨?_, hsaved⟩
        rw [hcalls, List.append_assoc]
        rfl
      · rintro e s₂ ⟨hrows, attempted, hcalls⟩
        refine Prog.Wp.bind (rollbackQuietly_wp s₂) ?_ ?_
        · rintro _ s₃ ⟨-, hrows₃, hcalls₃⟩
          refine ⟨rfl, hrows₃.trans hrows, attempted, ?_⟩
          rw [hcalls₃, hcalls, List.append_assoc s.calls]
          rfl
        · rintro _ s₃ ⟨h, -⟩
          cases h
    -- closing changes neither the rows nor the result
    · rintro r s₂ hr
      refine (closeQuietly_wp s₂).mono ?_
      rintro _ s₃ ⟨rfl, hrows, hcalls, hclock⟩
      cases r with
      | ok logId =>
        obtain ⟨hcalls₂, row, current, hclock₂, hsaved⟩ := hr
        refine ⟨?_, row, current, hclock.trans hclock₂, ?_⟩
        · rw [hcalls, hcalls₂, List.append_assoc]
          rfl
        · rw [hrows]
          exact hsaved
      | error e =>
        obtain ⟨rfl, hrows₂, attempted, hcalls₂⟩ := hr
        refine ⟨rfl, hrows.trans hrows₂, .inr ⟨attempted, ?_⟩⟩
        rw [hcalls, hcalls₂, List.append_assoc]
        rfl

/-- A row that is not expired is kept by its own save, unless a row beyond its
window is stored. -/
theorem Saved.mem_kept {rows kept : List Row} {logId : ℕ} {row : Row} {current : ℤ}
    (h : Saved rows entry retentionDays maxRows logId row current kept) (hmax : 1 ≤ maxRows)
    (hexpired : expired (current - retentionDays * day) row = false)
    (hids : ∀ other ∈ rows, (other.id : ℤ) < logId + maxRows) : row ∈ kept := by
  obtain ⟨n, hpruned⟩ := h.pruned
  refine hpruned.kept_of row (List.mem_append_right rows List.mem_cons_self) hexpired ?_
  cases hnewest : maxId (rows ++ [row]) with
  | none => rw [belowWindow, hnewest, Option.any_none]
  | some newest =>
    rw [belowWindow, hnewest, Option.any_some, decide_eq_false_iff_not]
    have hmem := (List.max?_eq_some_iff.1 hnewest).1
    have hid := h.id_eq
    rw [ids, List.map_append, List.mem_append] at hmem
    rcases hmem with hmem | hmem
    · obtain ⟨other, hother, rfl⟩ := List.mem_map.1 hmem
      have := hids other hother
      omega
    · obtain rfl := List.mem_singleton.1 hmem
      omega

/-- **A prune is exact and a save is atomic**: a prune that no statement interrupts
deletes the rows that are too old or below the window, and a save returns an ID only
when the row is committed with its pruning; otherwise it changes nothing, and rolls
back and closes the session that it has created. -/
theorem save_and_prune (hdays : 1 ≤ retentionDays) (hmax : 1 ≤ maxRows) :
    (∀ (s : Store) (session : Session) (now : ℤ), s.session = some session →
      (ids session.rows).Nodup → 0 ≤ now - retentionDays * day →
      Prog.May sem (pruneExecutionLogs (some now) retentionDays maxRows)
        (fun r _ => ∃ n, r = .ok n) s ∧
      ∀ r s', Prog.Runs sem s (pruneExecutionLogs (some now) retentionDays maxRows) r s' →
        s'.rows = s.rows ∧ match r with
        | .ok n => ∃ inserted after, session.Flushes inserted ∧ s'.session = some after ∧
            Pruned (session.rows ++ inserted) (now - retentionDays * day) maxRows after.rows n
        | .error e => e = .databaseError) ∧
    ∀ (s : Store) (entry : LogFields) (r : Except Exc ℕ) (s' : Store),
      Prog.Runs sem s (save retentionDays maxRows entry) r s' → match r with
      | .ok logId => s'.calls = s.calls ++ [.create, .commit, .close] ∧
          ∃ row current, s'.clock = some current ∧
            Saved s.rows entry retentionDays maxRows logId row current s'.rows ∧
            (expired (current - retentionDays * day) row = false →
              (∀ other ∈ s.rows, (other.id : ℤ) < logId + maxRows) → row ∈ s'.rows)
      | .error e => e = .repositoryError ∧ s'.rows = s.rows ∧
          (s'.calls = s.calls ∨
            ∃ attempted, s'.calls = s.calls ++ .create :: attempted ++ [.rollback, .close]) := by
  constructor
  · intro s session now hs hnodup hcutoff
    refine ⟨prune_returns hs hnodup hdays hmax hcutoff, fun r s' hruns => ?_⟩
    have hends := (prune_wp (some now) hs hdays hmax).of_runs hruns
    cases r with
    | ok n =>
      obtain ⟨hrows, -, inserted, current, kept, hflushes, hcurrent, -, hpruned, hafter⟩ := hends
      obtain rfl := Option.some.inj hcurrent
      exact ⟨hrows, inserted, _, hflushes, hafter, hpruned⟩
    | error e =>
      obtain ⟨hrows, -, he | ⟨-, current, hcurrent, hlt⟩⟩ := hends
      · exact ⟨hrows, he⟩
      · obtain rfl := Option.some.inj hcurrent
        omega
  · intro s entry r s' hruns
    have hends := (save_wp s hdays hmax).of_runs hruns
    cases r with
    | error e => exact hends
    | ok logId =>
      obtain ⟨hcalls, row, current, hclock, hsaved⟩ := hends
      exact ⟨hcalls, row, current, hclock, hsaved, hsaved.mem_kept hmax⟩

/-! Databases on which every statement succeeds. -/

/-- A clock at noon. -/
def noon : ℤ := 2_000 * 365 * day + day / 2

/-- The answers, with the first of the IDs that come next. -/
def succeed (first : ℕ) : (a : Action) → Store → a.Response
  | .sessionFactory, _ => some ()
  | .add _, _ => some ()
  | .flush, s => s.session.map fun session =>
      (freshRows first session.pending).map fun row => { row with createdAt := some noon }
  | .now, _ => noon
  | .selectMax, s => s.session.map fun session => maxId session.rows
  | .delete cutoff oldest, s => s.session.map fun session =>
      (session.rows.filter (isDeleted cutoff oldest)).length
  | .readId, s => s.session.bind Session.assigned
  | .commit, _ => some ()
  | .rollback, _ => some ()
  | .close, _ => some ()
  | .log, _ => ()

/-- The entry of a command that printed nothing. -/
def quietEntry : LogFields where
  problemId := "STANDARD-1".toList
  shellgei := [':']
  legacyOutput := []
  legacyJudge := ['1']
  executionStatus := .completed
  stdout := []
  stderr := []
  exitCode := some 0
  timedOut := false
  truncated := false
  durationMs := 5
  verdict := .accepted
  judgeReason := none

/-- A table with the rows of these IDs. -/
def storeWith (rows : List ℕ) : Store where
  rows := rows.map fun id => { id := id, createdAt := some noon, columns := none }
  session := none
  calls := []
  clock := none

/-- The store after a save into the rows 3 and 7. -/
def savedStore : Store :=
  (Prog.run sem (succeed 8) 10 (storeWith [3, 7], save 365 10_000 quietEntry)).1

theorem runs_savedStore :
    Prog.Runs sem (storeWith [3, 7]) (save 365 10_000 quietEntry) (.ok 8) savedStore :=
  Prog.runs_run (succeed 8) 10 rfl

theorem save_and_prune_saved : savedStore.calls = [.create, .commit, .close] ∧
    ∃ row, row.id = 8 ∧ row.columns = some (.ofEntry quietEntry) ∧
      (expired (noon - 365 * day) row = false → row ∈ savedStore.rows) := by
  obtain ⟨hcalls, row, current, hclock, hsaved, hkept⟩ :=
    (save_and_prune (by decide) (by decide)).2 _ _ _ _ runs_savedStore
  have hclock : some noon = some current := hclock
  obtain rfl := Option.some.inj hclock
  exact ⟨hcalls, row, hsaved.id_eq, hsaved.columns_eq, fun h => hkept h (by decide)⟩

/-- A session on a table whose IDs have a gap. -/
def gapStore : Store :=
  { storeWith [1, 100] with session := some ⟨(storeWith [1, 100]).rows, [], none⟩ }

/-- The window is one of IDs, so a row of the highest two IDs is deleted, though two
rows are allowed; there is no cutoff before the first datetime; and the row of a
sequence that is far behind is deleted by its own save. -/
theorem gap_deleted :
    (∃ s' after, Prog.Runs sem gapStore (pruneExecutionLogs (some noon) 30 2) (.ok 1) s' ∧
      s'.session = some after ∧ ∃ row ∈ gapStore.rows, expired (noon - 30 * day) row = false ∧
        (gapStore.rows.filter fun other => row.id < other.id).length < 2 ∧ row ∉ after.rows) ∧
    (∃ s', Prog.Runs sem gapStore (pruneExecutionLogs (some noon) 1_000_000 2)
      (.error .overflowError) s') ∧
    ∃ s', Prog.Runs sem (storeWith [1_000]) (save 365 10 quietEntry) (.ok 1) s' ∧
      1 ∉ ids s'.rows := by
  refine ⟨?_, ?_, ?_⟩
  · refine ⟨_, _, Prog.runs_run (succeed 1) 5 rfl, rfl, ⟨1, some noon, none⟩, ?_, ?_, ?_, ?_⟩
    · decide
    · decide +kernel
    · decide
    · decide +kernel
  · exact ⟨_, Prog.runs_run (succeed 1) 5 rfl⟩
  · refine ⟨_, Prog.runs_run (succeed 1) 10 rfl, ?_⟩
    decide +kernel

end ExecutionLogSave
