/-
The migrations of the database (soj_backend/database_migrations.py and
migrations/versions).

A `Database` has the table `soj_schema_migrations`, by the revisions in it, and
the table `execution_logs`.  DDL is transactional and calls are serialised by
the advisory lock, so that a call is one transaction, of which any statement may
fail.

* `migrations_in_step` — schema, rows and recorded revisions in every sequence
  of calls.
-/
import Mathlib.Data.Int.Notation
import Mathlib.Logic.Function.Basic
import ShellgeiOnlineJudge.Transaction

namespace DatabaseMigrations

/-! ### Tables -/

/-- A value of a cell. -/
inductive SqlValue
  | null
  | text (t : String)
  | integer (n : ℤ)
  | boolean (b : Bool)
  /-- a value of another type, by its text -/
  | other (t : String)
  deriving DecidableEq

/-- A column with its type. -/
structure Column where
  name : String
  sqlType : String
  notNull : Bool
  deriving DecidableEq

/-- The values of a row by the names of its columns. -/
abbrev Row := String → SqlValue

/-- A table with its indexes. -/
structure Table where
  columns : List Column
  indexes : List String
  rows : List Row

/-- The names of the columns, in order. -/
def Table.columnNames (table : Table) : List String := table.columns.map (·.name)

/-- The tables that the migrations read and write. -/
structure Database where
  /-- the rows of `soj_schema_migrations`, when the table exists -/
  revisions : Option (List String)
  executionLogs : Option Table

/-- `CAST(value AS VARCHAR)` -/
def castVarchar : SqlValue → Option String
  | .null => none
  | .text t => some t
  | .integer n => some (toString n)
  | .boolean b => some (if b then "true" else "false")
  | .other t => some t

/-- `COALESCE(value, '')` -/
def coalesceEmpty : SqlValue → SqlValue
  | .null => .text ""
  | value => value

/-! ### Errors -/

/-- `DatabaseMigrationError`, by its messages. -/
inductive DatabaseMigrationError
  /-- `unversioned execution_logs is missing: ...` -/
  | missingColumns (missing : List String)
  /-- `unversioned execution_logs already contains structured columns` -/
  | structuredColumns
  /-- `unknown database revisions: ...` -/
  | unknownRevisions (unknown : List String)
  /-- `database revisions are not a contiguous prefix` -/
  | notContiguous
  /-- `unknown migration target: ...` -/
  | unknownTarget (target : String)
  /-- `database migration to ... failed`, for any other exception -/
  | failed (target : String)
  deriving DecidableEq

/-- What is raised inside the transaction. -/
inductive Failure
  | migration (error : DatabaseMigrationError)
  | runtimeError (message : String)
  /-- an exception of a statement -/
  | statement

/-- Statements in a transaction on the database. -/
abbrev Migration (α : Type) := Transaction Database Failure α

open Transaction

/-! ### Statements -/

/-- `CREATE TABLE soj_schema_migrations` -/
def createRevisions (db : Database) : Option Database :=
  if db.revisions.isSome then none else some { db with revisions := some [] }

/-- The revision is the primary key. -/
def insertRevision (revision : String) (db : Database) : Option Database := do
  let revisions ← db.revisions
  if revision ∈ revisions then none
  else some { db with revisions := some (revisions ++ [revision]) }

/-- `DELETE FROM soj_schema_migrations` -/
def deleteRevision (revision : String) (db : Database) : Option Database := do
  let revisions ← db.revisions
  some { db with revisions := some (revisions.filter (· ≠ revision)) }

/-- `CREATE TABLE`, refused where the table exists. -/
def createExecutionLogs (columns : List Column) (db : Database) : Option Database :=
  if db.executionLogs.isSome then none
  else some { db with executionLogs := some { columns, indexes := [], rows := [] } }

/-- A statement on `execution_logs`, which fails when the table does not exist. -/
def onExecutionLogs (f : Table → Option Table) (db : Database) : Option Database := do
  let table ← db.executionLogs
  let table ← f table
  some { db with executionLogs := some table }

/-- `CREATE INDEX`, refused where the index exists. -/
def createIndex (name : String) (table : Table) : Option Table :=
  if name ∈ table.indexes then none
  else some { table with indexes := table.indexes ++ [name] }

/-- `DROP TABLE`, refused where the table is missing. -/
def dropExecutionLogs (db : Database) : Option Database :=
  if db.executionLogs.isSome then some { db with executionLogs := none } else none

/-- `ALTER TABLE execution_logs ADD COLUMN ...`; the column is `NULL` in each row. -/
def addColumn (name sqlType : String) (table : Table) : Option Table :=
  if name ∈ table.columnNames then none
  else some { table with
    columns := table.columns ++ [⟨name, sqlType, false⟩]
    rows := table.rows.map fun row => Function.update row name .null }

/-- `ALTER TABLE execution_logs DROP COLUMN ...` -/
def dropColumn (name : String) (table : Table) : Option Table :=
  if name ∈ table.columnNames then
    some { table with
      columns := table.columns.filter (·.name ≠ name)
      rows := table.rows.map fun row => Function.update row name .null }
  else none

/-- `ALTER TABLE execution_logs ALTER COLUMN ... SET NOT NULL` -/
def setNotNull (name : String) (table : Table) : Option Table :=
  if name ∈ table.columnNames ∧ ∀ row ∈ table.rows, row name ≠ .null then
    some { table with
      columns := table.columns.map fun c =>
        if c.name = name then { c with notNull := true } else c }
  else none

/-- `inspect(connection).has_table("execution_logs")` -/
def hasTable : Migration Bool := query .statement fun db => some db.executionLogs.isSome

/-- `inspect(connection).get_columns("execution_logs")`, by their names -/
def getColumns : Migration (List String) :=
  query .statement fun db => db.executionLogs.map Table.columnNames

/-- `select(_migration_table.c.revision)` -/
def selectRevisions : Migration (List String) := query .statement Database.revisions

/-! ### v0001_legacy_execution_logs -/

/-- The revision of the first migration. -/
def legacyRevision : String := "0001_legacy_execution_logs"

/-- The columns of the first migration. -/
def legacyColumns : List Column :=
  [⟨"id", "INTEGER", true⟩, ⟨"problem_id", "VARCHAR", false⟩, ⟨"shellgei", "TEXT", false⟩,
    ⟨"output", "TEXT", false⟩, ⟨"judge", "VARCHAR", false⟩,
    ⟨"created_at", "TIMESTAMP WITH TIME ZONE", false⟩]

/-- The indexes of the first migration. -/
def legacyIndexes : List String :=
  ["ix_execution_logs_id", "ix_execution_logs_problem_id", "ix_execution_logs_created_at"]

/-- `upgrade` -/
def upgradeLegacy : Migration Unit := do
  let found ← hasTable
  if found then throw (.runtimeError "execution_logs already exists before baseline migration")
  else do
    execute .statement (createExecutionLogs legacyColumns)
    forEach (fun name => execute .statement (onExecutionLogs (createIndex name))) legacyIndexes

/-- `downgrade` -/
def downgradeLegacy : Migration Unit := do
  let found ← hasTable
  if found then execute .statement dropExecutionLogs else pure ()

/-! ### v0002_structured_execution_logs -/

/-- The revision of the second migration. -/
def structuredRevision : String := "0002_structured_execution_logs"

/-- The columns that the second migration adds. -/
def structuredColumns : List String :=
  ["execution_status", "stdout", "stderr", "exit_code", "timed_out", "truncated", "duration_ms",
    "verdict", "judge_reason"]

/-- The columns that `_ADD_COLUMN_STATEMENTS` adds, with their types. -/
def addColumnStatements : List (String × String) :=
  [("execution_status", "VARCHAR(32)"), ("stdout", "TEXT"), ("stderr", "TEXT"),
    ("exit_code", "INTEGER"), ("timed_out", "BOOLEAN"), ("truncated", "BOOLEAN"),
    ("duration_ms", "INTEGER"), ("verdict", "VARCHAR(32)"), ("judge_reason", "VARCHAR(64)")]

/-- The verdict of a legacy row. -/
def legacyVerdict (judge : SqlValue) : String :=
  if castVarchar judge = some "1" then "accepted"
  else if castVarchar judge = some "2" then "wrong_image"
  else if castVarchar judge = some "3" then "wrong_answer"
  else if castVarchar judge = some "4" then "legacy_failure"
  else "legacy_unknown"

/-- The columns that the update reads or writes. -/
def updatedColumns : List String :=
  ["execution_status", "stdout", "output", "stderr", "timed_out", "truncated", "verdict", "judge"]

/-- The assignments of the update to a row. -/
def backfillRow (row : Row) : Row := fun column =>
  if column = "execution_status" then .text "legacy_unknown"
  else if column = "stdout" then coalesceEmpty (row "output")
  else if column = "stderr" then .text ""
  else if column = "timed_out" then .boolean false
  else if column = "truncated" then .boolean false
  else if column = "verdict" then .text (legacyVerdict (row "judge"))
  else row column

/-- `UPDATE execution_logs SET ...` -/
def backfill (table : Table) : Option Table :=
  if ∀ column ∈ updatedColumns, column ∈ table.columnNames then
    some { table with rows := table.rows.map backfillRow }
  else none

/-- The columns that may not be null after it. -/
def requiredColumns : List String :=
  ["execution_status", "stdout", "stderr", "timed_out", "truncated", "verdict"]

/-- `", ".join(sorted(columns))` -/
def names (columns : List String) : String := ", ".intercalate (columns.mergeSort (· ≤ ·))

/-- `upgrade` -/
def upgradeStructured (postgresql : Bool) : Migration Unit := do
  let existing ← getColumns
  if ∃ column ∈ structuredColumns, column ∈ existing then
    throw (.runtimeError ("structured execution columns already exist: " ++
      names (structuredColumns.filter (· ∈ existing))))
  else do
    forEach (fun c => execute .statement (onExecutionLogs (addColumn c.1 c.2))) addColumnStatements
    execute .statement (onExecutionLogs backfill)
    if postgresql then
      forEach (fun column => execute .statement (onExecutionLogs (setNotNull column)))
        requiredColumns
    else pure ()

/-- `downgrade` -/
def downgradeStructured : Migration Unit := do
  let existing ← getColumns
  if ∃ column ∈ structuredColumns, column ∉ existing then
    throw (.runtimeError ("structured execution columns are missing: " ++
      names (structuredColumns.filter (· ∉ existing))))
  else
    forEach (fun column => execute .statement (onExecutionLogs (dropColumn column)))
      structuredColumns.reverse

/-! ### database_migrations -/

/-- `DatabaseMigration` -/
structure DatabaseMigration where
  revision : String
  upgrade : Migration Unit
  downgrade : Migration Unit

/-- `MIGRATIONS`, on PostgreSQL or another database -/
def migrations (postgresql : Bool) : List DatabaseMigration :=
  [⟨legacyRevision, upgradeLegacy, downgradeLegacy⟩,
    ⟨structuredRevision, upgradeStructured postgresql, downgradeStructured⟩]

/-- The revisions of `MIGRATIONS`. -/
def knownRevisions : List String := [legacyRevision, structuredRevision]

/-- The target before every migration. -/
def baseRevision : String := "base"

/-- The target after every migration. -/
def headRevision : String := "head"

/-- `_acquire_migration_lock` -/
def acquireMigrationLock (postgresql : Bool) : Migration Unit :=
  if postgresql then execute .statement some else pure ()

/-- `_migration_table.create(connection, checkfirst=True)` -/
def createMigrationTable : Migration Unit := do
  let found ← query .statement fun db => some db.revisions.isSome
  if found then pure () else execute .statement createRevisions

/-- `_legacy_execution_log_columns` -/
def legacyExecutionLogColumns : Migration (List String) := do
  let found ← hasTable
  if found then getColumns else pure []

/-- The required columns, sorted. -/
def requiredLegacyColumns : List String :=
  ["created_at", "id", "judge", "output", "problem_id", "shellgei"]

/-- `_stamp_unversioned_legacy_database` -/
def stampUnversionedLegacyDatabase : Migration Unit := do
  let applied ← selectRevisions
  if applied ≠ [] then pure ()
  else do
    let columns ← legacyExecutionLogColumns
    if columns = [] then pure ()
    else if ∃ column ∈ requiredLegacyColumns, column ∉ columns then
      throw (.migration (.missingColumns (requiredLegacyColumns.filter (· ∉ columns))))
    else if ∃ column ∈ structuredColumns, column ∈ columns then
      throw (.migration .structuredColumns)
    else execute .statement (insertRevision legacyRevision)

/-- `_applied_revisions` -/
def appliedRevisions : Migration (List String) := do
  let applied ← selectRevisions
  if ∃ revision ∈ applied, revision ∉ knownRevisions then
    throw (.migration (.unknownRevisions
      ((applied.filter (· ∉ knownRevisions)).mergeSort (· ≤ ·))))
  else if knownRevisions.filter (· ∈ applied) ≠
      knownRevisions.take (knownRevisions.filter (· ∈ applied)).length then
    throw (.migration .notContiguous)
  else pure (knownRevisions.filter (· ∈ applied))

/-- `_target_count` -/
def targetCount (target : String) : Except DatabaseMigrationError ℕ :=
  if target = baseRevision then .ok 0
  else if target = headRevision then .ok knownRevisions.length
  else if target ∈ knownRevisions then .ok (knownRevisions.idxOf target + 1)
  else .error (.unknownTarget target)

/-- The upgrade of one migration, and its record. -/
def upgradeOne (migration : DatabaseMigration) : Migration Unit := do
  migration.upgrade
  execute .statement (insertRevision migration.revision)

/-- The downgrade of one migration, and its record. -/
def downgradeOne (migration : DatabaseMigration) : Migration Unit := do
  migration.downgrade
  execute .statement (deleteRevision migration.revision)

/-- The loops over the migrations between what is applied and what is desired. -/
def moveTo (postgresql : Bool) (applied desired : ℕ) : Migration Unit :=
  if applied < desired then
    forEach upgradeOne (((migrations postgresql).take desired).drop applied)
  else if desired < applied then
    forEach downgradeOne (((migrations postgresql).take applied).drop desired).reverse
  else pure ()

/-- The transaction of `migrate_database`. -/
def migrateTransaction (postgresql : Bool) (target : String) : Migration (List String) := do
  acquireMigrationLock postgresql
  createMigrationTable
  stampUnversionedLegacyDatabase
  let applied ← appliedRevisions
  match targetCount target with
  | .error error => throw (.migration error)
  | .ok desired => do
    moveTo postgresql applied.length desired
    appliedRevisions

/-- Every other exception is raised as a failed migration. -/
def Failure.raised (target : String) : Failure → DatabaseMigrationError
  | .migration error => error
  | .runtimeError _ => .failed target
  | .statement => .failed target

/-- `migrate_database`, with the statements that will fail: what it returns or
raises, and the database that it leaves. -/
def migrateDatabase (postgresql : Bool) (faults : ℕ → Bool) (target : String) (db : Database) :
    Except DatabaseMigrationError (List String) × Database :=
  let out := commit .statement (migrateTransaction postgresql target) faults db
  (out.1.mapError (Failure.raised target), out.2)

/-! ### Databases by what the migrations can tell -/

/-- The revisions that are recorded. -/
def Database.recorded (db : Database) : List String := db.revisions.getD []

/-- The names of the columns of `execution_logs`, when it exists. -/
def Database.columnNames (db : Database) : Option (List String) :=
  db.executionLogs.map Table.columnNames

/-- A row without the structured columns. -/
def Row.legacy (row : Row) : Row := fun column =>
  if column ∈ structuredColumns then .null else row column

/-- The rows of `execution_logs` without the structured columns. -/
def Database.legacyRows (db : Database) : List Row :=
  match db.executionLogs with
  | some table => table.rows.map Row.legacy
  | none => []

/-- A database by its recorded revisions, its columns and its rows. -/
structure Shape (revisions : List String) (columns : Option (List String)) (rows : List Row)
    (db : Database) : Prop where
  revisions_eq : db.revisions = some revisions
  columns_eq : db.columnNames = columns
  rows_eq : db.legacyRows = rows

theorem Row.legacy_update {row : Row} {column : String} (hcolumn : column ∈ structuredColumns) :
    Row.legacy (Function.update row column .null) = row.legacy := by
  funext c
  by_cases hc : c ∈ structuredColumns
  · rw [Row.legacy, Row.legacy, if_pos hc, if_pos hc]
  · have hne : c ≠ column := fun heq => hc (heq ▸ hcolumn)
    rw [Row.legacy, Row.legacy, if_neg hc, if_neg hc, Function.update_of_ne hne]

theorem legacy_backfillRow (row : Row) : (backfillRow row).legacy = row.legacy := by
  funext c
  by_cases hc : c ∈ structuredColumns
  · rw [Row.legacy, Row.legacy, if_pos hc, if_pos hc]
  · rw [Row.legacy, Row.legacy, if_neg hc, if_neg hc, backfillRow]
    -- every column that the update writes is a structured one
    simp only [structuredColumns, List.mem_cons, not_or] at hc
    simp [hc]

section Statements

variable {revisions : List String} {columns : Option (List String)} {rows : List Row}
  {names : List String}

theorem holds_hasTable : Holds (Shape revisions columns rows) hasTable fun found db =>
    found = columns.isSome ∧ Shape revisions columns rows db := by
  refine holds_query fun db found hdb hfound => ⟨?_, hdb⟩
  rw [← hdb.columns_eq, Database.columnNames, Option.isSome_map]
  exact (Option.some.inj hfound).symm

theorem holds_getColumns : Holds (Shape revisions columns rows) getColumns fun existing db =>
    columns = some existing ∧ Shape revisions columns rows db := by
  refine holds_query fun db existing hdb hexisting => ⟨?_, hdb⟩
  rw [← hdb.columns_eq]
  exact hexisting

theorem holds_selectRevisions : Holds (Shape revisions columns rows) selectRevisions
    fun applied db => applied = revisions ∧ Shape revisions columns rows db := by
  refine holds_query fun db applied hdb happlied => ⟨?_, hdb⟩
  rw [hdb.revisions_eq] at happlied
  exact (Option.some.inj happlied).symm

theorem holds_insertRevision {revision : String} :
    Holds (Shape revisions columns rows) (execute Failure.statement (insertRevision revision))
      fun _ => Shape (revisions ++ [revision]) columns rows := by
  refine holds_execute fun db db' hdb hrun => ?_
  rw [insertRevision, hdb.revisions_eq] at hrun
  show Shape _ _ _ db'
  by_cases hmem : revision ∈ revisions
  · simp [hmem] at hrun
  · obtain rfl : _ = db' := by simpa [hmem] using hrun
    exact ⟨rfl, hdb.columns_eq, hdb.rows_eq⟩

theorem holds_deleteRevision {revision : String} :
    Holds (Shape revisions columns rows) (execute Failure.statement (deleteRevision revision))
      fun _ => Shape (revisions.filter (· ≠ revision)) columns rows := by
  refine holds_execute fun db db' hdb hrun => ?_
  rw [deleteRevision, hdb.revisions_eq] at hrun
  obtain rfl := Option.some.inj hrun
  exact ⟨rfl, hdb.columns_eq, hdb.rows_eq⟩

theorem holds_createExecutionLogs {created : List Column} :
    Holds (Shape revisions none rows) (execute Failure.statement (createExecutionLogs created))
      fun _ => Shape revisions (some (created.map (·.name))) rows := by
  refine holds_execute fun db db' hdb hrun => ?_
  have htable : db.executionLogs = none := Option.map_eq_none_iff.1 hdb.columns_eq
  rw [createExecutionLogs, htable, if_neg (by simp)] at hrun
  obtain rfl := Option.some.inj hrun
  refine ⟨hdb.revisions_eq, rfl, ?_⟩
  -- there were no rows without the table either
  rw [← hdb.rows_eq, Database.legacyRows, Database.legacyRows, htable]
  rfl

theorem holds_dropExecutionLogs :
    Holds (Shape revisions columns rows) (execute Failure.statement dropExecutionLogs)
      fun _ => Shape revisions none [] := by
  refine holds_execute fun db db' hdb hrun => ?_
  rw [dropExecutionLogs] at hrun
  split at hrun
  · obtain rfl := Option.some.inj hrun
    exact ⟨hdb.revisions_eq, rfl, rfl⟩
  · cases hrun

/-- A statement on the table is known by what it does to columns and rows. -/
theorem holds_onExecutionLogs {f : Table → Option Table} {names' : List String}
    (hcolumns : ∀ table table', table.columnNames = names → f table = some table' →
      table'.columnNames = names')
    (hrows : ∀ table table', f table = some table' →
      table'.rows.map Row.legacy = table.rows.map Row.legacy) :
    Holds (Shape revisions (some names) rows) (execute Failure.statement (onExecutionLogs f))
      fun _ => Shape revisions (some names') rows := by
  refine holds_execute fun db db' hdb hrun => ?_
  obtain ⟨table, htable, hnames⟩ := Option.map_eq_some_iff.1 hdb.columns_eq
  have hrows_eq := hdb.rows_eq
  rw [Database.legacyRows, htable] at hrows_eq
  rw [onExecutionLogs, htable] at hrun
  obtain ⟨_, hsame, hrun'⟩ := Option.bind_eq_some_iff.1 hrun
  obtain rfl := Option.some.inj hsame
  obtain ⟨table', htable', hdb'⟩ := Option.bind_eq_some_iff.1 hrun'
  obtain rfl := Option.some.inj hdb'
  refine ⟨hdb.revisions_eq, congrArg some (hcolumns table table' hnames htable'), ?_⟩
  show table'.rows.map Row.legacy = rows
  rw [hrows table table' htable', ← hrows_eq]

theorem holds_createIndex {name : String} :
    Holds (Shape revisions (some names) rows)
      (execute Failure.statement (onExecutionLogs (createIndex name)))
      fun _ => Shape revisions (some names) rows := by
  refine holds_onExecutionLogs ?_ ?_
  · intro table table' hnames hrun
    rw [createIndex] at hrun
    split at hrun
    · cases hrun
    · obtain rfl := Option.some.inj hrun
      exact hnames
  · intro table table' hrun
    rw [createIndex] at hrun
    split at hrun
    · cases hrun
    · obtain rfl := Option.some.inj hrun
      rfl

/-- Rows that are set to `NULL` in a structured column are the same without it. -/
theorem legacy_map_update {column : String} (hcolumn : column ∈ structuredColumns)
    (rows : List Row) :
    (rows.map fun row => Function.update row column .null).map Row.legacy =
      rows.map Row.legacy := by
  rw [List.map_map]
  exact List.map_congr_left fun row _ => Row.legacy_update hcolumn

theorem holds_addColumn {name sqlType : String} (hname : name ∈ structuredColumns) :
    Holds (Shape revisions (some names) rows)
      (execute Failure.statement (onExecutionLogs (addColumn name sqlType)))
      fun _ => Shape revisions (some (names ++ [name])) rows := by
  refine holds_onExecutionLogs ?_ ?_
  · intro table table' hnames hrun
    rw [addColumn] at hrun
    split at hrun
    · cases hrun
    · obtain rfl := Option.some.inj hrun
      rw [Table.columnNames] at hnames
      rw [Table.columnNames, List.map_append, hnames]
      rfl
  · intro table table' hrun
    rw [addColumn] at hrun
    split at hrun
    · cases hrun
    · obtain rfl := Option.some.inj hrun
      exact legacy_map_update hname table.rows

theorem holds_dropColumn {name : String} (hname : name ∈ structuredColumns) :
    Holds (Shape revisions (some names) rows)
      (execute Failure.statement (onExecutionLogs (dropColumn name)))
      fun _ => Shape revisions (some (names.filter (· ≠ name))) rows := by
  refine holds_onExecutionLogs ?_ ?_
  · intro table table' hnames hrun
    rw [dropColumn] at hrun
    split at hrun
    · obtain rfl := Option.some.inj hrun
      rw [← hnames, Table.columnNames, Table.columnNames, List.filter_map]
      rfl
    · cases hrun
  · intro table table' hrun
    rw [dropColumn] at hrun
    split at hrun
    · obtain rfl := Option.some.inj hrun
      exact legacy_map_update hname table.rows
    · cases hrun

theorem holds_setNotNull {name : String} :
    Holds (Shape revisions (some names) rows)
      (execute Failure.statement (onExecutionLogs (setNotNull name)))
      fun _ => Shape revisions (some names) rows := by
  refine holds_onExecutionLogs ?_ ?_
  · intro table table' hnames hrun
    rw [setNotNull] at hrun
    split at hrun
    · obtain rfl := Option.some.inj hrun
      rw [← hnames, Table.columnNames, Table.columnNames, List.map_map]
      refine List.map_congr_left fun column _ => ?_
      by_cases hcolumn : column.name = name
      · simp [hcolumn]
      · simp [hcolumn]
    · cases hrun
  · intro table table' hrun
    rw [setNotNull] at hrun
    split at hrun
    · obtain rfl := Option.some.inj hrun
      rfl
    · cases hrun

theorem holds_backfill :
    Holds (Shape revisions (some names) rows) (execute Failure.statement (onExecutionLogs backfill))
      fun _ => Shape revisions (some names) rows := by
  refine holds_onExecutionLogs ?_ ?_
  · intro table table' hnames hrun
    rw [backfill] at hrun
    split at hrun
    · obtain rfl := Option.some.inj hrun
      exact hnames
    · cases hrun
  · intro table table' hrun
    rw [backfill] at hrun
    split at hrun
    · obtain rfl := Option.some.inj hrun
      rw [List.map_map]
      exact List.map_congr_left fun row _ => legacy_backfillRow row
    · cases hrun

/-- The loop that adds columns. -/
theorem holds_addColumns {statements : List (String × String)}
    (hstatements : ∀ c ∈ statements, c.1 ∈ structuredColumns) :
    Holds (Shape revisions (some names) rows)
      (forEach (fun c => execute Failure.statement (onExecutionLogs (addColumn c.1 c.2)))
        statements)
      fun _ => Shape revisions (some (names ++ statements.map Prod.fst)) rows := by
  induction statements generalizing names with
  | nil =>
    rw [List.map_nil, List.append_nil]
    exact holds_pure fun _ hdb => hdb
  | cons c statements ih =>
    have hc := hstatements c List.mem_cons_self
    refine (holds_addColumn hc).bind fun _ => ?_
    rw [List.map_cons, List.append_cons names c.1 (statements.map Prod.fst)]
    exact ih fun c' hc' => hstatements c' (List.mem_cons_of_mem c hc')

/-- The loop that drops columns. -/
theorem holds_dropColumns {dropped : List String}
    (hdropped : ∀ c ∈ dropped, c ∈ structuredColumns) :
    Holds (Shape revisions (some names) rows)
      (forEach (fun column => execute Failure.statement (onExecutionLogs (dropColumn column)))
        dropped)
      fun _ => Shape revisions (some (names.filter (· ∉ dropped))) rows := by
  induction dropped generalizing names with
  | nil =>
    refine holds_pure fun db hdb => ?_
    have hall : names.filter (· ∉ ([] : List String)) = names :=
      List.filter_eq_self.2 fun name _ => by simp
    rw [hall]
    exact hdb
  | cons c dropped ih =>
    have hc := hdropped c List.mem_cons_self
    refine (holds_dropColumn hc).bind fun _ => ?_
    have hrest : names.filter (· ∉ c :: dropped) =
        (names.filter (· ≠ c)).filter (· ∉ dropped) := by
      rw [List.filter_filter]
      refine List.filter_congr fun name _ => ?_
      simp [not_or, Bool.and_comm]
    rw [hrest]
    exact ih fun c' hc' => hdropped c' (List.mem_cons_of_mem c hc')

end Statements

/-! ### What each migration does -/

section Migrations

variable {revisions : List String} {rows : List Row} {names : List String}

/-- The names of the columns of the first migration. -/
def legacyNames : List String := legacyColumns.map (·.name)

theorem holds_upgradeLegacy : Holds (Shape revisions none rows) upgradeLegacy
    fun _ => Shape revisions (some legacyNames) rows := by
  refine holds_hasTable.bind fun found => holds_and fun hfound => ?_
  rw [hfound, if_neg (by simp)]
  refine holds_createExecutionLogs.bind fun _ => ?_
  exact holds_forEach fun name _ => holds_createIndex

theorem holds_downgradeLegacy : Holds (Shape revisions (some names) rows) downgradeLegacy
    fun _ => Shape revisions none [] := by
  refine holds_hasTable.bind fun found => holds_and fun hfound => ?_
  rw [hfound, if_pos (by simp)]
  exact holds_dropExecutionLogs

theorem holds_upgradeStructured {postgresql : Bool} :
    Holds (Shape revisions (some names) rows) (upgradeStructured postgresql)
      fun _ => Shape revisions (some (names ++ structuredColumns)) rows := by
  refine holds_getColumns.bind fun existing => holds_and fun _ => ?_
  refine holds_ite (fun _ => holds_throw) fun _ => ?_
  have hadded : ∀ c ∈ addColumnStatements, c.1 ∈ structuredColumns := by decide
  refine (holds_addColumns hadded).bind fun _ => ?_
  refine holds_backfill.bind fun _ => ?_
  refine holds_ite (fun _ => ?_) fun _ => holds_pure fun _ hdb => hdb
  exact holds_forEach fun name _ => holds_setNotNull

theorem holds_downgradeStructured :
    Holds (Shape revisions (some names) rows) downgradeStructured
      fun _ => Shape revisions (some (names.filter (· ∉ structuredColumns))) rows := by
  refine holds_getColumns.bind fun existing => holds_and fun _ => ?_
  refine holds_ite (fun _ => holds_throw) fun _ => ?_
  have hreverse : names.filter (· ∉ structuredColumns) =
      names.filter (· ∉ structuredColumns.reverse) := by
    refine List.filter_congr fun name _ => ?_
    simp only [List.mem_reverse]
  rw [hreverse]
  exact holds_dropColumns fun c hc => List.mem_reverse.1 hc

end Migrations

/-! ### Levels -/

/-- The columns after the first `k` migrations. -/
structure ColumnsAt (k : ℕ) (columns : Option (List String)) : Prop where
  table : columns.isSome ↔ 1 ≤ k
  structured : ∀ names ∈ columns, ∀ column ∈ structuredColumns, column ∈ names ↔ 2 ≤ k

/-- The first `k` migrations are recorded and done; on the way to `desired`
migrations, the rows are lost only when none is desired. -/
def Level (desired : ℕ) (rows : List Row) (k : ℕ) (db : Database) : Prop :=
  ∃ columns rows', (ColumnsAt k columns ∧ (0 < desired → rows' = rows)) ∧
    Shape (knownRevisions.take k) columns rows' db

theorem ColumnsAt.eq_none {columns : Option (List String)} (h : ColumnsAt 0 columns) :
    columns = none := by
  cases columns with
  | none => rfl
  | some names => exact absurd (h.table.1 rfl) (by omega)

theorem ColumnsAt.eq_some {k : ℕ} {columns : Option (List String)} (h : ColumnsAt (k + 1) columns) :
    ∃ names, columns = some names :=
  Option.isSome_iff_exists.1 (h.table.2 (by omega))

theorem columnsAt_legacy {names : List String} (h : ∀ column ∈ structuredColumns, column ∉ names) :
    ColumnsAt 1 (some names) := by
  refine ⟨by simp, fun names' hnames column hcolumn => ?_⟩
  obtain rfl := Option.some.inj hnames
  exact iff_of_false (h column hcolumn) (by omega)

theorem columnsAt_none : ColumnsAt 0 none :=
  ⟨by simp, fun _ hnames => by cases hnames⟩

section Loops

variable {desired : ℕ} {rows : List Row} {postgresql : Bool}

/-- Going up: the migration at place `i` leads from level `i` to the next. -/
theorem holds_upgradeOne (i : ℕ) (hi : i < (migrations postgresql).length) :
    Holds (Level desired rows i) (upgradeOne (migrations postgresql)[i])
      fun _ => Level desired rows (i + 1) := by
  refine holds_exists fun columns => holds_exists fun rows' => holds_and fun hlevel => ?_
  obtain ⟨hcolumns, hrows⟩ := hlevel
  rcases i with _ | _ | i
  · obtain rfl := hcolumns.eq_none
    refine Holds.bind holds_upgradeLegacy fun _ => ?_
    refine holds_insertRevision.weaken (fun _ hdb => hdb) fun _ db hdb => ?_
    exact ⟨_, rows', ⟨columnsAt_legacy (by decide), hrows⟩, hdb⟩
  · obtain ⟨names, rfl⟩ := hcolumns.eq_some
    refine Holds.bind holds_upgradeStructured fun _ => ?_
    refine holds_insertRevision.weaken (fun _ hdb => hdb) fun _ db hdb => ?_
    refine ⟨_, rows', ⟨⟨by simp, fun names' hnames column hcolumn => ?_⟩, hrows⟩, hdb⟩
    obtain rfl := Option.some.inj hnames
    exact iff_of_true (List.mem_append_right names hcolumn) (by omega)
  · exact absurd hi (by simp [migrations])

/-- Going down: the migration at place `i` leads back to level `i`. -/
theorem holds_downgradeOne (i : ℕ) (hi : i < (migrations postgresql).length)
    (hdesired : desired ≤ i) :
    Holds (Level desired rows (i + 1)) (downgradeOne (migrations postgresql)[i])
      fun _ => Level desired rows i := by
  refine holds_exists fun columns => holds_exists fun rows' => holds_and fun hlevel => ?_
  obtain ⟨hcolumns, hrows⟩ := hlevel
  obtain ⟨names, rfl⟩ := hcolumns.eq_some
  rcases i with _ | _ | i
  · refine Holds.bind holds_downgradeLegacy fun _ => ?_
    refine holds_deleteRevision.weaken (fun _ hdb => hdb) fun _ db hdb => ?_
    -- the table goes with its rows, and no migration is desired
    exact ⟨none, [], ⟨columnsAt_none, fun hpos => absurd hpos (by omega)⟩, hdb⟩
  · refine Holds.bind holds_downgradeStructured fun _ => ?_
    refine holds_deleteRevision.weaken (fun _ hdb => hdb) fun _ db hdb => ?_
    refine ⟨_, rows', ⟨columnsAt_legacy fun column hcolumn hmem => ?_, hrows⟩, hdb⟩
    have hnot := (List.mem_filter.1 hmem).2
    simp [hcolumn] at hnot
  · exact absurd hi (by simp [migrations])

theorem holds_moveTo {applied : ℕ} (happlied : applied ≤ knownRevisions.length)
    (hdesired : desired ≤ knownRevisions.length) :
    Holds (Level desired rows applied) (moveTo postgresql applied desired)
      fun _ => Level desired rows desired := by
  refine holds_ite (fun hlt => ?_) fun hle => holds_ite (fun hlt => ?_) fun hge => ?_
  · exact holds_climb holds_upgradeOne (by omega) hdesired
  · exact holds_descend holds_downgradeOne (by omega) happlied
  · obtain rfl : applied = desired := by omega
    exact holds_pure fun _ hdb => hdb

end Loops

/-! ### One call -/

/-- Nothing is recorded, and `execution_logs` is missing or a legacy table. -/
structure Unversioned (db : Database) : Prop where
  unrecorded : db.recorded = []
  required : ∀ table ∈ db.executionLogs,
    ∀ column ∈ requiredLegacyColumns, column ∈ table.columnNames
  unstructured : ∀ table ∈ db.executionLogs,
    ∀ column ∈ structuredColumns, column ∉ table.columnNames

/-- The first `k` migrations are recorded and done. -/
structure Migrated (k : ℕ) (db : Database) : Prop where
  known : k ≤ knownRevisions.length
  recorded : db.revisions = some (knownRevisions.take k)
  columns : ColumnsAt k db.columnNames

/-- What `createMigrationTable` meets. -/
structure Unshaped (revisions : List String) (columns : Option (List String)) (rows : List Row)
    (db : Database) : Prop where
  recorded_eq : db.recorded = revisions
  columns_eq : db.columnNames = columns
  rows_eq : db.legacyRows = rows

section Call

variable {revisions : List String} {columns : Option (List String)} {rows : List Row}
  {postgresql : Bool} {target : String}

theorem holds_acquireMigrationLock {P : Database → Prop} :
    Holds P (acquireMigrationLock postgresql) fun _ => P := by
  refine holds_ite (fun _ => holds_execute fun db db' hdb hrun => ?_)
    fun _ => holds_pure fun _ hdb => hdb
  obtain rfl := Option.some.inj hrun
  exact hdb

theorem holds_createMigrationTable : Holds (Unshaped revisions columns rows) createMigrationTable
    fun _ => Shape revisions columns rows := by
  have hfound : Holds (Unshaped revisions columns rows)
      (query Failure.statement fun db => some db.revisions.isSome) fun found db =>
        (found = true → db.revisions.isSome) ∧ Unshaped revisions columns rows db := by
    refine holds_query fun db found hdb hrun => ⟨fun htrue => ?_, hdb⟩
    rw [← htrue]
    exact Option.some.inj hrun
  refine hfound.bind fun found => holds_ite (fun htrue => ?_) fun _ => ?_
  · refine holds_pure fun db hdb => ⟨?_, hdb.2.columns_eq, hdb.2.rows_eq⟩
    obtain ⟨recorded, hrecorded⟩ := Option.isSome_iff_exists.1 (hdb.1 htrue)
    have heq := hdb.2.recorded_eq
    rw [Database.recorded, hrecorded] at heq
    rw [hrecorded, ← heq]
    rfl
  · refine holds_execute fun db db' hdb hrun => ?_
    have heq := hdb.2.recorded_eq
    rw [Database.recorded] at heq
    rw [createRevisions] at hrun
    cases hrevisions : db.revisions with
    | some recorded => simp [hrevisions] at hrun
    | none =>
      rw [hrevisions] at hrun heq
      obtain rfl := Option.some.inj hrun
      exact ⟨congrArg some heq, hdb.2.columns_eq, hdb.2.rows_eq⟩

theorem length_take_knownRevisions {k : ℕ} (hk : k ≤ knownRevisions.length) :
    (knownRevisions.take k).length = k := by
  rw [List.length_take]
  omega

/-- After the stamp some first migrations are recorded and done. -/
theorem holds_stamp_unversioned (hrequired : ∀ names ∈ columns,
      (∀ column ∈ requiredLegacyColumns, column ∈ names) ∧
        ∀ column ∈ structuredColumns, column ∉ names) :
    Holds (Shape [] columns rows) stampUnversionedLegacyDatabase fun _ db =>
      ∃ k columns, (k ≤ knownRevisions.length ∧ ColumnsAt k columns) ∧
        Shape (knownRevisions.take k) columns rows db := by
  refine holds_selectRevisions.bind fun applied => holds_and fun happlied => ?_
  rw [happlied, if_neg (by simp)]
  cases columns with
  | none =>
    -- an empty database, in which there is nothing to stamp
    have hcolumns : Holds (Shape [] none rows) legacyExecutionLogColumns fun columns db =>
        columns = [] ∧ Shape [] none rows db := by
      refine holds_hasTable.bind fun found => holds_and fun hfound => ?_
      rw [hfound, if_neg (by simp)]
      exact holds_pure fun _ hdb => ⟨rfl, hdb⟩
    refine hcolumns.bind fun columns => holds_and fun hnone => ?_
    rw [if_pos hnone]
    exact holds_pure fun db hdb => ⟨0, none, ⟨by omega, columnsAt_none⟩, hdb⟩
  | some names =>
    have hcolumns : Holds (Shape [] (some names) rows) legacyExecutionLogColumns fun columns db =>
        columns = names ∧ Shape [] (some names) rows db := by
      refine holds_hasTable.bind fun found => holds_and fun hfound => ?_
      rw [hfound, if_pos (by simp)]
      exact holds_getColumns.weaken (fun _ hdb => hdb)
        fun _ _ hdb => ⟨(Option.some.inj hdb.1).symm, hdb.2⟩
    refine hcolumns.bind fun columns => holds_and fun hnames => ?_
    obtain ⟨hlegacy, hstructured⟩ := hrequired names rfl
    have hne : columns ≠ [] := by
      rintro rfl
      rw [← hnames] at hlegacy
      exact absurd (hlegacy "id" (by decide)) (by simp)
    rw [if_neg hne]
    refine holds_ite (fun _ => holds_throw) fun _ => holds_ite (fun _ => holds_throw) fun _ => ?_
    refine holds_insertRevision.weaken (fun _ hdb => hdb) fun _ db hdb => ?_
    exact ⟨1, some names, ⟨by decide, columnsAt_legacy hstructured⟩, hdb⟩

theorem holds_stamp_versioned {k : ℕ} (hk : 0 < k) :
    Holds (Shape (knownRevisions.take k) columns rows) stampUnversionedLegacyDatabase
      fun _ => Shape (knownRevisions.take k) columns rows := by
  refine holds_selectRevisions.bind fun applied => holds_and fun happlied => ?_
  have hne : applied ≠ [] := by
    rw [happlied]
    obtain ⟨k, rfl⟩ := Nat.exists_eq_add_one.2 hk
    simp [knownRevisions]
  rw [if_pos hne]
  exact holds_pure fun _ hdb => hdb

theorem filter_knownRevisions {k : ℕ} (hk : k ≤ knownRevisions.length) :
    knownRevisions.filter (· ∈ knownRevisions.take k) = knownRevisions.take k := by
  have hall : ∀ k ≤ 2, knownRevisions.filter (· ∈ knownRevisions.take k) =
      knownRevisions.take k := by decide
  exact hall k hk

theorem holds_appliedRevisions {k : ℕ} (hk : k ≤ knownRevisions.length) :
    Holds (Shape (knownRevisions.take k) columns rows) appliedRevisions fun applied db =>
      applied = knownRevisions.take k ∧ Shape (knownRevisions.take k) columns rows db := by
  refine holds_selectRevisions.bind fun applied => holds_and fun happlied => ?_
  refine holds_ite (fun _ => holds_throw) fun _ => holds_ite (fun _ => holds_throw) fun _ => ?_
  rw [happlied, filter_knownRevisions hk]
  exact holds_pure fun _ hdb => ⟨rfl, hdb⟩

theorem targetCount_le {count : ℕ} (h : targetCount target = .ok count) :
    count ≤ knownRevisions.length := by
  rw [targetCount] at h
  split at h
  · cases h
    omega
  · split at h
    · cases h
      omega
    · split at h
      · next hmem =>
        cases h
        exact List.idxOf_lt_length_of_mem hmem
      · cases h

theorem targetCount_pos {count : ℕ} (h : targetCount target = .ok count)
    (hbase : target ≠ baseRevision) : 0 < count := by
  rw [targetCount, if_neg hbase] at h
  split at h
  · cases h
    decide
  · split at h
    · cases h
      omega
    · cases h

/-- What a call can start from: an unversioned database, or what an earlier call
has left. -/
def Startable (db : Database) : Prop := Unversioned db ∨ ∃ k, Migrated k db

/-- The stamp, whatever the call has started from. -/
theorem holds_stampUnversionedLegacyDatabase {start : Database} (hstart : Startable start) :
    Holds (Shape start.recorded start.columnNames start.legacyRows)
      stampUnversionedLegacyDatabase fun _ db =>
      ∃ k columns, (k ≤ knownRevisions.length ∧ ColumnsAt k columns) ∧
        Shape (knownRevisions.take k) columns start.legacyRows db := by
  rcases hstart with hdb | ⟨k, hdb⟩
  · rw [hdb.unrecorded]
    refine holds_stamp_unversioned fun names hnames => ?_
    obtain ⟨table, htable, hnames⟩ := Option.map_eq_some_iff.1 hnames
    rw [← hnames]
    exact ⟨hdb.required table htable, hdb.unstructured table htable⟩
  · rw [Database.recorded, hdb.recorded, Option.getD_some]
    rcases Nat.eq_zero_or_pos k with rfl | hk
    · -- after a downgrade to the base there is no table
      refine holds_stamp_unversioned fun names hnames => ?_
      rw [hdb.columns.eq_none] at hnames
      cases hnames
    · exact (holds_stamp_versioned hk).weaken (fun _ hdb => hdb)
        fun _ db' hdb' => ⟨k, _, ⟨hdb.known, hdb.columns⟩, hdb'⟩

/-- A call that ends well leaves as many migrations as its target says. -/
theorem holds_migrateTransaction {start : Database} (hstart : Startable start) :
    Holds (Unshaped start.recorded start.columnNames start.legacyRows)
      (migrateTransaction postgresql target) fun applied db =>
      ∃ count, targetCount target = .ok count ∧ applied = knownRevisions.take count ∧
        Level count start.legacyRows count db := by
  refine holds_acquireMigrationLock.bind fun _ => ?_
  refine holds_createMigrationTable.bind fun _ => ?_
  refine (holds_stampUnversionedLegacyDatabase hstart).bind fun _ => ?_
  refine holds_exists fun k => holds_exists fun columns => holds_and fun hk => ?_
  obtain ⟨hk, hcolumns⟩ := hk
  refine (holds_appliedRevisions hk).bind fun applied => holds_and fun happlied => ?_
  rw [happlied, length_take_knownRevisions hk]
  cases htarget : targetCount target with
  | error error => exact holds_throw
  | ok count =>
    have hcount := targetCount_le htarget
    refine Holds.bind (P := Shape (knownRevisions.take k) columns start.legacyRows)
      (Q := fun _ => Level count start.legacyRows count) ?_ fun _ => ?_
    · refine (holds_moveTo hk hcount).weaken (fun db hdb => ?_) fun _ _ hdb => hdb
      exact ⟨columns, start.legacyRows, ⟨hcolumns, fun _ => rfl⟩, hdb⟩
    · refine holds_exists fun columns => holds_exists fun rows => holds_and fun hlevel => ?_
      refine (holds_appliedRevisions hcount).weaken (fun _ hdb => hdb) fun applied db hdb => ?_
      exact ⟨count, rfl, hdb.1, columns, rows, hlevel, hdb.2⟩

theorem Migrated.of_level {count : ℕ} {db : Database} (hcount : count ≤ knownRevisions.length)
    (h : Level count rows count db) : Migrated count db := by
  obtain ⟨columns, rows', ⟨hcolumns, -⟩, hdb⟩ := h
  refine ⟨hcount, hdb.revisions_eq, ?_⟩
  rw [hdb.columns_eq]
  exact hcolumns

/-! ### A call again -/

theorem does_stamp {k : ℕ} {db : Database} (hdb : Migrated k db) :
    Does stampUnversionedLegacyDatabase db () db := by
  refine (does_query hdb.recorded).bind ?_
  rcases Nat.eq_zero_or_pos k with rfl | hk
  · -- nothing is recorded, and there is no table to stamp
    have htable : db.executionLogs = none := Option.map_eq_none_iff.1 hdb.columns.eq_none
    rw [if_neg (by simp)]
    have hcolumns : Does legacyExecutionLogColumns db [] db := by
      have hfound : Does hasTable db db.executionLogs.isSome db := does_query rfl
      refine hfound.bind ?_
      rw [htable, if_neg (by simp)]
      exact does_pure
    refine hcolumns.bind ?_
    rw [if_pos rfl]
    exact does_pure
  · obtain ⟨k, rfl⟩ := Nat.exists_eq_add_one.2 hk
    rw [if_pos (by simp [knownRevisions])]
    exact does_pure

theorem does_appliedRevisions {k : ℕ} {db : Database} (hdb : Migrated k db) :
    Does appliedRevisions db (knownRevisions.take k) db := by
  refine (does_query hdb.recorded).bind ?_
  have hknown : ¬ ∃ revision ∈ knownRevisions.take k, revision ∉ knownRevisions :=
    fun ⟨revision, hmem, hunknown⟩ => hunknown (List.mem_of_mem_take hmem)
  rw [if_neg hknown, filter_knownRevisions hdb.known, length_take_knownRevisions hdb.known,
    if_neg (by simp)]
  exact does_pure

/-- A call moves a migrated database to its target when the loops do. -/
theorem does_migrateTransaction {k count : ℕ} {db db' : Database}
    (htarget : targetCount target = .ok count) (hdb : Migrated k db)
    (hmove : Does (moveTo postgresql k count) db () db') (hdb' : Migrated count db') :
    Does (migrateTransaction postgresql target) db (knownRevisions.take count) db' := by
  have hlock : Does (acquireMigrationLock postgresql) db () db := by
    cases postgresql with
    | true => exact does_execute rfl
    | false => exact does_pure
  have hcreate : Does createMigrationTable db () db := by
    have hfound : Does (query Failure.statement fun db : Database => some db.revisions.isSome)
        db db.revisions.isSome db := does_query rfl
    refine hfound.bind ?_
    rw [hdb.recorded, if_pos (by simp)]
    exact does_pure
  refine hlock.bind (hcreate.bind ((does_stamp hdb).bind ?_))
  refine (does_appliedRevisions hdb).bind ?_
  rw [length_take_knownRevisions hdb.known, htarget]
  exact hmove.bind (does_appliedRevisions hdb')

theorem does_again {count : ℕ} {db : Database} (htarget : targetCount target = .ok count)
    (hdb : Migrated count db) :
    Does (migrateTransaction postgresql target) db (knownRevisions.take count) db := by
  refine does_migrateTransaction htarget hdb ?_ hdb
  rw [moveTo, if_neg (Nat.lt_irrefl count), if_neg (Nat.lt_irrefl count)]
  exact does_pure

theorem migrateDatabase_error {faults : ℕ → Bool} {db : Database} {error : DatabaseMigrationError}
    (h : (migrateDatabase postgresql faults target db).1 = .error error) :
    (migrateDatabase postgresql faults target db).2 = db := by
  rw [migrateDatabase] at h ⊢
  cases hout : (commit .statement (migrateTransaction postgresql target) faults db).1 with
  | error failure => exact commit_error hout
  | ok applied =>
    rw [hout] at h
    cases h

theorem migrateDatabase_ok {faults : ℕ → Bool} {db : Database} {applied : List String}
    (hdb : Startable db) (h : (migrateDatabase postgresql faults target db).1 = .ok applied) :
    ∃ count, targetCount target = .ok count ∧ applied = knownRevisions.take count ∧
      Level count db.legacyRows count (migrateDatabase postgresql faults target db).2 := by
  rw [migrateDatabase] at h ⊢
  cases hout : (commit .statement (migrateTransaction postgresql target) faults db).1 with
  | error failure =>
    rw [hout] at h
    cases h
  | ok applied' =>
    rw [hout] at h
    cases h
    exact commit_ok (holds_migrateTransaction hdb) ⟨rfl, rfl, rfl⟩ hout

theorem migrateDatabase_again {count : ℕ} {faults : ℕ → Bool} {db : Database}
    (htarget : targetCount target = .ok count) (hdb : Migrated count db) :
    migrateDatabase postgresql faults target db = (.ok (knownRevisions.take count), db) ∨
      ((∃ n, faults n = true) ∧
        ∃ error, migrateDatabase postgresql faults target db = (.error error, db)) := by
  rw [migrateDatabase]
  rcases commit_does (does_again htarget hdb) with hout | ⟨hfaults, failure, hout⟩
  · rw [hout]
    exact .inl rfl
  · rw [hout]
    exact .inr ⟨hfaults, failure.raised target, rfl⟩

end Call

/-! ### Sequences of calls -/

/-- The databases that calls lead to, and whether one of them has succeeded. -/
inductive Reached (postgresql : Bool) (start : Database) : Bool → Database → Prop
  | start : Reached postgresql start false start
  | call {succeeded : Bool} {db : Database} (h : Reached postgresql start succeeded db)
      (faults : ℕ → Bool) (target : String) :
      Reached postgresql start
        (succeeded || (migrateDatabase postgresql faults target db).1.isOk)
        (migrateDatabase postgresql faults target db).2

/-- Schema and recorded revisions are in step. -/
structure InStep (db : Database) : Prop where
  recorded : db.recorded <+: knownRevisions
  table : db.executionLogs.isSome ↔ legacyRevision ∈ db.recorded
  structured : structuredRevision ∈ db.recorded → ∀ table ∈ db.executionLogs,
    ∀ column ∈ structuredColumns, column ∈ table.columnNames
  unstructured : structuredRevision ∉ db.recorded → ∀ table ∈ db.executionLogs,
    ∀ column ∈ structuredColumns, column ∉ table.columnNames

theorem legacyRevision_mem {k : ℕ} : legacyRevision ∈ knownRevisions.take k ↔ 1 ≤ k := by
  rcases k with _ | k
  · simp
  · simp [knownRevisions]

theorem structuredRevision_mem {k : ℕ} : structuredRevision ∈ knownRevisions.take k ↔ 2 ≤ k := by
  rcases k with _ | _ | k
  · simp
  · simp [knownRevisions, structuredRevision, legacyRevision]
  · simp [knownRevisions]

theorem Migrated.inStep {k : ℕ} {db : Database} (h : Migrated k db) : InStep db := by
  have hrecorded : db.recorded = knownRevisions.take k := by
    rw [Database.recorded, h.recorded, Option.getD_some]
  have hcolumns : ∀ table ∈ db.executionLogs, ∀ column ∈ structuredColumns,
      (column ∈ table.columnNames ↔ 2 ≤ k) := by
    intro table htable
    exact h.columns.structured _ (Option.map_eq_some_iff.2 ⟨table, htable, rfl⟩)
  refine ⟨?_, ?_, ?_, ?_⟩
  · rw [hrecorded]
    exact List.take_prefix k knownRevisions
  · rw [hrecorded, legacyRevision_mem, ← h.columns.table, Database.columnNames, Option.isSome_map]
  · intro hmem table htable column hcolumn
    rw [hrecorded, structuredRevision_mem] at hmem
    exact (hcolumns table htable column hcolumn).2 hmem
  · intro hmem table htable column hcolumn hfound
    rw [hrecorded, structuredRevision_mem] at hmem
    exact hmem ((hcolumns table htable column hcolumn).1 hfound)

section Runs

variable {postgresql : Bool} {start db : Database} {succeeded : Bool}

theorem Startable.migrateDatabase {faults : ℕ → Bool} {target : String} (hdb : Startable db)
    (h : (migrateDatabase postgresql faults target db).1.isOk = true) :
    ∃ k, Migrated k (migrateDatabase postgresql faults target db).2 := by
  cases hout : (DatabaseMigrations.migrateDatabase postgresql faults target db).1 with
  | error error =>
    rw [hout] at h
    cases h
  | ok applied =>
    obtain ⟨count, htarget, -, hlevel⟩ := migrateDatabase_ok hdb hout
    exact ⟨count, Migrated.of_level (targetCount_le htarget) hlevel⟩

/-- Up to the first success the database is the one of the start, and from then on
the recorded migrations are done. -/
theorem Reached.migrated (h : Reached postgresql start succeeded db) (hstart : Unversioned start) :
    (succeeded = false → db = start) ∧ (succeeded = true → ∃ k, Migrated k db) := by
  induction h with
  | start => exact ⟨fun _ => rfl, fun h => absurd h (by simp)⟩
  | @call succeeded db h faults target ih =>
    have hdb : Startable db := by
      cases succeeded with
      | false => exact .inl (ih.1 rfl ▸ hstart)
      | true => exact .inr (ih.2 rfl)
    cases hout : (migrateDatabase postgresql faults target db).1.isOk with
    | true =>
      rw [Bool.or_true]
      exact ⟨fun h => absurd h (by simp), fun _ => hdb.migrateDatabase hout⟩
    | false =>
      have hsame : (migrateDatabase postgresql faults target db).2 = db := by
        cases herror : (migrateDatabase postgresql faults target db).1 with
        | error error => exact migrateDatabase_error herror
        | ok applied =>
          rw [herror] at hout
          cases hout
      rw [Bool.or_false, hsame]
      exact ih

theorem Reached.startable (h : Reached postgresql start succeeded db)
    (hstart : Unversioned start) : Startable db := by
  have hmigrated := h.migrated hstart
  cases succeeded with
  | false => exact .inl (hmigrated.1 rfl ▸ hstart)
  | true => exact .inr (hmigrated.2 rfl)

/-- Schema, rows and recorded revisions stay in step in every sequence of calls. -/
theorem migrations_in_step (hstart : Unversioned start)
    (hreached : Reached postgresql start succeeded db) :
    (succeeded = true → InStep db) ∧ ∀ faults target db',
      (∀ error, migrateDatabase postgresql faults target db = (.error error, db') → db' = db) ∧
      ∀ applied, migrateDatabase postgresql faults target db = (.ok applied, db') →
        (∃ count, targetCount target = .ok count ∧ applied = knownRevisions.take count) ∧
        db'.recorded = applied ∧ InStep db' ∧
        (target ≠ baseRevision → db'.legacyRows = db.legacyRows) ∧
        migrateDatabase postgresql (fun _ => false) target db' = (.ok applied, db') ∧
        ∀ faults', (migrateDatabase postgresql faults' target db').2 = db' := by
  constructor
  · intro hsucceeded
    obtain ⟨k, hk⟩ := (hreached.migrated hstart).2 hsucceeded
    exact hk.inStep
  intro faults target db'
  have hdb := hreached.startable hstart
  constructor
  · intro error hout
    -- a failed migration is rolled back as a whole
    have hsame := @migrateDatabase_error postgresql target faults db error (by rw [hout])
    rwa [hout] at hsame
  · intro applied hout
    obtain ⟨count, htarget, happlied, hlevel⟩ :=
      @migrateDatabase_ok postgresql target faults db applied hdb (by rw [hout])
    rw [hout] at hlevel
    -- a database at a level is what the revisions recorded in it describe
    have hmigrated := Migrated.of_level (targetCount_le htarget) hlevel
    refine ⟨⟨count, htarget, happlied⟩, ?_, hmigrated.inStep, ?_, ?_, ?_⟩
    · rw [Database.recorded, hmigrated.recorded, happlied, Option.getD_some]
    · intro hbase
      -- the rows survive every level but the one without the table
      obtain ⟨columns, rows, ⟨-, hrows⟩, hshape⟩ := hlevel
      rw [hshape.rows_eq, hrows (targetCount_pos htarget hbase)]
    · rw [happlied]
      -- a second run has nothing to do, so only a fault could stop it
      rcases migrateDatabase_again htarget hmigrated with hagain | ⟨⟨n, hfault⟩, -⟩
      · exact hagain
      · cases hfault
    · intro faults'
      rcases migrateDatabase_again htarget hmigrated with hagain | ⟨-, error, hagain⟩
      · rw [hagain]
      · rw [hagain]

end Runs

/-- A legacy table with a row, in a database without versions. -/
def legacyDatabase : Database where
  revisions := none
  executionLogs := some {
    columns := legacyColumns
    indexes := legacyIndexes
    rows := [fun column => if column = "judge" then .text "1"
      else if column = "output" then .text "hello" else .null] }

theorem unversioned_legacyDatabase : Unversioned legacyDatabase := by
  refine ⟨rfl, ?_, ?_⟩
  · intro table htable
    obtain rfl := Option.some.inj htable
    decide
  · intro table htable
    obtain rfl := Option.some.inj htable
    decide

/-- The legacy table after it is stamped and migrated up. -/
def structuredDatabase : Database :=
  (migrateDatabase true (fun _ => false) headRevision legacyDatabase).2

theorem reached_structuredDatabase : Reached true legacyDatabase true structuredDatabase := by
  have hreached := Reached.call (@Reached.start true legacyDatabase) (fun _ => false) headRevision
  have hok : (false ||
      (migrateDatabase true (fun _ => false) headRevision legacyDatabase).1.isOk) = true := by
    decide +kernel
  rw [hok] at hreached
  exact hreached

/-- Back to the legacy table. -/
theorem migrations_in_step_legacy : InStep structuredDatabase ∧
    (migrateDatabase true (fun _ => false) legacyRevision structuredDatabase).2.recorded =
      [legacyRevision] ∧
    (migrateDatabase true (fun _ => false) legacyRevision structuredDatabase).2.legacyRows =
      structuredDatabase.legacyRows := by
  obtain ⟨hin, hcalls⟩ :=
    migrations_in_step unversioned_legacyDatabase reached_structuredDatabase
  have hdown :
      (migrateDatabase true (fun _ => false) legacyRevision structuredDatabase).1.toOption =
      some [legacyRevision] := by decide +kernel
  cases hout : migrateDatabase true (fun _ => false) legacyRevision structuredDatabase with
  | mk result db' =>
    rw [hout] at hdown
    cases result with
    | error error => cases hdown
    | ok applied =>
      obtain rfl := Option.some.inj hdown
      obtain ⟨-, hrecorded, -, hrows, -⟩ := (hcalls (fun _ => false) legacyRevision db').2 _ hout
      exact ⟨hin rfl, hrecorded, hrows (by decide)⟩

end DatabaseMigrations
