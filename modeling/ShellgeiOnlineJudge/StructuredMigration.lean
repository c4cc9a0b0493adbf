/-
The migration to structured execution logs, on the data
(migrations/versions/v0002_structured_execution_logs.py).

A row has values only in the columns of its table, and a value in each column
that is not null.  Between the legacy and the structured schema the upgrade
changes nothing but the structured columns, and the downgrade only forgets them:
both are maps on the rows, so that their round trips are facts about one row.

* `structured_migration_preserves_data` — upgrade, downgrade and their round
  trips on every table.
-/
import Mathlib.Data.List.Forall2
import ShellgeiOnlineJudge.DatabaseMigrations

namespace DatabaseMigrations

open Transaction

/-! ### Tables of a schema -/

/-- A table of a schema. -/
structure Table.OfSchema (table : Table) (columns : List Column) : Prop where
  columns_eq : table.columns = columns
  absent : ∀ row ∈ table.rows, ∀ name ∉ columns.map (·.name), row name = .null
  present : ∀ row ∈ table.rows, ∀ column ∈ columns, column.notNull = true →
    row column.name ≠ .null

/-- The columns after `v0002`; only PostgreSQL makes them not null. -/
def structuredSchema (postgresql : Bool) : List Column :=
  legacyColumns ++ addColumnStatements.map fun c =>
    ⟨c.1, c.2, postgresql && decide (c.1 ∈ requiredColumns)⟩

/-- A table after the upgrade. -/
def Table.upgraded (postgresql : Bool) (table : Table) : Table where
  columns := structuredSchema postgresql
  indexes := table.indexes
  rows := table.rows.map backfillRow

/-- A table after the downgrade. -/
def Table.downgraded (table : Table) : Table where
  columns := legacyColumns
  indexes := table.indexes
  rows := table.rows.map Row.legacy

theorem not_mem_legacyNames {name : String} (h : name ∈ structuredColumns) :
    name ∉ legacyNames := by
  have hall : ∀ name ∈ structuredColumns, name ∉ legacyNames := by decide
  exact hall name h

theorem not_mem_structuredColumns {name : String} (h : name ∈ legacyNames) :
    name ∉ structuredColumns :=
  fun hmem => not_mem_legacyNames hmem h

theorem names_structuredSchema (postgresql : Bool) :
    (structuredSchema postgresql).map (·.name) = legacyNames ++ structuredColumns := by
  rw [structuredSchema, List.map_append, List.map_map]
  rfl

/-! ### Rows -/

section Rows

variable {row : Row} {column : String}

theorem backfillRow_legacy (h : column ∈ legacyNames) : backfillRow row column = row column := by
  have hrow := congrFun (legacy_backfillRow row) column
  rw [Row.legacy, Row.legacy, if_neg (not_mem_structuredColumns h),
    if_neg (not_mem_structuredColumns h)] at hrow
  exact hrow

theorem backfillRow_stdout : backfillRow row "stdout" = coalesceEmpty (row "output") := rfl

theorem coalesceEmpty_ne_null (value : SqlValue) : coalesceEmpty value ≠ .null := by
  cases value with
  | null => simp [coalesceEmpty]
  | text t => simp [coalesceEmpty]
  | integer n => simp [coalesceEmpty]
  | boolean b => simp [coalesceEmpty]
  | other t => simp [coalesceEmpty]

/-- Whatever a row holds, the update leaves no `NULL` in a required column. -/
theorem backfillRow_required (h : column ∈ requiredColumns) :
    backfillRow row column ≠ .null := by
  simp only [requiredColumns, List.mem_cons, List.not_mem_nil, or_false] at h
  rcases h with rfl | rfl | rfl | rfl | rfl | rfl
  · simp [backfillRow]
  · rw [backfillRow_stdout]
    exact coalesceEmpty_ne_null _
  · simp [backfillRow]
  · simp [backfillRow]
  · simp [backfillRow]
  · simp [backfillRow]

theorem Row.legacy_eq_self (h : ∀ name ∈ structuredColumns, row name = .null) :
    row.legacy = row := by
  funext name
  by_cases hname : name ∈ structuredColumns
  · rw [Row.legacy, if_pos hname, h name hname]
  · rw [Row.legacy, if_neg hname]

theorem Row.legacy_apply (h : column ∈ legacyNames) : row.legacy column = row column := by
  rw [Row.legacy, if_neg (not_mem_structuredColumns h)]

end Rows

/-! ### Statements on a table -/

section Statements

variable {table : Table}

/-- Columns that are new, and `NULL` in each row already. -/
theorem foldlM_addColumn {statements : List (String × String)}
    (hnodup : (table.columnNames ++ statements.map Prod.fst).Nodup)
    (hnull : ∀ row ∈ table.rows, ∀ c ∈ statements, row c.1 = .null) :
    statements.foldlM (fun table c => addColumn c.1 c.2 table) table = some { table with
      columns := table.columns ++ statements.map fun c => ⟨c.1, c.2, false⟩ } := by
  induction statements generalizing table with
  | nil =>
    rw [List.map_nil, List.append_nil]
    rfl
  | cons c statements ih =>
    have hnew : c.1 ∉ table.columnNames := by
      intro hmem
      exact (List.nodup_append.1 hnodup).2.2 c.1 hmem c.1 List.mem_cons_self rfl
    -- a cell that no row has is NULL already
    have hrows : (table.rows.map fun row => Function.update row c.1 SqlValue.null) =
        table.rows := by
      refine (List.map_congr_left fun row hrow => ?_).trans (List.map_id table.rows)
      have hc := hnull row hrow c List.mem_cons_self
      rw [← hc, Function.update_eq_self]
      rfl
    rw [List.foldlM_cons, addColumn, if_neg hnew, hrows]
    show List.foldlM _ _ statements = _
    rw [ih]
    · rw [List.map_cons, List.append_assoc]
      rfl
    · rw [Table.columnNames, List.map_append, List.append_assoc]
      exact hnodup
    · exact fun row hrow c' hc' => hnull row hrow c' (List.mem_cons_of_mem c hc')

/-- Columns without a `NULL`. -/
theorem foldlM_setNotNull {required : List String}
    (hnames : ∀ name ∈ required, name ∈ table.columnNames)
    (hpresent : ∀ row ∈ table.rows, ∀ name ∈ required, row name ≠ .null) :
    required.foldlM (fun table name => setNotNull name table) table = some { table with
      columns := table.columns.map fun c =>
        { c with notNull := c.notNull || decide (c.name ∈ required) } } := by
  induction required generalizing table with
  | nil =>
    have hcolumns : (table.columns.map fun c =>
        { c with notNull := c.notNull || decide (c.name ∈ ([] : List String)) }) =
        table.columns := by
      refine (List.map_congr_left fun c _ => ?_).trans (List.map_id table.columns)
      simp
    rw [hcolumns]
    rfl
  | cons name required ih =>
    have hset : name ∈ table.columnNames ∧ ∀ row ∈ table.rows, row name ≠ .null :=
      ⟨hnames name List.mem_cons_self, fun row hrow => hpresent row hrow name List.mem_cons_self⟩
    -- the columns keep their names, as the remaining statements need
    have hsame : (table.columns.map fun c =>
        if c.name = name then { c with notNull := true } else c).map (·.name) =
        table.columnNames := by
      rw [Table.columnNames, List.map_map]
      refine List.map_congr_left fun c _ => ?_
      by_cases hc : c.name = name
      · simp [hc]
      · simp [hc]
    rw [List.foldlM_cons, setNotNull, if_pos hset]
    show List.foldlM _ _ required = _
    rw [ih]
    · congr 2
      rw [List.map_map]
      refine List.map_congr_left fun c _ => ?_
      by_cases hc : c.name = name
      · simp [hc]
      · simp [hc]
    · intro other hother
      rw [Table.columnNames, hsame]
      exact hnames other (List.mem_cons_of_mem name hother)
    · exact fun row hrow other hother => hpresent row hrow other (List.mem_cons_of_mem name hother)

/-- Columns that are there once. -/
theorem foldlM_dropColumn {dropped : List String} (hnodup : dropped.Nodup)
    (hnames : ∀ name ∈ dropped, name ∈ table.columnNames) :
    dropped.foldlM (fun table name => dropColumn name table) table = some { table with
      columns := table.columns.filter (·.name ∉ dropped)
      rows := table.rows.map fun row name => if name ∈ dropped then .null else row name } := by
  induction dropped generalizing table with
  | nil =>
    have hall : table.columns.filter (·.name ∉ ([] : List String)) = table.columns :=
      List.filter_eq_self.2 fun c _ => by simp
    rw [hall]
    simp
  | cons name dropped ih =>
    obtain ⟨hname, hrest⟩ := List.nodup_cons.1 hnodup
    rw [List.foldlM_cons, dropColumn, if_pos (hnames name List.mem_cons_self)]
    show List.foldlM _ _ dropped = _
    rw [ih hrest]
    · congr 2
      · rw [List.filter_filter]
        refine List.filter_congr fun c _ => ?_
        simp [not_or, Bool.and_comm]
      · rw [List.map_map]
        refine List.map_congr_left fun row _ => ?_
        funext other
        by_cases hother : other = name
        · simp [hother]
        · simp [hother]
    -- the remaining names are other ones, so their columns are still there
    · intro other hother
      have hne : other ≠ name := fun heq => hname (heq ▸ hother)
      obtain ⟨c, hc, rfl⟩ := List.mem_map.1 (hnames other (List.mem_cons_of_mem name hother))
      exact List.mem_map.2 ⟨c, List.mem_filter.2 ⟨hc, decide_eq_true hne⟩, rfl⟩

/-- A loop of statements on the table. -/
theorem does_onExecutionLogs {ι : Type} {f : ι → Table → Option Table} {xs : List ι}
    {revisions : Option (List String)} {table' : Table}
    (h : xs.foldlM (fun table x => f x table) table = some table') :
    Does (forEach (fun x => execute Failure.statement (onExecutionLogs (f x))) xs)
      ⟨revisions, some table⟩ () ⟨revisions, some table'⟩ := by
  refine does_forEach ?_
  induction xs generalizing table with
  | nil =>
    obtain rfl := Option.some.inj h
    rfl
  | cons x xs ih =>
    rw [List.foldlM_cons] at h
    obtain ⟨next, hnext, hrest⟩ := Option.bind_eq_some_iff.1 h
    have hstep : onExecutionLogs (f x) ⟨revisions, some table⟩ =
        some ⟨revisions, some next⟩ := by
      show (f x table >>= fun table => some (Database.mk revisions (some table))) = _
      rw [hnext]
      rfl
    rw [List.foldlM_cons, hstep]
    exact ih hrest

end Statements

/-! ### The two migrations -/

section Migrations

variable {postgresql : Bool} {revisions : Option (List String)} {table : Table}

theorem Table.OfSchema.legacyNames_eq (h : table.OfSchema legacyColumns) :
    table.columnNames = legacyNames := by
  rw [Table.columnNames, h.columns_eq, legacyNames]

theorem Table.OfSchema.structuredNames_eq (h : table.OfSchema (structuredSchema postgresql)) :
    table.columnNames = legacyNames ++ structuredColumns := by
  rw [Table.columnNames, h.columns_eq, names_structuredSchema]

/-- The upgrade of a legacy table ends well, whatever is in its rows. -/
theorem does_upgradeStructured (h : table.OfSchema legacyColumns) :
    Does (upgradeStructured postgresql) ⟨revisions, some table⟩ ()
      ⟨revisions, some (table.upgraded postgresql)⟩ := by
  have hread : Does getColumns ⟨revisions, some table⟩ legacyNames ⟨revisions, some table⟩ :=
    does_query (by rw [← h.legacyNames_eq]; rfl)
  have hnew : ¬ ∃ column ∈ structuredColumns, column ∈ legacyNames := by decide
  refine hread.bind ?_
  rw [if_neg hnew]
  -- the columns are added, and are `NULL`
  have hadd := @foldlM_addColumn table addColumnStatements (by rw [h.legacyNames_eq]; decide)
    fun row hrow c hc => h.absent row hrow c.1 (not_mem_legacyNames (List.mem_map_of_mem hc))
  refine (does_onExecutionLogs hadd).bind ?_
  -- the update finds the columns that it reads and writes
  have hfill : Does (execute Failure.statement (onExecutionLogs backfill))
      ⟨revisions, some { table with
        columns := table.columns ++ addColumnStatements.map fun c => ⟨c.1, c.2, false⟩ }⟩ ()
      ⟨revisions, some (table.upgraded false)⟩ := by
    refine does_execute ?_
    have hcolumns : ∀ column ∈ updatedColumns, column ∈ Table.columnNames { table with
        columns := table.columns ++ addColumnStatements.map fun c => ⟨c.1, c.2, false⟩ } := by
      rw [h.columns_eq]
      show ∀ column ∈ updatedColumns, column ∈ legacyNames ++ structuredColumns
      decide
    show (backfill _ >>= fun table => some (Database.mk revisions (some table))) = _
    rw [backfill, if_pos hcolumns, h.columns_eq]
    rfl
  refine hfill.bind ?_
  cases postgresql with
  | false => exact does_pure
  | true =>
    rw [if_pos rfl]
    refine does_onExecutionLogs ?_
    rw [foldlM_setNotNull]
    · rfl
    · show ∀ name ∈ requiredColumns, name ∈ (structuredSchema false).map (·.name)
      decide
    · intro row hrow name hname
      obtain ⟨row, -, rfl⟩ := List.mem_map.1 hrow
      exact backfillRow_required hname

/-- The downgrade of a structured table ends well, whatever is in its rows. -/
theorem does_downgradeStructured (h : table.OfSchema (structuredSchema postgresql)) :
    Does downgradeStructured ⟨revisions, some table⟩ ()
      ⟨revisions, some table.downgraded⟩ := by
  have hread : Does getColumns ⟨revisions, some table⟩ (legacyNames ++ structuredColumns)
      ⟨revisions, some table⟩ :=
    does_query (by rw [← h.structuredNames_eq]; rfl)
  have hnone : ¬ ∃ column ∈ structuredColumns, column ∉ legacyNames ++ structuredColumns :=
    fun ⟨column, hcolumn, hmissing⟩ => hmissing (List.mem_append_right _ hcolumn)
  refine hread.bind ?_
  rw [if_neg hnone]
  refine does_onExecutionLogs ?_
  rw [foldlM_dropColumn (by decide)]
  · -- what is left are the legacy columns, and the rows without the others
    have hcolumns : table.columns.filter (·.name ∉ structuredColumns.reverse) =
        legacyColumns := by
      rw [h.columns_eq]
      cases postgresql with
      | false => decide
      | true => decide
    have hrows : (table.rows.map fun row name =>
        if name ∈ structuredColumns.reverse then SqlValue.null else row name) =
        table.rows.map Row.legacy := by
      refine List.map_congr_left fun row _ => ?_
      funext name
      simp only [List.mem_reverse, Row.legacy]
    rw [hcolumns, hrows]
    rfl
  · intro name hname
    rw [h.structuredNames_eq]
    exact List.mem_append_right _ (List.mem_reverse.1 hname)

theorem Table.OfSchema.upgraded (h : table.OfSchema legacyColumns) :
    (table.upgraded postgresql).OfSchema (structuredSchema postgresql) := by
  refine ⟨rfl, ?_, ?_⟩
  · intro row hrow name hname
    obtain ⟨row, hmem, rfl⟩ := List.mem_map.1 hrow
    rw [names_structuredSchema, List.mem_append, not_or] at hname
    -- the update writes structured columns only
    have hsame : backfillRow row name = row name := by
      have hrow := congrFun (legacy_backfillRow row) name
      rw [Row.legacy, Row.legacy, if_neg hname.2, if_neg hname.2] at hrow
      exact hrow
    rw [hsame]
    exact h.absent row hmem name hname.1
  · intro row hrow column hcolumn hnotNull
    obtain ⟨row, hmem, rfl⟩ := List.mem_map.1 hrow
    rcases List.mem_append.1 hcolumn with hcolumn | hcolumn
    · rw [backfillRow_legacy (List.mem_map_of_mem hcolumn)]
      exact h.present row hmem column hcolumn hnotNull
    · obtain ⟨c, -, rfl⟩ := List.mem_map.1 hcolumn
      have hrequired : c.1 ∈ requiredColumns :=
        of_decide_eq_true (Bool.and_eq_true_iff.1 hnotNull).2
      exact backfillRow_required hrequired

theorem Table.OfSchema.downgraded (h : table.OfSchema (structuredSchema postgresql)) :
    table.downgraded.OfSchema legacyColumns := by
  refine ⟨rfl, ?_, ?_⟩
  · intro row hrow name hname
    obtain ⟨row, hmem, rfl⟩ := List.mem_map.1 hrow
    by_cases hstructured : name ∈ structuredColumns
    · rw [Row.legacy, if_pos hstructured]
    · rw [Row.legacy, if_neg hstructured]
      refine h.absent row hmem name ?_
      rw [names_structuredSchema, List.mem_append, not_or]
      exact ⟨hname, hstructured⟩
  · intro row hrow column hcolumn hnotNull
    obtain ⟨row, hmem, rfl⟩ := List.mem_map.1 hrow
    rw [Row.legacy_apply (List.mem_map_of_mem hcolumn)]
    exact h.present row hmem column (List.mem_append_left _ hcolumn) hnotNull

/-- Down after up. -/
theorem Table.OfSchema.downgraded_upgraded (h : table.OfSchema legacyColumns) :
    (table.upgraded postgresql).downgraded = table := by
  have hrows : (table.rows.map backfillRow).map Row.legacy = table.rows := by
    rw [List.map_map]
    refine (List.map_congr_left fun row hrow => ?_).trans (List.map_id table.rows)
    show (backfillRow row).legacy = row
    rw [legacy_backfillRow]
    exact Row.legacy_eq_self fun name hname => h.absent row hrow name (not_mem_legacyNames hname)
  cases table with
  | mk columns indexes rows =>
    obtain rfl : columns = legacyColumns := h.columns_eq
    exact congrArg (Table.mk legacyColumns indexes) hrows

end Migrations

/-! ### Calls -/

section Calls

variable {postgresql : Bool} {table : Table}

theorem Table.OfSchema.migrated_legacy (h : table.OfSchema legacyColumns) :
    Migrated 1 ⟨some [legacyRevision], some table⟩ := by
  refine ⟨by decide, rfl, ?_⟩
  show ColumnsAt 1 (some table.columnNames)
  rw [h.legacyNames_eq]
  exact columnsAt_legacy fun column hcolumn => not_mem_legacyNames hcolumn

theorem Table.OfSchema.migrated_structured (h : table.OfSchema (structuredSchema postgresql)) :
    Migrated 2 ⟨some knownRevisions, some table⟩ := by
  refine ⟨by decide, rfl, ?_⟩
  show ColumnsAt 2 (some table.columnNames)
  rw [h.structuredNames_eq]
  refine ⟨by simp, fun names hnames column hcolumn => ?_⟩
  obtain rfl := Option.some.inj hnames
  exact iff_of_true (List.mem_append_right _ hcolumn) (by omega)

/-- `migrate_database` up from the legacy schema. -/
theorem migrateDatabase_up (h : table.OfSchema legacyColumns) (faults : ℕ → Bool) :
    migrateDatabase postgresql faults headRevision ⟨some [legacyRevision], some table⟩ =
        (.ok knownRevisions, ⟨some knownRevisions, some (table.upgraded postgresql)⟩) ∨
      ∃ n, faults n = true := by
  have hrecord : Does (execute Failure.statement (insertRevision structuredRevision))
      ⟨some [legacyRevision], some (table.upgraded postgresql)⟩ ()
      ⟨some knownRevisions, some (table.upgraded postgresql)⟩ := by
    refine does_execute ?_
    have hnew : structuredRevision ∉ [legacyRevision] := by decide
    show (if structuredRevision ∈ [legacyRevision] then none else _) = _
    rw [if_neg hnew]
    rfl
  have hmove : Does (moveTo postgresql 1 2) ⟨some [legacyRevision], some table⟩ ()
      ⟨some knownRevisions, some (table.upgraded postgresql)⟩ :=
    ((does_upgradeStructured h).bind hrecord).bind does_pure
  have htarget : targetCount headRevision = .ok 2 := rfl
  have hcall := does_migrateTransaction htarget h.migrated_legacy hmove
    h.upgraded.migrated_structured
  rw [migrateDatabase]
  rcases @commit_does _ _ _ .statement _ faults _ _ _ hcall with hout | ⟨hfaults, -⟩
  · rw [hout]
    exact .inl rfl
  · exact .inr hfaults

/-- `migrate_database` down to the legacy schema. -/
theorem migrateDatabase_down (h : table.OfSchema (structuredSchema postgresql))
    (faults : ℕ → Bool) :
    migrateDatabase postgresql faults legacyRevision ⟨some knownRevisions, some table⟩ =
        (.ok [legacyRevision], ⟨some [legacyRevision], some table.downgraded⟩) ∨
      ∃ n, faults n = true := by
  have hrecord : Does (execute Failure.statement (deleteRevision structuredRevision))
      ⟨some knownRevisions, some table.downgraded⟩ ()
      ⟨some [legacyRevision], some table.downgraded⟩ := by
    refine does_execute ?_
    have hleft : knownRevisions.filter (· ≠ structuredRevision) = [legacyRevision] := by decide
    show some (Database.mk (some (knownRevisions.filter (· ≠ structuredRevision))) _) = _
    rw [hleft]
  have hmove : Does (moveTo postgresql 2 1) ⟨some knownRevisions, some table⟩ ()
      ⟨some [legacyRevision], some table.downgraded⟩ :=
    ((does_downgradeStructured h).bind hrecord).bind does_pure
  have htarget : targetCount legacyRevision = .ok 1 := rfl
  have hcall := does_migrateTransaction htarget h.migrated_structured hmove
    h.downgraded.migrated_legacy
  rw [migrateDatabase]
  rcases @commit_does _ _ _ .statement _ faults _ _ _ hcall with hout | ⟨hfaults, -⟩
  · rw [hout]
    exact .inl rfl
  · exact .inr hfaults

end Calls

/-! ### The data -/

/-- What the upgrade makes of a row. -/
structure Backfilled (row row' : Row) : Prop where
  legacy : ∀ column ∈ legacyNames, row' column = row column
  stdout : row' "stdout" = coalesceEmpty (row "output")
  required : ∀ column ∈ requiredColumns, row' column ≠ .null

theorem backfilled_backfillRow (row : Row) : Backfilled row (backfillRow row) :=
  ⟨fun _ hcolumn => backfillRow_legacy hcolumn, backfillRow_stdout,
    fun _ hcolumn => backfillRow_required hcolumn⟩

/-- The IDs of the rows, in order. -/
def Table.ids (table : Table) : List SqlValue := table.rows.map (· "id")

theorem ids_map {table table' : Table} {f : Row → Row} (hrows : table'.rows = table.rows.map f)
    (hf : ∀ row, f row "id" = row "id") : table'.ids = table.ids := by
  rw [Table.ids, Table.ids, hrows, List.map_map]
  exact List.map_congr_left fun row _ => hf row

/-- Upgrade and downgrade keep the data of every table, and their round trips lose
nothing. -/
theorem structured_migration_preserves_data (postgresql : Bool)
    (revisions : Option (List String)) :
    (∀ table : Table, table.OfSchema legacyColumns → ∃ upgraded : Table,
      upgraded.OfSchema (structuredSchema postgresql) ∧ upgraded.ids = table.ids ∧
      List.Forall₂ Backfilled table.rows upgraded.rows ∧
      Does (upgradeStructured postgresql) ⟨revisions, some table⟩ ()
        ⟨revisions, some upgraded⟩ ∧
      Does downgradeStructured ⟨revisions, some upgraded⟩ () ⟨revisions, some table⟩ ∧
      Does (do upgradeStructured postgresql; downgradeStructured; upgradeStructured postgresql)
        ⟨revisions, some table⟩ () ⟨revisions, some upgraded⟩ ∧
      ∀ faults, migrateDatabase postgresql faults headRevision
          ⟨some [legacyRevision], some table⟩ =
          (.ok knownRevisions, ⟨some knownRevisions, some upgraded⟩) ∨
        ∃ n, faults n = true) ∧
    ∀ table : Table, table.OfSchema (structuredSchema postgresql) → ∃ legacy : Table,
      legacy.OfSchema legacyColumns ∧ legacy.ids = table.ids ∧
      List.Forall₂ (fun row row' => ∀ column ∈ legacyNames, row' column = row column)
        table.rows legacy.rows ∧
      Does downgradeStructured ⟨revisions, some table⟩ () ⟨revisions, some legacy⟩ ∧
      ∀ faults, migrateDatabase postgresql faults legacyRevision
          ⟨some knownRevisions, some table⟩ =
          (.ok [legacyRevision], ⟨some [legacyRevision], some legacy⟩) ∨
        ∃ n, faults n = true := by
  constructor
  · intro table htable
    have hup : Does (upgradeStructured postgresql) ⟨revisions, some table⟩ ()
        ⟨revisions, some (table.upgraded postgresql)⟩ := does_upgradeStructured htable
    have hupgraded : (table.upgraded postgresql).OfSchema (structuredSchema postgresql) :=
      htable.upgraded
    have hdown : Does downgradeStructured ⟨revisions, some (table.upgraded postgresql)⟩ ()
        ⟨revisions, some (table.upgraded postgresql).downgraded⟩ :=
      does_downgradeStructured hupgraded
    -- the downgrade gives the table back
    rw [htable.downgraded_upgraded] at hdown
    refine ⟨table.upgraded postgresql, htable.upgraded, ?_, ?_, hup, hdown,
      hup.bind (hdown.bind hup), migrateDatabase_up htable⟩
    · exact ids_map rfl fun row => backfillRow_legacy (by decide)
    · show List.Forall₂ Backfilled table.rows (table.rows.map backfillRow)
      rw [List.forall₂_map_right_iff]
      exact List.forall₂_same.2 fun row _ => backfilled_backfillRow row
  · intro table htable
    refine ⟨table.downgraded, htable.downgraded, ?_, ?_, does_downgradeStructured htable,
      migrateDatabase_down htable⟩
    · exact ids_map rfl fun row => Row.legacy_apply (by decide)
    · show List.Forall₂ _ table.rows (table.rows.map Row.legacy)
      rw [List.forall₂_map_right_iff]
      exact List.forall₂_same.2 fun row _ column hcolumn => Row.legacy_apply hcolumn

/-- A row without an output and with an unexpected judge code. -/
def unexpectedRow : Row := fun column =>
  if column = "id" then .integer 1 else if column = "judge" then .text "9" else .null

/-- A table of the first migration with a judgment it does not know. -/
def unexpectedTable : Table := ⟨legacyColumns, legacyIndexes, [unexpectedRow]⟩

theorem ofSchema_unexpectedTable : unexpectedTable.OfSchema legacyColumns := by
  refine ⟨rfl, ?_, ?_⟩
  · intro row hrow name hname
    obtain rfl := List.mem_singleton.1 hrow
    have hid : name ≠ "id" := fun heq => hname (heq ▸ by decide)
    have hjudge : name ≠ "judge" := fun heq => hname (heq ▸ by decide)
    rw [unexpectedRow, if_neg hid, if_neg hjudge]
  · intro row hrow column hcolumn hnotNull
    obtain rfl := List.mem_singleton.1 hrow
    have hall : ∀ column ∈ legacyColumns, column.notNull = true → column.name = "id" := by
      decide
    rw [unexpectedRow, if_pos (hall column hcolumn hnotNull)]
    simp

/-- No row stops the upgrade. -/
theorem structured_migration_preserves_data_unexpected : ∃ row,
    (migrateDatabase true (fun _ => false) headRevision
      ⟨some [legacyRevision], some unexpectedTable⟩).2.executionLogs.map Table.rows =
      some [row] ∧
    row "stdout" = .text "" ∧ row "judge" = .text "9" ∧ row "verdict" ≠ .null := by
  obtain ⟨upgraded, -, -, hrows, -, -, -, hcall⟩ :=
    (structured_migration_preserves_data true none).1 unexpectedTable ofSchema_unexpectedTable
  obtain ⟨row, rest, hrow, hrest, hupgraded⟩ := List.forall₂_cons_left_iff.1 hrows
  obtain rfl := List.forall₂_nil_left_iff.1 hrest
  refine ⟨row, ?_, hrow.stdout, hrow.legacy "judge" (by decide),
    hrow.required "verdict" (by decide)⟩
  rcases hcall fun _ => false with hout | ⟨n, hn⟩
  · rw [hout, ← hupgraded]
    rfl
  · cases hn

end DatabaseMigrations
