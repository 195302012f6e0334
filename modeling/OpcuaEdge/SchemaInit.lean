import OpcuaEdge.Schema

/-!
# OpcuaEdge — schema initialisation

A call of `edge_store_init_schema` that nothing interrupts creates the tables that are missing and
then runs the script of the version it finds (`upgradeScript`): for version 1 the nine columns and
the stamp, for versions 0 and 2 the stamp alone. The version is all it looks at; which columns
`benchmark_runs` has is only noticed when one of them is added again.
-/

namespace OpcuaEdge

open CStr Txn

/-! ## Statements

What the statements of the schema do, alone and one after the other. Creating a table that exists
does nothing, adding a column that exists is an error: that difference decides what a call does on
an older database. -/

/-- The tables of `defs` that are missing, created. -/
def SchemaDb.withTables (defs : List (TableName × List SqlColumn)) (db : SchemaDb) : SchemaDb :=
  { db with
    tables := fun name => (db.tables name).or ((defs.lookup name).map fun columns => { columns }) }

@[simp] theorem SchemaDb.withTables_userVersion (defs : List (TableName × List SqlColumn))
    (db : SchemaDb) : (db.withTables defs).userVersion = db.userVersion := rfl

theorem SchemaDb.tables_withTables {db : SchemaDb} {name : TableName} {table : SqlTable}
    (h : db.tables name = some table) (defs : List (TableName × List SqlColumn)) :
    (db.withTables defs).tables name = some table := by
  show (db.tables name).or _ = some table
  rw [h]
  rfl

theorem createTable_eq (name : TableName) (columns : List SqlColumn) (db : SchemaDb) :
    createTable name columns db = some (db.withTables [(name, columns)]) := by
  have hlookup : ∀ other : TableName, [(name, columns)].lookup other
      = if other = name then some columns else none := by
    intro other
    by_cases hother : other = name
    · rw [hother, List.lookup_cons_self, if_pos rfl]
    · rw [List.lookup_cons, beq_false_of_ne hother, if_neg hother]
      rfl
  unfold createTable SchemaDb.withTables
  -- the table is there and stays, or it is created
  cases hname : db.tables name with
  | some table =>
    refine congrArg some ?_
    obtain ⟨version, tables⟩ := db
    refine congrArg (SchemaDb.mk version) (funext fun other => ?_)
    rw [hlookup]
    split_ifs with hother
    · rw [hother, hname]
      exact hname
    · exact (Option.or_none).symm
  | none =>
    refine congrArg some (congrArg (SchemaDb.mk db.userVersion) (funext fun other => ?_))
    rw [hlookup, Function.update_apply]
    split_ifs with hother
    · rw [hother, hname]
      rfl
    · exact (Option.or_none).symm

/-- Creating tables one by one is creating them together. -/
theorem SchemaDb.withTables_cons (table : TableName × List SqlColumn)
    (rest : List (TableName × List SqlColumn)) (db : SchemaDb) :
    (db.withTables [table]).withTables rest = db.withTables (table :: rest) := by
  refine congrArg (SchemaDb.mk db.userVersion) (funext fun name => ?_)
  show ((db.tables name).or _).or _ = (db.tables name).or _
  rw [Option.or_assoc]
  refine congrArg (Option.or (db.tables name)) ?_
  obtain ⟨key, columns⟩ := table
  by_cases hname : name = key
  · rw [hname, List.lookup_cons_self, List.lookup_cons_self]
    rfl
  · rw [List.lookup_cons, List.lookup_cons, beq_false_of_ne hname]
    rfl

/-- The script that creates the tables succeeds on every database. -/
theorem runScript_createTable (defs : List (TableName × List SqlColumn)) (db : SchemaDb) :
    runScript (defs.map fun table => createTable table.1 table.2) db =
      (true, db.withTables defs) := by
  induction defs generalizing db with
  | nil =>
    refine congrArg (Prod.mk true) (congrArg (SchemaDb.mk db.userVersion) (funext fun name => ?_))
    exact (Option.or_none).symm
  | cons table rest ih =>
    rw [List.map_cons]
    unfold runScript
    rw [createTable_eq]
    dsimp only
    rw [ih, SchemaDb.withTables_cons]

/-- Where all tables exist, creating them changes nothing. -/
theorem SchemaDb.withTables_of_present {defs : List (TableName × List SqlColumn)} {db : SchemaDb}
    (h : ∀ table ∈ defs, (db.tables table.1).isSome) : db.withTables defs = db := by
  refine congrArg (SchemaDb.mk db.userVersion) (funext fun name => ?_)
  cases hname : db.tables name with
  | some table => rfl
  | none =>
    -- a name without a table is none of the definitions'
    have habsent : defs.lookup name = none := by
      rw [List.lookup_eq_none_iff]
      intro table hmem
      refine bne_iff_ne.mpr fun heq => ?_
      have hpresent := h table hmem
      rw [← heq, hname] at hpresent
      cases hpresent
    rw [habsent]
    rfl

/-- The value of a column in the rows that were there before it. -/
def SqlColumn.cell (column : SqlColumn) : ColumnName × SqlValue :=
  (column.name, column.addedValue.getD .null)

/-- The table with columns added at its end; the rows there are get the default in each. -/
def SqlTable.withColumns (table : SqlTable) (columns : List SqlColumn) : SqlTable where
  columns := table.columns ++ columns
  rows := table.rows.map (· ++ columns.map SqlColumn.cell)

/-- The database with one of its tables replaced. -/
def SchemaDb.withTable (db : SchemaDb) (name : TableName) (table : SqlTable) : SchemaDb :=
  { db with tables := Function.update db.tables name (some table) }

theorem addColumn_eq {db : SchemaDb} {name : TableName} {table : SqlTable} {column : SqlColumn}
    (htable : db.tables name = some table) (haddable : column.addedValue.isSome)
    (hnew : column.name ∉ table.names) :
    addColumn name column db = some (db.withTable name (table.withColumns [column])) := by
  obtain ⟨value, hvalue⟩ := Option.isSome_iff_exists.mp haddable
  unfold addColumn SchemaDb.withTable SqlTable.withColumns SqlColumn.cell
  simp only [htable, hvalue, if_neg hnew, List.map_cons, List.map_nil, Option.getD_some]

/-- With a name that the table has already, it is refused. -/
theorem addColumn_present {db : SchemaDb} {name : TableName} {table : SqlTable} {column : SqlColumn}
    (htable : db.tables name = some table) (hold : column.name ∈ table.names) :
    addColumn name column db = none := by
  unfold addColumn
  rw [htable]
  cases column.addedValue with
  | none => rfl
  | some value => exact if_pos hold

theorem SqlTable.withColumns_nil (table : SqlTable) : table.withColumns [] = table := by
  unfold SqlTable.withColumns
  simp

theorem SqlTable.withColumns_cons (table : SqlTable) (column : SqlColumn) (rest : List SqlColumn) :
    (table.withColumns [column]).withColumns rest = table.withColumns (column :: rest) := by
  unfold SqlTable.withColumns
  simp

theorem SqlTable.names_withColumns (table : SqlTable) (columns : List SqlColumn) :
    (table.withColumns columns).names = table.names ++ columns.map (·.name) :=
  List.map_append

/-- A script of `ALTER TABLE` with names that are new, and all different, succeeds. Induction on
the columns: the table changes from one to the next, and a later name stays new. -/
theorem runScript_addColumn {name : TableName} (columns : List SqlColumn)
    (haddable : ∀ column ∈ columns, column.addedValue.isSome)
    (hnodup : (columns.map (·.name)).Nodup) :
    ∀ {db : SchemaDb} {table : SqlTable}, db.tables name = some table →
      (∀ column ∈ columns, column.name ∉ table.names) →
      runScript (columns.map (addColumn name)) db =
        (true, db.withTable name (table.withColumns columns)) := by
  induction columns with
  | nil =>
    intro db table htable _
    rw [table.withColumns_nil]
    refine congrArg (Prod.mk true) (congrArg (SchemaDb.mk db.userVersion) ?_)
    rw [← htable, Function.update_eq_self]
  | cons column rest ih =>
    intro db table htable hnew
    obtain ⟨hfirst, hrest⟩ := List.forall_mem_cons.mp hnew
    obtain ⟨haddable, haddables⟩ := List.forall_mem_cons.mp haddable
    rw [List.map_cons, List.nodup_cons] at hnodup
    rw [List.map_cons]
    unfold runScript
    -- the column is new, so it is added behind those that are there
    rw [addColumn_eq htable haddable hfirst]
    have hput : (db.withTable name (table.withColumns [column])).tables name
        = some (table.withColumns [column]) := Function.update_self ..
    dsimp only
    rw [ih haddables hnodup.2 hput, table.withColumns_cons]
    · unfold SchemaDb.withTable
      rw [Function.update_idem]
    · intro later hlater hmem
      rw [SqlTable.names_withColumns, List.mem_append] at hmem
      rcases hmem with hmem | hmem
      · exact hrest later hlater hmem
      · rw [List.map_singleton, List.mem_singleton] at hmem
        exact hnodup.1 (hmem ▸ List.mem_map_of_mem hlater)

/-! ## A call as a script

`edge_store_init_schema` runs one script, reads the version, and runs the script that belongs to
it. Its branches are put into one list of statements, `upgradeScript`. -/

/-- What a call still executes after it has read the version. -/
def upgradeScript (version : Int) : List (SchemaDb → Option SchemaDb) :=
  if version = 1 then migrationSql ++ [setUserVersion edgeStoreSchemaVersion]
  else if version = 0 ∨ version = edgeStoreSchemaVersion then
    [setUserVersion edgeStoreSchemaVersion]
  else []

/-- For a newer version there is nothing to run; the call refuses it. -/
theorem upgradeScript_newer {version : Int} (h : edgeStoreSchemaVersion < version) :
    upgradeScript version = [] := by
  have hversion : (2 : Int) < version := h
  unfold upgradeScript edgeStoreSchemaVersion
  rw [if_neg (by omega), if_neg (by omega)]

/-- Two texts run one after the other, where the source runs them as one. -/
theorem execSql_append {τ : Type} (engine : Engine τ)
    (first second : List (SchemaDb → Option SchemaDb))
    (store : SchemaStore τ) :
    execSql engine (first ++ second) store =
      if (execSql engine first store).1 ≠ .ok then execSql engine first store
      else execSql engine second (execSql engine first store).2 := by
  unfold execSql
  dsimp only
  rw [Session.script_append]
  by_cases hfirst : (store.script engine first).1 = true
  · simp only [if_pos hfirst, ne_eq, not_true_eq_false, if_false]
  · simp only [if_neg hfirst]
    rfl

/-- The part of the call after the version is read, as the script of that version. One branch of
the source is dead: once version 1 has been migrated, no version is left between 0 and 2. -/
theorem upgradeFrom_eq {τ : Type} (engine : Engine τ) (version : Int) (store : SchemaStore τ) :
    upgradeFrom engine version store =
      if edgeStoreSchemaVersion < version then (.error, store)
      else execSql engine (upgradeScript version) store := by
  unfold upgradeFrom upgradeScript
  by_cases hnewer : edgeStoreSchemaVersion < version
  · rw [if_pos hnewer, if_pos hnewer]
  · rw [if_neg hnewer, if_neg hnewer]
    by_cases hone : version = 1
    · -- after the migration the version is the current one, so the range check behind it is dead
      have hdead :
          ¬ (0 < edgeStoreSchemaVersion ∧ edgeStoreSchemaVersion < edgeStoreSchemaVersion) :=
        fun hold => lt_irrefl _ hold.2
      simp only [if_pos hone, or_true, if_true]
      rw [execSql_append, if_neg hdead]
    · simp only [if_neg hone]
      have hversion : ¬ (2 : Int) < version := hnewer
      rw [if_neg (by decide), if_neg (by unfold edgeStoreSchemaVersion; omega)]
      split_ifs
      · rfl
      · rfl

/-- The whole call: create, prepare the read of the version, read it, and upgrade. -/
theorem edgeStoreInitSchema_eq {τ : Type} (engine : Engine τ) (store : SchemaStore τ) :
    edgeStoreInitSchema engine store =
      if (store.script engine schemaSql).1 = false then
        (.error, (store.script engine schemaSql).2)
      else if ((store.script engine schemaSql).2.prepare engine).1 = false then
        (.error, ((store.script engine schemaSql).2.prepare engine).2)
      else
        upgradeFrom engine
          (readUserVersion engine ((store.script engine schemaSql).2.prepare engine).2).1
          (readUserVersion engine ((store.script engine schemaSql).2.prepare engine).2).2 := by
  unfold edgeStoreInitSchema execSql
  dsimp only
  cases (store.script engine schemaSql).1 <;> rfl

/-- An engine that refuses nothing reads the version that the file has. -/
theorem readUserVersion_uncut {τ : Type} {engine : Engine τ} (h : engine.NeverRefuses)
    {store : SchemaStore τ} {db : SchemaDb} (hconn : store.conn = { committed := db }) :
    (readUserVersion engine store).1 = db.userVersion ∧
      (readUserVersion engine store).2.conn = { committed := db } := by
  obtain ⟨hrow, hsame⟩ := Session.query_of_neverRefuses h (fun db => some db.userVersion) store
  rw [hconn] at hrow hsame
  exact ⟨congrArg (Option.getD · 0) hrow, hsame⟩

/-- **A call that nothing interrupts**: it creates what is missing and runs the script of the
version it finds. A newer version is refused. -/
theorem edgeStoreInitSchema_uncut {τ : Type} {engine : Engine τ} (h : engine.NeverRefuses)
    {store : SchemaStore τ} {db : SchemaDb} (hconn : store.conn = { committed := db }) :
    (edgeStoreInitSchema engine store).1 =
        (if db.userVersion ≤ edgeStoreSchemaVersion ∧
            (runScript (upgradeScript db.userVersion) (db.withTables schemaTables)).1 = true
          then .ok else .error) ∧
      (edgeStoreInitSchema engine store).2.conn =
        { committed :=
            (runScript (upgradeScript db.userVersion) (db.withTables schemaTables)).2 } := by
  obtain ⟨hcreated, hafter⟩ := Session.script_of_neverRefuses h schemaSql (congrArg Conn.txn hconn)
  rw [hconn, schemaSql, runScript_createTable, ← schemaSql] at hcreated hafter
  dsimp only at hcreated hafter
  -- the version that the call reads is the one it found: creating tables does not change it
  obtain ⟨hversion, hsame⟩ := readUserVersion_uncut h
    (((store.script engine schemaSql).2.prepare_conn engine).trans hafter)
  rw [edgeStoreInitSchema_eq, hcreated, if_neg (by decide), Session.prepare_of_neverRefuses h,
    if_neg (by decide), hversion, SchemaDb.withTables_userVersion]
  obtain ⟨hdone, hend⟩ := Session.script_of_neverRefuses h (upgradeScript db.userVersion)
    (congrArg Conn.txn hsame)
  rw [hsame] at hdone hend
  rw [upgradeFrom_eq]
  by_cases hnewer : edgeStoreSchemaVersion < db.userVersion
  · rw [if_pos hnewer, if_neg (fun hle => absurd hnewer (not_lt.mpr hle.1)), hsame,
      upgradeScript_newer hnewer]
    exact ⟨rfl, rfl⟩
  · rw [if_neg hnewer]
    unfold execSql
    dsimp only
    rw [hdone, hend]
    simp only [not_lt.mp hnewer, true_and, and_self]

/-! ## Columns

`benchmark_runs` is the table that differs between the versions. Version 1 has the columns before
those of the migration, and the migration adds exactly the ones that are missing. -/

/-- The columns of `benchmark_runs` in a new database. -/
def versionTwoColumns : List ColumnName := benchmarkRunsColumns.map (·.name)

/-- The columns of `benchmark_runs` before those that the migration adds. -/
def versionOneColumns : List ColumnName :=
  versionTwoColumns.filter (· ∉ migrationColumns.map (·.name))

/-- These columns and no others, in any order: added columns come last. -/
def SqlTable.HasColumns (table : SqlTable) (names : List ColumnName) : Prop :=
  table.names.Perm names

/-- A column is there exactly if its name is among the columns. -/
theorem SqlTable.HasColumns.mem_iff {table : SqlTable} {names : List ColumnName}
    (h : table.HasColumns names) {column : ColumnName} :
    column ∈ table.names ↔ column ∈ names :=
  List.Perm.mem_iff h

/-- The benchmark stores its results in columns of version 2. -/
theorem benchmarkInsertColumns_versionTwo :
    ∀ column ∈ benchmarkInsertColumns, column ∈ versionTwoColumns := by decide

theorem migrationColumns_not_versionOne :
    ∀ column ∈ migrationColumns, column.name ∉ versionOneColumns := by decide

/-- SQLite can add each column to a table with rows: a column that is `NOT NULL` has a default. -/
theorem migrationColumns_addable : ∀ column ∈ migrationColumns, column.addedValue.isSome := by
  decide

theorem migrationColumns_nodup : (migrationColumns.map (·.name)).Nodup := by decide

/-- With the migrated columns behind it, version 1 has the columns of version 2. -/
theorem versionOne_perm :
    (versionOneColumns ++ migrationColumns.map (·.name)).Perm versionTwoColumns := by
  decide

/-- Adding the first `n` columns of the migration to a table of version 1. -/
theorem runScript_migration {db : SchemaDb} {table : SqlTable}
    (htable : db.tables .benchmarkRuns = some table) (hone : table.HasColumns versionOneColumns)
    (n : Nat) :
    runScript (migrationSql.take n) db =
      (true, db.withTable .benchmarkRuns (table.withColumns (migrationColumns.take n))) := by
  rw [migrationSql, ← List.map_take]
  have hsub : ∀ column ∈ migrationColumns.take n, column ∈ migrationColumns :=
    fun column hmem => List.mem_of_mem_take hmem
  refine runScript_addColumn _
    (fun column hmem => migrationColumns_addable column (hsub column hmem))
    ?_ htable fun column hmem hold => ?_
  · rw [List.map_take]
    exact migrationColumns_nodup.sublist (List.take_sublist _ _)
  · exact migrationColumns_not_versionOne column (hsub column hmem) (hone.mem_iff.mp hold)

/-- A table of version 1 is one of version 2 after the migration. -/
theorem SqlTable.HasColumns.migrated {table : SqlTable} (h : table.HasColumns versionOneColumns) :
    (table.withColumns migrationColumns).HasColumns versionTwoColumns := by
  unfold SqlTable.HasColumns
  rw [SqlTable.names_withColumns]
  exact (List.Perm.append_right _ h).trans versionOne_perm

/-- Where the first column is there already, the migration fails at once. -/
theorem runScript_upgrade_stuck {db : SchemaDb} {table : SqlTable}
    (htable : db.tables .benchmarkRuns = some table) (hold : .durationUs ∈ table.names)
    (hversion : db.userVersion = 1) (n : Nat) :
    runScript ((upgradeScript db.userVersion).take (n + 1)) db = (false, db) := by
  have hfirst : addColumn .benchmarkRuns (zeroColumn .durationUs) db = none :=
    addColumn_present htable hold
  unfold upgradeScript migrationSql migrationColumns
  rw [if_pos hversion, List.map_cons, List.cons_append, List.take_succ_cons]
  unfold runScript
  rw [hfirst]

/-! ## Up to date

What a database has to be like for the program to work with it, and which calls make it so. -/

/-- Every table of the schema exists. -/
def SchemaDb.AllTables (db : SchemaDb) : Prop := ∀ table ∈ schemaTables, (db.tables table.1).isSome

/-- `benchmark_runs` exists and has these columns. -/
def SchemaDb.BenchmarkColumns (db : SchemaDb) (names : List ColumnName) : Prop :=
  ∃ table, db.tables .benchmarkRuns = some table ∧ table.HasColumns names

/-- The database is at version 2 and says so. -/
structure VersionTwo (db : SchemaDb) : Prop where
  version : db.userVersion = 2
  tables : db.AllTables
  benchmark : db.BenchmarkColumns versionTwoColumns

/-- What the first tables of the schema define, all of them define in the same way: no name comes
twice. -/
theorem lookup_take_schemaTables {n : Nat} {name : TableName} {columns : List SqlColumn}
    (h : (schemaTables.take n).lookup name = some columns) :
    schemaTables.lookup name = some columns := by
  rw [← List.take_append_drop n schemaTables, List.lookup_append, h]
  rfl

theorem SchemaDb.allTables_withTables (db : SchemaDb) : (db.withTables schemaTables).AllTables := by
  have hdefined : ∀ table ∈ schemaTables, (schemaTables.lookup table.1).isSome := by decide
  intro table hmem
  show ((db.tables table.1).or _).isSome
  rw [Option.isSome_or, Option.isSome_map, hdefined table hmem, Bool.or_true]

/-- `benchmark_runs` after tables were created: as it was, or new. -/
theorem SchemaDb.benchmark_withTables (db : SchemaDb) {n : Nat} {table : SqlTable}
    (h : (db.withTables (schemaTables.take n)).tables .benchmarkRuns = some table) :
    db.tables .benchmarkRuns = some table ∨
      db.tables .benchmarkRuns = none ∧ table.HasColumns versionTwoColumns := by
  have hbenchmark : schemaTables.lookup .benchmarkRuns = some benchmarkRunsColumns := by decide
  change (db.tables .benchmarkRuns).or _ = some table at h
  cases hold : db.tables .benchmarkRuns with
  | some old =>
    rw [hold] at h
    exact .inl h
  | none =>
    rw [hold, Option.none_or, Option.map_eq_some_iff] at h
    obtain ⟨columns, hlookup, rfl⟩ := h
    have heq := (lookup_take_schemaTables hlookup).symm.trans hbenchmark
    cases heq
    exact .inr ⟨rfl, .refl _⟩

/-- Unless an old `benchmark_runs` lacks columns, it has those of version 2 after the tables were
created. -/
theorem SchemaDb.benchmarkColumns_withTables (db : SchemaDb)
    (h : ∀ table, db.tables .benchmarkRuns = some table → table.HasColumns versionTwoColumns) :
    (db.withTables schemaTables).BenchmarkColumns versionTwoColumns := by
  obtain ⟨table, htable⟩ := Option.isSome_iff_exists.mp
    (db.allTables_withTables (.benchmarkRuns, benchmarkRunsColumns) (by decide))
  refine ⟨table, htable, ?_⟩
  rcases db.benchmark_withTables (n := 7) htable with hold | ⟨-, hnew⟩
  · exact h table hold
  · exact hnew

/-- The database with the version of the program. -/
def SchemaDb.stamped (db : SchemaDb) : SchemaDb := { db with userVersion := edgeStoreSchemaVersion }

/-- All that is left for these versions is the stamp. -/
theorem upgradeScript_current {version : Int} (h : version = 0 ∨ version = 2) :
    upgradeScript version = [setUserVersion edgeStoreSchemaVersion] := by
  have hversion : version ≠ 1 := by omega
  unfold upgradeScript edgeStoreSchemaVersion
  rw [if_neg hversion, if_pos h]

theorem runScript_upgrade_current {version : Int} (h : version = 0 ∨ version = 2) (db : SchemaDb) :
    runScript (upgradeScript version) db = (true, db.stamped) := by
  rw [upgradeScript_current h]
  rfl

/-- From version 1 there is the migration, and then the stamp. -/
theorem upgradeScript_one {version : Int} (h : version = 1) :
    upgradeScript version = migrationSql ++ [setUserVersion edgeStoreSchemaVersion] := if_pos h

/-- For a negative version nothing is run, and no branch of the source refuses it. -/
theorem upgradeScript_negative {version : Int} (h : version < 0) : upgradeScript version = [] := by
  unfold upgradeScript edgeStoreSchemaVersion
  rw [if_neg (by omega), if_neg (by omega)]

/-- The whole migration of a table of version 1. -/
theorem runScript_upgrade_one {db : SchemaDb} {table : SqlTable} (hversion : db.userVersion = 1)
    (htable : db.tables .benchmarkRuns = some table) (hone : table.HasColumns versionOneColumns) :
    runScript (upgradeScript db.userVersion) db =
      (true, (db.withTable .benchmarkRuns (table.withColumns migrationColumns)).stamped) := by
  have hall : runScript migrationSql db
      = (true, db.withTable .benchmarkRuns (table.withColumns migrationColumns)) :=
    runScript_migration htable hone 9
  rw [upgradeScript_one hversion, runScript_append, hall]
  rfl

theorem SchemaDb.AllTables.withTable {db : SchemaDb} (h : db.AllTables) (name : TableName)
    (table : SqlTable) : (db.withTable name table).AllTables := by
  intro defined hmem
  show (Function.update db.tables name (some table) defined.1).isSome
  rw [Function.update_apply]
  split_ifs
  · rfl
  · exact h defined hmem

theorem SchemaDb.withTable_self (db : SchemaDb) (name : TableName) (table : SqlTable) :
    (db.withTable name table).tables name = some table := Function.update_self ..

/-- The migration of a table of version 1 leads to version 2 .. -/
theorem versionTwo_migrated {db : SchemaDb} {table : SqlTable} (h : db.AllTables)
    (hone : table.HasColumns versionOneColumns) :
    VersionTwo (db.withTable .benchmarkRuns (table.withColumns migrationColumns)).stamped where
  version := rfl
  tables := h.withTable _ _
  benchmark := ⟨_, db.withTable_self .benchmarkRuns _, hone.migrated⟩

/-- .. and so does the stamp where no old table lacks columns. -/
theorem versionTwo_stamped {db : SchemaDb}
    (h : ∀ table, db.tables .benchmarkRuns = some table → table.HasColumns versionTwoColumns) :
    VersionTwo (db.withTables schemaTables).stamped where
  version := rfl
  tables := db.allTables_withTables
  benchmark := db.benchmarkColumns_withTables h

theorem VersionTwo.stamped_eq {db : SchemaDb} (h : VersionTwo db) : db.stamped = db :=
  congrArg (SchemaDb.mk · db.tables) h.version.symm

/-! ## A call that nothing interrupts

Each kind of database that a call may find, under an engine that refuses nothing. -/

section Uncut

variable {τ : Type} {engine : Engine τ}

/-- The script of the version that the call finds decides. -/
theorem uncut_of_script (hengine : engine.NeverRefuses) {store : SchemaStore τ} {db db' : SchemaDb}
    (hconn : store.conn = { committed := db }) (hversion : db.userVersion ≤ 2)
    (hscript :
      runScript (upgradeScript db.userVersion) (db.withTables schemaTables) = (true, db')) :
    (edgeStoreInitSchema engine store).1 = .ok ∧
      (edgeStoreInitSchema engine store).2.conn = { committed := db' } := by
  obtain ⟨hstatus, hafter⟩ := edgeStoreInitSchema_uncut hengine hconn
  rw [hscript] at hstatus hafter
  rw [if_pos ⟨hversion, rfl⟩] at hstatus
  exact ⟨hstatus, hafter⟩

/-- A database of version 1 with a column of version 2 cannot be migrated: the first `ALTER TABLE`
fails, and so does every later call. -/
theorem uncut_stuck (hengine : engine.NeverRefuses) {store : SchemaStore τ} {db : SchemaDb}
    (hconn : store.conn = { committed := db }) (hversion : db.userVersion = 1) {table : SqlTable}
    (htable : (db.withTables schemaTables).tables .benchmarkRuns = some table)
    (hold : .durationUs ∈ table.names) : (edgeStoreInitSchema engine store).1 = .error := by
  have hscript := runScript_upgrade_stuck htable hold hversion 9
  rw [SchemaDb.withTables_userVersion, upgradeScript_one hversion] at hscript
  obtain ⟨hstatus, -⟩ := edgeStoreInitSchema_uncut hengine hconn
  rw [upgradeScript_one hversion] at hstatus
  have hfailed : (runScript (migrationSql ++ [setUserVersion edgeStoreSchemaVersion])
      (db.withTables schemaTables)).1 = false := congrArg Prod.fst hscript
  rw [hfailed, if_neg (fun h => nomatch h.2)] at hstatus
  exact hstatus

/-- On a database of version 2 a call changes nothing. -/
theorem VersionTwo.uncut (hengine : engine.NeverRefuses) {store : SchemaStore τ} {db : SchemaDb}
    (hconn : store.conn = { committed := db }) (h : VersionTwo db) :
    (edgeStoreInitSchema engine store).1 = .ok ∧
      (edgeStoreInitSchema engine store).2.conn = { committed := db } := by
  have hscript := runScript_upgrade_current (.inr h.version) (db.withTables schemaTables)
  obtain ⟨hstatus, hafter⟩ := uncut_of_script hengine hconn (by rw [h.version]) hscript
  rw [db.withTables_of_present h.tables, h.stamped_eq] at hafter
  exact ⟨hstatus, hafter⟩

end Uncut

/-- A connection to a database file with this schema. -/
def opened (db : SchemaDb) : SchemaStore Unit := { conn := { committed := db }, env := () }

end OpcuaEdge
