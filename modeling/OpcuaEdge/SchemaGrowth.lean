import OpcuaEdge.SchemaInit

/-!
# OpcuaEdge — what a call does to a schema

`edge_store_init_schema` begins no transaction, so a call that fails, or is cut off, has made some
of its changes. There are three kinds of them: it creates a table of the schema that is missing,
adds a column to `benchmark_runs`, or stamps the version. A property of a file that these keep holds
after every call, whatever SQLite answers (`KeptBySchema.initSchema`).

Two such properties are what users of a file rely on:

* **`RowsKept`**: every row is still there;
* **`SchemaGrown`**: every table is as it was, but for columns of version 2 in `benchmark_runs`, and
  the tables that are new are empty ones of the schema.
-/

namespace OpcuaEdge

open CStr Txn

/-! ## The rule

The three kinds of changes, as what the statements of a call do to a file. -/

/-- Each change that a call can make keeps `I`. -/
structure KeptBySchema (I : SchemaDb → Prop) : Prop where
  created : ∀ table ∈ schemaTables, ∀ db db', I db → createTable table.1 table.2 db = some db' →
    I db'
  added : ∀ column ∈ migrationColumns, ∀ db db', I db →
    addColumn .benchmarkRuns column db = some db' → I db'
  stamped : ∀ db, I db → I db.stamped

/-- What a call runs after it has read the version: a part of the migration, or the stamp. -/
theorem mem_upgradeScript {version : Int} {change : SchemaDb → Option SchemaDb}
    (h : change ∈ upgradeScript version) :
    change ∈ migrationSql ∨ change = setUserVersion edgeStoreSchemaVersion := by
  unfold upgradeScript at h
  split_ifs at h
  · rcases List.mem_append.mp h with hadd | hstamp
    · exact .inl hadd
    · exact .inr (List.mem_singleton.mp hstamp)
  · exact .inr (List.mem_singleton.mp h)
  · cases h

namespace KeptBySchema

variable {I : SchemaDb → Prop} (h : KeptBySchema I)

include h

/-- The texts of a call, the one that creates and the one of the version it finds, consist of such
changes. -/
theorem change (version : Int) {change : SchemaDb → Option SchemaDb}
    (hmem : change ∈ schemaSql ∨ change ∈ upgradeScript version) {db db' : SchemaDb} (hdb : I db)
    (hchange : change db = some db') : I db' := by
  rcases hmem with hcreate | hupgrade
  · obtain ⟨table, htable, rfl⟩ := List.mem_map.mp hcreate
    exact h.created table htable db db' hdb hchange
  · rcases mem_upgradeScript hupgrade with hadd | rfl
    · obtain ⟨column, hcolumn, rfl⟩ := List.mem_map.mp hadd
      exact h.added column hcolumn db db' hdb hchange
    · cases hchange
      exact h.stamped db hdb

/-- A script of such statements keeps it, as far as it comes. -/
theorem runScript (version : Int) {db : SchemaDb} (hdb : I db)
    (sql : List (SchemaDb → Option SchemaDb))
    (hsql : ∀ change ∈ sql, change ∈ schemaSql ∨ change ∈ upgradeScript version) :
    I (runScript sql db).2 :=
  runScript_keeps sql (fun change hmem _ _ => h.change version (hsql change hmem)) hdb

/-- **A call keeps what its changes keep**, whichever of its statements SQLite refuses. -/
theorem initSchema {τ : Type} (engine : Engine τ) {store : SchemaStore τ}
    (hstore : store.conn.All I) : (edgeStoreInitSchema engine store).2.conn.All I := by
  have hcreated : (store.script engine schemaSql).2.conn.All I :=
    Conn.All.script schemaSql (fun change hmem _ _ => h.change 0 (.inl hmem)) hstore
  rw [edgeStoreInitSchema_eq]
  split_ifs
  · exact hcreated
  · exact hcreated
  · rw [upgradeFrom_eq]
    -- the version is only read, and nothing is done for a newer one
    have hread : (readUserVersion engine
        ((store.script engine schemaSql).2.prepare engine).2).2.conn.All I := by
      show (Session.query engine _ _).2.conn.All I
      rcases Session.query_conn engine (fun db : SchemaDb => some db.userVersion)
        ((store.script engine schemaSql).2.prepare engine).2 with hsame | hsame
      · rw [hsame]
        exact hcreated
      · rw [hsame]
        exact hcreated.discard
    split_ifs
    · exact hread
    · exact Conn.All.script _ (fun change hmem _ _ => h.change _ (.inr hmem)) hread

end KeptBySchema

/-! ## Rows

No statement of a call deletes or overwrites a row. Adding a column adds a cell to each row of
`benchmark_runs`. -/

/-- Where a column could be added, the table was there without it. -/
theorem addColumn_some {name : TableName} {column : SqlColumn} {db db' : SchemaDb}
    (h : addColumn name column db = some db') : ∃ table, db.tables name = some table ∧
      column.name ∉ table.names ∧ db' = db.withTable name (table.withColumns [column]) := by
  cases htable : db.tables name with
  | none =>
    unfold addColumn at h
    rw [htable] at h
    cases h
  | some table =>
    by_cases hold : column.name ∈ table.names
    · rw [addColumn_present htable hold] at h
      cases h
    · -- the statement was done, so the column has a value for the old rows
      have haddable : column.addedValue.isSome := by
        unfold addColumn at h
        rw [htable] at h
        cases hvalue : column.addedValue with
        | none => rw [hvalue] at h; cases h
        | some value => rfl
      rw [addColumn_eq htable haddable hold] at h
      exact ⟨table, rfl, hold, (Option.some.inj h).symm⟩

/-- Every row is still there, perhaps with more columns. -/
def RowsKept (before after : SchemaDb) : Prop :=
  ∀ name table, before.tables name = some table →
    ∃ table', after.tables name = some table' ∧ List.Forall₂ (· <+: ·) table.rows table'.rows

theorem RowsKept.refl (db : SchemaDb) : RowsKept db db := fun _ table htable =>
  ⟨table, htable, List.forall₂_same.mpr fun row _ => List.prefix_refl row⟩

theorem rowsKept_keptBySchema (start : SchemaDb) : KeptBySchema (RowsKept start) where
  created table _ db db' h hcreate := by
    rw [createTable_eq] at hcreate
    cases hcreate
    intro other old hold
    obtain ⟨old', hold', hrows⟩ := h other old hold
    exact ⟨old', SchemaDb.tables_withTables hold' _, hrows⟩
  added column _ db db' h hadd := by
    obtain ⟨runs, hruns, -, rfl⟩ := addColumn_some hadd
    intro other table htable
    obtain ⟨table', htable', hrows⟩ := h other table htable
    -- a new column lengthens the rows of benchmark_runs, and no others
    by_cases hother : other = .benchmarkRuns
    · subst hother
      cases htable'.symm.trans hruns
      refine ⟨_, db.withTable_self _ _, ?_⟩
      unfold SqlTable.withColumns
      rw [List.forall₂_map_right_iff]
      exact hrows.imp fun _ _ hrow => hrow.trans (List.prefix_append _ _)
    · exact ⟨table', (Function.update_of_ne hother ..).trans htable', hrows⟩
  stamped _ h := h

/-! ## Tables

What a call may leave behind: new tables, which are empty, a table of the benchmark with more
columns, and the version of the program. -/

/-- What a call may have made of a file, however far it got. -/
structure SchemaGrown (before after : SchemaDb) : Prop where
  version : after.userVersion = before.userVersion ∨ after.userVersion = edgeStoreSchemaVersion
  kept : ∀ name table, before.tables name = some table → ∃ columns ⊆ migrationColumns,
    after.tables name = some (table.withColumns columns) ∧
      (name ≠ .benchmarkRuns → columns = [])
  created : ∀ name table, before.tables name = none → after.tables name = some table →
    ∃ columns, (name, columns) ∈ schemaTables ∧ table = { columns }

theorem SchemaGrown.refl (db : SchemaDb) : SchemaGrown db db where
  version := .inl rfl
  kept _ table htable := ⟨[], List.nil_subset _, by rw [table.withColumns_nil]; exact htable,
    fun _ => rfl⟩
  created _ _ hnone hsome := by rw [hnone] at hsome; cases hsome

theorem SqlTable.withColumns_append (table : SqlTable) (first second : List SqlColumn) :
    (table.withColumns first).withColumns second = table.withColumns (first ++ second) := by
  unfold SqlTable.withColumns
  simp

/-- The table of runs, as a call creates it, has the columns of version 2 already. -/
theorem migrationColumns_created : ∀ table ∈ schemaTables, table.1 = .benchmarkRuns →
    ∀ column ∈ migrationColumns, column.name ∈ table.2.map (·.name) := by
  decide

theorem schemaGrown_keptBySchema (start : SchemaDb) : KeptBySchema (SchemaGrown start) where
  created table htable db db' h hcreate := by
    unfold createTable at hcreate
    split at hcreate
    · cases hcreate
      exact h
    · rename_i habsent
      cases hcreate
      refine ⟨h.version, fun name old hold => ?_, fun name new hnone hnew => ?_⟩
      · obtain ⟨columns, hcolumns, hafter, hothers⟩ := h.kept name old hold
        refine ⟨columns, hcolumns, ?_, hothers⟩
        have hname : name ≠ table.1 := by
          rintro rfl
          rw [hafter] at habsent
          cases habsent
        exact (Function.update_of_ne hname ..).trans hafter
      · by_cases hname : name = table.1
        · rw [hname] at hnew ⊢
          cases (Function.update_self table.1 _ db.tables).symm.trans hnew
          exact ⟨table.2, htable, rfl⟩
        · exact h.created name new hnone ((Function.update_of_ne hname ..).symm.trans hnew)
  added column hcolumn db db' h hadd := by
    obtain ⟨runs, hruns, hnew, rfl⟩ := addColumn_some hadd
    refine ⟨h.version, fun name old hold => ?_, fun name new hnone htable => ?_⟩
    · obtain ⟨columns, hcolumns, hafter, hothers⟩ := h.kept name old hold
      by_cases hname : name = .benchmarkRuns
      · subst hname
        cases hafter.symm.trans hruns
        refine ⟨columns ++ [column], ?_, ?_, fun hne => absurd rfl hne⟩
        · exact List.append_subset.mpr ⟨hcolumns, List.cons_subset.mpr ⟨hcolumn, List.nil_subset _⟩⟩
        · rw [← SqlTable.withColumns_append]
          exact db.withTable_self _ _
      · exact ⟨columns, hcolumns, (Function.update_of_ne hname ..).trans hafter, hothers⟩
    · by_cases hname : name = .benchmarkRuns
      · -- a table that the call itself has created takes no column more
        subst hname
        obtain ⟨columns, hcreated, rfl⟩ := h.created _ _ hnone hruns
        exact absurd (migrationColumns_created _ hcreated rfl column hcolumn) hnew
      · exact h.created name new hnone ((Function.update_of_ne hname ..).symm.trans htable)
  stamped db h := ⟨.inr rfl, h.kept, h.created⟩

/-- **What a call leaves, wherever it ended.** -/
theorem edgeStoreInitSchema_grown {τ : Type} (engine : Engine τ) {store : SchemaStore τ}
    {db : SchemaDb} (hconn : store.conn = { committed := db }) :
    SchemaGrown db (edgeStoreInitSchema engine store).2.conn.committed ∧
      RowsKept db (edgeStoreInitSchema engine store).2.conn.committed := by
  have hopened {I : SchemaDb → Prop} (hdb : I db) : store.conn.All I := by
    rw [hconn]
    exact ⟨hdb, nofun⟩
  exact ⟨((schemaGrown_keptBySchema db).initSchema engine (hopened (.refl db))).1,
    ((rowsKept_keptBySchema db).initSchema engine (hopened (.refl db))).1⟩

end OpcuaEdge
