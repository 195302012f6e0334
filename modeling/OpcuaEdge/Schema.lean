import OpcuaEdge.Types
import OpcuaEdge.Lib.Txn

/-!
# OpcuaEdge — the schema of the store (`edge_store_init_schema`)

What SQLite keeps about tables: the names of their columns with the constraints that matter when a
column is added, and their rows. A name that is not one of the source's is `other`. The text of a
statement is represented by its effect, and a text with several statements by the list of these:
`exec_sql` runs them one by one. Types of columns are not represented.
-/

namespace OpcuaEdge

open CStr Txn

/-! ## Tables

The file as SQLite sees it: a schema with a version, and tables with columns and rows. The content
of the six tables of the model is kept in `Db`; here it is the columns that matter, and the rows of
`benchmark_runs`. -/

/-- The tables of the schema; `other` is any table that somebody else has made. -/
inductive TableName where
  | plants
  | assets
  | nodes
  | eventDefinitions
  | eventHistory
  | latestValues
  | benchmarkRuns
  | other (name : Bytes)
  deriving DecidableEq, Repr

/-- The columns of the schema. -/
inductive ColumnName where
  | id | name | plantId | parentId | type
  | nodeKey | assetId | dataType | writable | modbusUnit | modbusRegister | scale
  | sourceNodeKey | conditionType | threshold | severity
  | eventId | value | createdMs
  | nodeId | doubleValue | updatedMs
  | benchmarkName | tagCount | assetCount | eventCount | durationUs | startupUs
  | readsPerSecond | writesPerSecond | eventsPerSecond
  | avgLatencyUs | p95LatencyUs | p99LatencyUs | cpuPercentAvg
  | rssMemoryKbStart | rssMemoryKbPeak | rssMemoryKbEnd | errorCount | createdUtc
  | other (name : Bytes)
  deriving DecidableEq, Repr

/-- A value in a cell. -/
inductive SqlValue where
  | null
  | integer (n : Int)
  | real (d : Double)
  | text (b : Bytes)
  | blob (b : Bytes)
  deriving DecidableEq

/-- What a row gets in a column that an `INSERT` does not name. -/
inductive ColumnDefault where
  | null
  | integer (n : Int)
  | real (d : Double)
  | currentTimestamp
  deriving DecidableEq

/-- A column with its constraint and its default. -/
structure SqlColumn where
  name : ColumnName
  notNull : Bool := true
  default : ColumnDefault := .null
  deriving DecidableEq

/-- A table: its columns, and rows that give a value to each of them. -/
structure SqlTable where
  columns : List SqlColumn
  rows : List (List (ColumnName × SqlValue)) := []
  deriving DecidableEq

/-- The names of the columns, in order. -/
def SqlTable.names (table : SqlTable) : List ColumnName := table.columns.map (·.name)

/-- The part of a database file that `edge_store_init_schema` looks at. -/
structure SchemaDb where
  userVersion : Int := 0
  tables : TableName → Option SqlTable := fun _ => none

/-! ## Statements

The three kinds of statements that the initialisation is made of. `none` stands for a statement
that SQLite cannot carry out. -/

/-- `CREATE TABLE IF NOT EXISTS`. -/
def createTable (name : TableName) (columns : List SqlColumn) (db : SchemaDb) : Option SchemaDb :=
  match db.tables name with
  | some _ => some db
  | none => some { db with tables := Function.update db.tables name (some { columns }) }

/-- The value of an added column in the rows already there; `none` where SQLite does not add such
a column. -/
def SqlColumn.addedValue (column : SqlColumn) : Option SqlValue :=
  match column.default with
  | .null => if column.notNull then none else some .null
  | .integer n => some (.integer n)
  | .real d => some (.real d)
  | .currentTimestamp => none

/-- `ALTER TABLE name ADD COLUMN`. It fails if the column is there already. -/
def addColumn (name : TableName) (column : SqlColumn) (db : SchemaDb) : Option SchemaDb :=
  match db.tables name, column.addedValue with
  | some table, some value =>
    if column.name ∈ table.names then none
    else
      some { db with
        tables := Function.update db.tables name
          (some
            { columns := table.columns ++ [column]
              rows := table.rows.map (· ++ [(column.name, value)]) }) }
  | _, _ => none

/-- `PRAGMA user_version = version`. -/
def setUserVersion (version : Int) (db : SchemaDb) : Option SchemaDb :=
  some { db with userVersion := version }

/-! ## The schema

The tables as the text of `edge_store_init_schema` defines them, then the columns of the migration,
then those that the benchmark inserts. -/

/-- `edge_store_schema_version`. -/
def edgeStoreSchemaVersion : Int := 2

/-- `INTEGER NOT NULL DEFAULT 0`. -/
def zeroColumn (column : ColumnName) : SqlColumn := { name := column, default := .integer 0 }

/-- The table of plants. -/
def plantsColumns : List SqlColumn := [{ name := .id, notNull := false }, { name := .name }]

/-- The table of assets. -/
def assetsColumns : List SqlColumn :=
  [{ name := .id, notNull := false }, { name := .plantId }, { name := .parentId, notNull := false },
    { name := .type }, { name := .name }]

/-- The table of nodes. -/
def nodesColumns : List SqlColumn :=
  [{ name := .nodeKey, notNull := false }, { name := .id }, { name := .assetId }, { name := .name },
    { name := .dataType }, { name := .writable }, { name := .modbusUnit, notNull := false },
    { name := .modbusRegister, notNull := false }, { name := .scale }]

/-- The table of events. -/
def eventDefinitionsColumns : List SqlColumn :=
  [{ name := .id, notNull := false }, { name := .assetId }, { name := .sourceNodeKey },
    { name := .conditionType }, { name := .threshold }, { name := .severity }]

/-- The table of alarms. -/
def eventHistoryColumns : List SqlColumn :=
  [{ name := .id, notNull := false }, { name := .eventId }, { name := .value },
    { name := .threshold }, { name := .severity }, { name := .createdMs }]

/-- The table of values. -/
def latestValuesColumns : List SqlColumn :=
  [{ name := .nodeId, notNull := false }, { name := .doubleValue }, { name := .updatedMs }]

/-- The table of the benchmark, at version 2. -/
def benchmarkRunsColumns : List SqlColumn :=
  [{ name := .id, notNull := false }, { name := .benchmarkName }, { name := .tagCount },
    { name := .assetCount }, { name := .eventCount }, zeroColumn .durationUs,
    zeroColumn .startupUs, { name := .readsPerSecond }, { name := .writesPerSecond },
    { name := .eventsPerSecond }, zeroColumn .avgLatencyUs, zeroColumn .p95LatencyUs,
    zeroColumn .p99LatencyUs, { name := .cpuPercentAvg, default := .real (.fin 0) },
    zeroColumn .rssMemoryKbStart, { name := .rssMemoryKbPeak }, zeroColumn .rssMemoryKbEnd,
    zeroColumn .errorCount, { name := .createdUtc, default := .currentTimestamp }]

/-- The tables of the text that `edge_store_init_schema` executes first. -/
def schemaTables : List (TableName × List SqlColumn) :=
  [(.plants, plantsColumns), (.assets, assetsColumns), (.nodes, nodesColumns),
    (.eventDefinitions, eventDefinitionsColumns), (.eventHistory, eventHistoryColumns),
    (.latestValues, latestValuesColumns), (.benchmarkRuns, benchmarkRunsColumns)]

/-- The first script: the tables that are missing, created. -/
def schemaSql : List (SchemaDb → Option SchemaDb) :=
  schemaTables.map fun table => createTable table.1 table.2

/-- The columns that version 2 adds to `benchmark_runs`. -/
def migrationColumns : List SqlColumn :=
  [zeroColumn .durationUs, zeroColumn .startupUs, zeroColumn .avgLatencyUs,
    zeroColumn .p95LatencyUs, zeroColumn .p99LatencyUs,
    { name := .cpuPercentAvg, default := .real (.fin 0) }, zeroColumn .rssMemoryKbStart,
    zeroColumn .rssMemoryKbEnd, zeroColumn .errorCount]

/-- The migration: nine columns added to the table of the benchmark. -/
def migrationSql : List (SchemaDb → Option SchemaDb) :=
  migrationColumns.map (addColumn .benchmarkRuns)

/-- The columns that the `INSERT` of `edge_benchmark_persist` names. -/
def benchmarkInsertColumns : List ColumnName :=
  [.benchmarkName, .tagCount, .assetCount, .eventCount, .durationUs, .startupUs, .readsPerSecond,
    .writesPerSecond, .eventsPerSecond, .avgLatencyUs, .p95LatencyUs, .p99LatencyUs, .cpuPercentAvg,
    .rssMemoryKbStart, .rssMemoryKbPeak, .rssMemoryKbEnd, .errorCount]

/-! ## Initialisation

`edge_store_init_schema` in three parts: creating tables, reading the version, and what that
version asks for. None of it is in a transaction, so each statement is durable by itself. -/

variable {τ : Type}

/-- A connection to a database file whose schema is of interest. -/
abbrev SchemaStore (τ : Type) := Session τ SchemaDb

/-- `exec_sql`. A script ends at its first statement that fails. -/
def execSql (engine : Engine τ) (sql : List (SchemaDb → Option SchemaDb)) (store : SchemaStore τ) :
    EdgeStatus × SchemaStore τ :=
  let r := store.script engine sql
  (if r.1 then .ok else .error, r.2)

/-- Reads `PRAGMA user_version`. The version stays 0 when there is no row. -/
def readUserVersion (engine : Engine τ) (store : SchemaStore τ) : Int × SchemaStore τ :=
  let row := store.query engine fun db => some db.userVersion
  (row.1.getD 0, row.2)

/-- The decisions of `edge_store_init_schema` after it has read the version. -/
def upgradeFrom (engine : Engine τ) (currentVersion : Int) (store : SchemaStore τ) :
    EdgeStatus × SchemaStore τ :=
  if edgeStoreSchemaVersion < currentVersion then (.error, store)
  else
    let migrated := if currentVersion = 1 then execSql engine migrationSql store else (.ok, store)
    if migrated.1 ≠ .ok then migrated
    else
      let currentVersion := if currentVersion = 1 then edgeStoreSchemaVersion else currentVersion
      if 0 < currentVersion ∧ currentVersion < edgeStoreSchemaVersion then (.error, migrated.2)
      else if currentVersion = 0 ∨ currentVersion = edgeStoreSchemaVersion then
        execSql engine [setUserVersion edgeStoreSchemaVersion] migrated.2
      else (.ok, migrated.2)

/-- `edge_store_init_schema`. -/
def edgeStoreInitSchema (engine : Engine τ) (store : SchemaStore τ) : EdgeStatus × SchemaStore τ :=
  let created := execSql engine schemaSql store
  if created.1 ≠ .ok then created
  else
    let prepared := created.2.prepare engine
    if prepared.1 = false then (.error, prepared.2)
    else
      let version := readUserVersion engine prepared.2
      upgradeFrom engine version.1 version.2

end OpcuaEdge
