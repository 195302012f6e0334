import OpcuaEdge.SchemaInit

/-!
# OpcuaEdge — what a successful schema initialisation means

A call of `edge_store_init_schema` goes by the version it reads, and by nothing else: which columns
`benchmark_runs` has is not looked at. Two slips follow. A negative version falls through every
branch and is accepted as it is (`not_initialisesRight_of_negative`), and versions 0 and 2 are
stamped on top of the columns of version 1 (`initialisesRight_current_iff`). The second is also
reached from version 1, where SQLite refuses the read of the version: `sqlite3_step` is not
`SQLITE_ROW`, and the call goes on with 0.
-/

namespace OpcuaEdge

open CStr Txn

/-! ## A call under any engine

SQLite may refuse a statement. A call then returns the error, with one exception: the read of the
version. Where that is refused the call goes on with version 0, so it works with the version it has
seen and not with the one that is there. -/

section AnyEngine

variable {τ : Type}

/-- The calls before the version is read: a statement for each table, and the preparation of the
query. -/
def creationOps : List Op := List.replicate schemaSql.length .step ++ [.prepare]

/-- The version that a call works with. A read that is refused leaves the variable at 0. -/
def versionSeen (engine : Engine τ) (env : τ) (db : SchemaDb) : Int :=
  if (engine.answer .step (engine.after creationOps env)).1 = .ok then db.userVersion else 0

/-- SQLite refuses none of the statements that a call executes. Nothing is said about the read of
the version. -/
def TakesStatements (engine : Engine τ) (env : τ) (db : SchemaDb) : Prop :=
  engine.Grants creationOps env ∧
    engine.Grants (List.replicate (upgradeScript (versionSeen engine env db)).length .step)
      (engine.after (creationOps ++ [.step]) env)

/-- The read of the version changes nothing, and delivers a version only where it is granted. -/
theorem readUserVersion_any (engine : Engine τ) {store : SchemaStore τ} {db : SchemaDb}
    (hconn : store.conn = { committed := db }) :
    (readUserVersion engine store).1 =
        (if (engine.answer .step store.env).1 = .ok then db.userVersion else 0) ∧
      (readUserVersion engine store).2.conn = { committed := db } ∧
      (readUserVersion engine store).2.env = (engine.answer .step store.env).2 := by
  obtain ⟨conn, env, log⟩ := store
  dsimp only at hconn
  subst hconn
  unfold readUserVersion Session.query Session.ask
  dsimp only
  rcases (engine.answer .step env).1 with _ | (_ | _)
  · exact ⟨rfl, rfl, rfl⟩
  · exact ⟨rfl, rfl, rfl⟩
  · exact ⟨rfl, rfl, rfl⟩

/-- Creating the tables and preparing the query of the version succeed exactly where SQLite grants
these calls .. -/
theorem creation_iff (engine : Engine τ) {store : SchemaStore τ} {db : SchemaDb}
    (hconn : store.conn = { committed := db }) :
    (store.script engine schemaSql).1 = true ∧
        ((store.script engine schemaSql).2.prepare engine).1 = true ↔
      engine.Grants creationOps store.env := by
  -- the script itself never fails: whether it is done is up to the engine alone
  have hdone : (runScript schemaSql store.conn.committed).1 = true :=
    congrArg Prod.fst (runScript_createTable schemaTables store.conn.committed)
  have hcreated : (store.script engine schemaSql).1 = true ↔ _ :=
    Session.script_iff schemaSql (congrArg Conn.txn hconn)
  rw [and_iff_left hdone] at hcreated
  unfold creationOps
  rw [engine.grants_append, hcreated, and_congr_right_iff]
  intro hgrants
  obtain ⟨-, -, henv⟩ := Session.script_of_grants schemaSql (congrArg Conn.txn hconn) hgrants
  rw [← henv hdone]
  show decide _ = true ↔ _ ∧ True
  rw [decide_eq_true_iff, and_true]
  exact Iff.rfl

/-- .. and they leave the tables of the schema behind. -/
theorem creation_done {engine : Engine τ} {store : SchemaStore τ} {db : SchemaDb}
    (hconn : store.conn = { committed := db }) (hgrants : engine.Grants creationOps store.env) :
    ((store.script engine schemaSql).2.prepare engine).2.conn =
        { committed := db.withTables schemaTables } ∧
      ((store.script engine schemaSql).2.prepare engine).2.env =
        engine.after creationOps store.env := by
  have htables : runScript schemaSql store.conn.committed = (true, db.withTables schemaTables) := by
    rw [hconn]
    exact runScript_createTable schemaTables db
  obtain ⟨hstatements, -⟩ := (engine.grants_append _ _ _).mp hgrants
  obtain ⟨-, hafter, henv⟩ :=
    Session.script_of_grants schemaSql (congrArg Conn.txn hconn) hstatements
  -- the preparation of the query leaves the data alone
  rw [htables] at hafter henv
  refine ⟨hafter, ?_⟩
  unfold creationOps
  rw [engine.after_append, ← henv rfl]
  rfl

/-- The part of a call after the read of the version. -/
theorem upgradeFrom_ok_iff (engine : Engine τ) (version : Int) {store : SchemaStore τ}
    {db : SchemaDb} (hconn : store.conn = { committed := db }) :
    (upgradeFrom engine version store).1 = .ok ↔
      engine.Grants (List.replicate (upgradeScript version).length .step) store.env ∧
        version ≤ edgeStoreSchemaVersion ∧ (runScript (upgradeScript version) db).1 = true := by
  have hstatus : ∀ b : Bool, (if b then EdgeStatus.ok else .error) = .ok ↔ b = true := by decide
  have hscript : (store.script engine (upgradeScript version)).1 = true ↔ _ :=
    Session.script_iff (upgradeScript version) (congrArg Conn.txn hconn)
  rw [hconn] at hscript
  rw [upgradeFrom_eq]
  by_cases hnewer : edgeStoreSchemaVersion < version
  · rw [if_pos hnewer]
    exact iff_of_false (fun h => by cases h) fun h => absurd hnewer (not_lt.mpr h.2.1)
  · rw [if_neg hnewer, and_iff_right (not_lt.mp hnewer), ← hscript]
    exact hstatus _

/-- What a call that has read the version does to the database, where it succeeds. -/
theorem upgradeFrom_conn {engine : Engine τ} {version : Int} {store : SchemaStore τ}
    {db : SchemaDb} (hconn : store.conn = { committed := db })
    (hok : (upgradeFrom engine version store).1 = .ok) :
    (upgradeFrom engine version store).2.conn =
      { committed := (runScript (upgradeScript version) db).2 } := by
  obtain ⟨hgrants, hversion, -⟩ := (upgradeFrom_ok_iff engine version hconn).mp hok
  obtain ⟨-, hafter, -⟩ := Session.script_of_grants _ (congrArg Conn.txn hconn) hgrants
  rw [upgradeFrom_eq, if_neg (not_lt.mpr hversion)]
  rw [hconn] at hafter
  exact hafter

/-- The status of a call is one of the two. -/
theorem upgradeFrom_status (engine : Engine τ) (version : Int) (store : SchemaStore τ) :
    (upgradeFrom engine version store).1 ≠ .ok → (upgradeFrom engine version store).1 = .error := by
  have hstatus : ∀ b : Bool, (if b then EdgeStatus.ok else .error) ≠ .ok →
      (if b then EdgeStatus.ok else .error) = .error := by decide
  rw [upgradeFrom_eq]
  split_ifs
  · exact fun _ => rfl
  · exact hstatus _

/-- **The call as a whole**: the version that it has seen decides, once the tables are there. -/
theorem edgeStoreInitSchema_granted {engine : Engine τ} {store : SchemaStore τ} {db : SchemaDb}
    (hconn : store.conn = { committed := db }) (hgrants : engine.Grants creationOps store.env) :
    ∃ read : SchemaStore τ,
      edgeStoreInitSchema engine store =
          upgradeFrom engine (versionSeen engine store.env db) read ∧
        read.conn = { committed := db.withTables schemaTables } ∧
        read.env = engine.after (creationOps ++ [.step]) store.env := by
  obtain ⟨hcreated, hprepared⟩ := (creation_iff engine hconn).mpr hgrants
  obtain ⟨hafter, henv⟩ := creation_done hconn hgrants
  obtain ⟨hseen, hsame, hreadenv⟩ := readUserVersion_any engine hafter
  rw [henv] at hseen hreadenv
  -- the version is read from the tables' database, which has the old user_version
  refine ⟨(readUserVersion engine ((store.script engine schemaSql).2.prepare engine).2).2, ?_,
    hsame, ?_⟩
  · rw [edgeStoreInitSchema_eq, hcreated, hprepared, if_neg (by decide), if_neg (by decide), hseen]
    rfl
  · rw [hreadenv, engine.after_append]
    rfl

/-- A call that SQLite does not let create the tables returns the error. -/
theorem edgeStoreInitSchema_not_granted {engine : Engine τ} {store : SchemaStore τ} {db : SchemaDb}
    (hconn : store.conn = { committed := db }) (hrefused : ¬ engine.Grants creationOps store.env) :
    (edgeStoreInitSchema engine store).1 = .error := by
  rw [← creation_iff engine hconn, not_and_or] at hrefused
  rw [edgeStoreInitSchema_eq]
  rcases hrefused with hcreated | hprepared
  · rw [if_pos (Bool.eq_false_of_not_eq_true hcreated)]
  · rw [if_pos (Bool.eq_false_of_not_eq_true hprepared)]
    split_ifs
    · rfl
    · rfl

/-- A call succeeds exactly where SQLite takes its statements, the version it has seen is not
newer, and the script of that version can be carried out. -/
theorem edgeStoreInitSchema_ok_iff (engine : Engine τ) {store : SchemaStore τ} {db : SchemaDb}
    (hconn : store.conn = { committed := db }) :
    (edgeStoreInitSchema engine store).1 = .ok ↔
      TakesStatements engine store.env db ∧
        versionSeen engine store.env db ≤ edgeStoreSchemaVersion ∧
        (runScript (upgradeScript (versionSeen engine store.env db))
          (db.withTables schemaTables)).1 = true := by
  unfold TakesStatements
  by_cases hgrants : engine.Grants creationOps store.env
  · obtain ⟨read, hcall, hread, henv⟩ := edgeStoreInitSchema_granted hconn hgrants
    rw [hcall, upgradeFrom_ok_iff engine _ hread, henv, and_iff_right hgrants]
  · rw [edgeStoreInitSchema_not_granted hconn hgrants]
    exact iff_of_false (fun h => by cases h) fun h => hgrants h.1.1

/-- What a successful call leaves behind. -/
theorem edgeStoreInitSchema_conn {engine : Engine τ} {store : SchemaStore τ} {db : SchemaDb}
    (hconn : store.conn = { committed := db }) (hok : (edgeStoreInitSchema engine store).1 = .ok) :
    (edgeStoreInitSchema engine store).2.conn =
      { committed := (runScript (upgradeScript (versionSeen engine store.env db))
          (db.withTables schemaTables)).2 } := by
  obtain ⟨⟨hgrants, -⟩, -⟩ := (edgeStoreInitSchema_ok_iff engine hconn).mp hok
  obtain ⟨read, hcall, hread, -⟩ := edgeStoreInitSchema_granted hconn hgrants
  rw [hcall] at hok ⊢
  exact upgradeFrom_conn hread hok

/-- **Every other outcome is a refusal**, whatever SQLite answers. -/
theorem edgeStoreInitSchema_error {engine : Engine τ} {store : SchemaStore τ} {db : SchemaDb}
    (hconn : store.conn = { committed := db }) (hnot : (edgeStoreInitSchema engine store).1 ≠ .ok) :
    (edgeStoreInitSchema engine store).1 = .error := by
  by_cases hgrants : engine.Grants creationOps store.env
  · obtain ⟨read, hcall, -⟩ := edgeStoreInitSchema_granted hconn hgrants
    rw [hcall] at hnot ⊢
    exact upgradeFrom_status engine _ read hnot
  · exact edgeStoreInitSchema_not_granted hconn hgrants

/-- A database of version 2 stays as it is, whatever SQLite refuses: the version that the call sees
is 2 or, where the read is refused, 0, and both have the stamp as their whole script. -/
theorem VersionTwo.unchanged (engine : Engine τ) {store : SchemaStore τ} {db : SchemaDb}
    (hconn : store.conn = { committed := db }) (h : VersionTwo db) :
    (edgeStoreInitSchema engine store).2.conn = { committed := db } := by
  have hcreate : ∀ change ∈ schemaSql, change db = some db := by
    intro change hmem
    obtain ⟨defined, hdefined, rfl⟩ := List.mem_map.mp hmem
    rw [createTable_eq, SchemaDb.withTables_of_present]
    intro table htable
    rw [List.mem_singleton.mp htable]
    exact h.tables defined hdefined
  have hstamp : ∀ version : Int, version = 0 ∨ version = 2 →
      ∀ change ∈ upgradeScript version, change db = some db := by
    intro version hversion change hmem
    rw [upgradeScript_current hversion, List.mem_singleton] at hmem
    rw [hmem]
    exact congrArg some h.stamped_eq
  have hcreated := Session.script_fixed engine schemaSql hconn hcreate
  rw [edgeStoreInitSchema_eq]
  split_ifs with hscript hprepared
  · exact hcreated
  · exact hcreated
  · have hprepare : ((store.script engine schemaSql).2.prepare engine).2.conn =
        { committed := db } := hcreated
    obtain ⟨hseen, hsame, -⟩ := readUserVersion_any engine hprepare
    rw [h.version] at hseen
    -- the version read is 2, or 0 where the read was refused, and both lead to the stamp only
    have hversion : ∀ v : Int, v = (if (engine.answer .step
        ((store.script engine schemaSql).2.prepare engine).2.env).1 = .ok then 2 else 0) →
        v = 0 ∨ v = 2 := by
      intro v hv
      rw [hv]
      split_ifs
      · exact .inr rfl
      · exact .inl rfl
    rw [upgradeFrom_eq]
    split_ifs
    · exact hsame
    · exact Session.script_fixed engine _ hsame (hstamp _ (hversion _ hseen))

end AnyEngine

/-! ## What a success means

A call is right if its success means version 2. It is so except for two kinds of databases, which
are told by the version that the call has seen and by the columns of `benchmark_runs`. -/

section Right

variable {τ : Type} {engine : Engine τ} {store : SchemaStore τ} {db : SchemaDb}

/-- A successful call has brought the schema up to date, and another one changes nothing. Every
other outcome is a refusal. -/
structure InitialisesRight (engine : Engine τ) (store : SchemaStore τ) : Prop where
  version : (edgeStoreInitSchema engine store).1 = .ok →
    (edgeStoreInitSchema engine store).2.conn.committed.userVersion = 2
  tables : (edgeStoreInitSchema engine store).1 = .ok →
    (edgeStoreInitSchema engine store).2.conn.committed.AllTables
  benchmark : (edgeStoreInitSchema engine store).1 = .ok →
    ∃ table,
      (edgeStoreInitSchema engine store).2.conn.committed.tables .benchmarkRuns = some table ∧
      ∀ column ∈ benchmarkInsertColumns, column ∈ table.names
  /-- Another call, whatever SQLite answers to it, changes nothing. It succeeds too if SQLite takes
  its statements. -/
  again : (edgeStoreInitSchema engine store).1 = .ok →
    ∀ (engine' : Engine τ) (next : SchemaStore τ),
      next.conn = (edgeStoreInitSchema engine store).2.conn →
        (edgeStoreInitSchema engine' next).2.conn = next.conn ∧
          (TakesStatements engine' next.env next.conn.committed →
            (edgeStoreInitSchema engine' next).1 = .ok)
  refusal : (edgeStoreInitSchema engine store).1 ≠ .ok →
    (edgeStoreInitSchema engine store).1 = .error

/-- The version that a call sees on a database of version 2. -/
theorem VersionTwo.seen (h : VersionTwo db) (engine : Engine τ) (env : τ) :
    versionSeen engine env db = 0 ∨ versionSeen engine env db = 2 := by
  unfold versionSeen
  rw [h.version]
  split_ifs
  · exact .inr rfl
  · exact .inl rfl

/-- On a database of version 2 a call whose statements are taken succeeds. -/
theorem VersionTwo.accepted (h : VersionTwo db) (hconn : store.conn = { committed := db })
    (htakes : TakesStatements engine store.env db) :
    (edgeStoreInitSchema engine store).1 = .ok := by
  have hseen := h.seen engine store.env
  refine (edgeStoreInitSchema_ok_iff engine hconn).mpr ⟨htakes, ?_, ?_⟩
  · show _ ≤ (2 : Int)
    omega
  · rw [runScript_upgrade_current hseen]

/-- The script of the version that the call has seen decides. -/
theorem taken_of_script (hconn : store.conn = { committed := db }) {db' : SchemaDb}
    (htakes : TakesStatements engine store.env db)
    (hversion : versionSeen engine store.env db ≤ 2)
    (hscript : runScript (upgradeScript (versionSeen engine store.env db))
      (db.withTables schemaTables) = (true, db')) :
    (edgeStoreInitSchema engine store).1 = .ok ∧
      (edgeStoreInitSchema engine store).2.conn = { committed := db' } := by
  have hok : (edgeStoreInitSchema engine store).1 = .ok :=
    (edgeStoreInitSchema_ok_iff engine hconn).mpr ⟨htakes, hversion, by rw [hscript]⟩
  have hafter := edgeStoreInitSchema_conn hconn hok
  rw [hscript] at hafter
  exact ⟨hok, hafter⟩

theorem initialisesRight_of_versionTwo (hok : (edgeStoreInitSchema engine store).1 = .ok)
    (hafter : (edgeStoreInitSchema engine store).2.conn = { committed := db }) (h : VersionTwo db) :
    InitialisesRight engine store := by
  obtain ⟨table, htable, hcolumns⟩ := h.benchmark
  -- one part after the other; a later call runs on the version 2 database
  refine ⟨fun _ => ?_, fun _ => ?_, fun _ => ⟨table, ?_, fun column hmem => ?_⟩,
    fun _ engine' next hnext => ⟨?_, fun htakes => ?_⟩, fun hnot => absurd hok hnot⟩
  · rw [hafter]
    exact h.version
  · rw [hafter]
    exact h.tables
  · rw [hafter]
    exact htable
  · exact hcolumns.mem_iff.mpr (benchmarkInsertColumns_versionTwo column hmem)
  · rw [hafter] at hnext
    rw [hnext]
    exact h.unchanged engine' hnext
  · rw [hafter] at hnext
    rw [hnext] at htakes
    exact h.accepted hnext htakes

theorem initialisesRight_of_error (h : (edgeStoreInitSchema engine store).1 = .error) :
    InitialisesRight engine store where
  version hok := by rw [h] at hok; cases hok
  tables hok := by rw [h] at hok; cases hok
  benchmark hok := by rw [h] at hok; cases hok
  again hok := by rw [h] at hok; cases hok
  refusal _ := h

/-- A call that cannot succeed returns the error. -/
theorem initialisesRight_of_not_ok (hconn : store.conn = { committed := db })
    (h : (edgeStoreInitSchema engine store).1 ≠ .ok) : InitialisesRight engine store :=
  initialisesRight_of_error (edgeStoreInitSchema_error hconn h)

/-- No branch of the code deals with a negative version: it is accepted, and stays. -/
theorem not_initialisesRight_of_negative (hconn : store.conn = { committed := db })
    (htakes : TakesStatements engine store.env db)
    (hnegative : versionSeen engine store.env db < 0) : ¬ InitialisesRight engine store := by
  have hscript : runScript (upgradeScript (versionSeen engine store.env db))
      (db.withTables schemaTables) = (true, db.withTables schemaTables) := by
    rw [upgradeScript_negative hnegative]
    rfl
  obtain ⟨hok, hafter⟩ := taken_of_script hconn htakes (by omega) hscript
  -- the version that is seen is the one that is there, for it is not 0
  have hthere : db.userVersion < 0 := by
    unfold versionSeen at hnegative
    split_ifs at hnegative with hread
    · exact hnegative
    · exact absurd hnegative (lt_irrefl 0)
  intro h
  have hversion := h.version hok
  rw [hafter] at hversion
  have hsame : db.userVersion = 2 := hversion
  omega

/-- Versions 0 and 2 are stamped whatever the columns are, and the stamp hides that some are
missing. -/
theorem initialisesRight_current_iff (hconn : store.conn = { committed := db })
    (htakes : TakesStatements engine store.env db)
    (hcurrent : versionSeen engine store.env db = 0 ∨ versionSeen engine store.env db = 2)
    (hcolumns : ∀ table, db.tables .benchmarkRuns = some table →
      table.HasColumns versionOneColumns ∨ table.HasColumns versionTwoColumns) :
    InitialisesRight engine store ↔ ¬ db.BenchmarkColumns versionOneColumns := by
  have hscript := runScript_upgrade_current hcurrent (db.withTables schemaTables)
  obtain ⟨hok, hafter⟩ := taken_of_script hconn htakes (by omega) hscript
  constructor
  · -- with the old columns the stamp is set, and duration_us is still missing
    rintro h ⟨table, htable, hone⟩
    obtain ⟨table', htable', hinsert⟩ := h.benchmark hok
    rw [hafter] at htable'
    have hsame := htable'.symm.trans (SchemaDb.tables_withTables htable schemaTables)
    cases hsame
    have hmem := hone.mem_iff.mp (hinsert .durationUs (by decide))
    exact absurd hmem (by decide)
  · intro hold
    have htwo : ∀ table, db.tables .benchmarkRuns = some table →
        table.HasColumns versionTwoColumns := fun table htable =>
      (hcolumns table htable).resolve_left fun hone => hold ⟨table, htable, hone⟩
    exact initialisesRight_of_versionTwo hok hafter (versionTwo_stamped htwo)

/-- Version 1 is migrated, or refused where the columns to be added are there already. -/
theorem initialisesRight_of_one (hconn : store.conn = { committed := db })
    (htakes : TakesStatements engine store.env db) (hone : versionSeen engine store.env db = 1)
    (hcolumns : ∀ table, db.tables .benchmarkRuns = some table →
      table.HasColumns versionOneColumns ∨ table.HasColumns versionTwoColumns) :
    InitialisesRight engine store := by
  have hversion : db.userVersion = 1 := by
    unfold versionSeen at hone
    split_ifs at hone
    · exact hone
    · cases hone
  -- with the old columns the migration goes through, with the new ones it is stuck at the first
  by_cases hold : db.BenchmarkColumns versionOneColumns
  · obtain ⟨table, htable, hcols⟩ := hold
    have hscript := runScript_upgrade_one (by exact hversion)
      (SchemaDb.tables_withTables htable schemaTables) hcols
    rw [SchemaDb.withTables_userVersion, hversion, ← hone] at hscript
    obtain ⟨hok, hafter⟩ := taken_of_script hconn htakes (by omega) hscript
    exact initialisesRight_of_versionTwo hok hafter
      (versionTwo_migrated db.allTables_withTables hcols)
  · obtain ⟨table, htable, htwo⟩ := db.benchmarkColumns_withTables fun table htable =>
      (hcolumns table htable).resolve_left fun hcols => hold ⟨table, htable, hcols⟩
    have hpresent : .durationUs ∈ table.names := htwo.mem_iff.mpr (by decide)
    refine initialisesRight_of_not_ok hconn fun hok => ?_
    obtain ⟨-, -, hdone⟩ := (edgeStoreInitSchema_ok_iff engine hconn).mp hok
    have hstuck := runScript_upgrade_stuck htable hpresent hversion 9
    rw [SchemaDb.withTables_userVersion, upgradeScript_one hversion] at hstuck
    rw [upgradeScript_one hone] at hdone
    have hfailed : (runScript (migrationSql ++ [setUserVersion edgeStoreSchemaVersion])
        (db.withTables schemaTables)).1 = false := congrArg Prod.fst hstuck
    rw [hfailed] at hdone
    cases hdone

/-- **A successful initialisation means version 2** exactly where SQLite refuses one of the call's
statements, or the version that the call sees is not negative and a `benchmark_runs` of version 1
does not come with version 0 or 2. A refused read of the version counts as version 0. -/
theorem init_schema_iff (engine : Engine τ) (store : SchemaStore τ) (db : SchemaDb)
    (hconn : store.conn = { committed := db })
    (hcolumns : ∀ table, db.tables .benchmarkRuns = some table →
      table.HasColumns versionOneColumns ∨ table.HasColumns versionTwoColumns) :
    InitialisesRight engine store ↔
      (TakesStatements engine store.env db →
        0 ≤ versionSeen engine store.env db ∧
          (db.BenchmarkColumns versionOneColumns →
            versionSeen engine store.env db ≠ 0 ∧ versionSeen engine store.env db ≠ 2)) := by
  by_cases htakes : TakesStatements engine store.env db
  · rw [imp_iff_right htakes]
    have hcases : versionSeen engine store.env db < 0 ∨
        (versionSeen engine store.env db = 0 ∨ versionSeen engine store.env db = 2) ∨
        versionSeen engine store.env db = 1 ∨ 2 < versionSeen engine store.env db := by omega
    rcases hcases with hnegative | hcurrent | hone | hnewer
    · have hnot := not_initialisesRight_of_negative hconn htakes hnegative
      exact iff_of_false hnot fun h => absurd h.1 (not_le.mpr hnegative)
    · rw [initialisesRight_current_iff hconn htakes hcurrent hcolumns]
      have hnonneg : 0 ≤ versionSeen engine store.env db := by omega
      have himpossible : ¬ (versionSeen engine store.env db ≠ 0 ∧
          versionSeen engine store.env db ≠ 2) := by omega
      exact ⟨fun hold => ⟨hnonneg, fun h => absurd h hold⟩, fun h hold => himpossible (h.2 hold)⟩
    · refine iff_of_true (initialisesRight_of_one hconn htakes hone hcolumns) ?_
      exact ⟨by omega, fun _ => by omega⟩
    · have hnot : (edgeStoreInitSchema engine store).1 ≠ .ok := fun hok =>
        absurd hnewer (not_lt.mpr ((edgeStoreInitSchema_ok_iff engine hconn).mp hok).2.1)
      refine iff_of_true (initialisesRight_of_not_ok hconn hnot) ?_
      exact ⟨by omega, fun _ => by omega⟩
  · -- a call that is refused a statement returns the error, and is right
    have hnot : (edgeStoreInitSchema engine store).1 ≠ .ok := fun hok =>
      htakes ((edgeStoreInitSchema_ok_iff engine hconn).mp hok).1
    exact iff_of_true (initialisesRight_of_not_ok hconn hnot) fun h => absurd h htakes

end Right

/-- The first start, on an empty file. -/
theorem empty_initialisesRight : InitialisesRight willingEngine (opened {}) :=
  (init_schema_iff willingEngine (opened {}) {} rfl (fun table htable => by cases htable)).mpr
    fun _ => ⟨by decide, fun ⟨table, htable, _⟩ => by cases htable⟩

/-- A negative version is accepted, and stays. -/
theorem negative_version_accepted :
    (edgeStoreInitSchema willingEngine (opened { userVersion := -1 })).1 = .ok ∧
      (edgeStoreInitSchema willingEngine
        (opened { userVersion := -1 })).2.conn.committed.userVersion = -1 ∧
      ¬ InitialisesRight willingEngine (opened { userVersion := -1 }) := by
  have hok : (edgeStoreInitSchema willingEngine (opened { userVersion := -1 })).1 = .ok := by
    decide +kernel
  have hversion : (edgeStoreInitSchema willingEngine
      (opened { userVersion := -1 })).2.conn.committed.userVersion = -1 := by decide +kernel
  refine ⟨hok, hversion, fun h => ?_⟩
  have htwo := h.version hok
  rw [hversion] at htwo
  cases htwo

/-- A database of version 1. -/
def olderDb : SchemaDb where
  userVersion := 1
  tables name := (schemaTables.lookup name).map fun columns =>
    { columns := columns.filter (·.name ∈ versionOneColumns ∨ name ≠ .benchmarkRuns) }

/-- An engine that refuses its ninth call, and no other: behind seven tables and the preparation,
the read of the version. -/
def unreadEngine : Engine Nat where
  answer _ made := (if made = 8 then .fail false else .ok, made + 1)

-- the migration is passed over, and the version of a migrated database is stamped
example :
    (edgeStoreInitSchema unreadEngine { conn := { committed := olderDb }, env := 0 }).1 = .ok ∧
      (edgeStoreInitSchema unreadEngine
        { conn := { committed := olderDb }, env := 0 }).2.conn.committed.userVersion = 2 ∧
      .durationUs ∉ (((edgeStoreInitSchema unreadEngine
        { conn := { committed := olderDb }, env := 0 }).2.conn.committed.tables
          .benchmarkRuns).map SqlTable.names).getD [] := by
  decide +kernel

end OpcuaEdge
