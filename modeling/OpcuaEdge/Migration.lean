import OpcuaEdge.SchemaGrowth

/-!
# OpcuaEdge — interrupted schema migration

A call that is cut off after `n` statements has run the first `n` of its script. Only the stamp
makes the end of the nine columns visible, so a call that is cut off between the first column and
the stamp leaves a database that no later call can migrate (`Torn`).
-/

namespace OpcuaEdge

open CStr Txn

/-! ## A call that is cut off

After any of its statements the process may be gone. Each statement is durable by itself, so the
file is as the first statements left it. -/

/-- The database after a call that was cut off after `n` statements. -/
def cutInitSchema (n : Nat) (db : SchemaDb) : SchemaDb :=
  (edgeStoreInitSchema cutEngine { conn := { committed := db }, env := n }).2.conn.committed

/-- The query of the version is a statement like the others. -/
theorem readUserVersion_cut {store : SchemaStore Nat} {db : SchemaDb} {left : Nat}
    (hconn : store.conn = { committed := db }) (hleft : store.env = left + 1) :
    readUserVersion cutEngine store =
      (db.userVersion, { store with env := left, log := store.log ++ [⟨.step, false, .ok⟩] }) := by
  obtain ⟨conn, env, log⟩ := store
  dsimp only at hconn hleft
  subst hconn hleft
  rfl

theorem upgradeFrom_cut {store : SchemaStore Nat} {db : SchemaDb}
    (hconn : store.conn = { committed := db }) (version : Int) :
    (upgradeFrom cutEngine version store).2.conn.committed =
      (runScript ((upgradeScript version).take store.env) db).2 := by
  rw [upgradeFrom_eq]
  split_ifs with hnewer
  · rw [upgradeScript_newer hnewer, List.take_nil, hconn]
    rfl
  · obtain ⟨-, hend, -⟩ := Session.script_cut (upgradeScript version) (congrArg Conn.txn hconn)
    rw [hconn] at hend
    exact congrArg Conn.committed hend

/-- Creating the tables, cut off. -/
theorem schemaSql_cut (n : Nat) (db : SchemaDb) :
    (Session.script cutEngine schemaSql { conn := { committed := db }, env := n }).1
        = decide (7 ≤ n) ∧
      (Session.script cutEngine schemaSql { conn := { committed := db }, env := n }).2.conn
        = { committed := db.withTables (schemaTables.take n) } ∧
      (7 ≤ n →
        (Session.script cutEngine schemaSql { conn := { committed := db }, env := n }).2.env
          = n - 7) := by
  obtain ⟨hdone, hafter, hleft⟩ := Session.script_cut schemaSql
    (s := { conn := { committed := db }, env := n }) rfl
  have hlength : schemaSql.length = 7 := rfl
  have htake : schemaSql.take n =
      (schemaTables.take n).map fun table => createTable table.1 table.2 :=
    List.map_take.symm
  -- CREATE TABLE IF NOT EXISTS always succeeds, so the cut alone decides how far it gets
  rw [htake, runScript_createTable] at hdone hafter
  rw [hlength, Bool.true_and] at hdone
  refine ⟨hdone, hafter, fun hn => ?_⟩
  rw [hlength] at hleft
  exact hleft (hdone.trans (decide_eq_true hn))

/-- **A call that is cut off** after it has read the version .. -/
theorem cutInitSchema_upgrading (n : Nat) (db : SchemaDb) :
    cutInitSchema (n + 8) db =
      (runScript ((upgradeScript db.userVersion).take n) (db.withTables schemaTables)).2 := by
  obtain ⟨hdone, hafter, hleft⟩ := schemaSql_cut (n + 8) db
  have hall : schemaTables.take (n + 8) = schemaTables :=
    List.take_of_length_le (by show 7 ≤ n + 8; omega)
  rw [hall] at hafter
  rw [decide_eq_true (by omega)] at hdone
  have hleft : _ = n + 1 := hleft (by omega)
  unfold cutInitSchema
  rw [edgeStoreInitSchema_eq, hdone, if_neg (by decide), Session.prepare_cut hleft]
  dsimp only
  rw [if_neg (by decide), readUserVersion_cut (by exact hafter) (by exact hleft)]
  rw [upgradeFrom_cut (by exact hafter)]
  rfl

/-- .. and before. -/
theorem cutInitSchema_creating {n : Nat} (h : n ≤ 8) (db : SchemaDb) :
    cutInitSchema n db = db.withTables (schemaTables.take n) := by
  obtain ⟨hdone, hafter, hleft⟩ := schemaSql_cut n db
  have hcases : n < 7 ∨ n = 7 ∨ n = 8 := by omega
  rcases hcases with hn | rfl | rfl
  · -- the text of the tables was not finished
    rw [decide_eq_false (by omega)] at hdone
    unfold cutInitSchema
    rw [edgeStoreInitSchema_eq, hdone, if_pos rfl, hafter]
  · -- the version cannot be read
    have hleft : _ = 0 := hleft (by omega)
    have hprepared : ∀ store : SchemaStore Nat, store.env = 0 →
        (store.prepare cutEngine).1 = false := by
      intro store hempty
      unfold Session.prepare Session.ask
      rw [hempty]
      rfl
    unfold cutInitSchema
    rw [edgeStoreInitSchema_eq, hdone, if_neg (by decide), hprepared _ hleft, if_pos rfl]
    exact congrArg Conn.committed hafter
  · exact cutInitSchema_upgrading 0 db

/-! ## The states of a database

A file is new, of version 1, of version 2, or torn: of version 1 with some columns of version 2. No
state but the last is out of reach of a later call. -/

/-- Not stamped yet, and `benchmark_runs` is missing or new. -/
structure Fresh (db : SchemaDb) : Prop where
  version : db.userVersion = 0
  benchmark : ∀ table, db.tables .benchmarkRuns = some table → table.HasColumns versionTwoColumns

/-- A database of version 1. -/
structure VersionOne (db : SchemaDb) : Prop where
  version : db.userVersion = 1
  tables : db.AllTables
  benchmark : db.BenchmarkColumns versionOneColumns

/-- Still stamped with version 1, but the first column of the migration is there. -/
structure Torn (db : SchemaDb) : Prop where
  version : db.userVersion = 1
  tables : db.AllTables
  benchmark : ∃ table, db.tables .benchmarkRuns = some table ∧ .durationUs ∈ table.names

theorem Fresh.withTables {db : SchemaDb} (h : Fresh db) (n : Nat) :
    Fresh (db.withTables (schemaTables.take n)) where
  version := h.version
  benchmark table htable := by
    rcases db.benchmark_withTables htable with hold | ⟨-, hnew⟩
    · exact h.benchmark table hold
    · exact hnew

theorem SchemaDb.AllTables.withTables {db : SchemaDb} (h : db.AllTables) (n : Nat) :
    db.withTables (schemaTables.take n) = db :=
  db.withTables_of_present fun table hmem => h table (List.mem_of_mem_take hmem)

theorem upgradeScript_current_take {version : Int} (h : version = 0 ∨ version = 2) (n : Nat) :
    (upgradeScript version).take (n + 1) = upgradeScript version := by
  rw [upgradeScript_current h]
  exact List.take_of_length_le (by show 1 ≤ n + 1; omega)

/-! ## What a call does to each state

Case by case: a new file gets tables and perhaps its version; version 2 and torn files stay as they
are; version 1 is migrated, torn or left alone, depending on where it was cut. -/

theorem Fresh.cut {db : SchemaDb} (h : Fresh db) (n : Nat) :
    Fresh (cutInitSchema n db) ∨ VersionTwo (cutInitSchema n db) := by
  by_cases hn : n ≤ 8
  · rw [cutInitSchema_creating hn]
    exact .inl (h.withTables n)
  · obtain ⟨m, rfl⟩ : ∃ m, n = m + 1 + 8 := ⟨n - 9, by omega⟩
    rw [cutInitSchema_upgrading, upgradeScript_current_take (.inl h.version),
      runScript_upgrade_current (.inl h.version)]
    exact .inr (versionTwo_stamped h.benchmark)

theorem VersionTwo.cut {db : SchemaDb} (h : VersionTwo db) (n : Nat) : cutInitSchema n db = db := by
  by_cases hn : n ≤ 8
  · rw [cutInitSchema_creating hn, h.tables.withTables]
  · obtain ⟨m, rfl⟩ : ∃ m, n = m + 1 + 8 := ⟨n - 9, by omega⟩
    rw [cutInitSchema_upgrading, upgradeScript_current_take (.inr h.version),
      runScript_upgrade_current (.inr h.version), db.withTables_of_present h.tables]
    exact h.stamped_eq

/-- A torn file: the first `ALTER TABLE` fails, and nothing is changed. -/
theorem Torn.cut {db : SchemaDb} (h : Torn db) (n : Nat) : cutInitSchema n db = db := by
  obtain ⟨table, htable, hold⟩ := h.benchmark
  by_cases hn : n ≤ 8
  · rw [cutInitSchema_creating hn, h.tables.withTables]
  · obtain ⟨m, rfl⟩ : ∃ m, n = m + 1 + 8 := ⟨n - 9, by omega⟩
    rw [cutInitSchema_upgrading, db.withTables_of_present h.tables,
      runScript_upgrade_stuck htable hold h.version]

/-- A call on a database of version 1: nothing happens before the first column is added; between
it and the stamp the database is torn. -/
theorem VersionOne.cut {db : SchemaDb} (h : VersionOne db) (n : Nat) :
    (n ≤ 8 → cutInitSchema n db = db) ∧ (18 ≤ n → VersionTwo (cutInitSchema n db)) ∧
      (8 < n → n < 18 → Torn (cutInitSchema n db)) := by
  obtain ⟨table, htable, hone⟩ := h.benchmark
  have hpresent := db.withTables_of_present h.tables
  refine ⟨fun hn => ?_, fun hn => ?_, fun hn hn' => ?_⟩
  · rw [cutInitSchema_creating hn, h.tables.withTables]
  · -- ten statements behind the eight tables: nine columns and the stamp
    obtain ⟨m, rfl⟩ : ∃ m, n = m + 10 + 8 := ⟨n - 18, by omega⟩
    have hall : (upgradeScript db.userVersion).take (m + 10) = upgradeScript db.userVersion := by
      refine List.take_of_length_le ?_
      rw [upgradeScript_one h.version]
      show 10 ≤ m + 10
      omega
    rw [cutInitSchema_upgrading, hpresent, hall, runScript_upgrade_one h.version htable hone]
    exact versionTwo_migrated h.tables hone
  · -- some columns, but not the stamp
    obtain ⟨m, rfl⟩ : ∃ m, n = m + 1 + 8 := ⟨n - 9, by omega⟩
    have hcolumns : (upgradeScript db.userVersion).take (m + 1) = migrationSql.take (m + 1) := by
      rw [upgradeScript_one h.version]
      exact List.take_append_of_le_length (by show m + 1 ≤ 9; omega)
    rw [cutInitSchema_upgrading, hpresent, hcolumns, runScript_migration htable hone]
    refine ⟨h.version, h.tables.withTable _ _, _, db.withTable_self _ _, ?_⟩
    rw [SqlTable.names_withColumns]
    exact List.mem_append_right _ (List.mem_cons_self ..)

/-! ## Rows

Wherever a call is cut off, no row is lost. -/

theorem RowsKept.cut {start db : SchemaDb} (h : RowsKept start db) (n : Nat) :
    RowsKept start (cutInitSchema n db) := by
  have hkept := rowsKept_keptBySchema start
  have hcreated : ∀ m, RowsKept start (db.withTables (schemaTables.take m)) := by
    intro m
    have hsql := hkept.runScript 0 h (schemaSql.take m)
      fun change hmem => .inl (List.mem_of_mem_take hmem)
    rw [schemaSql, ← List.map_take, runScript_createTable] at hsql
    exact hsql
  by_cases hn : n ≤ 8
  · rw [cutInitSchema_creating hn]
    exact hcreated n
  · obtain ⟨m, rfl⟩ : ∃ m, n = m + 8 := ⟨n - 8, by omega⟩
    rw [cutInitSchema_upgrading]
    exact hkept.runScript _ (hcreated 7) _ fun _ hmem => .inr (List.mem_of_mem_take hmem)

/-! ## Runs

Several calls, each cut off somewhere. A cut in the middle of a migration is what must not
happen. -/

/-- The database after calls that were cut off, each after so many statements. -/
def afterCuts (cuts : List Nat) (db : SchemaDb) : SchemaDb :=
  cuts.foldl (fun db n => cutInitSchema n db) db

/-- Every call that finds version 1 is cut off before its first `ALTER TABLE`, or not before its
stamp. -/
def SafeCuts (cuts : List Nat) (db : SchemaDb) : Prop :=
  ∀ before n, before ++ [n] <+: cuts → (afterCuts before db).userVersion = 1 → n ≤ 8 ∨ 18 ≤ n

/-- The first cut is safe, and the others are on what it left. -/
theorem safeCuts_cons (n : Nat) (rest : List Nat) (db : SchemaDb) :
    SafeCuts (n :: rest) db ↔
      (db.userVersion = 1 → n ≤ 8 ∨ 18 ≤ n) ∧ SafeCuts rest (cutInitSchema n db) := by
  constructor
  · intro h
    refine ⟨h [] n ⟨rest, rfl⟩, fun before m hprefix => ?_⟩
    exact h (n :: before) m (List.cons_prefix_cons.mpr ⟨rfl, hprefix⟩)
  · rintro ⟨hfirst, hrest⟩ before m hprefix hversion
    cases before with
    | nil =>
      obtain ⟨rfl, -⟩ := List.cons_prefix_cons.mp hprefix
      exact hfirst hversion
    | cons first before =>
      obtain ⟨rfl, hlater⟩ := List.cons_prefix_cons.mp hprefix
      exact hrest before m hlater hversion

theorem afterCuts_rowsKept {start : SchemaDb} (cuts : List Nat) :
    ∀ db : SchemaDb, RowsKept start db → RowsKept start (afterCuts cuts db) := by
  induction cuts with
  | nil => intro db h; exact h
  | cons n rest ih => intro db h; exact ih _ (h.cut n)

theorem Torn.afterCuts {db : SchemaDb} (h : Torn db) (cuts : List Nat) :
    OpcuaEdge.afterCuts cuts db = db := by
  induction cuts with
  | nil => rfl
  | cons n rest ih =>
    show OpcuaEdge.afterCuts rest (cutInitSchema n db) = db
    rw [h.cut]
    exact ih

/-- A state from which a call that nothing interrupts succeeds. -/
def Sound (db : SchemaDb) : Prop := Fresh db ∨ VersionOne db ∨ VersionTwo db

/-- A safe cut leads from a state that can be repaired to another one .. -/
theorem Sound.cut {db : SchemaDb} (h : Sound db) {n : Nat}
    (hsafe : db.userVersion = 1 → n ≤ 8 ∨ 18 ≤ n) : Sound (cutInitSchema n db) := by
  rcases h with hfresh | hone | htwo
  · rcases hfresh.cut n with hfresh | htwo
    · exact .inl hfresh
    · exact .inr (.inr htwo)
  · obtain ⟨hbefore, hafter, -⟩ := hone.cut n
    rcases hsafe hone.version with hn | hn
    · rw [hbefore hn]
      exact .inr (.inl hone)
    · exact .inr (.inr (hafter hn))
  · rw [htwo.cut]
    exact .inr (.inr htwo)

/-- .. and any other cut tears the file. -/
theorem Sound.torn_of_unsafe {db : SchemaDb} (h : Sound db) {n : Nat}
    (hcaught : ¬ (db.userVersion = 1 → n ≤ 8 ∨ 18 ≤ n)) : Torn (cutInitSchema n db) := by
  obtain ⟨hversion, hn⟩ := Classical.not_imp.mp hcaught
  rcases h with hfresh | hone | htwo
  · rw [hfresh.version] at hversion
    omega
  · exact (hone.cut n).2.2 (by omega) (by omega)
  · rw [htwo.version] at hversion
    omega

/-- **A run of interrupted calls** keeps the database sound exactly if its cuts are safe. -/
theorem Sound.afterCuts (cuts : List Nat) :
    ∀ {db : SchemaDb}, Sound db →
      (SafeCuts cuts db → Sound (OpcuaEdge.afterCuts cuts db)) ∧
      (¬ SafeCuts cuts db → Torn (OpcuaEdge.afterCuts cuts db)) := by
  induction cuts with
  | nil =>
    intro db h
    refine ⟨fun _ => h, fun hcaught => absurd ?_ hcaught⟩
    intro before n hprefix
    simp at hprefix
  | cons n rest ih =>
    intro db h
    rw [safeCuts_cons]
    -- a safe cut leaves a sound file; the first one inside the ALTERs tears it for good
    by_cases hfirst : db.userVersion = 1 → n ≤ 8 ∨ 18 ≤ n
    · obtain ⟨hsound, htorn⟩ := ih (h.cut hfirst)
      exact ⟨fun hsafe => hsound hsafe.2, fun hcaught => htorn fun hsafe => hcaught ⟨hfirst, hsafe⟩⟩
    · have htorn := h.torn_of_unsafe hfirst
      refine ⟨fun hsafe => absurd hsafe.1 hfirst, fun _ => ?_⟩
      show Torn (OpcuaEdge.afterCuts rest (cutInitSchema n db))
      rw [htorn.afterCuts]
      exact htorn

/-! ## The call after them

The first call that nothing interrupts. -/

section Uncut

variable {τ : Type} {engine : Engine τ}

/-- It brings every state that can be repaired to version 2 .. -/
theorem Sound.uncut (hengine : engine.NeverRefuses) {store : SchemaStore τ} {db : SchemaDb}
    (hconn : store.conn = { committed := db }) (h : Sound db) :
    (edgeStoreInitSchema engine store).1 = .ok ∧
      ∃ db', (edgeStoreInitSchema engine store).2.conn = { committed := db' } ∧ VersionTwo db' := by
  -- the three sound files: fresh, version 1 with its columns, version 2
  rcases h with hfresh | hone | htwo
  · have hscript := runScript_upgrade_current (.inl hfresh.version) (db.withTables schemaTables)
    obtain ⟨hstatus, hafter⟩ :=
      uncut_of_script hengine hconn (by rw [hfresh.version]; decide) hscript
    exact ⟨hstatus, _, hafter, versionTwo_stamped hfresh.benchmark⟩
  · obtain ⟨table, htable, hcolumns⟩ := hone.benchmark
    have hscript := runScript_upgrade_one hone.version htable hcolumns
    rw [← db.withTables_of_present hone.tables, SchemaDb.withTables_userVersion] at hscript
    obtain ⟨hstatus, hafter⟩ :=
      uncut_of_script hengine hconn (by rw [hone.version]; decide) hscript
    refine ⟨hstatus, _, hafter, ?_⟩
    rw [db.withTables_of_present hone.tables]
    exact versionTwo_migrated hone.tables hcolumns
  · obtain ⟨hstatus, hafter⟩ := htwo.uncut hengine hconn
    exact ⟨hstatus, db, hafter, htwo⟩

/-- .. and fails on a torn one. -/
theorem Torn.uncut (hengine : engine.NeverRefuses) {store : SchemaStore τ} {db : SchemaDb}
    (hconn : store.conn = { committed := db }) (h : Torn db) :
    (edgeStoreInitSchema engine store).1 = .error := by
  obtain ⟨table, htable, hold⟩ := h.benchmark
  rw [← db.withTables_of_present h.tables] at htable
  exact uncut_stuck hengine hconn h.version htable hold

/-- The result of a call, as it should be when the calls before it were interrupted. -/
structure Migrated (start : SchemaDb) (result : EdgeStatus × SchemaStore τ) : Prop where
  status : result.1 = .ok
  version : result.2.conn.committed.userVersion = 2
  benchmark : result.2.conn.committed.BenchmarkColumns versionTwoColumns
  rows : RowsKept start result.2.conn.committed

/-- **Schema migration can be restarted** exactly if no call was cut off between its first
`ALTER TABLE` and its stamp. -/
theorem migration_restartable_iff (engine : Engine τ) (hengine : engine.NeverRefuses) (env : τ)
    (start : SchemaDb) (hstart : start = {} ∨ VersionOne start) (cuts : List Nat) :
    Migrated start
        (edgeStoreInitSchema engine { conn := { committed := afterCuts cuts start }, env := env }) ↔
      SafeCuts cuts start := by
  have hsound : Sound start := by
    rcases hstart with rfl | hone
    · exact .inl ⟨rfl, fun table htable => by cases htable⟩
    · exact .inr (.inl hone)
  have hconn : (⟨{ committed := afterCuts cuts start }, env, []⟩ : SchemaStore τ).conn
      = { committed := afterCuts cuts start } := rfl
  obtain ⟨hsafe, hcaught⟩ := hsound.afterCuts cuts
  constructor
  · intro hmigrated
    -- an unsafe cut leaves a torn file, on which the migration fails for good
    by_contra hcuts
    have hstuck := (hcaught hcuts).uncut hengine hconn
    rw [hmigrated.status] at hstuck
    cases hstuck
  · intro hcuts
    obtain ⟨hstatus, db', hafter, htwo⟩ := (hsafe hcuts).uncut hengine hconn
    have hkept : (⟨{ committed := afterCuts cuts start }, env, []⟩ : SchemaStore τ).conn.All
        (RowsKept start) := ⟨afterCuts_rowsKept cuts start (RowsKept.refl start), nofun⟩
    have hrows := ((rowsKept_keptBySchema start).initSchema engine hkept).1
    rw [hafter] at hrows
    exact {
      status := hstatus
      version := by rw [hafter]; exact htwo.version
      benchmark := by rw [hafter]; exact htwo.benchmark
      rows := by rw [hafter]; exact hrows }

end Uncut

/-- A database of version 1 with one run of a benchmark. -/
def versionOneDb : SchemaDb where
  userVersion := 1
  tables name := (schemaTables.lookup name).map fun columns =>
    { columns := columns.filter (·.name ∈ versionOneColumns ∨ name ≠ .benchmarkRuns)
      rows :=
        if name = .benchmarkRuns then [[(.benchmarkName, .text (lit "steady_state"))]] else [] }

theorem versionOneDb_versionOne : VersionOne versionOneDb where
  version := rfl
  tables := by
    unfold SchemaDb.AllTables
    decide +kernel
  benchmark := ⟨_, rfl, by unfold SqlTable.HasColumns; decide +kernel⟩

/-- Calls that are cut off among the tables, or right after the stamp, do no harm. -/
theorem migration_restarted :
    Migrated versionOneDb
      (edgeStoreInitSchema willingEngine (opened (afterCuts [3, 18, 5] versionOneDb))) := by
  refine (migration_restartable_iff willingEngine willingEngine_neverRefuses () versionOneDb
    (.inr versionOneDb_versionOne) [3, 18, 5]).mpr fun before n hprefix _ => ?_
  have hmem : n ∈ [3, 18, 5] := hprefix.subset (by simp)
  clear hprefix
  revert n
  decide

/-- Interrupted after its first column, the migration fails from then on. -/
theorem torn_migration_stuck :
    VersionOne versionOneDb ∧
      (edgeStoreInitSchema willingEngine (opened (afterCuts [9] versionOneDb))).1 = .error ∧
      ¬ Migrated versionOneDb
        (edgeStoreInitSchema willingEngine (opened (afterCuts [9] versionOneDb))) := by
  have hstatus : (edgeStoreInitSchema willingEngine (opened (afterCuts [9] versionOneDb))).1
      = .error := by decide +kernel
  refine ⟨versionOneDb_versionOne, hstatus, fun h => ?_⟩
  have hok := h.status
  rw [hstatus] at hok
  cases hok

end OpcuaEdge
