import OpcuaEdge.SchemaInit

/-!
# OpcuaEdge — refused databases

`edge_store_init_schema` creates the missing tables before it reads the version. A database that it
refuses for its version has therefore been altered already, unless it had all the tables.
-/

namespace OpcuaEdge

open CStr Txn

/-- Neither a fresh database, nor a version the binary migrates, nor its own version. -/
def UnsupportedVersion (version : Int) : Prop :=
  version ≠ 0 ∧ version ≠ 1 ∧ version ≠ edgeStoreSchemaVersion

/-- A call that fails because of the version leaves the database as it was. -/
def RefusalLeavesUntouched {τ : Type} (engine : Engine τ) (store : SchemaStore τ) : Prop :=
  (edgeStoreInitSchema engine store).1 ≠ .ok →
    UnsupportedVersion store.conn.committed.userVersion →
      (edgeStoreInitSchema engine store).2.conn.committed = store.conn.committed

/-- Creating what is already there changes nothing. -/
theorem SchemaDb.withTables_eq_self_iff {defs : List (TableName × List SqlColumn)} {db : SchemaDb}
    (hdefined : ∀ table ∈ defs, (defs.lookup table.1).isSome) :
    db.withTables defs = db ↔ ∀ table ∈ defs, (db.tables table.1).isSome := by
  refine ⟨fun hsame table hmem => ?_, SchemaDb.withTables_of_present⟩
  have htable : (db.tables table.1).or ((defs.lookup table.1).map fun columns => { columns })
      = db.tables table.1 := congrArg (fun db' => db'.tables table.1) hsame
  rw [← htable, Option.isSome_or, Option.isSome_map, hdefined table hmem, Bool.or_true]

theorem SchemaDb.withSchema_eq_self_iff {db : SchemaDb} :
    db.withTables schemaTables = db ↔ db.AllTables :=
  SchemaDb.withTables_eq_self_iff (by decide)

section Uncut

variable {τ : Type} {engine : Engine τ}

/-- What is left of a refused database: the tables that were missing have been created. -/
theorem refused_database (hengine : engine.NeverRefuses) {store : SchemaStore τ} {db : SchemaDb}
    (hconn : store.conn = { committed := db }) (hnewer : edgeStoreSchemaVersion < db.userVersion) :
    (edgeStoreInitSchema engine store).1 = .error ∧
      (edgeStoreInitSchema engine store).2.conn.committed = db.withTables schemaTables := by
  obtain ⟨hstatus, hafter⟩ := edgeStoreInitSchema_uncut hengine hconn
  rw [if_neg fun h => absurd hnewer (not_lt.mpr h.1)] at hstatus
  rw [upgradeScript_newer hnewer] at hafter
  exact ⟨hstatus, congrArg Conn.committed hafter⟩

/-- The only versions that are refused for being unsupported are the newer ones: a negative one is
accepted. -/
theorem newer_of_refused (hengine : engine.NeverRefuses) {store : SchemaStore τ} {db : SchemaDb}
    (hconn : store.conn = { committed := db })
    (hrefused : (edgeStoreInitSchema engine store).1 ≠ .ok)
    (hversion : UnsupportedVersion db.userVersion) : edgeStoreSchemaVersion < db.userVersion := by
  obtain ⟨hzero, hone, htwo⟩ := hversion
  have htwo : db.userVersion ≠ 2 := htwo
  by_contra hold
  have hle : db.userVersion ≤ 2 := not_lt.mp hold
  have hnegative : db.userVersion < 0 := by omega
  have hscript : runScript (upgradeScript db.userVersion) (db.withTables schemaTables)
      = (true, db.withTables schemaTables) := by
    rw [upgradeScript_negative hnegative]
    rfl
  exact hrefused (uncut_of_script hengine hconn hle hscript).1

/-- **A refused database stays untouched** exactly where it is not newer than the binary, or has
all the tables already. -/
theorem refusal_untouched_iff (engine : Engine τ) (hengine : engine.NeverRefuses)
    (store : SchemaStore τ) (db : SchemaDb) (hconn : store.conn = { committed := db }) :
    RefusalLeavesUntouched engine store ↔
      (edgeStoreSchemaVersion < db.userVersion → db.AllTables) := by
  unfold RefusalLeavesUntouched
  rw [show store.conn.committed = db from congrArg Conn.committed hconn]
  constructor
  · intro huntouched hnewer
    -- a newer database is refused after the tables were created, and comes out the same only if
    -- none was
    have hnewer' : 2 < db.userVersion := hnewer
    obtain ⟨hstatus, hafter⟩ := refused_database hengine hconn hnewer
    have hrefused : (edgeStoreInitSchema engine store).1 ≠ .ok := by
      rw [hstatus]
      decide
    have hunsupported : UnsupportedVersion db.userVersion := by
      unfold UnsupportedVersion edgeStoreSchemaVersion
      omega
    have hsame := huntouched hrefused hunsupported
    rw [hafter] at hsame
    exact SchemaDb.withSchema_eq_self_iff.mp hsame
  · intro htables hrefused hunsupported
    -- what is refused for its version is newer
    have hnewer := newer_of_refused hengine hconn hrefused hunsupported
    rw [(refused_database hengine hconn hnewer).2]
    exact SchemaDb.withSchema_eq_self_iff.mpr (htables hnewer)

end Uncut

/-- A database of version 3 with nothing but a table of its own. -/
def newerDb : SchemaDb where
  userVersion := 3
  tables := Function.update (fun _ => none) .plants (some { columns := plantsColumns })

/-- With all the tables present the same version is refused without a trace. -/
theorem completeDb_untouched :
    RefusalLeavesUntouched willingEngine (opened (newerDb.withTables schemaTables)) :=
  (refusal_untouched_iff willingEngine willingEngine_neverRefuses
    (opened (newerDb.withTables schemaTables)) _ rfl).mpr fun _ => newerDb.allTables_withTables

/-- The refused database has got a table it did not have. -/
theorem newer_database_altered :
    (edgeStoreInitSchema willingEngine (opened newerDb)).1 = .error ∧
      newerDb.tables .benchmarkRuns = none ∧
      ((edgeStoreInitSchema willingEngine
        (opened newerDb)).2.conn.committed.tables .benchmarkRuns).isSome ∧
      ¬ RefusalLeavesUntouched willingEngine (opened newerDb) := by
  have hstatus : (edgeStoreInitSchema willingEngine (opened newerDb)).1 = .error := by
    decide +kernel
  have hbefore : newerDb.tables .benchmarkRuns = none := by decide +kernel
  have hafter : ((edgeStoreInitSchema willingEngine
      (opened newerDb)).2.conn.committed.tables .benchmarkRuns).isSome := by decide +kernel
  refine ⟨hstatus, hbefore, hafter, fun huntouched => ?_⟩
  have hrefused : (edgeStoreInitSchema willingEngine (opened newerDb)).1 ≠ .ok := by
    rw [hstatus]
    decide
  have hsame := huntouched hrefused (by unfold UnsupportedVersion; decide)
  -- untouched, the database would still be without the table
  rw [hsame] at hafter
  change (newerDb.tables .benchmarkRuns).isSome at hafter
  rw [hbefore] at hafter
  cases hafter

end OpcuaEdge
