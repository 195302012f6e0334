import OpcuaEdge.Config
import OpcuaEdge.Options
import OpcuaEdge.Schema
import OpcuaEdge.Server

/-!
# OpcuaEdge — the process (`main.c`)

`edgeMain` is one life of the process: the startup sequence with what each of its failures cleans
up, the server loop until a signal, and the shutdown. Outside of it is a `World`: the template
files, the libraries with their states, and what happens in each turn of the server loop. Database
files outlive a process: it gets the `Disk` and leaves one behind.

A database file is represented by its schema and by the contents of its tables, which two parts of
`edge_store.c` look at. The connection is one: what SQLite answers and the log go from one part to
the other.
-/

namespace OpcuaEdge

open CStr Txn

/-- A database file: its schema and its rows. The rows of `benchmark_runs` are with the schema, as
its migrations change them. -/
structure DbFile where
  schema : SchemaDb := {}
  data : Db := {}

/-- The database files by path. A file that is not there yet is an empty one. -/
abbrev Disk := Bytes → DbFile

/-- Everything outside the process. -/
structure World (σ τ ρ : Type) where
  installsSignals : Bool
  files : Bytes → Option Bytes
  sqliteOpen : Bytes → SqliteOpen
  sqlite : τ
  network : σ
  libs : Libs σ τ ρ
  server : UaServerLib ρ
  builder : UaBuilder ρ
  /-- What happens in each turn of the server loop, up to the one in which a signal arrives. -/
  iterations : List (List RunOp)
  /-- What the clock shows when the values are persisted for the last time. -/
  shutdownMs : Nat

/-- Where `main` returned: after the failure it reports, or at its end. -/
inductive MainStage where
  | signals
  | config
  | wire
  | openStore
  | schema
  | persistModel
  | loadValues
  | modbus
  | server
  | addressSpace
  | register
  | served
  deriving DecidableEq, Repr

/-- What a process leaves behind. `startModel` is the model as the server loop found it, and
`lastPersist` the status of the persist at shutdown, which `main` discards. -/
structure ProcessEnd (σ : Type) where
  stage : MainStage
  disk : Disk
  bus : Bus σ
  log : List LifeCall := []
  seen : List Obs := []
  startModel : EdgeModel := {}
  model : EdgeModel := {}
  lastPersist : EdgeStatus := .error

/-- The value `main` returns. -/
def ProcessEnd.exitCode {σ : Type} (done : ProcessEnd σ) : Nat :=
  if done.stage = .served then 0 else 1

variable {σ τ ρ : Type}

/-- The tick is registered with an interval of 100 ms and persists every 50th time. -/
def persistEveryNTicks : UInt32 := 50

/-- The disk after the connection to the file at `path` is closed. -/
def closedDisk (disk : Disk) (path : Bytes) (schema : SchemaDb) (store : Store τ) : Disk :=
  Function.update disk path { schema, data := (edgeStoreClose store).conn.committed }

/-- The model as the process has it when it opens the store: loaded and wired. -/
def startupLoad (w : World σ τ ρ) (options : Options) : MainStage × EdgeModel :=
  if w.installsSignals = false then (.signals, {})
  else
    let loaded := edgeConfigLoad (w.files options.configPath) {}
    if loaded.1 ≠ .ok then (.config, loaded.2)
    else
      let wired := edgeConfigWireRuntime loaded.2
      if wired.1 ≠ .ok then (.wire, wired.2) else (.openStore, wired.2)

/-- The database as the process holds it, and the model. -/
structure OpenedStore (τ : Type) where
  schema : SchemaDb
  store : Store τ
  model : EdgeModel

/-- `edge_store_init_schema` on the file just opened, and the connection to its tables after. -/
def startupSchema (w : World σ τ ρ) (file : DbFile) : EdgeStatus × SchemaDb × Store τ :=
  let r := edgeStoreInitSchema w.libs.events.engine
    { conn := { committed := file.schema }, env := w.sqlite }
  -- no transaction is begun for the schema
  (r.1, r.2.conn.committed,
    { conn := { committed := file.data }, env := r.2.env, log := r.2.log })

/-- From `edge_store_init_schema` to `edge_store_load_latest_values`. -/
def startupStore (w : World σ τ ρ) (file : DbFile) (model : EdgeModel) :
    MainStage × OpenedStore τ :=
  let engine := w.libs.events.engine
  let schema := startupSchema w file
  if schema.1 ≠ .ok then (.schema, ⟨schema.2.1, schema.2.2, model⟩)
  else
    let persisted := edgeStorePersistModel engine model schema.2.2
    if persisted.1 ≠ .ok then (.persistModel, ⟨schema.2.1, persisted.2, model⟩)
    else
      let restored := edgeStoreLoadLatestValues engine persisted.2 model
      (if restored.1 ≠ .ok then .loadValues else .modbus,
        ⟨schema.2.1, restored.2.1, restored.2.2⟩)

/-- The runtime with its callback registered, its identifier and the calls made for it. -/
structure Registered (σ τ ρ : Type) where
  rt : EdgeRuntime σ τ ρ
  callbackId : UInt64
  log : List LifeCall

/-- `edge_runtime_register` on the runtime with a filled server. -/
def startupRuntime (w : World σ τ ρ) (rt : EdgeRuntime σ τ ρ) (log : List LifeCall) :
    MainStage × Registered σ τ ρ :=
  let r := edgeRuntimeRegister w.server rt
  (if r.1 ≠ .ok then .register else .served, ⟨r.2.2.1, r.2.1, log ++ r.2.2.2⟩)

/-- From `edge_address_space_load` on, with the new server `ua`. -/
def startupSpace (w : World σ τ ρ) (opened : OpenedStore τ) (bus : Bus σ) (ua : ρ)
    (log : List LifeCall) : MainStage × Registered σ τ ρ :=
  let space := edgeAddressSpaceLoad w.builder opened.model ua
  let log := log ++ [.uaAddNodes space.2.calls.length]
  let rt := edgeRuntimeInit { ua := some space.2.ua } opened.model opened.store bus
    persistEveryNTicks
  -- nothing of a model that is loaded and wired leads the load to a bad pointer
  if space.1 ≠ some .ok then (.addressSpace, ⟨rt, 0, log⟩) else startupRuntime w rt log

/-- From `edge_modbus_init` on. There is no `Registered` where the startup failed before there was
a server; the calls are listed then all the same. -/
def startupServer (w : World σ τ ρ) (options : Options) (opened : OpenedStore τ) :
    MainStage × List LifeCall × Option (Registered σ τ ρ) :=
  let modbus := edgeModbusInit (some options.modbusHost) options.modbusPort
  if modbus.1 ≠ .ok then (.modbus, [], none)
  else
    let server := edgeServerInit w.server options.opcuaPort
    match server.2.1.ua with
    | none => (.server, server.2.2, none)
    | some ua =>
      let r := startupSpace w opened { modbus := modbus.2, env := w.network } ua server.2.2
      (r.1, r.2.log, some r.2)

/-- The server loop and the shutdown. -/
def serveAndStop (w : World σ τ ρ) (r : Registered σ τ ρ) :
    ServeState σ τ ρ × EdgeStatus × Store τ × Bus σ :=
  let served := (edgeServerRun w.server w.libs w.iterations { rt := r.rt, log := r.log }).2
  let unregistered := edgeRuntimeUnregister w.server r.callbackId served.rt
  let rt := unregistered.1
  let persisted := edgeStorePersistLatestValues w.libs.events.engine rt.model w.shutdownMs rt.store
  let bus := edgeModbusClear w.libs.modbus rt.bus
  let log := served.log ++ unregistered.2 ++
    [.sqliteCalls (persisted.2.log.drop rt.store.log.length),
      .modbusCalls (bus.calls.drop rt.bus.calls.length)] ++
    (rt.server.map edgeServerClear).getD []
  ({ served with rt := rt, log := log }, persisted.1, persisted.2, bus)

/-- What `main` does once `sqlite3_open_v2` has succeeded. -/
def mainOpened (w : World σ τ ρ) (options : Options) (disk : Disk) (model : EdgeModel) :
    ProcessEnd σ :=
  let path := options.dbPath
  let idle : Bus σ := { modbus := {}, env := w.network }
  let opened := startupStore w (disk path) model
  let o := opened.2
  let opening := [.sqliteOpen .opened, .sqliteCalls o.store.log]
  if opened.1 ≠ .modbus then
    { stage := opened.1
      disk := closedDisk disk path o.schema o.store
      bus := idle
      log := opening ++ [.sqliteClose]
      model := o.model }
  else
    let started := startupServer w options o
    match started.2.2 with
    | none =>
      { stage := started.1
        disk := closedDisk disk path o.schema o.store
        bus := idle
        log := opening ++ started.2.1 ++ [.sqliteClose]
        model := o.model }
    | some r =>
      if started.1 ≠ .served then
        -- the connections of `g_modbus` are cleared here only when a registration failed
        let bus :=
          if started.1 = .register then edgeModbusClear w.libs.modbus r.rt.bus else idle
        { stage := started.1
          disk := closedDisk disk path o.schema o.store
          bus := bus
          log := opening ++ started.2.1 ++
            (r.rt.server.map edgeServerClear).getD [] ++ [.sqliteClose]
          model := o.model }
      else
        let done := serveAndStop w r
        { stage := .served
          disk := closedDisk disk path o.schema done.2.2.1
          bus := done.2.2.2
          log := opening ++ done.1.log ++ [.sqliteClose]
          seen := done.1.seen
          startModel := o.model
          model := done.1.rt.model
          lastPersist := done.2.1 }

/-- `main`. -/
def edgeMain (w : World σ τ ρ) (options : Options) (disk : Disk) : ProcessEnd σ :=
  let idle : Bus σ := { modbus := {}, env := w.network }
  let loaded := startupLoad w options
  if loaded.1 ≠ .openStore then
    { stage := loaded.1, disk := disk, bus := idle, model := loaded.2 }
  else
    match w.sqliteOpen options.dbPath with
    -- the connection is not closed, even if one was allocated
    | .failed allocated =>
      { stage := .openStore
        disk := disk
        bus := idle
        log := [.sqliteOpen (.failed allocated)]
        model := loaded.2 }
    | .opened => mainOpened w options disk loaded.2

/-- `main(argc, argv)`: the options come from the environment and the arguments. What is proved of
`edgeMain` is proved for any options. -/
def edgeMainArgs (w : World σ τ ρ) (getenv : Bytes → Option Bytes) (argv : List Bytes)
    (disk : Disk) : ProcessEnd σ :=
  edgeMain w (readOptions getenv argv) disk

end OpcuaEdge
