import OpcuaEdge.Identifiers
import OpcuaEdge.Lib.CLoop
import OpcuaEdge.Lib.Txn
import Mathlib.Data.List.AList

/-!
# OpcuaEdge — the SQLite store (`edge_store.c`)

The tables written after startup, as keyed maps (`INSERT .. ON CONFLICT DO UPDATE` overwrites the
row of its key) and, for the history, a list of rows in order of insertion. A bound NaN is stored
as `NULL`, which a `NOT NULL` column refuses. SQLite itself is the engine of a `Txn.Session`: it
may fail any call. Finalising a statement and binding its parameters have no other effect and
are not represented.
-/

namespace OpcuaEdge

open CStr CLoop Txn

/-! ## Tables

The six tables of the model, one record type for the columns of each. A table is keyed as its
`PRIMARY KEY` says; only the history has no key of its own but a row number, and is a list. -/

/-- A table whose key is a text. -/
abbrev Table (ρ : Type) := AList fun _ : Bytes => ρ

/-- A row of `assets`. The column `parent_id` is `NULL` for an asset right below the plant. -/
structure AssetRow where
  plantId : Bytes
  parentId : Option Bytes
  type : Bytes
  name : Bytes
  deriving DecidableEq

/-- A row of `nodes`, whose key is the node key `asset.node`. -/
structure NodeRow where
  id : Bytes
  assetId : Bytes
  name : Bytes
  dataType : EdgeDataType
  writable : Bool
  modbusUnit : UInt16
  modbusRegister : UInt32
  scale : Double
  deriving DecidableEq

/-- A row of `event_definitions`. The node watched is given by its key. -/
structure EventRow where
  assetId : Bytes
  sourceNodeKey : Bytes
  condition : EdgeEventCondition
  threshold : Double
  severity : UInt16
  deriving DecidableEq

/-- A row of `event_history`: one rising edge, with the value that raised it and the threshold it
passed. -/
structure HistoryRow where
  eventId : Bytes
  value : Double
  threshold : Double
  severity : UInt16
  createdMs : Nat
  deriving DecidableEq

/-- A row of `latest_values`: what a node held when it was last persisted, as a double. -/
structure LatestRow where
  doubleValue : Double
  updatedMs : Nat
  deriving DecidableEq

/-- The content of the database file, as far as the runtime reads or writes it. -/
structure Db where
  plants : Table Bytes := ∅
  assets : Table AssetRow := ∅
  nodes : Table NodeRow := ∅
  eventDefinitions : Table EventRow := ∅
  eventHistory : List HistoryRow := []
  latestValues : Table LatestRow := ∅

/-- `sqlite3_bind_double`: the stored value, `none` for `NULL`. -/
def bindDouble (d : Double) : Option Double := if d.isNan then none else some d

/-- A number is stored as it is. -/
theorem bindDouble_of_not_nan {d : Double} (h : d.isNan = false) : bindDouble d = some d := by
  rw [bindDouble, h]
  rfl

/-! ## Statements

What one prepared statement does to the tables when SQLite carries it out. `none` stands for a
constraint that fails: the statement is refused, and the tables stay as they were. -/

/-- The statement of `persist_plant`. -/
def upsertPlant (model : EdgeModel) (db : Db) : Option Db :=
  some { db with plants := db.plants.insert model.id model.name }

/-- The statement of `persist_assets` for one asset. An empty parent is bound as `NULL`. -/
def upsertAsset (model : EdgeModel) (asset : EdgeAsset) (db : Db) : Option Db :=
  some { db with
    assets := db.assets.insert asset.id
      { plantId := model.id
        parentId := if asset.parentId ≠ [] then some asset.parentId else none
        type := asset.type
        name := asset.name } }

/-- The statement of `persist_nodes` for one node. The column `scale` is `NOT NULL`. -/
def upsertNode (key : Bytes) (node : EdgeNode) (db : Db) : Option Db :=
  (bindDouble node.scale).map fun scale =>
    { db with
      nodes := db.nodes.insert key
        { id := node.id
          assetId := node.assetId
          name := node.name
          dataType := node.dataType
          writable := node.writable
          modbusUnit := node.modbusUnit
          modbusRegister := node.modbusRegister
          scale := scale } }

/-- The statement of `persist_events` for one event. The column `threshold` is `NOT NULL`. -/
def upsertEvent (key : Bytes) (event : EdgeEvent) (db : Db) : Option Db :=
  (bindDouble event.threshold).map fun threshold =>
    { db with
      eventDefinitions := db.eventDefinitions.insert event.id
        { assetId := event.assetId
          sourceNodeKey := key
          condition := event.condition
          threshold := threshold
          severity := event.severity } }

/-- The statement of `edge_store_persist_latest_values` for one node. The column `double_value` is
`NOT NULL`. -/
def upsertLatest (key : Bytes) (value : Double) (nowMs : Nat) (db : Db) : Option Db :=
  (bindDouble value).map fun value =>
    { db with
      latestValues := db.latestValues.insert key { doubleValue := value, updatedMs := nowMs } }

/-- The statement of `edge_store_insert_event_history`. The event is told by its id, and both of
its numbers are `NOT NULL`. -/
def appendHistory (event : EdgeEvent) (value : Double) (createdMs : Nat) (db : Db) : Option Db :=
  (bindDouble value).bind fun value =>
    (bindDouble event.threshold).map fun threshold =>
      { db with
        eventHistory := db.eventHistory ++
          [{ eventId := event.id, value, threshold, severity := event.severity, createdMs }] }

/-! ## Operations

The functions of `edge_store.c` over a session. The session decides which calls of SQLite succeed
and keeps what a transaction has done apart from what is in the file, so each function below is its
calls, in order, with the tests of the source between them. -/

/-- The open database handle. -/
abbrev Store (τ : Type) := Session τ Db

variable {τ : Type}

/-- `EDGE_STATUS_OK` or `EDGE_STATUS_ERROR`, as `exec_sql`, `prepare` and `step_done` map the
result code of SQLite. -/
def statusOf (ok : Bool) : EdgeStatus := if ok then .ok else .error

/-- `persist_plant`: one statement, for the one plant. -/
def persistPlant (engine : Engine τ) (model : EdgeModel) (store : Store τ) :
    EdgeStatus × Store τ :=
  let p := store.prepare engine
  if p.1 = false then (.error, p.2)
  else
    let r := p.2.step engine (upsertPlant model)
    (statusOf r.1, r.2)

/-- One turn of a persist loop: the statement of one record. -/
def stepTurn (engine : Engine τ) (change : Db → Option Db) (store : Store τ) :
    Store τ × Option EdgeStatus :=
  let r := store.step engine change
  (r.2, if r.1 then none else some .error)

/-- The same for a record whose key is formatted first. -/
def keyedTurn (engine : Engine τ) (key : EdgeStatus × Bytes) (change : Bytes → Db → Option Db)
    (store : Store τ) : Store τ × Option EdgeStatus :=
  if key.1 ≠ .ok then (store, some .limit) else stepTurn engine (change key.2) store

/-- Prepares a statement and runs `turn` on every record. -/
def persistLoop {α : Type} (engine : Engine τ) (turn : α → Store τ → Store τ × Option EdgeStatus)
    (records : List α) (store : Store τ) : EdgeStatus × Store τ :=
  let p := store.prepare engine
  if p.1 = false then (.error, p.2)
  else
    let v := visit (fun _ => turn) 0 records p.2
    (v.2.getD .ok, v.1)

/-- `persist_assets`. -/
def persistAssets (engine : Engine τ) (model : EdgeModel) : Store τ → EdgeStatus × Store τ :=
  persistLoop engine (fun asset => stepTurn engine (upsertAsset model asset)) model.assets

/-- `persist_nodes`. A key that does not fit ends the loop with `EDGE_STATUS_LIMIT`. -/
def persistNodes (engine : Engine τ) (model : EdgeModel) : Store τ → EdgeStatus × Store τ :=
  persistLoop engine
    (fun node => keyedTurn engine (makeNodeKey node) fun key => upsertNode key node) model.nodes

/-- `persist_events`. Here it is the key of the node watched that may not fit. -/
def persistEvents (engine : Engine τ) (model : EdgeModel) : Store τ → EdgeStatus × Store τ :=
  persistLoop engine
    (fun event => keyedTurn engine (makeEventSourceNodeKey event) fun key => upsertEvent key event)
    model.events

/-- `a != OK || b != OK`: the second operation only runs after the first succeeded. -/
def andThen (a b : Store τ → EdgeStatus × Store τ) (store : Store τ) : EdgeStatus × Store τ :=
  let r := a store
  if r.1 ≠ .ok then r else b r.2

/-- What `edge_store_persist_model` does inside its transaction. The order is that of the
references: a row comes after the rows it names. -/
def persistParts (engine : Engine τ) (model : EdgeModel) : Store τ → EdgeStatus × Store τ :=
  andThen (persistPlant engine model) <| andThen (persistAssets engine model) <|
    andThen (persistNodes engine model) (persistEvents engine model)

/-- `edge_store_persist_model`. Whatever failed inside, the answer is `EDGE_STATUS_ERROR`. -/
def edgeStorePersistModel (engine : Engine τ) (model : EdgeModel) (store : Store τ) :
    EdgeStatus × Store τ :=
  let b := store.begin engine
  if b.1 = false then (.error, b.2)
  else
    let p := persistParts engine model b.2
    -- the result of the rollback is discarded
    if p.1 ≠ .ok then (.error, (p.2.rollback engine).2)
    else
      -- a commit that fails is not rolled back
      let c := p.2.commit engine
      (statusOf c.1, c.2)

/-- What a turn of the restore reads for its node: the row, the store after the query, and the
status that the function returns if the key does not fit. -/
def restoreRow (engine : Engine τ) (node : EdgeNode) (store : Store τ) :
    Option LatestRow × Store τ × Option EdgeStatus :=
  let key := makeNodeKey node
  if key.1 ≠ .ok then (none, store, some .limit)
  else
    -- no row, or a query that failed: the two are not told apart
    let r := store.query engine fun db => db.latestValues.lookup key.2
    (r.1, r.2, none)

/-- One turn of the loop of `edge_store_load_latest_values`. A node without a row keeps its
default. -/
def restoreTurn (engine : Engine τ) (_ : Nat) (node : EdgeNode) (store : Store τ) :
    Turn EdgeStatus EdgeNode (Store τ) :=
  let r := restoreRow engine node store
  { elem := r.1.elim node fun row => edgeNodeSetFromDouble node row.doubleValue
    state := r.2.1
    exit := r.2.2 }

/-- Where the key fits, a turn is one query. -/
theorem restoreRow_of_key {engine : Engine τ} {node : EdgeNode} {store : Store τ}
    (hkey : (makeNodeKey node).1 = .ok) :
    restoreRow engine node store =
      ((store.query engine fun db => db.latestValues.lookup (makeNodeKey node).2).1,
        (store.query engine fun db => db.latestValues.lookup (makeNodeKey node).2).2, none) :=
  if_neg (not_not.mpr hkey)

/-- What a query keeps of the store, a turn of the restore keeps. -/
theorem restoreRow_store {P : Store τ → Prop} {engine : Engine τ} {node : EdgeNode}
    {store : Store τ} (hquery : ∀ select : Db → Option LatestRow, P (store.query engine select).2)
    (h : P store) : P (restoreRow engine node store).2.1 := by
  by_cases hkey : (makeNodeKey node).1 = .ok
  · rw [restoreRow_of_key hkey]
    exact hquery _
  · have hlimit : restoreRow engine node store = (none, store, some .limit) := if_pos hkey
    rw [hlimit]
    exact h

/-- `edge_store_load_latest_values`, with the nodes as it leaves them. -/
def edgeStoreLoadLatestValues (engine : Engine τ) (store : Store τ) (model : EdgeModel) :
    EdgeStatus × Store τ × EdgeModel :=
  let p := store.prepare engine
  if p.1 = false then (.error, p.2, model)
  else
    let t := sweep (restoreTurn engine) 0 model.nodes p.2
    (t.exit.getD .ok, t.state, { model with nodes := t.elem })

/-- One turn of the loop of `edge_store_persist_latest_values`. -/
def latestTurn (engine : Engine τ) (nowMs : Nat) (_ : Nat) (node : EdgeNode) :
    Store τ → Store τ × Option EdgeStatus :=
  keyedTurn engine (makeNodeKey node) fun key => upsertLatest key (edgeNodeAsDouble node) nowMs

/-- `edge_store_persist_latest_values`: all nodes in one transaction, under one time. Unlike the
statuses of the model's tables, that of a node is passed on. -/
def edgeStorePersistLatestValues (engine : Engine τ) (model : EdgeModel) (nowMs : Nat)
    (store : Store τ) : EdgeStatus × Store τ :=
  let p := store.prepare engine
  if p.1 = false then (.error, p.2)
  else
    let b := p.2.begin engine
    if b.1 = false then (.error, b.2)
    else
      let v := visit (latestTurn engine nowMs) 0 model.nodes b.2
      match v.2 with
      | some status => (status, (v.1.rollback engine).2)
      | none =>
        -- here too a commit that fails is not rolled back
        let c := v.1.commit engine
        (statusOf c.1, c.2)

/-- `edge_store_insert_event_history`: one row, in whatever transaction is open. -/
def edgeStoreInsertEventHistory (engine : Engine τ) (event : EdgeEvent) (value : Double)
    (createdMs : Nat) (store : Store τ) : EdgeStatus × Store τ :=
  let p := store.prepare engine
  if p.1 = false then (.error, p.2)
  else
    let r := p.2.step engine (appendHistory event value createdMs)
    (statusOf r.1, r.2)

/-- `edge_store_close`. A transaction that is still open is lost. -/
def edgeStoreClose (store : Store τ) : Store τ := store.close

end OpcuaEdge
