import OpcuaEdge.Lib.Upsert
import OpcuaEdge.StoreTxn

/-!
# OpcuaEdge — persisting is all or nothing

What a store call is for, as a pure update of the tables (`StoreCall.apply`), and that the code
does that or nothing: `run_committed` says for every call, every answer of SQLite and whatever was
left open before, that the committed tables are those before the call, updated by the call exactly
if it returned OK outside a transaction. A transaction left behind by a failed call can only be
discarded: nothing commits without a `BEGIN` of its own, and that fails while one is open.
-/

namespace OpcuaEdge

open CStr CLoop Txn Upsert

variable {τ : Type}

/-! ## The updates

What an operation does to the tables if all of it succeeds, as one function. It is written without
statements, so that a run of calls can be replayed. -/

/-- The row of an asset. -/
def assetRow (model : EdgeModel) (asset : EdgeAsset) : AssetRow where
  plantId := model.id
  parentId := if asset.parentId ≠ [] then some asset.parentId else none
  type := asset.type
  name := asset.name

/-- The row of a node. -/
def nodeRow (node : EdgeNode) : NodeRow where
  id := node.id
  assetId := node.assetId
  name := node.name
  dataType := node.dataType
  writable := node.writable
  modbusUnit := node.modbusUnit
  modbusRegister := node.modbusRegister
  scale := node.scale

/-- The row of an event. -/
def eventRow (event : EdgeEvent) : EventRow where
  assetId := event.assetId
  sourceNodeKey := (makeEventSourceNodeKey event).2
  condition := event.condition
  threshold := event.threshold
  severity := event.severity

/-- The row a persist call writes for a node. -/
def latestRow (nowMs : Nat) (node : EdgeNode) : LatestRow where
  doubleValue := edgeNodeAsDouble node
  updatedMs := nowMs

/-- The key of a node, whether or not it fits. -/
def nodeKeyText (node : EdgeNode) : Bytes := (makeNodeKey node).2

/-- The plant, assets, nodes and events of the model, upserted in array order. -/
def applyModel (model : EdgeModel) (db : Db) : Db :=
  { db with
    plants := db.plants.insert model.id model.name
    assets := upsertAll EdgeAsset.id (assetRow model) model.assets db.assets
    nodes := upsertAll nodeKeyText nodeRow model.nodes db.nodes
    eventDefinitions := upsertAll EdgeEvent.id eventRow model.events db.eventDefinitions }

/-- The values of all nodes, under one time. -/
def applyLatestValues (model : EdgeModel) (nowMs : Nat) (db : Db) : Db :=
  { db with latestValues := upsertAll nodeKeyText (latestRow nowMs) model.nodes db.latestValues }

/-- What a call is to do to the tables. -/
def StoreCall.apply : StoreCall → Db → Db
  | .persistModel model => applyModel model
  | .persistLatestValues model nowMs => applyLatestValues model nowMs
  | .loadLatestValues _ => id
  | .insertEventHistory event value createdMs => fun db =>
    { db with
      eventHistory := db.eventHistory ++
        [{ eventId := event.id, value, threshold := event.threshold, severity := event.severity,
           createdMs }] }

/-! ## Statements

A statement that succeeds makes one update. A bound value that cannot be stored makes it fail
instead. -/

/-- A statement that succeeds makes the update. -/
def Makes (change : Db → Option Db) (update : Db → Db) : Prop :=
  ∀ db w, change db = some w → w = update db

/-- A double that was stored is stored as it is. -/
theorem makes_bindDouble {value : Double} {f : Double → Db → Db} :
    Makes (fun db => (bindDouble value).map (f · db)) (f value) := by
  intro db w h
  obtain ⟨stored, hstored, rfl⟩ := Option.map_eq_some_iff.mp h
  unfold bindDouble at hstored
  split_ifs at hstored
  cases hstored
  rfl

theorem makes_upsertPlant (model : EdgeModel) :
    Makes (upsertPlant model) fun db =>
      { db with plants := db.plants.insert model.id model.name } :=
  fun _ _ h => (Option.some.inj h).symm

theorem makes_upsertAsset (model : EdgeModel) (asset : EdgeAsset) :
    Makes (upsertAsset model asset) fun db =>
      { db with assets := db.assets.insert asset.id (assetRow model asset) } :=
  fun _ _ h => (Option.some.inj h).symm

theorem makes_upsertNode (key : Bytes) (node : EdgeNode) :
    Makes (upsertNode key node) fun db =>
      { db with nodes := db.nodes.insert key (nodeRow node) } :=
  makes_bindDouble

theorem makes_upsertEvent (event : EdgeEvent) :
    Makes (upsertEvent (makeEventSourceNodeKey event).2 event) fun db =>
      { db with eventDefinitions := db.eventDefinitions.insert event.id (eventRow event) } :=
  makes_bindDouble

theorem makes_upsertLatest (key : Bytes) (node : EdgeNode) (nowMs : Nat) :
    Makes (upsertLatest key (edgeNodeAsDouble node) nowMs) fun db =>
      { db with latestValues := db.latestValues.insert key (latestRow nowMs node) } :=
  makes_bindDouble

theorem makes_appendHistory (event : EdgeEvent) (value : Double) (createdMs : Nat) :
    Makes (appendHistory event value createdMs)
      (StoreCall.apply (.insertEventHistory event value createdMs)) :=
  fun _ _ h => appendHistory_eq_some h

/-! ## Operations inside a transaction

While a transaction is open the file does not change. An operation that succeeds has made its
update to what the transaction sees; one that fails may have made a part of it. -/

/-- Inside a transaction the operation leaves what is committed alone, and if it succeeds the
working copy is updated. -/
def Writes (op : Store τ → EdgeStatus × Store τ) (update : Db → Db) : Prop :=
  ∀ s w, s.conn.txn = some w → (op s).2.conn.committed = s.conn.committed
    ∧ ((op s).1 = .ok → (op s).2.conn.txn = some (update w))

/-- The same for a turn of a loop, which succeeds by going on. -/
def TurnWrites (turn : Store τ → Store τ × Option EdgeStatus) (update : Db → Db) : Prop :=
  ∀ s w, s.conn.txn = some w → (turn s).1.conn.committed = s.conn.committed
    ∧ ((turn s).2 = none → (turn s).1.conn.txn = some (update w))
    ∧ (turn s).2 ≠ some .ok

theorem turnWrites_stepTurn (engine : Engine τ) {change : Db → Option Db} {update : Db → Db}
    (h : Makes change update) : TurnWrites (stepTurn engine change) update := by
  intro s w htxn
  cases hok : (s.step engine change).1 with
  | false =>
    refine ⟨Session.step_committed_of_not_ok hok, fun hnext => ?_, ?_⟩
    · rw [stepTurn_exit_iff, hok] at hnext
      cases hnext
    · unfold stepTurn
      simp [hok]
  | true =>
    obtain ⟨w', hchange, -, ⟨hnone, -⟩ | ⟨-, hconn⟩⟩ := Session.step_ok hok
    · rw [hnone] at htxn; cases htxn
    · unfold stepTurn
      rw [hconn]
      -- the statement saw the working copy
      rw [Conn.view_inside htxn] at hchange
      exact ⟨rfl, fun _ => congrArg some (h w w' hchange), by simp [hok]⟩

/-- A turn with a key: with one that does not fit it fails. -/
theorem turnWrites_keyedTurn (engine : Engine τ) (key : EdgeStatus × Bytes)
    {change : Bytes → Db → Option Db} {update : Db → Db} (h : Makes (change key.2) update) :
    TurnWrites (keyedTurn engine key change) update := by
  intro s w htxn
  unfold keyedTurn
  split_ifs with hkey
  · exact ⟨rfl, fun hnext => (by cases hnext), by simp⟩
  · exact turnWrites_stepTurn engine h s w htxn

/-- A loop updates the working copy by one record after the other. -/
theorem visit_writes {α : Type} {turn : Nat → α → Store τ → Store τ × Option EdgeStatus}
    {update : α → Db → Db} (hturn : ∀ i a, TurnWrites (turn i a) (update a)) (records : List α) :
    ∀ (i : Nat) (s : Store τ) (w : Db), s.conn.txn = some w →
      (visit turn i records s).1.conn.committed = s.conn.committed
        ∧ ((visit turn i records s).2 = none →
          (visit turn i records s).1.conn.txn = some (records.foldl (fun db a => update a db) w))
        ∧ (visit turn i records s).2 ≠ some .ok := by
  -- the loop stays inside the transaction, and its exits are never OK
  induction records with
  | nil => intro i s w htxn; exact ⟨rfl, fun _ => htxn, by simp [visit]⟩
  | cons a rest ih =>
    intro i s w htxn
    obtain ⟨hcommitted, hnext, hne⟩ := hturn i a s w htxn
    cases hexit : (turn i a s).2 with
    | some status =>
      rw [visit_cons_exit hexit]
      rw [hexit] at hne
      exact ⟨hcommitted, fun hnone => (by cases hnone), hne⟩
    | none =>
      rw [visit_cons_next hexit]
      obtain ⟨hcommitted', hrest⟩ := ih (i + 1) _ _ (hnext hexit)
      exact ⟨hcommitted'.trans hcommitted, hrest⟩

/-- A loop makes the updates of its records, one after the other. -/
theorem writes_persistLoop {α : Type} (engine : Engine τ)
    {turn : α → Store τ → Store τ × Option EdgeStatus} {update : α → Db → Db}
    (hturn : ∀ a, TurnWrites (turn a) (update a)) (records : List α) :
    Writes (persistLoop engine turn records) fun db =>
      records.foldl (fun db a => update a db) db := by
  intro s w htxn
  unfold persistLoop
  simp only
  split_ifs
  · exact ⟨rfl, fun hok => (by cases hok)⟩
  · obtain ⟨hcommitted, hdone, hne⟩ :=
      visit_writes (fun _ => hturn) records 0 (s.prepare engine).2 w htxn
    refine ⟨hcommitted, fun hok => hdone ?_⟩
    -- OK is what the loop returns when it has run to its end
    cases hexit : (visit (fun _ => turn) 0 records (s.prepare engine).2).2 with
    | none => rfl
    | some status =>
      rw [hexit] at hok hne
      cases hok
      exact absurd rfl hne

/-- Two operations, where the second only runs after the first succeeded. -/
theorem Writes.andThen {a b : Store τ → EdgeStatus × Store τ} {f g : Db → Db} (ha : Writes a f)
    (hb : Writes b g) : Writes (andThen a b) (g ∘ f) := by
  intro s w htxn
  obtain ⟨hcommitted, hok⟩ := ha s w htxn
  unfold OpcuaEdge.andThen
  simp only
  split_ifs with hfailed
  · exact ⟨hcommitted, fun h => absurd h hfailed⟩
  · obtain ⟨hcommitted', hok'⟩ := hb _ _ (hok (not_not.mp hfailed))
    exact ⟨hcommitted'.trans hcommitted, hok'⟩

/-! ### The parts of a model

Each part is a loop over its records, and together they are the update of the whole model. -/

theorem writes_persistPlant (engine : Engine τ) (model : EdgeModel) :
    Writes (persistPlant engine model) fun db =>
      { db with plants := db.plants.insert model.id model.name } := by
  intro s w htxn
  obtain ⟨hcommitted, hnext, -⟩ :=
    turnWrites_stepTurn engine (makes_upsertPlant model) (s.prepare engine).2 w htxn
  unfold persistPlant
  simp only
  split_ifs
  · exact ⟨rfl, fun hok => (by cases hok)⟩
  · refine ⟨hcommitted, fun hok => hnext ?_⟩
    rw [stepTurn_exit_iff]
    unfold statusOf at hok
    split_ifs at hok with hstep
    exact hstep

theorem Writes.congr {op : Store τ → EdgeStatus × Store τ} {f g : Db → Db} (h : Writes op f)
    (hfg : ∀ db, f db = g db) : Writes op g := by
  intro s w htxn
  rw [← hfg w]
  exact h s w htxn

theorem writes_persistAssets (engine : Engine τ) (model : EdgeModel) :
    Writes (persistAssets engine model) fun db =>
      { db with assets := upsertAll EdgeAsset.id (assetRow model) model.assets db.assets } := by
  refine (writes_persistLoop engine (fun asset =>
    turnWrites_stepTurn engine (makes_upsertAsset model asset)) model.assets).congr ?_
  exact foldl_upsert Db.assets (fun table db => { db with assets := table }) (fun _ _ => rfl)
    (fun _ _ _ => rfl) (fun _ => rfl) model.assets

theorem writes_persistNodes (engine : Engine τ) (model : EdgeModel) :
    Writes (persistNodes engine model) fun db =>
      { db with nodes := upsertAll nodeKeyText nodeRow model.nodes db.nodes } := by
  refine (writes_persistLoop engine (fun node =>
    turnWrites_keyedTurn engine _ (makes_upsertNode _ node)) model.nodes).congr ?_
  exact foldl_upsert Db.nodes (fun table db => { db with nodes := table }) (fun _ _ => rfl)
    (fun _ _ _ => rfl) (fun _ => rfl) model.nodes

theorem writes_persistEvents (engine : Engine τ) (model : EdgeModel) :
    Writes (persistEvents engine model) fun db =>
      { db with
        eventDefinitions := upsertAll EdgeEvent.id eventRow model.events db.eventDefinitions } := by
  refine (writes_persistLoop engine (fun event =>
    turnWrites_keyedTurn engine _ (makes_upsertEvent event)) model.events).congr ?_
  exact foldl_upsert Db.eventDefinitions (fun table db => { db with eventDefinitions := table })
    (fun _ _ => rfl) (fun _ _ _ => rfl) (fun _ => rfl) model.events

theorem writes_persistParts (engine : Engine τ) (model : EdgeModel) :
    Writes (persistParts engine model) (applyModel model) :=
  (writes_persistPlant engine model).andThen <| (writes_persistAssets engine model).andThen <|
    (writes_persistNodes engine model).andThen (writes_persistEvents engine model)

/-- The loop over the values: the file stays, and a complete loop has updated all values in the
transaction. -/
theorem latestLoop_writes (engine : Engine τ) (nodes : List EdgeNode) (nowMs : Nat) {s : Store τ}
    {w : Db} (htxn : s.conn.txn = some w) :
    (visit (latestTurn engine nowMs) 0 nodes s).1.conn.committed = s.conn.committed
      ∧ ((visit (latestTurn engine nowMs) 0 nodes s).2 = none →
        (visit (latestTurn engine nowMs) 0 nodes s).1.conn.txn = some { w with
          latestValues := upsertAll nodeKeyText (latestRow nowMs) nodes w.latestValues })
      ∧ (visit (latestTurn engine nowMs) 0 nodes s).2 ≠ some .ok := by
  have hturn : ∀ i node, TurnWrites (latestTurn engine nowMs i node) fun db =>
      { db with
        latestValues := db.latestValues.insert (nodeKeyText node) (latestRow nowMs node) } :=
    fun _ node => turnWrites_keyedTurn engine _ (makes_upsertLatest _ node nowMs)
  obtain ⟨hcommitted, hdone, hne⟩ := visit_writes hturn nodes 0 s w htxn
  refine ⟨hcommitted, fun h => (hdone h).trans (congrArg some ?_), hne⟩
  exact foldl_upsert Db.latestValues (fun table db => { db with latestValues := table })
    (fun _ _ => rfl) (fun _ _ _ => rfl) (fun _ => rfl) nodes w

/-! ## One call

A call that returns `EDGE_STATUS_OK` has made its update to the file, and any other call has left
the file as it was. A commit that SQLite refuses is such a failure. -/

/-- The call, from `store` to `r`, made its update to what is committed, with OK as status and
outside a transaction before and after, or it left that alone. -/
def AllOrNothing (update : Db → Db) (store : Store τ) (r : EdgeStatus × Store τ) : Prop :=
  (r.1 ≠ .ok → r.2.conn.committed = store.conn.committed)
    ∧ (r.1 = .ok → store.conn.txn = none ∧ r.2.conn = { committed := update store.conn.committed })

theorem AllOrNothing.nothing {update : Db → Db} {store s : Store τ} {status : EdgeStatus}
    (hstatus : status ≠ .ok) (hcommitted : s.conn.committed = store.conn.committed) :
    AllOrNothing update store (status, s) :=
  ⟨fun _ => hcommitted, fun hok => absurd hok hstatus⟩

/-- The transaction that was begun outside one and holds the update is committed, or not. -/
theorem allOrNothing_commit {engine : Engine τ} {update : Db → Db} {store s : Store τ}
    (hstore : store.conn.txn = none) (hcommitted : s.conn.committed = store.conn.committed)
    (htxn : s.conn.txn = some (update store.conn.committed)) :
    AllOrNothing update store (statusOf (s.commit engine).1, (s.commit engine).2) := by
  cases hok : (s.commit engine).1 with
  | false =>
    refine .nothing (by decide) ?_
    exact (Session.commit_committed_of_not_ok hok).trans hcommitted
  | true =>
    refine ⟨fun hne => absurd rfl hne, fun _ => ⟨hstore, ?_⟩⟩
    obtain ⟨w, hw, hconn⟩ := Session.commit_ok hok
    rw [htxn] at hw
    cases hw
    exact hconn

theorem allOrNothing_persistModel (engine : Engine τ) (model : EdgeModel) (store : Store τ) :
    AllOrNothing (applyModel model) store (edgeStorePersistModel engine model store) := by
  unfold edgeStorePersistModel
  simp only
  by_cases hunbegun : (store.begin engine).1 = false
  · rw [if_pos hunbegun]
    exact .nothing (by decide) (congrArg Conn.committed (Session.begin_conn_of_not_ok hunbegun))
  · rw [if_neg hunbegun]
    obtain ⟨hstore, hbegin⟩ := Session.begin_ok (Bool.not_eq_false _ ▸ hunbegun)
    obtain ⟨hcommitted, hok⟩ := writes_persistParts engine model (store.begin engine).2
      store.conn.committed (congrArg Conn.txn hbegin)
    have hsame := hcommitted.trans (congrArg Conn.committed hbegin)
    split_ifs with hfailed
    · exact .nothing (by decide) ((Session.rollback_committed engine _).trans hsame)
    · exact allOrNothing_commit hstore hsame (hok (not_not.mp hfailed))

theorem allOrNothing_persistLatestValues (engine : Engine τ) (model : EdgeModel) (nowMs : Nat)
    (store : Store τ) :
    AllOrNothing (applyLatestValues model nowMs) store
      (edgeStorePersistLatestValues engine model nowMs store) := by
  unfold edgeStorePersistLatestValues
  simp only
  split_ifs with hunprepared hunbegun
  · exact .nothing (by decide) rfl
  · exact .nothing (by decide) (congrArg Conn.committed (Session.begin_conn_of_not_ok hunbegun))
  · obtain ⟨hstore, hbegin⟩ := Session.begin_ok (Bool.not_eq_false _ ▸ hunbegun)
    obtain ⟨hcommitted, hdone, hne⟩ :=
      latestLoop_writes engine model.nodes nowMs (congrArg Conn.txn hbegin)
    have hsame := hcommitted.trans (congrArg Conn.committed hbegin)
    -- a failed turn rolls back, a finished loop commits
    split <;> rename_i hexit
    · refine .nothing (fun hok => hne ?_) ((Session.rollback_committed engine _).trans hsame)
      rw [hexit, ← hok]
    · exact allOrNothing_commit hstore hsame (hdone hexit)

/-- A history insert that returned OK inside a transaction wrote to its working copy; outside one
its row is durable. -/
theorem insertEventHistory_committed_of_ok {engine : Engine τ} {event : EdgeEvent} {value : Double}
    {createdMs : Nat} {store : Store τ}
    (h : (edgeStoreInsertEventHistory engine event value createdMs store).1 = .ok) :
    (edgeStoreInsertEventHistory engine event value createdMs store).2.conn.committed
      = if store.conn.txn = none
        then StoreCall.apply (.insertEventHistory event value createdMs) store.conn.committed
        else store.conn.committed := by
  unfold edgeStoreInsertEventHistory statusOf at h ⊢
  simp only at h ⊢
  -- inside a transaction the row waits for the commit
  split_ifs at h ⊢ with hunprepared hstep htxn
  · obtain ⟨w, hw, -, ⟨-, hconn⟩ | ⟨hsome, -⟩⟩ := Session.step_ok hstep
    · rw [Session.prepare_conn, Conn.view_outside htxn] at hw
      exact (congrArg Conn.committed hconn).trans (makes_appendHistory event value createdMs _ w hw)
    · rw [Session.prepare_conn, htxn] at hsome
      cases hsome
  · obtain ⟨w, -, -, ⟨hnone, -⟩ | ⟨-, hconn⟩⟩ := Session.step_ok hstep
    · exact absurd hnone htxn
    · show (Session.step engine _ (store.prepare engine).2).2.conn.committed = store.conn.committed
      rw [hconn]
      rfl

/-- The record of a call that had its effect on what is committed. -/
def CallRecord.Durable (r : CallRecord τ) : Prop := r.status = .ok ∧ r.before.conn.txn = none

instance (r : CallRecord τ) : Decidable r.Durable := by
  unfold CallRecord.Durable
  infer_instance

/-- **What one call commits**: its own update, if it returned OK outside a transaction, and
nothing else. -/
theorem run_committed (engine : Engine τ) (call : StoreCall) (store : Store τ) :
    (call.run engine store).2.conn.committed
      = if (call.run engine store).1 = .ok ∧ store.conn.txn = none
        then call.apply store.conn.committed else store.conn.committed := by
  have hboth : ∀ {update : Db → Db} {r : EdgeStatus × Store τ}, AllOrNothing update store r →
      r.2.conn.committed = if r.1 = .ok ∧ store.conn.txn = none
        then update store.conn.committed else store.conn.committed := by
    intro update r hr
    -- a call that succeeds was outside a transaction and has committed its update
    by_cases hok : r.1 = .ok
    · obtain ⟨hnone, hconn⟩ := hr.2 hok
      rw [if_pos ⟨hok, hnone⟩, hconn]
    · rw [if_neg fun h => hok h.1, hr.1 hok]
  cases call with
  | persistModel model => exact hboth (allOrNothing_persistModel engine model store)
  | persistLatestValues model nowMs =>
    exact hboth (allOrNothing_persistLatestValues engine model nowMs store)
  | loadLatestValues model =>
    refine (loadLatestValues_committed engine model store).trans ?_
    split_ifs <;> rfl
  | insertEventHistory event value createdMs =>
    by_cases hok : (edgeStoreInsertEventHistory engine event value createdMs store).1 = .ok
    · refine (insertEventHistory_committed_of_ok hok).trans ?_
      split_ifs with h h' h'
      · rfl
      · exact absurd ⟨hok, h⟩ h'
      · exact absurd h'.2 h
      · rfl
    · refine (insertEventHistory_committed_of_not_ok hok).trans ?_
      rw [if_neg fun h => hok h.1]

/-! ## Whole runs

Over a run the file is what the durable calls made of it, in order. -/

/-- The updates of the calls that took effect, in order. -/
def replay (records : List (CallRecord τ)) (db : Db) : Db :=
  records.foldl (fun db r => if r.Durable then r.call.apply db else db) db

theorem storeAfter_committed (engine : Engine τ) (calls : List StoreCall) :
    ∀ store : Store τ, (storeAfter engine calls store).conn.committed
      = replay (runCalls engine calls store) store.conn.committed := by
  induction calls with
  | nil => intro store; rfl
  | cons call rest ih =>
    intro store
    refine (ih _).trans ?_
    rw [run_committed]
    rfl

/-- A call that persists the model, or its values. -/
def PersistsModel (model : EdgeModel) (call : StoreCall) : Prop :=
  call = .persistModel model ∨ ∃ nowMs, call = .persistLatestValues model nowMs

/-- **Persisting is all or nothing.** A call that does not return OK leaves what is committed as
it was, and whatever calls follow, what is committed then, and after the store is closed, is made
of their own updates only. A call that returns OK has upserted every record of the model. -/
theorem persist_all_or_nothing (engine : Engine τ) (store : Store τ) (model : EdgeModel)
    (call : StoreCall) (hcall : PersistsModel model call) :
    ((call.run engine store).1 ≠ .ok →
        (call.run engine store).2.conn.committed = store.conn.committed ∧
          ∀ later : List StoreCall,
            (storeAfter engine later (call.run engine store).2).conn.committed =
                replay (runCalls engine later (call.run engine store).2) store.conn.committed ∧
              (edgeStoreClose (storeAfter engine later (call.run engine store).2)).conn.committed =
                replay (runCalls engine later (call.run engine store).2) store.conn.committed) ∧
      ((call.run engine store).1 = .ok →
        (call.run engine store).2.conn.committed = call.apply store.conn.committed) := by
  have hatomic : AllOrNothing call.apply store (call.run engine store) := by
    rcases hcall with rfl | ⟨nowMs, rfl⟩
    · exact allOrNothing_persistModel engine model store
    · exact allOrNothing_persistLatestValues engine model nowMs store
  refine ⟨fun hfailed => ⟨hatomic.1 hfailed, fun later => ?_⟩,
    fun hok => congrArg Conn.committed (hatomic.2 hok).2⟩
  have hlater := storeAfter_committed engine later (call.run engine store).2
  rw [hatomic.1 hfailed] at hlater
  -- closing only drops the working copy
  exact ⟨hlater, hlater⟩

/-- The commit of the first call is refused and its transaction stays open; the alarm and the
values that follow leave no trace either. -/
theorem refused_persist_leaves_nothing :
    ((StoreCall.persistLatestValues pumpModel 1).run busyEngine (busyStore 1)).1 = .error ∧
      (edgeStoreClose (storeAfter busyEngine pumpCalls
        ((StoreCall.persistLatestValues pumpModel 1).run busyEngine
          (busyStore 1)).2)).conn.committed =
        replay (runCalls busyEngine pumpCalls
          ((StoreCall.persistLatestValues pumpModel 1).run busyEngine (busyStore 1)).2) {} := by
  have hstatus : ((StoreCall.persistLatestValues pumpModel 1).run busyEngine (busyStore 1)).1
      = .error := by decide +kernel
  obtain ⟨hfailed, -⟩ := persist_all_or_nothing busyEngine (busyStore 1) pumpModel
    (.persistLatestValues pumpModel 1) (.inr ⟨1, rfl⟩)
  obtain ⟨-, hlater⟩ := hfailed (by rw [hstatus]; decide)
  exact ⟨hstatus, (hlater pumpCalls).2⟩

end OpcuaEdge
