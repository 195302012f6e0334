import OpcuaEdge.EventPass
import OpcuaEdge.Wiring

/-!
# OpcuaEdge — the store and its transactions

Sequences of store calls under any pattern of SQLite failures. Every exit of the two operations
that open a transaction ends it, except for one: where the `COMMIT` itself fails, no `ROLLBACK`
follows. `never_in_transaction_iff` says that the store stays out of transactions, keeps every
recorded event and is not blocked by earlier failures exactly as long as no call that was to end a
transaction is refused with the transaction left open.
-/

namespace OpcuaEdge

open CStr CLoop Txn

variable {τ : Type}

/-! ## Runs of store calls

The four calls that the runtime makes on an open store, in any order. A run is recorded call by
call, as what happens in a transaction that stays open depends on what came before. -/

/-- A call of the store with its arguments. -/
inductive StoreCall where
  | persistModel (model : EdgeModel)
  | persistLatestValues (model : EdgeModel) (nowMs : Nat)
  | loadLatestValues (model : EdgeModel)
  | insertEventHistory (event : EdgeEvent) (value : Double) (createdMs : Nat)

/-- What the call does, and its status. The values that a restore reads are left out here. -/
def StoreCall.run (engine : Engine τ) (store : Store τ) : StoreCall → EdgeStatus × Store τ
  | .persistModel model => edgeStorePersistModel engine model store
  | .persistLatestValues model nowMs => edgeStorePersistLatestValues engine model nowMs store
  | .loadLatestValues model =>
    let r := edgeStoreLoadLatestValues engine store model
    (r.1, r.2.1)
  | .insertEventHistory event value createdMs =>
    edgeStoreInsertEventHistory engine event value createdMs store

/-- A call that returned: the store before and after it. -/
structure CallRecord (τ : Type) where
  call : StoreCall
  before : Store τ
  status : EdgeStatus
  after : Store τ

/-- The records of a run, in order; each call starts where the one before ended. -/
def runCalls (engine : Engine τ) : List StoreCall → Store τ → List (CallRecord τ)
  | [], _ => []
  | call :: rest, store =>
    let r := call.run engine store
    { call, before := store, status := r.1, after := r.2 } :: runCalls engine rest r.2

/-- The store after the calls. -/
def storeAfter (engine : Engine τ) (calls : List StoreCall) (store : Store τ) : Store τ :=
  calls.foldl (fun store call => (call.run engine store).2) store

/-- What the call asked of SQLite, with the answers. -/
def CallRecord.entries (r : CallRecord τ) : List Entry :=
  r.after.log.drop r.before.log.length

/-- The row of a history insert that returned OK. -/
def insertedRow (call : StoreCall) (status : EdgeStatus) : Option HistoryRow :=
  match call, status with
  | .insertEventHistory event value createdMs, .ok =>
    some { eventId := event.id, value, threshold := event.threshold,
           severity := event.severity, createdMs }
  | _, _ => none

theorem insertedRow_of_not_ok {call : StoreCall} {status : EdgeStatus} (h : status ≠ .ok) :
    insertedRow call status = none := by
  unfold insertedRow
  split
  · exact absurd rfl h
  · rfl

/-! ## What the statements of an operation keep

The operations are built from statements, and a property that every statement keeps is kept by all
of them. Two such properties matter: that no transaction is left open, and what the event history
is. -/

/-- The statement leaves the event history alone. -/
def KeepsHistory (change : Db → Option Db) : Prop :=
  ∀ db w, change db = some w → w.eventHistory = db.eventHistory

/-- A property of the store that is kept by preparing a statement and by running one that leaves
the event history alone. -/
structure KeptByStatements (engine : Engine τ) (Inv : Store τ → Prop) : Prop where
  prepare : ∀ s, Inv s → Inv (s.prepare engine).2
  step : ∀ s change, KeepsHistory change → Inv s → Inv (s.step engine change).2

/-- The plant is written beside the history .. -/
theorem keepsHistory_upsertPlant (model : EdgeModel) : KeepsHistory (upsertPlant model) := by
  intro db w h
  cases h
  rfl

/-- .. and so is an asset. -/
theorem keepsHistory_upsertAsset (model : EdgeModel) (asset : EdgeAsset) :
    KeepsHistory (upsertAsset model asset) := by
  intro db w h
  cases h
  rfl

/-- A statement with a bound value keeps the history if it does so for each value. -/
theorem keepsHistory_map {α : Type} (value : Option α) (f : α → Db → Db)
    (hf : ∀ a db, (f a db).eventHistory = db.eventHistory) :
    KeepsHistory fun db => value.map (f · db) := by
  intro db w h
  obtain ⟨a, -, rfl⟩ := Option.map_eq_some_iff.mp h
  exact hf a db

/-- A node is written beside the history .. -/
theorem keepsHistory_upsertNode (key : Bytes) (node : EdgeNode) :
    KeepsHistory (upsertNode key node) :=
  keepsHistory_map _ _ fun _ _ => rfl

/-- .. and so is the definition of an event .. -/
theorem keepsHistory_upsertEvent (key : Bytes) (event : EdgeEvent) :
    KeepsHistory (upsertEvent key event) :=
  keepsHistory_map _ _ fun _ _ => rfl

/-- .. and so is a value. -/
theorem keepsHistory_upsertLatest (key : Bytes) (value : Double) (nowMs : Nat) :
    KeepsHistory (upsertLatest key value nowMs) :=
  keepsHistory_map _ _ fun _ _ => rfl

namespace KeptByStatements

variable {engine : Engine τ} {Inv : Store τ → Prop} (h : KeptByStatements engine Inv)

include h

/-- A turn with a key keeps it: with a key that fits it is a statement, and else nothing. -/
theorem keyedTurn (key : EdgeStatus × Bytes) {change : Bytes → Db → Option Db}
    (hchange : ∀ key, KeepsHistory (change key)) (s : Store τ) (hs : Inv s) :
    Inv (keyedTurn engine key change s).1 := by
  unfold OpcuaEdge.keyedTurn
  split_ifs
  · exact hs
  · exact h.step s _ (hchange key.2) hs

theorem persistLoop {α : Type} {turn : α → Store τ → Store τ × Option EdgeStatus}
    (hturn : ∀ a s, Inv s → Inv (turn a s).1) (records : List α) (s : Store τ) (hs : Inv s) :
    Inv (persistLoop engine turn records s).2 := by
  unfold OpcuaEdge.persistLoop
  simp only
  split_ifs
  · exact h.prepare s hs
  · exact visit_state Inv (fun _ => hturn) records 0 _ (h.prepare s hs)

theorem persistPlant (model : EdgeModel) (s : Store τ) (hs : Inv s) :
    Inv (persistPlant engine model s).2 := by
  unfold OpcuaEdge.persistPlant
  simp only
  split_ifs
  · exact h.prepare s hs
  · exact h.step _ _ (keepsHistory_upsertPlant model) (h.prepare s hs)

omit h in
theorem andThen {a b : Store τ → EdgeStatus × Store τ} (ha : ∀ s, Inv s → Inv (a s).2)
    (hb : ∀ s, Inv s → Inv (b s).2) (s : Store τ) (hs : Inv s) : Inv (andThen a b s).2 := by
  unfold OpcuaEdge.andThen
  simp only
  split_ifs
  · exact ha s hs
  · exact hb _ (ha s hs)

theorem persistParts (model : EdgeModel) (s : Store τ) (hs : Inv s) :
    Inv (persistParts engine model s).2 := by
  refine andThen (h.persistPlant model) ?_ s hs
  refine andThen (h.persistLoop (fun asset s => ?_) _) ?_
  · exact h.step s _ (keepsHistory_upsertAsset model asset)
  refine andThen (h.persistLoop (fun node => ?_) _) (h.persistLoop (fun event => ?_) _)
  · exact h.keyedTurn _ fun key => keepsHistory_upsertNode key node
  · exact h.keyedTurn _ fun key => keepsHistory_upsertEvent key event

theorem latestLoop (nodes : List EdgeNode) (nowMs : Nat) (s : Store τ) (hs : Inv s) :
    Inv (visit (latestTurn engine nowMs) 0 nodes s).1 :=
  visit_state Inv (fun _ _ => h.keyedTurn _ fun key => keepsHistory_upsertLatest key _ nowMs)
    nodes 0 s hs

end KeptByStatements

theorem quiet_kept (engine : Engine τ) (store : Store τ) :
    KeptByStatements engine store.Quiet where
  prepare s hs := hs.trans (Session.quiet_prepare engine s)
  step s change _ hs := hs.trans (Session.quiet_step engine change s)

/-- These statements leave the history alone, in the file and in an open transaction. -/
theorem history_kept (engine : Engine τ) (history : List HistoryRow) :
    KeptByStatements engine fun s : Store τ => s.conn.All fun db => db.eventHistory = history where
  prepare _ hs := hs
  step _ _ hchange hs := hs.exec _ fun db w hdb hw => (hchange db w hw).trans hdb

/-! ## One call from outside a transaction

Each call opens and closes its own transaction, or needs none. What is left open can only be a
commit or a rollback that SQLite refused. -/

/-- `edge_store_persist_model` ends outside a transaction, or its log tells which request left it
open. -/
theorem settled_persistModel (engine : Engine τ) (model : EdgeModel) {store : Store τ}
    (htxn : store.conn.txn = none) :
    store.Settled (edgeStorePersistModel engine model store).2 := by
  have hbegin := Session.quiet_begin engine store
  unfold edgeStorePersistModel
  simp only
  split_ifs with hfailed
  · -- nothing was begun, so the connection is as it was
    refine hbegin.settled ?_
    rw [Session.begin_conn_of_not_ok hfailed]
    exact htxn
  · exact ((quiet_kept engine store).persistParts model _ hbegin).trans_settled
      (Session.settled_rollback engine _)
  · exact ((quiet_kept engine store).persistParts model _ hbegin).trans_settled
      (Session.settled_commit engine _)

theorem settled_persistLatestValues (engine : Engine τ) (model : EdgeModel) (nowMs : Nat)
    {store : Store τ} (htxn : store.conn.txn = none) :
    store.Settled (edgeStorePersistLatestValues engine model nowMs store).2 := by
  have hprepare := Session.quiet_prepare engine store
  have hbegin := hprepare.trans (Session.quiet_begin engine _)
  unfold edgeStorePersistLatestValues
  simp only
  split_ifs with hunprepared hfailed
  · exact hprepare.settled htxn
  · refine hbegin.settled ?_
    rw [Session.begin_conn_of_not_ok hfailed]
    exact htxn
  · have hloop := (quiet_kept engine store).latestLoop model.nodes nowMs _ hbegin
    split
    · exact hloop.trans_settled (Session.settled_rollback engine _)
    · exact hloop.trans_settled (Session.settled_commit engine _)

theorem settled_loadLatestValues (engine : Engine τ) (model : EdgeModel) {store : Store τ}
    (htxn : store.conn.txn = none) :
    store.Settled (edgeStoreLoadLatestValues engine store model).2.1 := by
  have hprepare := Session.quiet_prepare engine store
  unfold edgeStoreLoadLatestValues
  simp only
  split_ifs
  · exact hprepare.settled htxn
  · -- reading opens no transaction
    have hturn : ∀ i node s, (store.Quiet s ∧ s.conn.txn = none) →
        store.Quiet (restoreTurn engine i node s).state ∧
          (restoreTurn engine i node s).state.conn.txn = none := by
      rintro i node s ⟨hquiet, hnone⟩
      exact restoreRow_store (P := fun t => store.Quiet t ∧ t.conn.txn = none) (fun select =>
        ⟨hquiet.trans (Session.quiet_query engine select s), Session.query_txn_none hnone⟩)
        ⟨hquiet, hnone⟩
    obtain ⟨hquiet, hnone⟩ := sweep_state (fun s => store.Quiet s ∧ s.conn.txn = none) hturn
      model.nodes 0 (store.prepare engine).2 ⟨hprepare, htxn⟩
    exact hquiet.settled hnone

/-- A history insert asks for none either: it stands alone. -/
theorem settled_insertEventHistory (engine : Engine τ) (event : EdgeEvent) (value : Double)
    (createdMs : Nat) {store : Store τ} (htxn : store.conn.txn = none) :
    store.Settled (edgeStoreInsertEventHistory engine event value createdMs store).2 := by
  have hprepare := Session.quiet_prepare engine store
  unfold edgeStoreInsertEventHistory
  simp only
  split_ifs
  · exact hprepare.settled htxn
  · exact (hprepare.trans (Session.quiet_step engine _ _)).settled (Session.step_txn_none htxn)

theorem settled_run (engine : Engine τ) (call : StoreCall) {store : Store τ}
    (htxn : store.conn.txn = none) : store.Settled (call.run engine store).2 := by
  cases call with
  | persistModel model => exact settled_persistModel engine model htxn
  | persistLatestValues model nowMs => exact settled_persistLatestValues engine model nowMs htxn
  | loadLatestValues model => exact settled_loadLatestValues engine model htxn
  | insertEventHistory event value createdMs =>
    exact settled_insertEventHistory engine event value createdMs htxn

/-! ## The event history across one call

Only a history insert writes it, and no call takes a row out of it. -/

theorem persistModel_history (engine : Engine τ) (model : EdgeModel) {store : Store τ}
    {history : List HistoryRow}
    (h : store.conn.All fun db => db.eventHistory = history) :
    (edgeStorePersistModel engine model store).2.conn.All fun db => db.eventHistory = history := by
  have hparts := (history_kept engine history).persistParts model (store.begin engine).2 (h.begin _)
  unfold edgeStorePersistModel
  simp only
  split_ifs
  · exact h.begin _
  · exact hparts.rollback _
  · exact hparts.commit _

theorem persistLatestValues_history (engine : Engine τ) (model : EdgeModel) (nowMs : Nat)
    {store : Store τ} {history : List HistoryRow}
    (h : store.conn.All fun db => db.eventHistory = history) :
    (edgeStorePersistLatestValues engine model nowMs store).2.conn.All
      fun db => db.eventHistory = history := by
  have hbegin : ((store.prepare engine).2.begin engine).2.conn.All
      fun db => db.eventHistory = history := h.begin _
  have hloop := (history_kept engine history).latestLoop model.nodes nowMs _ hbegin
  unfold edgeStorePersistLatestValues
  simp only
  split_ifs
  · exact h
  · exact hbegin
  · split
    · exact hloop.rollback _
    · exact hloop.commit _

theorem loadLatestValues_committed (engine : Engine τ) (model : EdgeModel) (store : Store τ) :
    (edgeStoreLoadLatestValues engine store model).2.1.conn.committed = store.conn.committed := by
  unfold edgeStoreLoadLatestValues
  simp only
  split_ifs
  · rfl
  · refine sweep_state (fun s : Store τ => s.conn.committed = store.conn.committed)
      (fun i node s hs => ?_) model.nodes 0 _ rfl
    exact restoreRow_store (P := fun t : Store τ => t.conn.committed = store.conn.committed)
      (fun select => (Session.query_committed engine select s).trans hs) hs

/-! ## The event history inside a transaction

A transaction that is stranded sees rows that the file does not have yet. It is ahead of the file,
never behind it. -/

/-- The later history begins with the earlier one. -/
def HistoryExtends (before after : Db) : Prop := before.eventHistory <+: after.eventHistory

theorem HistoryExtends.refl (db : Db) : HistoryExtends db db := List.prefix_rfl

/-- What an open transaction has added to the history stands behind what is committed. -/
def HistoryAhead (conn : Conn Db) : Prop := conn.Ahead HistoryExtends

theorem historyAhead_outside {conn : Conn Db} (htxn : conn.txn = none) : HistoryAhead conn :=
  Conn.ahead_outside HistoryExtends.refl htxn

/-- A statement adds at the end of what the transaction sees, or nothing. -/
theorem ahead_kept (engine : Engine τ) :
    KeptByStatements engine fun s : Store τ => HistoryAhead s.conn where
  prepare _ hs := hs
  step _ _ hchange hs := Conn.Ahead.exec HistoryExtends.refl hs _ fun base d w hbd hw => by
    unfold HistoryExtends at hbd ⊢
    rw [hchange d w hw]
    exact hbd

/-- **Every call on the store keeps it so**, and it is so when the store is opened, outside a
transaction. -/
theorem run_ahead (engine : Engine τ) (call : StoreCall) {store : Store τ}
    (h : HistoryAhead store.conn) : HistoryAhead (call.run engine store).2.conn := by
  have hrefl := HistoryExtends.refl
  cases call with
  | persistModel model =>
    have hbegin : HistoryAhead (store.begin engine).2.conn := Conn.Ahead.begin hrefl h _
    have hparts := (ahead_kept engine).persistParts model (store.begin engine).2 hbegin
    show HistoryAhead (edgeStorePersistModel engine model store).2.conn
    unfold edgeStorePersistModel
    simp only
    split_ifs
    · exact hbegin
    · exact Conn.Ahead.rollback hrefl hparts _
    · exact Conn.Ahead.commit hrefl hparts _
  | persistLatestValues model nowMs =>
    have hbegin : HistoryAhead ((store.prepare engine).2.begin engine).2.conn :=
      Conn.Ahead.begin hrefl h _
    have hloop := (ahead_kept engine).latestLoop model.nodes nowMs _ hbegin
    show HistoryAhead (edgeStorePersistLatestValues engine model nowMs store).2.conn
    unfold edgeStorePersistLatestValues
    simp only
    split_ifs
    · exact h
    · exact hbegin
    · split
      · exact Conn.Ahead.rollback hrefl hloop _
      · exact Conn.Ahead.commit hrefl hloop _
  | loadLatestValues model =>
    show HistoryAhead (edgeStoreLoadLatestValues engine store model).2.1.conn
    unfold edgeStoreLoadLatestValues
    simp only
    split_ifs
    · exact h
    · refine sweep_state (fun s : Store τ => HistoryAhead s.conn) (fun i node s hs => ?_)
        model.nodes 0 _ h
      -- a query that fails may discard the transaction
      have hquery (select : Db → Option LatestRow) :
          HistoryAhead (s.query engine select).2.conn := by
        rcases Session.query_conn engine select s with hconn | hconn
        · rw [hconn]
          exact hs
        · rw [hconn]
          exact historyAhead_outside rfl
      exact restoreRow_store (P := fun t : Store τ => HistoryAhead t.conn) hquery hs
  | insertEventHistory event value createdMs =>
    show HistoryAhead (edgeStoreInsertEventHistory engine event value createdMs store).2.conn
    unfold edgeStoreInsertEventHistory
    simp only
    split_ifs
    · exact h
    · refine Conn.Ahead.exec (c := (store.prepare engine).2.conn) hrefl h _
        fun base db w hbase hchange => ?_
      -- the row stands behind the others
      rw [appendHistory_eq_some hchange]
      exact hbase.trans (List.prefix_append _ _)

/-- An insert that did not return OK left no row. -/
theorem insertEventHistory_committed_of_not_ok {engine : Engine τ} {event : EdgeEvent}
    {value : Double} {createdMs : Nat} {store : Store τ}
    (h : (edgeStoreInsertEventHistory engine event value createdMs store).1 ≠ .ok) :
    (edgeStoreInsertEventHistory engine event value createdMs store).2.conn.committed =
      store.conn.committed := by
  unfold edgeStoreInsertEventHistory statusOf at h ⊢
  simp only at h ⊢
  split_ifs at h ⊢ with hprepare
  · rfl
  · exact absurd rfl h
  · rename_i hstep
    exact Session.step_committed_of_not_ok (Bool.eq_false_iff.mpr hstep)

/-- A call that begins and ends outside a transaction adds to the committed history just the row
of an insert that returned OK. -/
theorem run_history (engine : Engine τ) (call : StoreCall) {store : Store τ}
    (htxn : store.conn.txn = none) (htxn' : (call.run engine store).2.conn.txn = none) :
    (call.run engine store).2.conn.committed.eventHistory =
      store.conn.committed.eventHistory ++
        (insertedRow call (call.run engine store).1).toList := by
  -- without a working copy the invariant is about what is committed
  have hall : store.conn.All fun db => db.eventHistory = store.conn.committed.eventHistory :=
    ⟨rfl, fun w hw => by rw [htxn] at hw; cases hw⟩
  cases call with
  | persistModel model =>
    exact (persistModel_history engine model hall).1.trans (List.append_nil _).symm
  | persistLatestValues model nowMs =>
    exact (persistLatestValues_history engine model nowMs hall).1.trans (List.append_nil _).symm
  | loadLatestValues model =>
    refine (congrArg Db.eventHistory (loadLatestValues_committed engine model store)).trans ?_
    exact (List.append_nil _).symm
  | insertEventHistory event value createdMs =>
    unfold StoreCall.run at htxn' ⊢
    simp only at htxn' ⊢
    by_cases hok : (edgeStoreInsertEventHistory engine event value createdMs store).1 = .ok
    · -- outside a transaction the view is what is committed
      have hrow := edgeStoreInsertEventHistory_ok hok
      rw [Conn.view_outside htxn, Conn.view_outside htxn'] at hrow
      rw [hrow, hok]
      rfl
    · rw [insertEventHistory_committed_of_not_ok hok, insertedRow_of_not_ok hok]
      exact (List.append_nil _).symm

/-! ## Why a persist call fails

Persisting the values fails where SQLite refuses a request, and also where a value cannot be stored
at all. -/

/-- The node's key fits its buffer and its value can be stored. -/
def EdgeNode.Storable (node : EdgeNode) : Prop :=
  (makeNodeKey node).1 = .ok ∧ (edgeNodeAsDouble node).isNan = false

theorem latestTurn_storable (engine : Engine τ) (nowMs i : Nat) {node : EdgeNode}
    (h : node.Storable) (s : Store τ) :
    latestTurn engine nowMs i node s =
      stepTurn engine (upsertLatest (makeNodeKey node).2 (edgeNodeAsDouble node) nowMs) s := by
  unfold latestTurn keyedTurn
  rw [if_neg (not_not.mpr h.1)]

theorem stepTurn_exit_iff (engine : Engine τ) (change : Db → Option Db) (s : Store τ) :
    (stepTurn engine change s).2 = none ↔ (s.step engine change).1 = true := by
  unfold stepTurn
  simp

/-- A loop over storable nodes that stops was refused a statement. -/
theorem latestLoop_refused (engine : Engine τ) (nowMs : Nat) :
    ∀ (nodes : List EdgeNode), (∀ node ∈ nodes, node.Storable) → ∀ (i : Nat) (s : Store τ),
      (visit (latestTurn engine nowMs) i nodes s).2 ≠ none →
        s.Refused (visit (latestTurn engine nowMs) i nodes s).1 := by
  intro nodes
  induction nodes with
  | nil => intro _ i s h; exact absurd rfl h
  | cons node rest ih =>
    intro hnodes i s h
    obtain ⟨hnode, hrest⟩ := List.forall_mem_cons.mp hnodes
    have hturn := latestTurn_storable engine nowMs i hnode s
    -- the row can be built, so a turn ends the loop only if the step was refused
    cases hexit : (latestTurn engine nowMs i node s).2 with
    | none =>
      rw [visit_cons_next hexit] at h ⊢
      refine (ih hrest (i + 1) _ h).after ?_
      rw [hturn]
      exact (Session.quiet_step engine _ s).isPrefix
    | some status =>
      rw [visit_cons_exit hexit, hturn]
      refine Session.step_refused ?_ ?_
      · unfold upsertLatest bindDouble
        simp [hnode.2]
      · rw [hturn] at hexit
        by_contra hstep
        rw [(stepTurn_exit_iff engine _ s).mpr (by simpa using hstep)] at hexit
        cases hexit

/-- A loop that runs to its end in a transaction leaves it open. -/
theorem latestLoop_txn (engine : Engine τ) (nowMs : Nat) (nodes : List EdgeNode) {s : Store τ}
    (htxn : s.conn.txn.isSome) (h : (visit (latestTurn engine nowMs) 0 nodes s).2 = none) :
    (visit (latestTurn engine nowMs) 0 nodes s).1.conn.txn.isSome := by
  refine visit_complete (fun s : Store τ => s.conn.txn.isSome = true) (fun i node s hs hnext => ?_)
    nodes 0 s htxn h
  unfold latestTurn keyedTurn at hnext ⊢
  split_ifs at hnext ⊢ with hkey
  obtain ⟨w, -, -, ⟨hnone, -⟩ | ⟨-, hconn⟩⟩ :=
    Session.step_ok ((stepTurn_exit_iff engine _ s).mp hnext)
  · rw [hnone] at hs; cases hs
  · exact congrArg (fun c : Conn Db => c.txn.isSome) hconn

/-- From outside a transaction and with storable nodes the call fails only where SQLite refuses
one of its own requests. -/
theorem persistLatestValues_refused {engine : Engine τ} {model : EdgeModel} {nowMs : Nat}
    {store : Store τ} (htxn : store.conn.txn = none) (hnodes : ∀ node ∈ model.nodes, node.Storable)
    (h : (edgeStorePersistLatestValues engine model nowMs store).1 ≠ .ok) :
    store.Refused (edgeStorePersistLatestValues engine model nowMs store).2 := by
  have hprepare := Session.quiet_prepare engine store
  have hbegin := hprepare.trans (Session.quiet_begin engine _)
  unfold edgeStorePersistLatestValues at h ⊢
  simp only at h ⊢
  split_ifs at h ⊢ with hunprepared hunbegun
  · exact Session.prepare_refused hunprepared
  · have hrefused : (store.prepare engine).2.Refused ((store.prepare engine).2.begin engine).2 :=
      Session.begin_refused htxn hunbegun
    exact hrefused.after hprepare.isPrefix
  · obtain ⟨-, hconn⟩ := Session.begin_ok (Bool.not_eq_false _ ▸ hunbegun)
    have hloop := (quiet_kept engine store).latestLoop model.nodes nowMs _ hbegin
    split at h <;> rename_i hexit
    · -- a statement of the loop was refused; the rollback comes after it in the log
      refine
        ((latestLoop_refused engine nowMs model.nodes hnodes 0 _ ?_).after hbegin.isPrefix).before
        (Session.settled_rollback engine _).isPrefix
      rw [hexit]
      exact Option.some_ne_none _
    · -- the loop left the transaction open, so the commit could only fail by being refused
      obtain ⟨w, hw⟩ := Option.isSome_iff_exists.mp
        (latestLoop_txn engine nowMs model.nodes (by rw [hconn]; rfl) hexit)
      refine (Session.commit_refused hw ?_).after hloop.isPrefix
      unfold statusOf at h
      split_ifs at h with hcommit
      · exact absurd rfl h
      · exact Bool.eq_false_iff.mpr hcommit

/-! ## Whole runs

What a run leaves in the history is told from the statuses of its calls, as long as no transaction
is stranded. A stranded one is not ended by any later call, and what is inserted in it is lost when
the connection is closed. -/

/-- What a run of calls that never stays inside a transaction guarantees: no call returns with one
open; after closing the store, the history holds the rows of all inserts that returned OK, in
order; and a persist call fails only for reasons of its own. -/
structure NeverInTransaction (engine : Engine τ) (calls : List StoreCall) (store : Store τ) :
    Prop where
  outside : ∀ r ∈ runCalls engine calls store, r.after.conn.txn = none
  durable : (edgeStoreClose (storeAfter engine calls store)).conn.committed.eventHistory =
    store.conn.committed.eventHistory ++
      (runCalls engine calls store).filterMap fun r => insertedRow r.call r.status
  unblocked : ∀ r ∈ runCalls engine calls store, ∀ model nowMs,
    r.call = .persistLatestValues model nowMs → (∀ node ∈ model.nodes, node.Storable) →
      (∀ e ∈ r.entries, e.verdict = .ok) → r.status = .ok

/-- Each call of a run started outside a transaction, if the calls before it ended there. -/
theorem runCalls_records {engine : Engine τ} (calls : List StoreCall) :
    ∀ (store : Store τ), store.conn.txn = none →
      (∀ r ∈ runCalls engine calls store, r.after.conn.txn = none) →
      ∀ r ∈ runCalls engine calls store,
        r.before.conn.txn = none ∧ (r.status, r.after) = r.call.run engine r.before := by
  induction calls with
  | nil => intro store _ _ r hr; cases hr
  | cons call rest ih =>
    intro store htxn hall
    rw [runCalls] at hall ⊢
    obtain ⟨hfirst, hrest⟩ := List.forall_mem_cons.mp hall
    exact List.forall_mem_cons.mpr ⟨⟨htxn, rfl⟩, ih _ hfirst hrest⟩

/-- The entries of a record are what its call added to the log. -/
theorem entries_eq {r : CallRecord τ} {new : List Entry} (h : r.after.log = r.before.log ++ new) :
    r.entries = new := by
  unfold CallRecord.entries
  rw [h, List.drop_left]

/-- A call from outside a transaction ends there exactly if it strands none. -/
theorem txn_none_iff_of_run {engine : Engine τ} {r : CallRecord τ}
    (htxn : r.before.conn.txn = none) (hrun : (r.status, r.after) = r.call.run engine r.before) :
    r.after.conn.txn = none ↔ ∀ e ∈ r.entries, ¬ e.strands := by
  obtain ⟨new, hlog, hiff⟩ := settled_run engine r.call htxn
  rw [← hrun] at hlog hiff
  rw [entries_eq hlog]
  exact hiff

/-- A run in which no request strands a transaction stays outside of transactions. -/
theorem runCalls_outside {engine : Engine τ} (calls : List StoreCall) :
    ∀ (store : Store τ), store.conn.txn = none →
      (∀ r ∈ runCalls engine calls store, ∀ e ∈ r.entries, ¬ e.strands) →
      ∀ r ∈ runCalls engine calls store, r.after.conn.txn = none := by
  induction calls with
  | nil => intro store _ _ r hr; cases hr
  | cons call rest ih =>
    intro store htxn hall
    rw [runCalls] at hall ⊢
    obtain ⟨hfirst, hrest⟩ := List.forall_mem_cons.mp hall
    have hnone : (call.run engine store).2.conn.txn = none :=
      (txn_none_iff_of_run htxn rfl).mpr hfirst
    exact List.forall_mem_cons.mpr ⟨hnone, ih _ hnone hrest⟩

/-- In such a run the history grows by the rows of the inserts that returned `EDGE_STATUS_OK`, and
by no others. -/
theorem runCalls_history {engine : Engine τ} (calls : List StoreCall) :
    ∀ (store : Store τ), store.conn.txn = none →
      (∀ r ∈ runCalls engine calls store, r.after.conn.txn = none) →
      (storeAfter engine calls store).conn.committed.eventHistory =
        store.conn.committed.eventHistory ++
          (runCalls engine calls store).filterMap fun r => insertedRow r.call r.status := by
  induction calls with
  | nil => intro store _ _; exact (List.append_nil _).symm
  | cons call rest ih =>
    intro store htxn hall
    rw [runCalls] at hall ⊢
    obtain ⟨hfirst, hrest⟩ := List.forall_mem_cons.mp hall
    refine (ih _ hfirst hrest).trans ?_
    -- the first call ended outside a transaction, so its row is already committed
    rw [run_history engine call htxn hfirst, List.append_assoc, List.filterMap_cons]
    cases insertedRow call (call.run engine store).1 <;> rfl

/-- **The store never stays inside a transaction, as long as SQLite does not refuse to end one,
and only then.** -/
theorem never_in_transaction_iff (engine : Engine τ) (store : Store τ)
    (htxn : store.conn.txn = none) (calls : List StoreCall) :
    NeverInTransaction engine calls store ↔
      ∀ r ∈ runCalls engine calls store, ∀ e ∈ r.entries, ¬ e.strands := by
  constructor
  · intro h r hr
    obtain ⟨hbefore, hrun⟩ := runCalls_records calls store htxn h.outside r hr
    exact (txn_none_iff_of_run hbefore hrun).mp (h.outside r hr)
  · intro h
    have houtside := runCalls_outside calls store htxn h
    refine ⟨houtside, runCalls_history calls store htxn houtside, ?_⟩
    intro r hr model nowMs hcall hnodes hanswers
    obtain ⟨hbefore, hrun⟩ := runCalls_records calls store htxn houtside r hr
    rw [hcall] at hrun
    -- all was answered, so nothing can have been refused
    by_contra hstatus
    have hrefused : r.before.Refused r.after := by
      rw [show r.after = _ from congrArg Prod.snd hrun]
      refine persistLatestValues_refused hbefore hnodes fun hok => hstatus ?_
      exact (congrArg Prod.fst hrun).trans hok
    exact Session.not_refused_of_forall hanswers hrefused

/-! SQLite refuses the first commits, as when another process reads the database, and leaves their
transactions open. -/

/-- An engine that refuses a number of commits and nothing else. -/
def busyEngine : Engine Nat where
  answer
    | .commit, n + 1 => (.fail false, n)
    | _, n => (.ok, n)

/-- A store on a new file, in front of that engine. -/
def busyStore (refusals : Nat) : Store Nat := { conn := { committed := {} }, env := refusals }

/-- The values are persisted, the alarm is recorded, and the values are persisted again. -/
def pumpCalls : List StoreCall :=
  .persistLatestValues pumpModel 1 ::
    (pumpModel.events.map fun event => .insertEventHistory event (.fin 9) 2) ++
      [.persistLatestValues pumpModel 3]

/-- No commit refused: every call ends outside a transaction. -/
theorem pump_never_in_transaction : NeverInTransaction busyEngine pumpCalls (busyStore 0) :=
  (never_in_transaction_iff busyEngine (busyStore 0) rfl pumpCalls).mpr (by decide +kernel)

/-- After one refused commit the alarm, though its insert returned OK, is lost when the store is
closed, and the second persist call fails. -/
theorem refused_commit_loses_alarm :
    ¬ NeverInTransaction busyEngine pumpCalls (busyStore 1) ∧
      (runCalls busyEngine pumpCalls (busyStore 1)).map (·.status) = [.error, .ok, .error] ∧
      (edgeStoreClose (storeAfter busyEngine pumpCalls
        (busyStore 1))).conn.committed.eventHistory = [] := by
  refine ⟨fun h => ?_, by decide +kernel, by decide +kernel⟩
  have hopen : ∃ r ∈ runCalls busyEngine pumpCalls (busyStore 1), r.after.conn.txn.isSome := by
    decide +kernel
  obtain ⟨r, hr, hsome⟩ := hopen
  rw [h.outside r hr] at hsome
  cases hsome

end OpcuaEdge
