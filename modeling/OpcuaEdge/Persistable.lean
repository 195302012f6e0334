import OpcuaEdge.LatestValues

/-!
# OpcuaEdge — one value can block persistence

A client may write any double to a writable double node, NaN included, and the value helpers keep
it. SQLite stores a bound NaN as `NULL`, `latest_values.double_value` is `NOT NULL`, and one
failed upsert rolls the whole transaction back. `values_persisted_iff` says that, where SQLite
refuses nothing else, the current values reach the store exactly as long as none of them is a NaN.
-/

namespace OpcuaEdge

open CStr CLoop Txn Upsert

variable {σ τ : Type}

/-! ## Reachable values

The three ways in which a node comes to its value: a client, the device and the database. Together,
in any order, they give what a persist call may be asked to store. -/

/-- What changes the values of a model: a client's write to the node with the given index, a poll
over any bus, and a restore from any store. -/
inductive ValueOp (σ τ : Type) where
  | write (i : Nat) (value : Option UaVariant)
  | poll (lib : ModbusLib σ) (bus : Bus σ)
  | restore (engine : Engine τ) (store : Store τ)

/-- The model after one of them. -/
def ValueOp.apply (model : EdgeModel) : ValueOp σ τ → EdgeModel
  | .write i value =>
    { model with nodes := model.nodes.modify i fun node => (writeEdgeNode node value).2 }
  | .poll lib bus => { model with nodes := (edgeModbusPoll lib bus model.nodes).2.2 }
  | .restore engine store => (edgeStoreLoadLatestValues engine store model).2.2

/-- The model after a sequence of them. -/
def valuesAfter (ops : List (ValueOp σ τ)) (model : EdgeModel) : EdgeModel :=
  ops.foldl ValueOp.apply model

/-- None of them touches anything but the value and the mark of a pending write .. -/
theorem ValueOp.apply_config (model : EdgeModel) (op : ValueOp σ τ) :
    (op.apply model).nodes.map EdgeNode.config = model.nodes.map EdgeNode.config := by
  cases op with
  | write i value => exact map_modify_of_eq _ _ (fun node => writeEdgeNode_config node value) _ _
  | poll lib bus => exact edgeModbusPoll_map _ applyRegistersToNode_config lib bus _
  | restore engine store =>
    refine edgeStoreLoadLatestValues_map _ (fun node d => ?_) engine store model
    rw [edgeNodeSetFromDouble_others]
    rfl

/-- .. and so the template stays what it is. -/
theorem valuesAfter_config (ops : List (ValueOp σ τ)) :
    ∀ model : EdgeModel,
      (valuesAfter ops model).nodes.map EdgeNode.config = model.nodes.map EdgeNode.config := by
  induction ops with
  | nil => intro model; rfl
  | cons op rest ih => intro model; exact (ih _).trans (op.apply_config model)

/-- The keys of all nodes still fit their buffer. -/
theorem valuesAfter_keys {file : Option Bytes} {model : EdgeModel} (h : LoadedAndWired file model)
    (ops : List (ValueOp σ τ)) :
    ∀ node ∈ (valuesAfter ops model).nodes, (makeNodeKey node).1 = .ok := by
  refine forall_of_config (fun _ => Iff.rfl) (valuesAfter_config ops model) fun node hmem => ?_
  rw [makeNodeKey_eq (h.wired.nodes node hmem)]

/-! ## Persisting them

With an engine that refuses nothing, a persist call can only fail on a value: SQLite stores a NaN
as `NULL`, which the column does not take, or a key is too long. -/

/-- The call succeeds, and afterwards the store holds the current value of every node whose key no
other node has. -/
def ValuesPersisted (engine : Engine τ) (store : Store τ) (nowMs : Nat) (model : EdgeModel) :
    Prop :=
  (edgeStorePersistLatestValues engine model nowMs store).1 = .ok ∧
    ∀ (i : Nat) (node : EdgeNode), model.nodes[i]? = some node →
      (∀ (j : Nat) (other : EdgeNode), model.nodes[j]? = some other →
        nodeKeyText other = nodeKeyText node → j = i) →
      (edgeStorePersistLatestValues engine model nowMs store).2.conn.committed.latestValues.lookup
          (nodeKeyText node) = some { doubleValue := edgeNodeAsDouble node, updatedMs := nowMs }

/-- The only element that satisfies `p`. -/
theorem filter_eq_singleton {α : Type} (p : α → Bool) :
    ∀ (l : List α) (i : Nat) (a : α), l[i]? = some a → p a = true →
      (∀ (j : Nat) (b : α), l[j]? = some b → p b = true → j = i) → l.filter p = [a] := by
  intro l
  induction l with
  | nil => intro i a hget; cases hget
  | cons b rest ih =>
    intro i a hget ha honly
    -- at the head nothing behind it satisfies p; else the head itself does not
    cases i with
    | zero =>
      cases Option.some.inj hget
      rw [List.filter_cons_of_pos ha]
      refine congrArg (b :: ·) (List.filter_eq_nil_iff.mpr fun c hc hp => ?_)
      obtain ⟨j, hj⟩ := List.mem_iff_getElem?.mp hc
      exact absurd (honly (j + 1) c hj hp) (Nat.succ_ne_zero j)
    | succ i =>
      have hb : ¬ p b = true := fun hp => absurd (honly 0 b rfl hp) (Nat.succ_ne_zero i).symm
      rw [List.filter_cons_of_neg hb]
      exact ih i a hget ha fun j c hj hp => Nat.succ.inj (honly (j + 1) c hj hp)

/-- A value that was stored is not a NaN. -/
theorem not_nan_of_persisted {engine : Engine τ} {model : EdgeModel} {nowMs : Nat} {store : Store τ}
    (h : (edgeStorePersistLatestValues engine model nowMs store).1 = .ok) {node : EdgeNode}
    (hmem : node ∈ model.nodes) : (edgeNodeAsDouble node).isNan = false := by
  unfold edgeStorePersistLatestValues at h
  simp only at h
  split_ifs at h with hunprepared hunbegun
  obtain ⟨-, hbegin⟩ := Session.begin_ok (Bool.not_eq_false _ ▸ hunbegun)
  split at h <;> rename_i hexit
  · -- the loop is never left with OK
    obtain ⟨-, -, hne⟩ := latestLoop_writes engine model.nodes nowMs (congrArg Conn.txn hbegin)
    exact absurd (hexit.trans (congrArg some h)) hne
  · obtain ⟨j, s, hturn⟩ := exists_of_visit_complete model.nodes 0 _ hexit hmem
    unfold latestTurn keyedTurn at hturn
    split_ifs at hturn
    obtain ⟨w, hw, -⟩ := Session.step_ok ((stepTurn_exit_iff engine _ s).mp hturn)
    unfold upsertLatest bindDouble at hw
    by_contra hnan
    rw [if_pos (by simpa using hnan)] at hw
    cases hw

/-- Without a refusal the loop over storable nodes runs to its end. -/
theorem latestLoop_of_neverRefuses {engine : Engine τ} (h : engine.NeverRefuses) (nowMs : Nat)
    {nodes : List EdgeNode} (hnodes : ∀ node ∈ nodes, node.Storable) (i : Nat) (s : Store τ) :
    (visit (latestTurn engine nowMs) i nodes s).2 = none := by
  refine visit_none nodes (fun i node hmem s => ?_) i s
  have hnode := hnodes node hmem
  rw [latestTurn_storable engine nowMs i hnode, stepTurn_exit_iff]
  refine Session.step_of_neverRefuses h ?_
  unfold upsertLatest
  rw [bindDouble_of_not_nan hnode.2]
  exact Option.some_ne_none _

theorem persistLatestValues_of_neverRefuses {engine : Engine τ} (h : engine.NeverRefuses)
    {model : EdgeModel} (nowMs : Nat) {store : Store τ} (htxn : store.conn.txn = none)
    (hnodes : ∀ node ∈ model.nodes, node.Storable) :
    (edgeStorePersistLatestValues engine model nowMs store).1 = .ok := by
  have hprepare := Session.prepare_of_neverRefuses h store
  have hbegun : ((store.prepare engine).2.begin engine).1 = true :=
    Session.begin_of_neverRefuses h htxn
  have hexit := latestLoop_of_neverRefuses h nowMs hnodes 0
    ((store.prepare engine).2.begin engine).2
  obtain ⟨-, hbegin⟩ := Session.begin_ok hbegun
  obtain ⟨-, hdone, -⟩ := latestLoop_writes engine model.nodes nowMs (congrArg Conn.txn hbegin)
  unfold edgeStorePersistLatestValues
  simp only [hprepare, hbegun, Bool.true_eq_false, if_false, hexit]
  rw [Session.commit_of_neverRefuses h (hdone hexit)]
  rfl

/-- **The current values reach the store exactly as long as none of them is a NaN.** -/
theorem values_persisted_iff (engine : Engine τ) (hengine : engine.NeverRefuses) (store : Store τ)
    (htxn : store.conn.txn = none) (nowMs : Nat) (file : Option Bytes) (model : EdgeModel)
    (h : LoadedAndWired file model) (ops : List (ValueOp σ τ)) :
    ValuesPersisted engine store nowMs (valuesAfter ops model) ↔
      ∀ node ∈ (valuesAfter ops model).nodes, (edgeNodeAsDouble node).isNan = false := by
  constructor
  · intro hpersisted node hmem
    exact not_nan_of_persisted hpersisted.1 hmem
  · intro hnan
    have hok := persistLatestValues_of_neverRefuses hengine nowMs htxn fun node hmem =>
      ⟨valuesAfter_keys h ops node hmem, hnan node hmem⟩
    refine ⟨hok, fun i node hget honly => ?_⟩
    obtain ⟨-, hconn⟩ :=
      (allOrNothing_persistLatestValues engine (valuesAfter ops model) nowMs store).2 hok
    rw [hconn]
    -- the row of a node is its own if no other node has its key
    refine lookup_upsertAll_of_filter ?_ _
    refine filter_eq_singleton _ _ i node hget (by simp) fun j other hj hkey => ?_
    exact honly j other hj (by simpa using hkey)

/-! A set point next to a level: a client writes a NaN to the set point, and the level is not
persisted either. -/

/-- A template with a double that clients may write, and a measurement beside it. -/
def setpointTemplate : Bytes :=
  templateOf [
    "[plant]", "id=p", "name=P",
    "[asset]", "id=a", "type=t", "name=A",
    "[node]", "asset=a", "id=s", "name=S", "data_type=double", "access=read_write",
      "source=modbus", "modbus_unit=1", "modbus_register=40001", "scale=1",
    "[node]", "asset=a", "id=l", "name=L", "data_type=int16", "access=read",
      "source=modbus", "modbus_unit=1", "modbus_register=40002", "scale=1"]

/-- The model of this template. -/
def setpointModel : EdgeModel where
  id := lit "p"
  name := lit "P"
  assets :=
    [{ id := lit "a"
       type := lit "t"
       name := lit "A"
       parentIndex := edgeInvalidIndex
       nodeCount := 2 }]
  nodes :=
    [{ id := lit "s"
       name := lit "S"
       assetId := lit "a"
       asset := some 0
       dataType := .double
       writable := true
       modbusUnit := 1
       modbusRegister := 40001
       scale := .fin 1 },
     { id := lit "l"
       name := lit "L"
       assetId := lit "a"
       asset := some 0
       dataType := .int16
       modbusUnit := 1
       modbusRegister := 40002
       scale := .fin 1 }]

theorem setpointModel_loadedAndWired : LoadedAndWired (some setpointTemplate) setpointModel := by
  have haccepted : (edgeConfigLoad (some setpointTemplate) {}).1 = .ok := by decide +kernel
  have hmodel : startupModel (some setpointTemplate) = setpointModel := by decide +kernel
  rw [← hmodel]
  exact loadedAndWired_of_ok haccepted

/-- A store on a new file. -/
def freshStore : Store Unit := { conn := { committed := {} }, env := () }

/-- A client writes the setpoint. -/
def writeSetpoint (value : Double) : List (ValueOp Unit Unit) := [.write 0 (some (.double value))]

theorem infinite_setpoint_persisted :
    ValuesPersisted willingEngine freshStore 1
      (valuesAfter (writeSetpoint (.inf false)) setpointModel) :=
  (values_persisted_iff willingEngine willingEngine_neverRefuses freshStore rfl 1
    (some setpointTemplate) setpointModel setpointModel_loadedAndWired
    (writeSetpoint (.inf false))).mpr (by decide +kernel)

/-- A NaN is not, and with it none of the other values is stored either. -/
theorem nan_setpoint_blocks_persistence :
    LoadedAndWired (some setpointTemplate) setpointModel ∧ willingEngine.NeverRefuses ∧
      ¬ ValuesPersisted willingEngine freshStore 1
        (valuesAfter (writeSetpoint .nan) setpointModel) ∧
      (edgeStorePersistLatestValues willingEngine (valuesAfter (writeSetpoint .nan) setpointModel)
        1 freshStore).2.conn.committed.latestValues.lookup (lit "node:a.l") = none := by
  refine ⟨setpointModel_loadedAndWired, willingEngine_neverRefuses, fun h => ?_, by decide +kernel⟩
  exact absurd h.1 (by decide +kernel)

end OpcuaEdge
