import OpcuaEdge.Commands
import OpcuaEdge.Persistable

/-!
# OpcuaEdge — what a restart would come back to

Values reach the disk with the persist of every `persist_every_n_ticks`-th tick. `Resumable` says
what a restore would make of the loaded nodes at any time of a run: the values of the model that
was persisted last with success, or of the one the run started with. It is kept by every step,
whatever SQLite answers (`runStep_resumable`): a client's write, a poll or a history insert does
not touch the committed values, and a persist that fails commits none.
-/

namespace OpcuaEdge

open CStr CLoop Txn Upsert

variable {σ τ ρ : Type}

/-! ## Flags stay flags

A boolean is stored as zero or one and restored by a test, so it comes back only if it was zero or
one. Every assignment to a node keeps it so. -/

theorem writeEdgeNode_boolInRange {node : EdgeNode} (h : node.BoolInRange)
    (value : Option UaVariant) : (writeEdgeNode node value).2.BoolInRange := by
  unfold writeEdgeNode
  split
  · exact h
  · exact h
  · split
    · intro _
      dsimp only
      split_ifs <;> simp
    all_goals exact h

theorem applyRegistersToNode_boolInRange {node : EdgeNode} (h : node.BoolInRange)
    (raw : List (BitVec 16)) : (applyRegistersToNode node raw).BoolInRange := by
  unfold applyRegistersToNode
  dsimp only
  split
  · intro _
    dsimp only
    split_ifs <;> simp
  all_goals exact h

theorem edgeNodeSetFromDouble_boolInRange {node : EdgeNode} (h : node.BoolInRange) (d : Double) :
    (edgeNodeSetFromDouble node d).BoolInRange := by
  unfold edgeNodeSetFromDouble
  split
  · split
    · intro _
      dsimp only
      split_ifs <;> simp
    all_goals exact h
  · split_ifs
    · exact h
    · exact fun _ => .inl rfl

theorem drainedNode_boolInRange {node : EdgeNode} (h : node.BoolInRange) :
    (drainedNode node).BoolInRange := by
  unfold drainedNode
  split_ifs <;> exact h

/-- What a decoded read keeps of every node, a poll keeps. -/
theorem edgeModbusPoll_forall (P : EdgeNode → Prop)
    (hP : ∀ node raw, P node → P (applyRegistersToNode node raw)) (lib : ModbusLib σ)
    (bus : Bus σ) {nodes : List EdgeNode} (h : ∀ node ∈ nodes, P node) :
    ∀ node ∈ (edgeModbusPoll lib bus nodes).2.2, P node := by
  unfold edgeModbusPoll
  dsimp only
  split_ifs
  · exact h
  · exact h
  · -- a node is either left alone by its turn or decoded from the registers
    refine sweep_forall P (fun i node s hnode => ?_) nodes 0 _ h
    unfold pollNode
    dsimp only
    split_ifs
    · exact hnode
    · exact hnode
    · exact hnode
    · exact hP node _ hnode

/-- What a restored value keeps of every node, the restore keeps. -/
theorem edgeStoreLoadLatestValues_forall (P : EdgeNode → Prop)
    (hP : ∀ node d, P node → P (edgeNodeSetFromDouble node d)) (engine : Engine τ)
    (store : Store τ) {model : EdgeModel} (h : ∀ node ∈ model.nodes, P node) :
    ∀ node ∈ (edgeStoreLoadLatestValues engine store model).2.2.nodes, P node := by
  unfold edgeStoreLoadLatestValues
  dsimp only
  split_ifs
  · exact h
  · refine sweep_forall P (fun i node s hnode => ?_) model.nodes 0 _ h
    show P ((restoreRow engine node s).1.elim node _)
    cases (restoreRow engine node s).1 with
    | none => exact hnode
    | some row => exact hP node _ hnode

theorem runStep_boolInRange (libs : Libs σ τ ρ) {rt : EdgeRuntime σ τ ρ}
    (h : ∀ node ∈ rt.model.nodes, node.BoolInRange) (op : RunOp) :
    ∀ node ∈ (runStep libs rt op).1.model.nodes, node.BoolInRange := by
  cases op with
  | tick clock =>
    show ∀ node ∈ (edgeRuntimeTick libs clock rt).1.model.nodes, node.BoolInRange
    -- the tick's nodes are drained first and then polled
    rw [edgeRuntimeTick_nodes]
    refine edgeModbusPoll_forall _ (fun node raw => ?_) libs.modbus _ ?_
    · exact fun hnode => applyRegistersToNode_boolInRange hnode raw
    · rw [List.forall_mem_map]
      exact fun node hmem => drainedNode_boolInRange (h node hmem)
  | write i value =>
    cases hget : rt.model.nodes[i]? with
    | none => simpa only [runStep, hget] using h
    | some node =>
      intro other hmem
      simp only [runStep, hget] at hmem
      rcases List.mem_or_eq_of_mem_set hmem with hold | rfl
      · exact h other hold
      · exact writeEdgeNode_boolInRange (h node (List.mem_of_getElem? hget)) value

/-! ## What a tick commits

The store of a tick comes from its pass and, where it is due, from storing the values. Only the
latter writes values. -/

/-- The event pass of a tick. -/
def tickPass (libs : Libs σ τ ρ) (clock : TickClock) (rt : EdgeRuntime σ τ ρ) : EvalResult τ ρ :=
  let drained := drainPendingWrites libs.modbus rt.bus rt.model.nodes
  let polled := edgeModbusPoll libs.modbus drained.state.bus drained.elem
  edgeEventsEvaluate libs.events clock.evaluateMs { rt.model with nodes := polled.2.2 } rt.store
    rt.server

/-- The persist that follows it where one is due. -/
def tickPersist (libs : Libs σ τ ρ) (clock : TickClock) (rt : EdgeRuntime σ τ ρ) :
    EdgeStatus × Store τ :=
  edgeStorePersistLatestValues libs.events.engine (tickPass libs clock rt).model clock.persistMs
    (tickPass libs clock rt).store

/-- The next tick is to persist the values. -/
def EdgeRuntime.PersistDue (rt : EdgeRuntime σ τ ρ) : Prop :=
  rt.persistEveryNTicks ≠ 0 ∧ (rt.tickCount + 1) % rt.persistEveryNTicks.toUInt64 = 0

instance (rt : EdgeRuntime σ τ ρ) : Decidable rt.PersistDue := inferInstanceAs (Decidable (_ ∧ _))

theorem edgeRuntimeTick_store (libs : Libs σ τ ρ) (clock : TickClock) (rt : EdgeRuntime σ τ ρ) :
    (edgeRuntimeTick libs clock rt).1.store =
      if rt.PersistDue then (tickPersist libs clock rt).2 else (tickPass libs clock rt).store := by
  unfold edgeRuntimeTick tickPersist tickPass EdgeRuntime.PersistDue
  rfl

/-- Recording events does not touch the latest values. -/
theorem edgeEventsEvaluate_latestValues (env : EventEnv τ ρ) (nowMs : Nat) (model : EdgeModel)
    (store : Store τ) (server : Option (EdgeServer ρ)) :
    (edgeEventsEvaluate env nowMs model store server).store.conn.committed.latestValues =
      store.conn.committed.latestValues := by
  refine sweep_state (fun s : EvalState τ ρ => s.store.conn.committed.latestValues =
    store.conn.committed.latestValues) (fun i event s hs => ?_) model.events 0
    { store, server } rfl
  -- the only store call of a turn is the history insert
  have hrecorded : (s.recorded env model nowMs i event).2.store.conn.committed.latestValues =
      store.conn.committed.latestValues := by
    refine (congrArg Db.latestValues (run_committed env.engine (.insertEventHistory
      (event.setActive true) (eventValue model event) nowMs) s.store)).trans ?_
    split_ifs
    · exact hs
    · exact hs
  obtain ⟨-, hturn⟩ | ⟨-, -, hturn⟩ | ⟨-, -, -, hturn⟩ | ⟨-, -, -, s', rfl, hturn⟩ :=
    evaluateEvent_cases env model nowMs i event s
  · rw [hturn]; exact hs
  · rw [hturn]; exact hrecorded
  · rw [hturn]; exact hrecorded
  · rw [hturn]; exact hrecorded

/-- The pass of a tick leaves the values of the database alone. -/
theorem tickPass_latestValues (libs : Libs σ τ ρ) (clock : TickClock) (rt : EdgeRuntime σ τ ρ) :
    (tickPass libs clock rt).store.conn.committed.latestValues =
      rt.store.conn.committed.latestValues :=
  edgeEventsEvaluate_latestValues libs.events _ _ rt.store rt.server

/-- The step persists the values it leaves. -/
def RunOp.Persists (libs : Libs σ τ ρ) (rt : EdgeRuntime σ τ ρ) : RunOp → Prop
  | .write _ _ => False
  | .tick clock => rt.PersistDue ∧ (tickPersist libs clock rt).1 = .ok

instance (libs : Libs σ τ ρ) (rt : EdgeRuntime σ τ ρ) (op : RunOp) :
    Decidable (op.Persists libs rt) := by
  cases op with
  | write i value => exact inferInstanceAs (Decidable False)
  | tick clock => exact inferInstanceAs (Decidable (_ ∧ _))

/-- **What a step commits of the latest values**: those of the nodes it leaves, where it persists
them with success, and nothing otherwise. -/
theorem runStep_latestValues (libs : Libs σ τ ρ) (rt : EdgeRuntime σ τ ρ) (op : RunOp) :
    (op.Persists libs rt → ∃ nowMs,
        (runStep libs rt op).1.store.conn.committed.latestValues =
          upsertAll nodeKeyText (latestRow nowMs) (runStep libs rt op).1.model.nodes
            rt.store.conn.committed.latestValues) ∧
      (¬ op.Persists libs rt → (runStep libs rt op).1.store.conn.committed.latestValues =
        rt.store.conn.committed.latestValues) := by
  cases op with
  | write i value =>
    refine ⟨False.elim, fun _ => ?_⟩
    obtain hstep | ⟨_, _, hstep⟩ | ⟨_, _, _, _, _, _, _, _, hstep⟩ :=
      runStep_write_cases libs rt i value
    all_goals rw [hstep]
  | tick clock =>
    have hstore := edgeRuntimeTick_store libs clock rt
    have hpass := tickPass_latestValues libs clock rt
    have hall := allOrNothing_persistLatestValues libs.events.engine (tickPass libs clock rt).model
      clock.persistMs (tickPass libs clock rt).store
    -- the pass writes no value, so what a due tick commits is its persist alone
    constructor
    · rintro ⟨hdue, hok⟩
      refine ⟨clock.persistMs, ?_⟩
      rw [if_pos hdue] at hstore
      obtain ⟨-, hconn⟩ := hall.2 hok
      calc (runStep libs rt (.tick clock)).1.store.conn.committed.latestValues
          = (tickPersist libs clock rt).2.conn.committed.latestValues :=
            congrArg (·.conn.committed.latestValues) hstore
        _ = upsertAll nodeKeyText (latestRow clock.persistMs) (tickPass libs clock rt).model.nodes
              (tickPass libs clock rt).store.conn.committed.latestValues :=
            congrArg (·.committed.latestValues) hconn
        _ = _ := by rw [hpass]; rfl
    · intro hnot
      refine (congrArg (·.conn.committed.latestValues) hstore).trans ?_
      split_ifs with hdue
      · have hfailed : (tickPersist libs clock rt).1 ≠ .ok := fun hok => hnot ⟨hdue, hok⟩
        exact (congrArg Db.latestValues (hall.1 hfailed)).trans hpass
      · exact hpass

/-! ## The invariant

What is stored must be what the nodes had when it was stored. As two nodes may share a key, this is
asked of nodes with a key of their own. -/

/-- No other of the nodes has the key of node `i`. -/
def OwnKey (nodes : List EdgeNode) (i : Nat) (node : EdgeNode) : Prop :=
  ∀ (j : Nat) (other : EdgeNode), nodes[j]? = some other →
    nodeKeyText other = nodeKeyText node → j = i

/-- From `table` every loaded node with a key of its own gets back the value it has in `point`. -/
def ComesBack (table : Table LatestRow) (loaded point : List EdgeNode) : Prop :=
  ∀ (i : Nat) (n m : EdgeNode), loaded[i]? = some n → point[i]? = some m → OwnKey loaded i n →
    SameMember n.dataType (restoredNode table n).value m.value

/-- The runtime serves the nodes `loaded`. -/
structure Serves (loaded : List EdgeNode) (rt : EdgeRuntime σ τ ρ) : Prop where
  config : rt.model.nodes.map EdgeNode.config = loaded.map EdgeNode.config
  flags : ∀ node ∈ rt.model.nodes, node.BoolInRange

/-- Besides, `point` are the values a restart would come back to. -/
structure Resumable (loaded : List EdgeNode) (rt : EdgeRuntime σ τ ρ) (point : List EdgeNode) :
    Prop extends Serves loaded rt where
  point_config : point.map EdgeNode.config = loaded.map EdgeNode.config
  comesBack : ComesBack rt.store.conn.committed.latestValues loaded point

/-- Nodes of the same configuration at the same place. -/
theorem config_getElem? {nodes nodes' : List EdgeNode}
    (h : nodes.map EdgeNode.config = nodes'.map EdgeNode.config) {i : Nat} {n : EdgeNode}
    (hget : nodes[i]? = some n) : ∃ m, nodes'[i]? = some m ∧ m.config = n.config := by
  have hi := congrArg (·[i]?) h
  simp only [List.getElem?_map, hget, Option.map_some] at hi
  obtain ⟨m, hm, hconfig⟩ := Option.map_eq_some_iff.mp hi.symm
  exact ⟨m, hm, hconfig⟩

/-- Values that were upserted come back. -/
theorem comesBack_upsertAll {loaded nodes : List EdgeNode}
    (hconfig : nodes.map EdgeNode.config = loaded.map EdgeNode.config)
    (hflags : ∀ node ∈ nodes, node.BoolInRange) (nowMs : Nat) (table : Table LatestRow) :
    ComesBack (upsertAll nodeKeyText (latestRow nowMs) nodes table) loaded nodes := by
  intro i n m hn hm hown
  obtain ⟨m', hm', hsame⟩ := config_getElem? hconfig.symm hn
  cases hm.symm.trans hm'
  have hkey : nodeKeyText m = nodeKeyText n :=
    EdgeNode.config_congr nodeKeyText (fun _ => rfl) hsame
  -- a key of the node's own is written once, and that row is the one looked up
  have hfilter : nodes.filter (fun node => nodeKeyText node = nodeKeyText n) = [m] := by
    refine filter_eq_singleton _ _ i m hm (by simpa using hkey) fun j other hj hother => ?_
    obtain ⟨other', hj', hsame'⟩ := config_getElem? hconfig hj
    refine hown j other' hj' ?_
    rw [EdgeNode.config_congr nodeKeyText (fun _ => rfl) hsame']
    simpa using hother
  unfold restoredNode
  rw [show (makeNodeKey n).2 = nodeKeyText n from rfl, lookup_upsertAll_of_filter hfilter]
  exact edgeNodeSetFromDouble_asDouble
    (EdgeNode.config_congr EdgeNode.dataType (fun _ => rfl) hsame)
    (hflags m (List.mem_of_getElem? hm))

/-- A call of the runtime changes no configuration and keeps flags flags. -/
theorem runStep_serves (libs : Libs σ τ ρ) {loaded : List EdgeNode} {rt : EdgeRuntime σ τ ρ}
    (h : Serves loaded rt) (op : RunOp) : Serves loaded (runStep libs rt op).1 where
  config := (runStep_config libs rt op).trans h.config
  flags := runStep_boolInRange libs h.flags op

/-! ## Keeping track

The values to come back to are those of the last step that stored them. They are tracked next to
the run, as a runtime does not remember them. -/

/-- A step of a run next to which something is kept track of. -/
def trackStep {γ : Type} (libs : Libs σ τ ρ) (track : EdgeRuntime σ τ ρ → RunOp → γ → γ)
    (s : EdgeRuntime σ τ ρ × γ) (op : RunOp) : EdgeRuntime σ τ ρ × γ :=
  ((runStep libs s.1 op).1, track s.1 op s.2)

/-- The values a restart would come back to after a step. -/
def checkpoint (libs : Libs σ τ ρ) (rt : EdgeRuntime σ τ ρ) (op : RunOp)
    (point : List EdgeNode) : List EdgeNode :=
  if op.Persists libs rt then (runStep libs rt op).1.model.nodes else point

/-- **Every step keeps the values a restart would come back to**, or replaces them by the current
ones. -/
theorem runStep_resumable (libs : Libs σ τ ρ) {loaded : List EdgeNode} {rt : EdgeRuntime σ τ ρ}
    {point : List EdgeNode} (h : Resumable loaded rt point) (op : RunOp) :
    Resumable loaded (runStep libs rt op).1 (checkpoint libs rt op point) := by
  have hserves := runStep_serves libs h.toServes op
  obtain ⟨hpersists, hnothing⟩ := runStep_latestValues libs rt op
  unfold checkpoint
  split_ifs with hop
  · obtain ⟨nowMs, htable⟩ := hpersists hop
    refine ⟨hserves, hserves.config, ?_⟩
    rw [htable]
    exact comesBack_upsertAll hserves.config hserves.flags nowMs _
  · refine ⟨hserves, h.point_config, ?_⟩
    rw [hnothing hop]
    exact h.comesBack

/-- Keeping track does not change the run. -/
theorem trackStep_run {γ : Type} (libs : Libs σ τ ρ) (track : EdgeRuntime σ τ ρ → RunOp → γ → γ)
    (ops : List RunOp) :
    ∀ (s : EdgeRuntime σ τ ρ × γ) (seen : List Obs),
      (ops.foldl (trackStep libs track) s).1 = (runFrom libs ops (s.1, seen)).1 := by
  induction ops with
  | nil => intro s seen; rfl
  | cons op rest ih => intro s seen; exact ih _ _

end OpcuaEdge
