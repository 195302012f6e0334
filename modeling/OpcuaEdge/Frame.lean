import OpcuaEdge.Runtime
import OpcuaEdge.ModbusLemmas

/-!
# OpcuaEdge — what the operations leave of a node

After startup three operations write nodes: the client's write, the drain and the poll. None of
them touches what the template says about a node (`EdgeNode.config`); they differ in what they do
to the value and to `pending_write`. This module says so once for each of them and for a whole
tick and run, and gives the two cases of the write callback.
-/

namespace OpcuaEdge

open CLoop Txn

variable {σ τ ρ : Type}

/-- What the template says about a node: everything but its value and the pending flag. -/
def EdgeNode.config (node : EdgeNode) : EdgeNode := { node with value := {}, pendingWrite := false }

/-- Nodes with the same configuration agree in everything that depends on it alone. -/
theorem EdgeNode.config_congr {β : Type} (f : EdgeNode → β)
    (hf : ∀ node : EdgeNode, f node.config = f node) {a b : EdgeNode}
    (h : a.config = b.config) : f a = f b := by
  rw [← hf a, h, hf b]

/-- A property of the configuration that all nodes have, all nodes with the same configurations
have. -/
theorem forall_of_config {P : EdgeNode → Prop} (hP : ∀ node : EdgeNode, P node.config ↔ P node)
    {nodes nodes' : List EdgeNode}
    (h : nodes'.map EdgeNode.config = nodes.map EdgeNode.config) (hall : ∀ node ∈ nodes, P node) :
    ∀ node ∈ nodes', P node := by
  intro node hmem
  have hmem' := List.mem_map_of_mem (f := EdgeNode.config) hmem
  rw [h] at hmem'
  obtain ⟨other, hother, heq⟩ := List.mem_map.mp hmem'
  rw [← hP node, ← heq, hP other]
  exact hall other hother

/-- The same for a property of two nodes. -/
theorem pairwise_of_config {R : EdgeNode → EdgeNode → Prop}
    (hR : ∀ a b : EdgeNode, R a.config b.config ↔ R a b) {nodes nodes' : List EdgeNode}
    (h : nodes'.map EdgeNode.config = nodes.map EdgeNode.config) (hall : nodes.Pairwise R) :
    nodes'.Pairwise R := by
  have hmap : ∀ l : List EdgeNode, (l.map EdgeNode.config).Pairwise R ↔ l.Pairwise R := by
    intro l
    rw [List.pairwise_map]
    exact ⟨fun hl => hl.imp fun {a b} => (hR a b).mp, fun hl => hl.imp fun {a b} => (hR a b).mpr⟩
  rw [← hmap, h, hmap]
  exact hall

/-- The same node, by index. -/
theorem getElem?_of_config {nodes nodes' : List EdgeNode}
    (h : nodes'.map EdgeNode.config = nodes.map EdgeNode.config) {i : Nat} {node : EdgeNode}
    (hget : nodes'[i]? = some node) :
    ∃ origin, nodes[i]? = some origin ∧ node.config = origin.config := by
  have hi := congrArg (·[i]?) h
  simp only [List.getElem?_map, hget, Option.map_some] at hi
  obtain ⟨origin, horigin, hconfig⟩ := Option.map_eq_some_iff.mp hi.symm
  exact ⟨origin, horigin, hconfig.symm⟩

/-! ## The write callback

It changes the value and marks the node, or refuses and changes nothing. -/

/-- **Either the write is acknowledged**, and then the node is writable, pending and shows the
value written, **or it is refused**, and then the node is as before. -/
theorem writeEdgeNode_cases (node : EdgeNode) (value : Option UaVariant) :
    (∃ v, value = some v ∧ node.writable = true ∧ (writeEdgeNode node value).1 = .good ∧
        (writeEdgeNode node value).2.pendingWrite = true ∧
        readEdgeNode (writeEdgeNode node value).2 = v) ∨
      (writeEdgeNode node value).1 ≠ .good ∧ (writeEdgeNode node value).2 = node := by
  unfold writeEdgeNode readEdgeNode setVariantFromEdgeValue
  cases hwritable : node.writable with
  | false => exact .inr ⟨nofun, rfl⟩
  | true =>
    cases value with
    | none => exact .inr ⟨nofun, rfl⟩
    | some v => cases htype : node.dataType <;> cases v <;> simp

theorem writeEdgeNode_config (node : EdgeNode) (value : Option UaVariant) :
    (writeEdgeNode node value).2.config = node.config := by
  unfold writeEdgeNode
  split
  · rfl
  · rfl
  · split <;> rfl

/-! ## Restoring

A restored value comes from a double. Everything else stays, also the mark of a pending write,
which no node has at startup. -/

theorem edgeNodeSetFromDouble_others (node : EdgeNode) (d : Double) :
    edgeNodeSetFromDouble node d =
      { node with value := (edgeNodeSetFromDouble node d).value } := by
  unfold edgeNodeSetFromDouble
  split
  · split <;> rfl
  · split_ifs <;> rfl

theorem edgeNodeSetFromDouble_pendingWrite (node : EdgeNode) (d : Double) :
    (edgeNodeSetFromDouble node d).pendingWrite = node.pendingWrite := by
  rw [edgeNodeSetFromDouble_others]

/-- Whatever a restored value keeps of a node, the restore keeps of all of them. -/
theorem edgeStoreLoadLatestValues_map {β : Type} (f : EdgeNode → β)
    (hf : ∀ node d, f (edgeNodeSetFromDouble node d) = f node) (engine : Engine τ)
    (store : Store τ) (model : EdgeModel) :
    (edgeStoreLoadLatestValues engine store model).2.2.nodes.map f = model.nodes.map f := by
  unfold edgeStoreLoadLatestValues
  dsimp only
  split_ifs
  · rfl
  · refine sweep_map f (fun i node s => ?_) model.nodes 0 _
    show f ((restoreRow engine node s).1.elim node _) = f node
    cases (restoreRow engine node s).1 with
    | none => rfl
    | some row => exact hf node _

/-! ## Polling

What a poll decodes is stored in the value. A node with a pending write is polled like any other. -/

/-- Decoding sets the value only .. -/
theorem applyRegistersToNode_config (node : EdgeNode) (raw : List (BitVec 16)) :
    (applyRegistersToNode node raw).config = node.config := by
  unfold applyRegistersToNode
  dsimp only
  split <;> rfl

/-- .. and leaves the mark of a pending write. -/
theorem applyRegistersToNode_pendingWrite (node : EdgeNode) (raw : List (BitVec 16)) :
    (applyRegistersToNode node raw).pendingWrite = node.pendingWrite := by
  unfold applyRegistersToNode
  dsimp only
  split <;> rfl

/-- Whatever a decoded read keeps of a node, a poll keeps of all of them. -/
theorem edgeModbusPoll_map {β : Type} (f : EdgeNode → β)
    (hf : ∀ node raw, f (applyRegistersToNode node raw) = f node) (lib : ModbusLib σ)
    (bus : Bus σ) (nodes : List EdgeNode) :
    (edgeModbusPoll lib bus nodes).2.2.map f = nodes.map f := by
  unfold edgeModbusPoll
  dsimp only
  split_ifs
  · rfl
  · rfl
  · refine sweep_map f (fun i node s => ?_) nodes 0 _
    unfold pollNode
    dsimp only
    split_ifs <;> first | rfl | exact hf node _

/-! ## Draining

The mark of a pending write is cleared before the writeback is tried. Its status is not looked
at. -/

/-- What a drain makes of one node, whatever became of its write. -/
def drainedNode (node : EdgeNode) : EdgeNode :=
  if node.writable = false ∨ node.pendingWrite = false then node
  else { node with pendingWrite := false }

/-- What draining does to the nodes does not depend on the bus. -/
theorem drainPendingWrites_elem (lib : ModbusLib σ) (bus : Bus σ) (nodes : List EdgeNode) :
    (drainPendingWrites lib bus nodes).elem = nodes.map drainedNode := by
  refine (sweep_eq_map (drainNode lib) drainedNode (fun _ => True) nodes 0 _ trivial
    fun node _ i s _ => ?_).2.1
  unfold drainNode drainedNode
  dsimp only
  split_ifs <;> exact ⟨rfl, rfl, trivial⟩

theorem drainedNode_config (node : EdgeNode) : (drainedNode node).config = node.config := by
  unfold drainedNode
  split_ifs <;> rfl

theorem drainedNode_pendingWrite {node : EdgeNode}
    (h : node.pendingWrite = true → node.writable = true) :
    (drainedNode node).pendingWrite = false := by
  unfold drainedNode
  split_ifs with hskip
  · rcases hskip with hfalse | hfalse
    · by_contra hpending
      rw [h (by simpa using hpending)] at hfalse
      cases hfalse
    · exact hfalse
  · rfl

/-! ## A tick and a run

A tick drains, polls, and evaluates the events, which read the nodes only. -/

/-- Events and persistence do not write nodes: after a tick the nodes are what the poll made of
the drained ones. -/
theorem edgeRuntimeTick_nodes (libs : Libs σ τ ρ) (clock : TickClock) (rt : EdgeRuntime σ τ ρ) :
    (edgeRuntimeTick libs clock rt).1.model.nodes =
      (edgeModbusPoll libs.modbus (drainPendingWrites libs.modbus rt.bus rt.model.nodes).state.bus
        (rt.model.nodes.map drainedNode)).2.2 := by
  rw [← drainPendingWrites_elem libs.modbus rt.bus]
  rfl

theorem edgeRuntimeTick_config (libs : Libs σ τ ρ) (clock : TickClock) (rt : EdgeRuntime σ τ ρ) :
    (edgeRuntimeTick libs clock rt).1.model.nodes.map EdgeNode.config =
      rt.model.nodes.map EdgeNode.config := by
  rw [edgeRuntimeTick_nodes, edgeModbusPoll_map _ applyRegistersToNode_config, List.map_map]
  exact List.map_congr_left fun node _ => drainedNode_config node

theorem edgeRuntimeTick_pendingWrite (libs : Libs σ τ ρ) (clock : TickClock)
    {rt : EdgeRuntime σ τ ρ}
    (h : ∀ node ∈ rt.model.nodes, node.pendingWrite = true → node.writable = true) :
    ∀ node ∈ (edgeRuntimeTick libs clock rt).1.model.nodes, node.pendingWrite = false := by
  have hmap : (edgeRuntimeTick libs clock rt).1.model.nodes.map EdgeNode.pendingWrite =
      rt.model.nodes.map fun _ => false := by
    rw [edgeRuntimeTick_nodes, edgeModbusPoll_map _ applyRegistersToNode_pendingWrite,
      List.map_map]
    exact List.map_congr_left fun node hmem => drainedNode_pendingWrite (h node hmem)
  intro node hmem
  have hfalse := List.mem_map_of_mem (f := EdgeNode.pendingWrite) hmem
  rw [hmap] at hfalse
  obtain ⟨_, _, heq⟩ := List.mem_map.mp hfalse
  exact heq.symm

end OpcuaEdge
