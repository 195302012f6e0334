import OpcuaEdge.Commands
import OpcuaEdge.Plc

/-!
# OpcuaEdge — read your writes through the PLC

A batch of client writes followed by one tick, against a device that answers. The writes to one
node do not interfere with those to another (`run_clientWrites`), so after the batch the runtime
depends only on the values each node received, in their order. The drain then stores the packed
values of the written nodes in disjoint registers and the poll decodes every node from its own.
-/

namespace OpcuaEdge

open CStr CLoop Txn

variable {σ τ ρ : Type}

/-! ## A batch of client writes

Writes by any clients to any nodes, in any order, between two ticks. They only meet in memory, and
there the last one to a node counts. -/

/-- The writes, as operations of a run. -/
def clientWrites (writes : List (Nat × UaVariant)) : List RunOp :=
  writes.map fun w => .write w.1 (some w.2)

/-- The values written to node `i`, in order. -/
def valuesFor (i : Nat) (writes : List (Nat × UaVariant)) : List UaVariant :=
  (writes.filter (·.1 = i)).map (·.2)

/-- A node after a client wrote it, accepted or not. -/
def writeValue (node : EdgeNode) (v : UaVariant) : EdgeNode := (writeEdgeNode node (some v)).2

/-- One write, as it changes the nodes. -/
def writeAt (nodes : List EdgeNode) (w : Nat × UaVariant) : List EdgeNode :=
  nodes.modify w.1 (writeValue · w.2)

/-- A write changes one node and nothing else of the runtime .. -/
theorem runStep_write (libs : Libs σ τ ρ) (rt : EdgeRuntime σ τ ρ) (w : Nat × UaVariant) :
    (runStep libs rt (.write w.1 (some w.2))).1 =
      { rt with model.nodes := writeAt rt.model.nodes w } := by
  unfold writeAt
  rw [List.modify_eq_set_getElem?]
  cases hget : rt.model.nodes[w.1]? with
  | none => simp only [runStep, hget]; rfl
  | some node => simp only [runStep, hget]; rfl

/-- .. and a batch changes several. -/
theorem run_clientWrites (libs : Libs σ τ ρ) (rt : EdgeRuntime σ τ ρ)
    (writes : List (Nat × UaVariant)) :
    (run libs (clientWrites writes) rt).1 =
      { rt with model.nodes := writes.foldl writeAt rt.model.nodes } := by
  induction writes using List.reverseRecOn with
  | nil => rfl
  | append_singleton writes w ih =>
    rw [clientWrites, List.map_append, List.map_singleton, run_concat]
    simp only
    rw [show writes.map (fun w => RunOp.write w.1 (some w.2)) = clientWrites writes from rfl, ih,
      runStep_write, List.foldl_append]
    rfl

/-- What a batch does to one node depends on the writes to that node, in their order. -/
theorem getElem?_foldl_writeAt (nodes : List EdgeNode) (writes : List (Nat × UaVariant)) (i : Nat) :
    (writes.foldl writeAt nodes)[i]? =
      nodes[i]?.map fun node => (valuesFor i writes).foldl writeValue node := by
  induction writes generalizing nodes with
  | nil => simp [valuesFor]
  | cons w rest ih =>
    rw [List.foldl_cons, ih, writeAt, List.getElem?_modify]
    by_cases hi : w.1 = i
    · simp [valuesFor, hi, Option.map_map, Function.comp_def]
    · simp [valuesFor, hi]

/-- A batch leaves the same runtime behind whenever each node receives the same values in the same
order. -/
theorem run_clientWrites_congr (libs : Libs σ τ ρ) (rt : EdgeRuntime σ τ ρ)
    {writes writes' : List (Nat × UaVariant)}
    (h : ∀ i, valuesFor i writes' = valuesFor i writes) :
    (run libs (clientWrites writes') rt).1 = (run libs (clientWrites writes) rt).1 := by
  have hnodes : writes'.foldl writeAt rt.model.nodes = writes.foldl writeAt rt.model.nodes := by
    refine List.ext_getElem? fun i => ?_
    rw [getElem?_foldl_writeAt, getElem?_foldl_writeAt, h i]
  rw [run_clientWrites, run_clientWrites, hnodes]

/-- The trace of a batch in which every write is acknowledged. -/
def acknowledged (writes : List (Nat × UaVariant)) : List Obs :=
  writes.map fun w => .answered w.1 (some w.2) .good

theorem sinceTick_acknowledged (writes : List (Nat × UaVariant)) :
    sinceTick (acknowledged writes) = acknowledged writes := by
  have h := sinceTick_append (l := acknowledged writes) (by simp [acknowledged]) []
  simpa [sinceTick] using h

/-- The acknowledged values of a node are those that were written to it. -/
theorem ackedValues_acknowledged (i : Nat) (writes : List (Nat × UaVariant)) :
    ackedValues i (acknowledged writes) = valuesFor i writes := by
  induction writes with
  | nil => rfl
  | cons w rest ih =>
    rw [show acknowledged (w :: rest) = [.answered w.1 (some w.2) .good] ++ acknowledged rest
      from rfl, ackedValues_append, ackedValues_good, ih]
    by_cases hi : w.1 = i
    · simp [valuesFor, hi]
    · simp [valuesFor, hi]

/-! ## The tick against the device

Draining sends each pending node to its registers, and the poll reads all of them back. Where no
two nodes share a register, what a node reads back is what it sent. -/

/-- Which registers a node reads depends on its configuration. -/
theorem nodeRegisters_congr (regs : RegFile UInt16 (BitVec 16)) {a b : EdgeNode}
    (h : a.config = b.config) : nodeRegisters regs a = nodeRegisters regs b :=
  EdgeNode.config_congr (nodeRegisters regs) (fun _ => rfl) h

/-- What the registers of a node hold after the drain: the packed value if it was due, and
otherwise what they held before. -/
def drainedRegisters (regs : RegFile UInt16 (BitVec 16)) (node : EdgeNode) : List (BitVec 16) :=
  if node.due then (packNodeToRegisters node).2 else nodeRegisters regs node

/-- Of all the registers that were sent, a node reads its own. -/
theorem nodeRegisters_writeAll (regs : RegFile UInt16 (BitVec 16)) {nodes : List EdgeNode}
    (hregisters : ∀ node ∈ nodes, edgeModbusRegisterBase ≤ node.modbusRegister)
    (hdisjoint : nodes.Pairwise RangesDisjoint) (node : EdgeNode) (hmem : node ∈ nodes) :
    nodeRegisters (regs.writeAll (dueSlots nodes)) node = drainedRegisters regs node := by
  unfold drainedRegisters
  split_ifs with hdue
  · -- the slots of the due nodes are disjoint, and this node's is one of them
    have hpairwise : (dueSlots nodes).Pairwise
        fun a b => b.Apart a.bank a.start a.values.length := by
      refine List.pairwise_map.mpr ?_
      refine (List.Pairwise.and_mem.mp (hdisjoint.sublist List.filter_sublist)).imp ?_
      rintro a b ⟨ha, hb, hab⟩
      have hab' := hab.symm.apart (hregisters b (List.mem_of_mem_filter hb))
        (hregisters a (List.mem_of_mem_filter ha))
      rwa [← length_nodeSlot] at hab'
    have hslot : nodeSlot node ∈ dueSlots nodes :=
      List.mem_map_of_mem (List.mem_filter.mpr ⟨hmem, hdue⟩)
    have hread := RegFile.read_writeAll_mem regs hpairwise hslot
    rw [length_nodeSlot] at hread
    exact hread
  · refine RegFile.read_writeAll_of_apart regs fun slot hslot => ?_
    obtain ⟨other, hother, rfl⟩ := List.mem_map.mp hslot
    obtain ⟨hmem', hdue'⟩ := List.mem_filter.mp hother
    have hne : other ≠ node := by rintro rfl; exact hdue hdue'
    exact (hdisjoint.forall hmem' hmem hne).apart
      (hregisters other hmem') (hregisters node hmem)

/-- **A tick against the device**: every node shows the decoding of what the drain left in its
registers. -/
theorem edgeRuntimeTick_plc {clock : Nat → UInt64} (env : EventEnv τ ρ)
    {rt : EdgeRuntime Plc τ ρ} {regs : RegFile UInt16 (BitVec 16)}
    (hready : PlcReady clock regs rt.bus)
    (hregisters : ∀ node ∈ rt.model.nodes, edgeModbusRegisterBase ≤ node.modbusRegister)
    (tick : TickClock) :
    (edgeRuntimeTick { modbus := plcLib clock, events := env } tick rt).1.model.nodes =
        rt.model.nodes.map (fun node => applyRegistersToNode (drainedNode node)
          (nodeRegisters (regs.writeAll (dueSlots rt.model.nodes)) node)) ∧
      (edgeRuntimeTick { modbus := plcLib clock, events := env } tick rt).1.bus.env.regs =
        regs.writeAll (dueSlots rt.model.nodes) := by
  have hdrained := drainPendingWrites_plc clock hready hregisters
  obtain ⟨hnodes, hbus⟩ := edgeModbusPoll_plc clock hdrained
    (drainPendingWrites (plcLib clock) rt.bus rt.model.nodes).elem
  refine ⟨?_, hbus.regs⟩
  rw [drainPendingWrites_elem] at hnodes
  rw [edgeRuntimeTick_nodes, hnodes, List.map_map]
  -- draining changes no address, so each node decodes its own registers
  refine List.map_congr_left fun node hmem => ?_
  have hconfig := drainedNode_config node
  have hregister : (drainedNode node).modbusRegister = node.modbusRegister :=
    EdgeNode.config_congr _ (fun _ => rfl) hconfig
  rw [Function.comp_apply, polledNode, hregister,
    if_neg (by simpa using hregisters node hmem), nodeRegisters_congr _ hconfig]

/-! ## A batch and a tick

The two together, as a function of what was written to each node. -/

theorem foldl_writeAt_config (libs : Libs σ τ ρ) (rt : EdgeRuntime σ τ ρ)
    (writes : List (Nat × UaVariant)) :
    (writes.foldl writeAt rt.model.nodes).map EdgeNode.config =
      rt.model.nodes.map EdgeNode.config := by
  have hconfig := run_config libs rt (clientWrites writes)
  rw [run_clientWrites] at hconfig
  exact hconfig

/-- A node written in a batch of acknowledged writes is due, with the last value written to it. -/
theorem written_due (libs : Libs σ τ ρ) {rt : EdgeRuntime σ τ ρ}
    (hnone : ∀ node ∈ rt.model.nodes, node.pendingWrite = false)
    {writes : List (Nat × UaVariant)}
    (hgood : (run libs (clientWrites writes) rt).2 = acknowledged writes) {i : Nat} {v : UaVariant}
    (hlast : (valuesFor i writes).getLast? = some v) :
    ∃ node, (writes.foldl writeAt rt.model.nodes)[i]? = some node ∧ node.due = true ∧
      readEdgeNode node = v := by
  have hinv := run_pendingInv libs hnone (clientWrites writes)
  rw [hgood, run_clientWrites] at hinv
  have hacked : ackedValues i (sinceTick (acknowledged writes)) = valuesFor i writes := by
    rw [sinceTick_acknowledged, ackedValues_acknowledged]
  obtain ⟨node, hget, hpending⟩ := hinv.acked i (by rw [hacked]; rintro h; simp [h] at hlast)
  obtain ⟨hwritable, hread⟩ := hinv.pending i node hget hpending
  rw [hacked, hlast, Option.some.injEq] at hread
  exact ⟨node, hget, by simp [EdgeNode.due, hwritable, hpending], hread.symm⟩

theorem not_due_of_not_pending {node : EdgeNode} (h : node.pendingWrite = false) :
    ¬ node.due = true := by
  simp [EdgeNode.due, h]

/-- After a batch and a tick every node's registers hold its packed value if it was written and
what they held before if not, and the node shows their decoding. -/
theorem batch_tick_plc {clock : Nat → UInt64} (env : EventEnv τ ρ) {rt : EdgeRuntime Plc τ ρ}
    (hready : PlcReady clock rt.bus.env.regs rt.bus)
    (hregisters : ∀ node ∈ rt.model.nodes, edgeModbusRegisterBase ≤ node.modbusRegister)
    (hdisjoint : rt.model.nodes.Pairwise RangesDisjoint)
    (writes : List (Nat × UaVariant)) (tick : TickClock) (i : Nat) (node : EdgeNode)
    (hget : (writes.foldl writeAt rt.model.nodes)[i]? = some node) :
    let after :=
      (run { modbus := plcLib clock, events := env } (clientWrites writes ++ [.tick tick]) rt).1
    after.model.nodes[i]? =
        some (applyRegistersToNode (drainedNode node) (drainedRegisters rt.bus.env.regs node)) ∧
      nodeRegisters after.bus.env.regs node = drainedRegisters rt.bus.env.regs node := by
  intro after
  -- the batch keeps what the template says about the nodes, so the tick runs as on the template
  have hconfig := foldl_writeAt_config { modbus := plcLib clock, events := env } rt writes
  have hregisters' := forall_of_config
    (P := fun node => edgeModbusRegisterBase ≤ node.modbusRegister) (fun _ => Iff.rfl) hconfig
    hregisters
  have hdisjoint' := pairwise_of_config (R := RangesDisjoint) (fun _ _ => Iff.rfl) hconfig hdisjoint
  have hafter : after = (edgeRuntimeTick { modbus := plcLib clock, events := env } tick
      { rt with model.nodes := writes.foldl writeAt rt.model.nodes }).1 := by
    show (run _ (clientWrites writes ++ [.tick tick]) rt).1 = _
    rw [run_concat, run_clientWrites]
    rfl
  have hready' : PlcReady clock rt.bus.env.regs
      { rt with model.nodes := writes.foldl writeAt rt.model.nodes }.bus := hready
  obtain ⟨hnodes, hregs⟩ := edgeRuntimeTick_plc env hready' hregisters' tick
  have hdrained := nodeRegisters_writeAll rt.bus.env.regs hregisters' hdisjoint' node
    (List.mem_of_getElem? hget)
  rw [hafter, hnodes, hregs]
  refine ⟨?_, hdrained⟩
  rw [List.getElem?_map, hget, Option.map_some, hdrained]

/-! ## Reading back

What a read shows after the tick is decoded from the registers, and so it is the written value for
every type whose encoding is exact. -/

/-- A node whose last acknowledged value is `v` shows `v` again after the trip through the
registers, if the registers can hold it. -/
theorem read_back_written {node node' : EdgeNode} {v : UaVariant}
    (hconfig : node'.config = node.config) (hset : node.dataType ≠ .unset)
    (hread : readEdgeNode node = v) :
    (node.dataType ≠ .double →
        readEdgeNode (applyRegistersToNode node' (packNodeToRegisters node).2) = v) ∧
      ∀ (k : Int) (q : ℚ), effectiveScale node = .fin q → -32768 ≤ k → k ≤ 32767 →
        v = .double (.fin (k * q)) →
          readEdgeNode (applyRegistersToNode node' (packNodeToRegisters node).2) = v := by
  refine ⟨fun hdouble => (readEdgeNode_decode_pack hconfig hset hdouble).trans hread, ?_⟩
  rintro k q hscale hlow hhigh rfl
  -- only a double node shows a double
  have htype : node.dataType = .double := by
    unfold readEdgeNode setVariantFromEdgeValue at hread
    cases hcase : node.dataType <;> simp_all
  have hvalue : node.value.d = .fin (k * q) := by
    unfold readEdgeNode setVariantFromEdgeValue at hread
    simpa [htype] using hread
  exact readEdgeNode_decode_pack_double hconfig htype hscale hlow hhigh hvalue

/-- **Read your writes through the PLC.** The nodes of a loaded and wired model occupy disjoint
registers at or above the base, Modbus is enabled and no back-off is in force. After a batch of
acknowledged writes and one tick:

* a written boolean or integer node shows the last value written to it, and so does a double node
  whose value is a whole multiple of its scale that fits a signed register;
* the registers of a node that was not written are unchanged, and it shows their decoding;
* the outcome is the same for every batch that gives each node the same values in the same
  order. -/
theorem read_your_writes (clock : Nat → UInt64) (env : EventEnv τ ρ) (file : Option Bytes)
    (rt : EdgeRuntime Plc τ ρ) (hmodel : LoadedAndWired file rt.model)
    (henabled : rt.bus.modbus.enabled = true)
    (hbackoff : rt.bus.modbus.connected = true ∨ (backoffGate (plcLib clock) rt.bus).1 = false)
    (hregisters : ∀ node ∈ rt.model.nodes, edgeModbusRegisterBase ≤ node.modbusRegister)
    (hdisjoint : rt.model.nodes.Pairwise RangesDisjoint)
    (writes : List (Nat × UaVariant)) (tick : TickClock)
    (hgood : (run { modbus := plcLib clock, events := env } (clientWrites writes) rt).2 =
      acknowledged writes) :
    let after := fun writes' =>
      (run { modbus := plcLib clock, events := env } (clientWrites writes' ++ [.tick tick]) rt).1
    (∀ i v, (valuesFor i writes).getLast? = some v →
        ∃ node, (after writes).model.nodes[i]? = some node ∧
          (node.dataType ≠ .double → readEdgeNode node = v) ∧
          ∀ (k : Int) (q : ℚ), effectiveScale node = .fin q → -32768 ≤ k → k ≤ 32767 →
            v = .double (.fin (k * q)) → readEdgeNode node = v) ∧
      (∀ i node, rt.model.nodes[i]? = some node → valuesFor i writes = [] →
        nodeRegisters (after writes).bus.env.regs node = nodeRegisters rt.bus.env.regs node ∧
          (after writes).model.nodes[i]? =
            some (applyRegistersToNode node (nodeRegisters rt.bus.env.regs node))) ∧
      ∀ writes', (∀ i, valuesFor i writes' = valuesFor i writes) →
        after writes' = after writes := by
  intro after
  have htick := batch_tick_plc env ⟨henabled, hbackoff, rfl⟩ hregisters hdisjoint writes tick
  refine ⟨fun i v hlast => ?_, fun i node hget hunwritten => ?_, fun writes' hsame => ?_⟩
  · -- written: the node was due, so its registers hold the packed value
    obtain ⟨node, hget, hdue, hread⟩ := written_due { modbus := plcLib clock, events := env }
      hmodel.none_pending hgood hlast
    have hshown := (htick i node hget).1
    rw [drainedRegisters, if_pos hdue] at hshown
    refine ⟨_, hshown, ?_⟩
    have hconfig := foldl_writeAt_config { modbus := plcLib clock, events := env } rt writes
    have hset : ∀ node ∈ writes.foldl writeAt rt.model.nodes, node.dataType ≠ .unset :=
      forall_of_config (fun _ => Iff.rfl) hconfig fun node hmem =>
        (hmodel.wired.nodes node hmem).dataType_set
    have hsame : (applyRegistersToNode (drainedNode node) (packNodeToRegisters node).2).config =
        node.config := (applyRegistersToNode_config _ _).trans (drainedNode_config node)
    rw [EdgeNode.config_congr EdgeNode.dataType (fun _ => rfl) hsame,
      EdgeNode.config_congr effectiveScale (fun _ => rfl) hsame]
    exact read_back_written (drainedNode_config node) (hset node (List.mem_of_getElem? hget)) hread
  · -- not written: the node was not due, and no due slot reaches its registers
    have hget' : (writes.foldl writeAt rt.model.nodes)[i]? = some node := by
      rw [getElem?_foldl_writeAt, hget, hunwritten]
      rfl
    have hpending := hmodel.none_pending node (List.mem_of_getElem? hget)
    obtain ⟨hshown, hkept⟩ := htick i node hget'
    rw [drainedRegisters, if_neg (not_due_of_not_pending hpending)] at hshown hkept
    rw [drainedNode, if_pos (.inr hpending)] at hshown
    exact ⟨hkept, hshown⟩
  · show (run _ (clientWrites writes' ++ [.tick tick]) rt).1 =
      (run _ (clientWrites writes ++ [.tick tick]) rt).1
    rw [run_concat, run_concat, run_clientWrites_congr _ rt hsame]

/-- The pump in front of a device whose registers are all zero. -/
def pumpOnPlc : EdgeRuntime Plc Unit Unit where
  server := none
  model := pumpModel
  store := { conn := { committed := {} }, env := () }
  bus :=
    { modbus := (edgeModbusInit (some (lit "127.0.0.1")) 502).2
      env := { regs := fun _ _ => 0 } }
  persistEveryNTicks := 1

theorem pumpOnPlc_started : LoadedAndWired (some pumpTemplate) pumpOnPlc.model := by
  simp only [pumpOnPlc]
  exact pumpModel_loadedAndWired

theorem read_your_writes_pump :
    ∃ node, (run { modbus := plcLib fun _ => 0, events := (pumpLibs true).events }
        (clientWrites [(1, .boolean true)] ++ [.tick { evaluateMs := 1, persistMs := 1 }])
        pumpOnPlc).1.model.nodes[1]? = some node ∧
      (node.dataType ≠ .double → readEdgeNode node = .boolean true) := by
  obtain ⟨node, hget, hread, _⟩ := (read_your_writes (fun _ => 0) (pumpLibs true).events
    (some pumpTemplate) pumpOnPlc pumpOnPlc_started (by decide +kernel)
    (.inr (by decide +kernel)) (by decide +kernel) (by decide +kernel) [(1, .boolean true)]
    { evaluateMs := 1, persistMs := 1 } (by decide +kernel)).1 1 (.boolean true) (by decide +kernel)
  exact ⟨node, hget, hread⟩

end OpcuaEdge
