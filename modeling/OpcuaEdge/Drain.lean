import OpcuaEdge.Frame

/-!
# OpcuaEdge — the write-backs of a drain

`drain_pending_writes` calls `edge_modbus_write_node` once for each node that is writable and
pending, in the order of the nodes (`drain_due`). The register writes of a drain are those of its
write-backs (`drain_step`), each of which sends the registers its node packs into or none
(`drain_registers`), and all write-backs succeed exactly when libmodbus delivers each of them in
its turn (`drain_ok_iff`).
-/

namespace OpcuaEdge

open CLoop

variable {σ : Type}

/-- The node is written back by the next drain. -/
def EdgeNode.due (node : EdgeNode) : Bool := node.writable && node.pendingWrite

/-- The two kinds of turns of the drain loop; none of them exits. -/
theorem drainNode_cases (lib : ModbusLib σ) (i : Nat) (node : EdgeNode) (s : DrainState σ) :
    node.due = false ∧ drainNode lib i node s = { elem := node, state := s } ∨
      node.due = true ∧ node.writable = true ∧ ∃ calls,
        (edgeModbusWriteNode lib s.bus node).2.calls = s.bus.calls ++ calls ∧
        drainNode lib i node s =
          { elem := { node with pendingWrite := false }
            state :=
              { bus := (edgeModbusWriteNode lib s.bus node).2
                writeBacks := s.writeBacks ++ [{
                  index := i
                  node := node
                  status := (edgeModbusWriteNode lib s.bus node).1
                  calls := calls }] } } := by
  unfold drainNode EdgeNode.due
  dsimp only
  split_ifs with hskip
  · refine .inl ⟨?_, rfl⟩
    rcases hskip with h | h <;> simp [h]
  · simp only [not_or, Bool.not_eq_false] at hskip
    -- the calls of the write-back are what it appended to the log of the bus
    obtain ⟨_, hstep, _⟩ := edgeModbusWriteNode_step lib s.bus node
    obtain ⟨calls, hcalls, _⟩ := hstep.calls
    refine .inr ⟨by simp [hskip], hskip.1, calls, hcalls, ?_⟩
    rw [hcalls, List.drop_left]

/-- **A drain writes back exactly the due nodes, in order.** -/
theorem drain_due (lib : ModbusLib σ) :
    ∀ (nodes : List EdgeNode) (i : Nat) (s : DrainState σ),
      (sweep (drainNode lib) i nodes s).state.writeBacks.map (fun w => (w.node, w.index)) =
        s.writeBacks.map (fun w => (w.node, w.index)) ++ (nodes.zipIdx i).filter (·.1.due) := by
  intro nodes
  induction nodes with
  | nil => intro i s; simp
  | cons node rest ih =>
    intro i s
    rw [List.zipIdx_cons, List.filter_cons]
    obtain ⟨hdue, hturn⟩ | ⟨hdue, _, calls, _, hturn⟩ := drainNode_cases lib i node s
    · rw [sweep_cons_next (by rw [hturn]), hturn, if_neg (by simp [hdue])]
      exact ih (i + 1) s
    · rw [sweep_cons_next (by rw [hturn]), hturn, if_pos hdue]
      simp only [ih, List.map_append, List.append_assoc, List.map_cons, List.map_nil,
        List.cons_append, List.nil_append]

/-- What a write-back sends: nothing, or the registers that its node packs into, to the unit of the
node. -/
def WriteBack.SendsPacked (w : WriteBack) : Prop :=
  registerWrites w.calls = [] ∨ SentTo w.node w.calls

/-- A writeback of one node sends its words to its registers, if it sends anything. -/
theorem drainNode_registers {lib : ModbusLib σ} {i : Nat} {node : EdgeNode} {s : DrainState σ}
    (h : ∀ w ∈ s.writeBacks, w.SendsPacked) :
    ∀ w ∈ (drainNode lib i node s).state.writeBacks, w.SendsPacked := by
  obtain ⟨_, hturn⟩ | ⟨_, _, calls, hcalls, hturn⟩ := drainNode_cases lib i node s
  · rw [hturn]; exact h
  · rw [hturn]
    intro w hw
    rcases List.mem_append.mp hw with hold | hnew
    · exact h w hold
    · cases List.mem_singleton.mp hnew
      -- the logged calls are those of the lemma, since both extend the same log
      obtain ⟨-, calls', hcalls', hsent⟩ := edgeModbusWriteNode_calls lib s.bus node
      cases List.append_cancel_left (hcalls.symm.trans hcalls')
      exact hsent.imp_right And.right

theorem drain_registers (lib : ModbusLib σ) (bus : Bus σ) (nodes : List EdgeNode) :
    ∀ w ∈ (drainPendingWrites lib bus nodes).state.writeBacks, w.SendsPacked :=
  sweep_state (fun s : DrainState σ => ∀ w ∈ s.writeBacks, w.SendsPacked)
    (fun _ _ _ => drainNode_registers) nodes 0 _ (List.forall_mem_nil _)

/-- All register writes of a drain are those of its write-backs. -/
theorem drain_step (lib : ModbusLib σ) (bus : Bus σ) (nodes : List EdgeNode) :
    BusStep ((drainPendingWrites lib bus nodes).state.writeBacks.flatMap
        fun w => registerWrites w.calls)
      bus (drainPendingWrites lib bus nodes).state.bus := by
  refine sweep_state
    (fun s : DrainState σ =>
      BusStep (s.writeBacks.flatMap fun w : WriteBack => registerWrites w.calls) bus s.bus)
    (fun i node s hs => ?_) nodes 0 _ (BusStep.refl bus)
  obtain ⟨_, hturn⟩ | ⟨_, _, calls, hcalls, hturn⟩ := drainNode_cases lib i node s
  · rw [hturn]; exact hs
  · rw [hturn]
    obtain ⟨_, hstep, _⟩ := edgeModbusWriteNode_step lib s.bus node
    simp only [List.flatMap_append, List.flatMap_cons, List.flatMap_nil, List.append_nil]
    exact hs.trans ⟨hstep.enabled, calls, hcalls, rfl⟩

/-! ## When every write-back succeeds

The nodes are written one after the other, so whether a later one can be delivered depends on what
the earlier ones left of the link. -/

/-- Each due node is deliverable on the bus as the write-backs before it leave it. -/
def DrainDelivers (lib : ModbusLib σ) : Bus σ → List EdgeNode → Prop
  | _, [] => True
  | bus, node :: rest =>
    if node.due then
      Deliverable lib bus node ∧ DrainDelivers lib (edgeModbusWriteNode lib bus node).2 rest
    else DrainDelivers lib bus rest

/-- The induction: the writebacks made so far, and those to come. -/
theorem drain_ok_iff_from (lib : ModbusLib σ) :
    ∀ (nodes : List EdgeNode) (i : Nat) (s : DrainState σ), s.bus.modbus.enabled = true →
      ((∀ w ∈ (sweep (drainNode lib) i nodes s).state.writeBacks, w.status = .ok) ↔
        (∀ w ∈ s.writeBacks, w.status = .ok) ∧ DrainDelivers lib s.bus nodes) := by
  intro nodes
  induction nodes with
  | nil => intro i s _; simp [DrainDelivers]
  | cons node rest ih =>
    intro i s henabled
    rw [DrainDelivers]
    obtain ⟨hdue, hturn⟩ | ⟨hdue, hwritable, calls, _, hturn⟩ := drainNode_cases lib i node s
    · rw [sweep_cons_next (by rw [hturn]), hturn,
        if_neg (by simp [hdue])]
      exact ih (i + 1) s henabled
    · rw [sweep_cons_next (by rw [hturn]), hturn, if_pos hdue]
      obtain ⟨_, hstep, _⟩ := edgeModbusWriteNode_step lib s.bus node
      simp only
      -- Modbus stays enabled, so the induction hypothesis applies to the bus after the write
      rw [ih (i + 1) _ (hstep.enabled.trans henabled), List.forall_mem_append,
        List.forall_mem_singleton, edgeModbusWriteNode_ok_iff lib henabled hwritable, and_assoc]

/-- All writebacks of a drain succeed exactly if each is deliverable when its turn comes. -/
theorem drain_ok_iff (lib : ModbusLib σ) {bus : Bus σ} (nodes : List EdgeNode)
    (henabled : bus.modbus.enabled = true) :
    (∀ w ∈ (drainPendingWrites lib bus nodes).state.writeBacks, w.status = .ok) ↔
      DrainDelivers lib bus nodes := by
  have h := drain_ok_iff_from lib nodes 0 { bus } henabled
  exact h.trans (and_iff_right (List.forall_mem_nil _))

/-! ## Reading off single write-backs

A writeback belongs to a node, and a pending node has one. -/

/-- A writeback is that of a writable node that was pending. -/
theorem mem_writeBacks {lib : ModbusLib σ} {bus : Bus σ} {nodes : List EdgeNode} {w : WriteBack}
    (h : w ∈ (drainPendingWrites lib bus nodes).state.writeBacks) :
    nodes[w.index]? = some w.node ∧ w.node.writable = true ∧ w.node.pendingWrite = true := by
  have hkey := List.mem_map_of_mem (f := fun w : WriteBack => (w.node, w.index)) h
  unfold drainPendingWrites at hkey
  rw [drain_due, List.map_nil, List.nil_append, List.mem_filter] at hkey
  have hdue : w.node.writable = true ∧ w.node.pendingWrite = true := by
    simpa [EdgeNode.due] using hkey.2
  exact ⟨List.mem_zipIdx_iff_getElem?.mp hkey.1, hdue⟩

theorem exists_writeBack (lib : ModbusLib σ) (bus : Bus σ) {nodes : List EdgeNode} {i : Nat}
    {node : EdgeNode} (hget : nodes[i]? = some node) (hwritable : node.writable = true)
    (hpending : node.pendingWrite = true) :
    ∃ w ∈ (drainPendingWrites lib bus nodes).state.writeBacks, w.index = i ∧ w.node = node := by
  have hmem : (node, i) ∈ (nodes.zipIdx 0).filter (·.1.due) := by
    refine List.mem_filter.mpr ⟨List.mem_zipIdx_iff_getElem?.mpr hget, ?_⟩
    simp [EdgeNode.due, hwritable, hpending]
  have h := drain_due lib nodes 0 { bus }
  rw [List.map_nil, List.nil_append] at h
  rw [← h] at hmem
  obtain ⟨w, hw, heq⟩ := List.mem_map.mp hmem
  exact ⟨w, hw, (Prod.mk.inj heq).2, (Prod.mk.inj heq).1⟩

/-- No two write-backs of one drain are for the same node. -/
theorem writeBacks_nodup (lib : ModbusLib σ) (bus : Bus σ) (nodes : List EdgeNode) :
    ((drainPendingWrites lib bus nodes).state.writeBacks.map (·.index)).Nodup := by
  have h := congrArg (List.map Prod.snd) (drain_due lib nodes 0 { bus })
  rw [List.map_nil, List.nil_append, List.map_map] at h
  -- the indexes are a sublist of those of the loop
  refine Eq.subst (motive := List.Nodup) h.symm ?_
  refine List.Nodup.sublist (List.filter_sublist.map Prod.snd) ?_
  rw [List.zipIdx_map_snd]
  exact List.nodup_range'

end OpcuaEdge
