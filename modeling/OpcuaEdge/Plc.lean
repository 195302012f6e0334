import OpcuaEdge.Drain
import OpcuaEdge.Registers

/-!
# OpcuaEdge — a device that answers

`plcLib` is libmodbus in front of a device whose registers change only by Modbus writes and which
answers every call, with an arbitrary clock. On it a writeback stores the packed registers of its
node (`edgeModbusWriteNode_plc`), a drain those of all due nodes (`drainPendingWrites_plc`), and a
poll decodes for every node the registers of its own unit, although the unit is only selected
when it changes (`edgeModbusPoll_plc`).
-/

namespace OpcuaEdge

open CLoop

/-- The registers of all units, the unit selected last and how often the clock was read. -/
structure Plc where
  regs : RegFile UInt16 (BitVec 16)
  slave : UInt16 := 0
  readings : Nat := 0

/-- libmodbus in front of this device: every request is answered, and a register is what was
written to it last. The offset is used as it is. -/
def plcLib (clock : Nat → UInt64) : ModbusLib Plc where
  nowUs plc := (clock plc.readings, { plc with readings := plc.readings + 1 })
  newTcp _ _ plc := (true, plc)
  connect plc := (true, plc)
  setSlave unit plc := (true, { plc with slave := unit })
  readRegisters offset width plc := ((width, plc.regs.read plc.slave offset width), plc)
  writeRegister offset value plc :=
    (1, { plc with regs := plc.regs.write ⟨plc.slave, offset, [value]⟩ })
  writeRegisters offset values plc :=
    (values.length, { plc with regs := plc.regs.write ⟨plc.slave, offset, values⟩ })
  close plc := plc
  free plc := plc

variable (clock : Nat → UInt64)

/-- Modbus is enabled, no back-off keeps a link from coming up, and the device holds `regs`. -/
structure PlcReady (regs : RegFile UInt16 (BitVec 16)) (bus : Bus Plc) : Prop where
  enabled : bus.modbus.enabled = true
  link : bus.modbus.connected = true ∨ (backoffGate (plcLib clock) bus).1 = false
  regs : bus.env.regs = regs

theorem PlcReady.of_connected {regs : RegFile UInt16 (BitVec 16)} {bus : Bus Plc}
    (henabled : bus.modbus.enabled = true) (hconnected : bus.modbus.connected = true)
    (hregs : bus.env.regs = regs) : PlcReady clock regs bus := ⟨henabled, .inl hconnected, hregs⟩

/-! ## Connection

In front of this device connecting always succeeds, once it is tried. -/

/-- The gate looks at the deadline and the clock only. -/
theorem backoffGate_fst {σ : Type} (lib : ModbusLib σ) (bus : Bus σ) :
    (backoffGate lib bus).1 =
      (decide (bus.modbus.nextConnectAttemptUs ≠ 0) &&
        decide ((lib.nowUs bus.env).1 < bus.modbus.nextConnectAttemptUs)) := by
  unfold backoffGate
  split_ifs with hnext
  · rw [decide_eq_true hnext, Bool.true_and]
    rfl
  · rw [decide_eq_false hnext, Bool.false_and]

/-- The gate changes nothing but the readings of the clock. -/
theorem backoffGate_plc (bus : Bus Plc) :
    (backoffGate (plcLib clock) bus).2.modbus = bus.modbus ∧
      (backoffGate (plcLib clock) bus).2.env.regs = bus.env.regs := by
  unfold backoffGate
  split_ifs
  · exact ⟨rfl, rfl⟩
  · exact ⟨rfl, rfl⟩

/-- A context can be created .. -/
theorem Bus.newTcp_plc (bus : Bus Plc) :
    bus.newTcp (plcLib clock) =
      (some bus.created,
        { bus.log bus.env (.newTcp (some bus.created)) with created := bus.created + 1 }) := rfl

/-- .. and connected. -/
theorem Bus.connect_plc (ctx : Nat) (bus : Bus Plc) :
    bus.connect (plcLib clock) ctx = (true, bus.log bus.env (.connect ctx true)) := rfl

theorem Bus.readRegisters_plc (offset : Int) (width : Nat) (bus : Bus Plc) :
    bus.readRegisters (plcLib clock) offset width =
      (((width : Int), bus.env.regs.read bus.env.slave offset width),
        bus.log bus.env (.readRegisters bus.modbus.ctx offset width width)) := rfl

/-- On a ready bus the link is up afterwards, and connecting touches no register. -/
theorem ensureConnected_plc {regs : RegFile UInt16 (BitVec 16)} {bus : Bus Plc}
    (h : PlcReady clock regs bus) :
    (ensureConnected (plcLib clock) bus).1 = .ok ∧
      (ensureConnected (plcLib clock) bus).2.modbus.connected = true ∧
      (ensureConnected (plcLib clock) bus).2.modbus.enabled = true ∧
      (ensureConnected (plcLib clock) bus).2.env.regs = regs := by
  unfold ensureConnected
  split_ifs with hconnected
  · exact ⟨rfl, hconnected, h.enabled, h.regs⟩
  · -- the gate is open, and the device accepts the connection
    have hgate := h.link.resolve_left hconnected
    obtain ⟨hmodbus, hregs⟩ := backoffGate_plc clock bus
    unfold edgeModbusConnect
    rw [if_neg (by simp [h.enabled]), if_neg hconnected]
    simp only [hgate, Bool.false_eq_true, if_false, Bus.newTcp_plc, Bus.connect_plc, if_true]
    refine ⟨trivial, trivial, ?_, hregs.trans h.regs⟩
    exact (congrArg EdgeModbus.enabled hmodbus).trans h.enabled

/-! ## Writeback

A writeback selects the unit of its node and writes its words. Several of them fill several
ranges. -/

/-- The words are written where the node's registers are. -/
theorem sendRegisters_plc (node : EdgeNode) (offset : Int) (bus : Bus Plc) :
    (sendRegisters (plcLib clock) offset (packNodeToRegisters node) bus).1 = false ∧
      (sendRegisters (plcLib clock) offset (packNodeToRegisters node) bus).2.modbus =
        bus.modbus ∧
      (sendRegisters (plcLib clock) offset (packNodeToRegisters node) bus).2.env.regs =
        bus.env.regs.write ⟨bus.env.slave, offset, (packNodeToRegisters node).2⟩ := by
  have hlength := packNodeToRegisters_length node
  unfold sendRegisters
  split_ifs with hone
  · obtain ⟨value, hvalue⟩ := List.length_eq_one_iff.mp (hlength.trans hone)
    rw [hvalue]
    exact ⟨rfl, rfl, rfl⟩
  · refine ⟨?_, rfl, rfl⟩
    simp [Bus.writeRegisters, plcLib, hlength]

/-- **A writeback stores the packed registers.** -/
theorem edgeModbusWriteNode_plc {regs : RegFile UInt16 (BitVec 16)} {bus : Bus Plc}
    (h : PlcReady clock regs bus) {node : EdgeNode} (hwritable : node.writable = true)
    (hregister : edgeModbusRegisterBase ≤ node.modbusRegister) :
    (edgeModbusWriteNode (plcLib clock) bus node).1 = .ok ∧
      PlcReady clock (regs.write (nodeSlot node))
        (edgeModbusWriteNode (plcLib clock) bus node).2 := by
  obtain ⟨hok, hconnected, henabled, hregs⟩ := ensureConnected_plc clock h
  obtain ⟨hsent, hmodbus, hstored⟩ := sendRegisters_plc clock node (registerOffset node)
    ((ensureConnected (plcLib clock) bus).2.setSlave (plcLib clock) node.modbusUnit).2
  unfold edgeModbusWriteNode
  -- none of the guards stops the write, and the device takes it
  rw [if_neg (by simp [h.enabled]), if_neg (by simp [hwritable]),
    if_neg (by simpa using hregister)]
  simp only [hok, ne_eq, not_true_eq_false, if_false, hsent, Bool.false_eq_true]
  rw [if_neg (by simp [Bus.setSlave, plcLib])]
  refine ⟨rfl, .of_connected clock ?_ ?_ ?_⟩
  · exact (congrArg EdgeModbus.enabled hmodbus).trans henabled
  · exact (congrArg EdgeModbus.connected hmodbus).trans hconnected
  · refine hstored.trans ?_
    rw [← hregs]
    rfl

/-- What a drain sends. -/
def dueSlots (nodes : List EdgeNode) : List (RegFile.Slot UInt16 (BitVec 16)) :=
  (nodes.filter EdgeNode.due).map nodeSlot

/-- Draining writes the registers of all nodes that are due, in order. -/
theorem sweep_drainNode_plc {regs : RegFile UInt16 (BitVec 16)} :
    ∀ (nodes : List EdgeNode) (i : Nat) (s : DrainState Plc), PlcReady clock regs s.bus →
      (∀ node ∈ nodes, edgeModbusRegisterBase ≤ node.modbusRegister) →
      PlcReady clock (regs.writeAll (dueSlots nodes))
        (sweep (drainNode (plcLib clock)) i nodes s).state.bus := by
  intro nodes
  induction nodes generalizing regs with
  | nil => intro i s h _; exact h
  | cons node rest ih =>
    intro i s h hregisters
    obtain ⟨hregister, hrest⟩ := List.forall_mem_cons.mp hregisters
    -- a node that is not due leaves the bus alone, a due one writes its slot
    obtain ⟨hdue, hturn⟩ | ⟨hdue, hwritable, _, _, hturn⟩ :=
      drainNode_cases (plcLib clock) i node s
    · rw [sweep_cons_next (by rw [hturn]), hturn, dueSlots,
        List.filter_cons_of_neg (by simp [hdue])]
      exact ih (i + 1) s h hrest
    · rw [sweep_cons_next (by rw [hturn]), hturn, dueSlots, List.filter_cons_of_pos hdue]
      exact ih (i + 1) _ (edgeModbusWriteNode_plc clock h hwritable hregister).2 hrest

/-- **A drain stores the packed registers of all due nodes.** -/
theorem drainPendingWrites_plc {regs : RegFile UInt16 (BitVec 16)} {bus : Bus Plc}
    (h : PlcReady clock regs bus) {nodes : List EdgeNode}
    (hregisters : ∀ node ∈ nodes, edgeModbusRegisterBase ≤ node.modbusRegister) :
    PlcReady clock (regs.writeAll (dueSlots nodes))
      (drainPendingWrites (plcLib clock) bus nodes).state.bus :=
  sweep_drainNode_plc clock nodes 0 _ h hregisters

/-! ## Polling

A poll reads the registers of every node. The unit that it has cached is the one that is
selected. -/

/-- What a poll makes of a node when the device holds `regs`. -/
def polledNode (regs : RegFile UInt16 (BitVec 16)) (node : EdgeNode) : EdgeNode :=
  if node.modbusRegister < edgeModbusRegisterBase then node
  else applyRegistersToNode node (nodeRegisters regs node)

/-- The device holds `regs`, and the unit the loop remembers is the one selected. -/
structure PollInv (regs : RegFile UInt16 (BitVec 16)) (s : PollState Plc) : Prop where
  regs : s.bus.env.regs = regs
  unit : s.unitSet = true → s.bus.env.slave = s.currentUnit
  enabled : s.bus.modbus.enabled = true
  connected : s.bus.modbus.connected = true

/-- After the selection, the unit of the node is selected. -/
theorem selectUnit_plc {regs : RegFile UInt16 (BitVec 16)} {s : PollState Plc}
    (h : PollInv regs s) (node : EdgeNode) :
    (selectUnit (plcLib clock) node s).1 = true ∧
      PollInv regs (selectUnit (plcLib clock) node s).2 ∧
      (selectUnit (plcLib clock) node s).2.bus.env.slave = node.modbusUnit := by
  unfold selectUnit
  split_ifs with hselect
  · exact ⟨rfl, ⟨h.regs, fun _ => rfl, h.enabled, h.connected⟩, rfl⟩
  · -- the selection is skipped: the device still has the unit the loop remembers
    simp only [not_or, Bool.not_eq_false, not_not] at hselect
    exact ⟨rfl, h, (h.unit hselect.1).trans hselect.2⟩

/-- A node is polled: it takes the value that its registers decode to. -/
theorem pollNode_plc {regs : RegFile UInt16 (BitVec 16)} {s : PollState Plc}
    (h : PollInv regs s) (i : Nat) (node : EdgeNode) :
    (pollNode (plcLib clock) i node s).exit = none ∧
      (pollNode (plcLib clock) i node s).elem = polledNode regs node ∧
      PollInv regs (pollNode (plcLib clock) i node s).state := by
  obtain ⟨hselected, hinv, hslave⟩ := selectUnit_plc clock h node
  unfold pollNode polledNode
  split_ifs with hbelow
  · exact ⟨rfl, rfl, h⟩
  · simp only [hselected, Bus.readRegisters_plc, hslave, hinv.regs, ne_eq, not_true_eq_false,
      if_false, Bool.true_eq_false]
    exact ⟨trivial, rfl, hinv.regs, hinv.unit, hinv.enabled, hinv.connected⟩

/-- **A poll decodes every node from its own registers** and changes none of them. -/
theorem edgeModbusPoll_plc {regs : RegFile UInt16 (BitVec 16)} {bus : Bus Plc}
    (h : PlcReady clock regs bus) (nodes : List EdgeNode) :
    (edgeModbusPoll (plcLib clock) bus nodes).2.2 = nodes.map (polledNode regs) ∧
      PlcReady clock regs (edgeModbusPoll (plcLib clock) bus nodes).2.1 := by
  have hcounted : PlcReady clock regs
      { bus with modbus.pollCount := bus.modbus.pollCount + 1 } := by
    refine ⟨h.enabled, h.link.imp id fun hgate => ?_, h.regs⟩
    -- the gate does not depend on the counters
    rw [backoffGate_fst] at hgate ⊢
    exact hgate
  obtain ⟨hok, hconnected, henabled, hregs⟩ := ensureConnected_plc clock hcounted
  have hinit : PollInv regs
      { bus := (ensureConnected (plcLib clock)
          { bus with modbus.pollCount := bus.modbus.pollCount + 1 }).2 } :=
    ⟨hregs, fun hset => absurd hset Bool.false_ne_true, henabled, hconnected⟩
  obtain ⟨_, helem, hinv⟩ := sweep_eq_map (pollNode (plcLib clock)) (polledNode regs)
    (PollInv regs) nodes 0 _ hinit fun node _ i s hs => pollNode_plc clock hs i node
  unfold edgeModbusPoll
  rw [if_neg (by simp [h.enabled])]
  simp only [hok, ne_eq, not_true_eq_false, if_false]
  exact ⟨helem, .of_connected clock hinv.enabled hinv.connected hinv.regs⟩

end OpcuaEdge
