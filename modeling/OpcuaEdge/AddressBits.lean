import OpcuaEdge.Plc
import OpcuaEdge.Addresses

/-!
# OpcuaEdge — sixteen bits of address

The code hands libmodbus an `int`, and a Modbus request carries the low sixteen bits of it. Behind
such requests a unit has the registers 0 to 65535: two offsets 65536 apart are one register, and a
run that would go beyond the last register is refused. `lineLib` is the device of `Plc` behind that
protocol.

For nodes with real addresses nothing is cut off and nothing is refused, so on them both devices do
the same, call by call (`edgeRuntimeTick_line`). For any other nodes this module says what a
writeback stores (`edgeModbusWriteNode_line`) and what a poll decodes (`edgeModbusPoll_line`).
-/

namespace OpcuaEdge

open CLoop

/-! ## The device

The answers are those of `plcLib` at the address that is left of the offset. -/

/-- What a request carries of an offset. -/
def lineAddress (offset : Int) : Int := offset % 65536

/-- The run starts and ends among the registers of the unit. -/
def FitsLine (offset : Int) (width : Nat) : Prop := lineAddress offset + width ≤ 65536

instance (offset : Int) (width : Nat) : Decidable (FitsLine offset width) :=
  inferInstanceAs (Decidable (_ ≤ _))

/-- libmodbus in front of a device that answers for the 65536 registers of each unit, refuses a run
beyond them and has no other registers. -/
def lineLib (clock : Nat → UInt64) : ModbusLib Plc :=
  { plcLib clock with
    readRegisters := fun offset width plc =>
      if FitsLine offset width then (plcLib clock).readRegisters (lineAddress offset) width plc
      else ((-1, []), plc)
    -- a single register is one of the 65536, whatever its offset was
    writeRegister := fun offset value plc =>
      (plcLib clock).writeRegister (lineAddress offset) value plc
    writeRegisters := fun offset values plc =>
      if FitsLine offset values.length then
        (plcLib clock).writeRegisters (lineAddress offset) values plc
      else (-1, plc) }

/-- The registers of the node, as its requests name them, are all there. -/
def EdgeNode.OnLine (node : EdgeNode) : Prop :=
  FitsLine (registerOffset node) (registerWidthForNode node)

instance (node : EdgeNode) : Decidable node.OnLine :=
  inferInstanceAs (Decidable (FitsLine _ _))

/-- The registers a writeback of the node fills. -/
def lineSlot (node : EdgeNode) : RegFile.Slot UInt16 (BitVec 16) :=
  { nodeSlot node with start := lineAddress (registerOffset node) }

/-- The registers a poll reads for the node. -/
def lineRegisters (regs : RegFile UInt16 (BitVec 16)) (node : EdgeNode) : List (BitVec 16) :=
  regs.read node.modbusUnit (lineAddress (registerOffset node)) (registerWidthForNode node)

theorem length_lineSlot (node : EdgeNode) :
    (lineSlot node).values.length = registerWidthForNode node := length_nodeSlot node

variable {clock : Nat → UInt64} {regs : RegFile UInt16 (BitVec 16)} {bus : Bus Plc}

/-! ## Connection

Connecting and selecting a unit involve no address, so the two devices are the same there. -/

theorem ensureConnected_lineLib (clock : Nat → UInt64) (bus : Bus Plc) :
    ensureConnected (lineLib clock) bus = ensureConnected (plcLib clock) bus := rfl

theorem selectUnit_lineLib (clock : Nat → UInt64) (node : EdgeNode) (s : PollState Plc) :
    selectUnit (lineLib clock) node s = selectUnit (plcLib clock) node s := rfl

/-- Modbus is enabled, no back-off is in force, and the device holds `regs`. A connected link has
no deadline, so the second condition is about a link that has to come up. -/
structure LineReady (clock : Nat → UInt64) (regs : RegFile UInt16 (BitVec 16)) (bus : Bus Plc) :
    Prop where
  enabled : bus.modbus.enabled = true
  gate : (backoffGate (plcLib clock) bus).1 = false
  regs : bus.env.regs = regs

/-- Ready with the wire device is ready with the plain one. -/
theorem LineReady.plcReady (h : LineReady clock regs bus) : PlcReady clock regs bus :=
  ⟨h.enabled, .inr h.gate, h.regs⟩

/-- Counters, the log of calls, the selected unit and the link itself do not matter. -/
theorem LineReady.of_same (h : LineReady clock regs bus) {bus' : Bus Plc}
    (henabled : bus'.modbus.enabled = bus.modbus.enabled)
    (hnext : bus'.modbus.nextConnectAttemptUs = bus.modbus.nextConnectAttemptUs)
    (hreadings : bus'.env.readings = bus.env.readings) {regs' : RegFile UInt16 (BitVec 16)}
    (hregs : bus'.env.regs = regs') : LineReady clock regs' bus' := by
  have hgate := h.gate
  refine ⟨henabled.trans h.enabled, ?_, hregs⟩
  rw [backoffGate_fst] at hgate ⊢
  show (_ && decide (clock bus'.env.readings < _)) = false
  rw [hnext, hreadings]
  exact hgate

/-- The link is up afterwards, and the device is as ready as it was. -/
theorem LineReady.connected (h : LineReady clock regs bus) :
    (ensureConnected (lineLib clock) bus).1 = .ok ∧
      (ensureConnected (lineLib clock) bus).2.modbus.connected = true ∧
      LineReady clock regs (ensureConnected (lineLib clock) bus).2 := by
  rw [ensureConnected_lineLib]
  obtain ⟨hok, hconnected, henabled, hregs⟩ := ensureConnected_plc clock h.plcReady
  refine ⟨hok, hconnected, henabled, ?_, hregs⟩
  unfold ensureConnected
  split_ifs with hup
  · exact h.gate
  · -- a link that comes up clears its deadline
    unfold edgeModbusConnect
    rw [if_neg (by simp [h.enabled]), if_neg hup]
    simp only [h.gate, Bool.false_eq_true, if_false, Bus.newTcp_plc, Bus.connect_plc, if_true]
    rfl

/-- Dropping the connection leaves the registers, the deadline and the clock. -/
theorem LineReady.disconnected (h : LineReady clock regs bus) :
    LineReady clock regs (edgeModbusDisconnect (lineLib clock) bus) := by
  obtain ⟨henabled, hnext, hreadings, hregs⟩ :
      (edgeModbusDisconnect (lineLib clock) bus).modbus.enabled = bus.modbus.enabled ∧
      (edgeModbusDisconnect (lineLib clock) bus).modbus.nextConnectAttemptUs =
        bus.modbus.nextConnectAttemptUs ∧
      (edgeModbusDisconnect (lineLib clock) bus).env.readings = bus.env.readings ∧
      (edgeModbusDisconnect (lineLib clock) bus).env.regs = bus.env.regs := by
    unfold edgeModbusDisconnect
    split
    · exact ⟨rfl, rfl, rfl, rfl⟩
    · exact ⟨rfl, rfl, rfl, rfl⟩
  exact h.of_same henabled hnext hreadings (hregs.trans h.regs)

/-! ## Writeback

A writeback that is sent fills the registers that its request names, if the device has them. -/

/-- The writeback of the node reaches registers. -/
def EdgeNode.Sent (node : EdgeNode) : Prop :=
  node.writable = true ∧ edgeModbusRegisterBase ≤ node.modbusRegister ∧ node.OnLine

instance (node : EdgeNode) : Decidable node.Sent := inferInstanceAs (Decidable (_ ∧ _ ∧ _))

/-- What a writeback of the node makes of the registers. -/
def lineWritten (regs : RegFile UInt16 (BitVec 16)) (node : EdgeNode) :
    RegFile UInt16 (BitVec 16) :=
  if node.Sent then regs.write (lineSlot node) else regs

/-- A run that fits is sent, to the unit that was selected; one that does not is refused. -/
theorem sendRegisters_line (clock : Nat → UInt64) (node : EdgeNode) (bus : Bus Plc) :
    let sent :=
      (sendRegisters (lineLib clock) (registerOffset node) (packNodeToRegisters node) bus).2
    sent.modbus = bus.modbus ∧ sent.env.readings = bus.env.readings ∧
      sent.env.regs =
        if node.OnLine then bus.env.regs.write { lineSlot node with bank := bus.env.slave }
        else bus.env.regs := by
  intro sent
  have hlength := packNodeToRegisters_length node
  have hcount := packNodeToRegisters_count node
  unfold sent
  unfold sendRegisters
  split_ifs with hone hline hline
  · -- one register, which is there
    obtain ⟨value, hvalue⟩ := List.length_eq_one_iff.mp (hlength.trans hone)
    simp only [lineSlot, nodeSlot, hvalue]
    exact ⟨rfl, rfl, rfl⟩
  · -- one register is always there
    refine absurd ?_ hline
    have hbelow : lineAddress (registerOffset node) < 65536 := Int.emod_lt_of_pos _ (by decide)
    show lineAddress (registerOffset node) + (registerWidthForNode node : Int) ≤ 65536
    omega
  · have hfits : FitsLine (registerOffset node) (packNodeToRegisters node).2.length := by
      rw [hlength, hcount]
      exact hline
    simp only [Bus.writeRegisters, lineLib, if_pos hfits]
    exact ⟨rfl, rfl, rfl⟩
  · have hfits : ¬ FitsLine (registerOffset node) (packNodeToRegisters node).2.length := by
      rw [hlength, hcount]
      exact hline
    simp only [Bus.writeRegisters, lineLib, if_neg hfits]
    exact ⟨rfl, rfl, rfl⟩

/-- Only a writable node at or above the base gets as far as a call. -/
theorem edgeModbusWriteNode_refused {σ : Type} (lib : ModbusLib σ) (bus : Bus σ) {node : EdgeNode}
    (h : ¬ (node.writable = true ∧ edgeModbusRegisterBase ≤ node.modbusRegister)) :
    (edgeModbusWriteNode lib bus node).2 = bus := by
  unfold edgeModbusWriteNode
  split_ifs with henabled hreadonly hbelow
  · rfl
  · rfl
  · rfl
  all_goals exact absurd ⟨by simpa using hreadonly, by simpa using hbelow⟩ h

/-- **A writeback fills the registers that its request names**, and nothing else changes the
device. -/
theorem edgeModbusWriteNode_line (h : LineReady clock regs bus) (node : EdgeNode) :
    LineReady clock (lineWritten regs node)
      (edgeModbusWriteNode (lineLib clock) bus node).2 := by
  by_cases hcalled : node.writable = true ∧ edgeModbusRegisterBase ≤ node.modbusRegister
  · obtain ⟨hok, -, hup⟩ := h.connected
    obtain ⟨hmodbus, hreadings, hregs⟩ := sendRegisters_line clock node
      ((ensureConnected (lineLib clock) bus).2.setSlave (lineLib clock) node.modbusUnit).2
    have hsent : node.Sent ↔ node.OnLine :=
      ⟨fun hsent => hsent.2.2, fun hline => ⟨hcalled.1, hcalled.2, hline⟩⟩
    have hafter : lineWritten regs node = _ :=
      (if_congr hsent (by rw [← hup.regs]; rfl) hup.regs.symm).trans hregs.symm
    -- the transfer keeps the deadline and the clock
    have hready := hup.of_same (congrArg EdgeModbus.enabled hmodbus)
      (congrArg EdgeModbus.nextConnectAttemptUs hmodbus) hreadings rfl
    unfold edgeModbusWriteNode
    rw [if_neg (by simp [h.enabled]), if_neg (by simp [hcalled.1]),
      if_neg (by simpa using hcalled.2)]
    simp only [hok, ne_eq, not_true_eq_false, if_false]
    rw [if_neg (by simp [Bus.setSlave, lineLib, plcLib]), hafter]
    split_ifs with hfailed
    · refine LineReady.disconnected (hready.of_same ?_ ?_ ?_ ?_)
      all_goals rfl
    · refine hready.of_same ?_ ?_ ?_ ?_
      all_goals rfl
  · have hsent : ¬ node.Sent := fun hsent => hcalled ⟨hsent.1, hsent.2.1⟩
    rw [edgeModbusWriteNode_refused _ _ hcalled, lineWritten, if_neg hsent]
    exact h

/-! ## Polling

A poll decodes each node from the registers that its request names. A node whose run is not all
there is refused, which ends the poll. -/

/-- What a poll makes of the nodes when the device holds `regs`. -/
def linePolled (regs : RegFile UInt16 (BitVec 16)) : List EdgeNode → List EdgeNode
  | [] => []
  | node :: rest =>
    if node.modbusRegister < edgeModbusRegisterBase then node :: linePolled regs rest
    else if node.OnLine then
      applyRegistersToNode node (lineRegisters regs node) :: linePolled regs rest
    else node :: rest

/-- A run that is there is read from the unit that was selected; one that is not is refused. -/
theorem readRegisters_line (clock : Nat → UInt64) (node : EdgeNode) (bus : Bus Plc) :
    let read :=
      bus.readRegisters (lineLib clock) (registerOffset node) (registerWidthForNode node)
    read.2.env = bus.env ∧ read.2.modbus = bus.modbus ∧
      read.1 =
        if node.OnLine then
          ((registerWidthForNode node : Int),
            lineRegisters bus.env.regs { node with modbusUnit := bus.env.slave })
        else (-1, []) := by
  intro read
  unfold read
  -- a request that runs over the end of the addresses is refused before the registers are read
  by_cases hline : node.OnLine
  · have hfits : FitsLine (registerOffset node) (registerWidthForNode node) := hline
    rw [if_pos hline]
    simp only [Bus.readRegisters, lineLib, if_pos hfits]
    exact ⟨rfl, rfl, rfl⟩
  · have hfits : ¬ FitsLine (registerOffset node) (registerWidthForNode node) := hline
    rw [if_neg hline]
    simp only [Bus.readRegisters, lineLib, if_neg hfits]
    exact ⟨rfl, rfl, trivial⟩

/-- The loop over the nodes, by induction on the nodes that are left. A node that is refused ends
it, and the rest keep their values. -/
theorem sweep_pollNode_line (nodes : List EdgeNode) :
    ∀ (i : Nat) (s : PollState Plc), PollInv regs s →
      (sweep (pollNode (lineLib clock)) i nodes s).elem = linePolled regs nodes := by
  induction nodes with
  | nil => intro i s _; rfl
  | cons node rest ih =>
    intro i s hs
    rw [linePolled]
    split_ifs with hbelow hline
    · -- a node below the base is passed over
      have hturn : pollNode (lineLib clock) i node s = { elem := node, state := s } := if_pos hbelow
      rw [sweep_cons_next (by rw [hturn]), hturn]
      exact congrArg (node :: ·) (ih (i + 1) s hs)
    · -- the device answers from the registers of the unit that is selected
      obtain ⟨hselected, hinv, hslave⟩ := selectUnit_plc clock hs node
      obtain ⟨henv, hmodbus, hanswer⟩ := readRegisters_line clock node
        (selectUnit (plcLib clock) node s).2.bus
      rw [if_pos hline, hslave, hinv.regs] at hanswer
      have hturn : (pollNode (lineLib clock) i node s).exit = none ∧
          (pollNode (lineLib clock) i node s).elem =
            applyRegistersToNode node (lineRegisters regs node) ∧
          PollInv regs (pollNode (lineLib clock) i node s).state := by
        unfold pollNode
        rw [if_neg hbelow]
        simp only [selectUnit_lineLib, hselected, Bool.true_eq_false, if_false, hanswer, ne_eq,
          not_true_eq_false]
        exact ⟨trivial, trivial, (congrArg Plc.regs henv).trans hinv.regs,
          fun hset => (congrArg Plc.slave henv).trans (hinv.unit hset),
          (congrArg EdgeModbus.enabled hmodbus).trans hinv.enabled,
          (congrArg EdgeModbus.connected hmodbus).trans hinv.connected⟩
      rw [sweep_cons_next hturn.1, hturn.2.1]
      exact congrArg (_ :: ·) (ih (i + 1) _ hturn.2.2)
    · -- the read is refused, and the poll is over
      obtain ⟨hselected, -, -⟩ := selectUnit_plc clock hs node
      obtain ⟨-, -, hanswer⟩ := readRegisters_line clock node
        (selectUnit (plcLib clock) node s).2.bus
      rw [if_neg hline] at hanswer
      have hturn : (pollNode (lineLib clock) i node s).exit = some .ok ∧
          (pollNode (lineLib clock) i node s).elem = node := by
        unfold pollNode
        rw [if_neg hbelow]
        simp only [selectUnit_lineLib, hselected, Bool.true_eq_false, if_false, hanswer]
        rw [if_pos (by omega)]
        exact ⟨rfl, rfl⟩
      rw [sweep_cons_exit hturn.1, hturn.2]

/-- **A poll decodes every node it reaches from the registers that its request names.** -/
theorem edgeModbusPoll_line (h : LineReady clock regs bus) (nodes : List EdgeNode) :
    (edgeModbusPoll (lineLib clock) bus nodes).2.2 = linePolled regs nodes := by
  have hcounted : LineReady clock regs
      { bus with modbus.pollCount := bus.modbus.pollCount + 1 } := by
    refine h.of_same ?_ ?_ ?_ h.regs
    all_goals rfl
  obtain ⟨hok, hconnected, hup⟩ := hcounted.connected
  unfold edgeModbusPoll
  rw [if_neg (by simp [h.enabled])]
  simp only [hok, ne_eq, not_true_eq_false, if_false]
  exact sweep_pollNode_line nodes 0 _
    ⟨hup.regs, fun hset => absurd hset Bool.false_ne_true, hup.enabled, hconnected⟩

/-- No node up to index `j` ends the poll. -/
def PollReaches (nodes : List EdgeNode) (j : Nat) : Prop :=
  ∀ node ∈ nodes.take (j + 1), edgeModbusRegisterBase ≤ node.modbusRegister → node.OnLine

/-- A poll reaches a later node if it gets past the first one. -/
theorem pollReaches_succ {first : EdgeNode} {rest : List EdgeNode} {k : Nat} :
    PollReaches (first :: rest) (k + 1) ↔
      (edgeModbusRegisterBase ≤ first.modbusRegister → first.OnLine) ∧ PollReaches rest k := by
  unfold PollReaches
  rw [List.take_succ_cons, List.forall_mem_cons]

/-- A node that is reached has registers that can be named. -/
theorem PollReaches.onLine {nodes : List EdgeNode} {j : Nat} {node : EdgeNode}
    (h : PollReaches nodes j) (hget : nodes[j]? = some node)
    (hbase : edgeModbusRegisterBase ≤ node.modbusRegister) : node.OnLine := by
  refine h node (List.mem_of_getElem? (i := j) ?_) hbase
  rw [List.getElem?_take, if_pos (Nat.lt_succ_self j)]
  exact hget

theorem length_linePolled (regs : RegFile UInt16 (BitVec 16)) (nodes : List EdgeNode) :
    (linePolled regs nodes).length = nodes.length := by
  induction nodes with
  | nil => rfl
  | cons node rest ih =>
    rw [linePolled]
    split_ifs
    · rw [List.length_cons, List.length_cons, ih]
    · rw [List.length_cons, List.length_cons, ih]
    · rfl

/-- A node that the poll reaches is decoded. -/
theorem linePolled_reached (regs : RegFile UInt16 (BitVec 16)) {nodes : List EdgeNode} {j : Nat}
    {node : EdgeNode} (hget : nodes[j]? = some node) (hreaches : PollReaches nodes j)
    (hbase : edgeModbusRegisterBase ≤ node.modbusRegister) :
    (linePolled regs nodes)[j]? =
      some (applyRegistersToNode node (lineRegisters regs node)) := by
  -- along the nodes: those before j are passed by, j itself is the one that is read
  induction nodes generalizing j with
  | nil => cases hget
  | cons first rest ih =>
    rw [linePolled]
    cases j with
    | zero =>
      cases Option.some.inj hget
      rw [if_neg (UInt32.not_lt.mpr hbase), if_pos (hreaches.onLine hget hbase)]
      rfl
    | succ k =>
      obtain ⟨hfirst, hrest⟩ := pollReaches_succ.mp hreaches
      have hkept := ih hget hrest
      split_ifs with hbelow hline
      · exact hkept
      · exact hkept
      · exact absurd (hfirst (UInt32.not_lt.mp hbelow)) hline

/-- A node below the base, or one that the poll does not reach, stays as it is. -/
theorem linePolled_kept (regs : RegFile UInt16 (BitVec 16)) {nodes : List EdgeNode} {j : Nat}
    {node : EdgeNode} (hget : nodes[j]? = some node)
    (h : PollReaches nodes j → ¬ edgeModbusRegisterBase ≤ node.modbusRegister) :
    (linePolled regs nodes)[j]? = some node := by
  induction nodes generalizing j with
  | nil => cases hget
  | cons first rest ih =>
    rw [linePolled]
    cases j with
    | zero =>
      cases Option.some.inj hget
      split_ifs with hbelow hline
      · rfl
      · -- a node that is decoded would have been reached
        have hreaches : PollReaches (node :: rest) 0 := fun other hmem _ => by
          rw [List.mem_singleton.mp hmem]
          exact hline
        exact absurd (UInt32.not_lt.mp hbelow) (h hreaches)
      · rfl
    | succ k =>
      split_ifs with hbelow hline
      · exact ih hget fun hrest => h (pollReaches_succ.mpr
          ⟨fun hbase => absurd hbelow (UInt32.not_lt.mpr hbase), hrest⟩)
      · exact ih hget fun hrest => h (pollReaches_succ.mpr ⟨fun _ => hline, hrest⟩)
      · exact hget

/-! ## Real addresses

A node with a real address has registers that the protocol can name, so nothing of its offset is
cut off and none of its requests is refused. -/

/-- The register and the data type decide, and both are the template's. -/
theorem realAddress_config (node : EdgeNode) : RealAddress node.config ↔ RealAddress node := by
  rw [realAddress_iff, realAddress_iff]
  rfl

/-- Nothing of a real address is cut off. -/
theorem RealAddress.lineAddress_eq {node : EdgeNode} (h : RealAddress node) :
    lineAddress (registerOffset node) = registerOffset node := by
  have hoffset := h.registerOffset_eq
  have hnonneg := h.nonneg
  have hbelow := h.below
  refine Int.emod_eq_of_lt ?_ ?_ <;> omega

/-- And its run of registers ends below the top of the address space. -/
theorem RealAddress.fitsLine {node : EdgeNode} (h : RealAddress node) :
    FitsLine (registerOffset node) (registerWidthForNode node) := by
  unfold FitsLine
  rw [h.lineAddress_eq, h.registerOffset_eq]
  exact h.fits

/-- The writeback of such a node is the same on both devices. -/
theorem RealAddress.writeNode_lineLib {node : EdgeNode} (h : RealAddress node)
    (clock : Nat → UInt64) (bus : Bus Plc) :
    edgeModbusWriteNode (lineLib clock) bus node = edgeModbusWriteNode (plcLib clock) bus node := by
  have hlength := (packNodeToRegisters_length node).trans (packNodeToRegisters_count node)
  have hfits : FitsLine (registerOffset node) (packNodeToRegisters node).2.length := by
    rw [hlength]
    exact h.fitsLine
  have hsend (bus : Bus Plc) :
      sendRegisters (lineLib clock) (registerOffset node) (packNodeToRegisters node) bus =
        sendRegisters (plcLib clock) (registerOffset node) (packNodeToRegisters node) bus := by
    unfold sendRegisters Bus.writeRegister Bus.writeRegisters
    simp only [lineLib, if_pos hfits, h.lineAddress_eq]
  unfold edgeModbusWriteNode
  simp only [hsend]
  rfl

/-- So is its turn in a poll. -/
theorem RealAddress.pollNode_lineLib {node : EdgeNode} (h : RealAddress node)
    (clock : Nat → UInt64) (i : Nat) (s : PollState Plc) :
    pollNode (lineLib clock) i node s = pollNode (plcLib clock) i node s := by
  have hread (bus : Bus Plc) :
      bus.readRegisters (lineLib clock) (registerOffset node) (registerWidthForNode node) =
        bus.readRegisters (plcLib clock) (registerOffset node) (registerWidthForNode node) := by
    unfold Bus.readRegisters
    simp only [lineLib, if_pos h.fitsLine, h.lineAddress_eq]
  unfold pollNode
  simp only [hread]
  rfl

variable {τ ρ : Type}

/-- Over nodes with real addresses both devices get the same writes. -/
theorem drainPendingWrites_lineLib (clock : Nat → UInt64) (bus : Bus Plc) {nodes : List EdgeNode}
    (hreal : ∀ node ∈ nodes, RealAddress node) :
    drainPendingWrites (lineLib clock) bus nodes = drainPendingWrites (plcLib clock) bus nodes := by
  refine sweep_congr nodes (fun i node hmem s => ?_) 0 _
  unfold drainNode
  rw [(hreal node hmem).writeNode_lineLib clock s.bus]

theorem edgeModbusPoll_lineLib (clock : Nat → UInt64) (bus : Bus Plc) {nodes : List EdgeNode}
    (hreal : ∀ node ∈ nodes, RealAddress node) :
    edgeModbusPoll (lineLib clock) bus nodes = edgeModbusPoll (plcLib clock) bus nodes := by
  have hsweep (s : PollState Plc) :
      sweep (pollNode (lineLib clock)) 0 nodes s = sweep (pollNode (plcLib clock)) 0 nodes s :=
    sweep_congr nodes (fun i node hmem => (hreal node hmem).pollNode_lineLib clock i) 0 s
  unfold edgeModbusPoll
  simp only [hsweep]
  rfl

/-- **On nodes with real addresses a tick is the same on both devices.** -/
theorem edgeRuntimeTick_line (clock : Nat → UInt64) (env : EventEnv τ ρ) (tick : TickClock)
    {rt : EdgeRuntime Plc τ ρ} (hreal : ∀ node ∈ rt.model.nodes, RealAddress node) :
    edgeRuntimeTick { modbus := lineLib clock, events := env } tick rt =
      edgeRuntimeTick { modbus := plcLib clock, events := env } tick rt := by
  have hdrained : ∀ node ∈ (drainPendingWrites (plcLib clock) rt.bus rt.model.nodes).elem,
      RealAddress node := by
    -- a drain keeps what the template says about a node
    refine forall_of_config realAddress_config ?_ hreal
    rw [drainPendingWrites_elem, List.map_map]
    exact List.map_congr_left fun node _ => drainedNode_config node
  unfold edgeRuntimeTick
  simp only [drainPendingWrites_lineLib clock rt.bus hreal, edgeModbusPoll_lineLib clock _ hdrained]

end OpcuaEdge
