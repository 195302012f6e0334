import OpcuaEdge.Modbus

/-!
# OpcuaEdge — what the Modbus operations can do

Facts that hold of every operation of `edge_modbus.c` whatever libmodbus answers: it keeps
`enabled`, it only adds to the list of libmodbus calls, and only the writeback adds register
writes. `BusStep` collects them, so that a proof follows a bus through an operation by citing
one lemma per operation and composing them with `BusStep.trans`.

`edgeModbusWriteNode_ok_iff` says when a writeback succeeds in terms of libmodbus' answers
alone (`Deliverable`).
-/

namespace OpcuaEdge

open CStr CLoop

variable {σ : Type} (lib : ModbusLib σ)

/-! ## Register writes among the calls

Of all the calls on the bus, those that write registers are the ones the plant sees. `BusStep` says
which of them an operation has made, and that it keeps the configuration of the link. -/

/-- Offset and values of a call that writes registers. -/
def ModbusCall.registers : ModbusCall → Option (Int × List (BitVec 16))
  | .writeRegister _ offset value _ => some (offset, [value])
  | .writeRegisters _ offset values _ => some (offset, values)
  | _ => none

/-- The register writes among the calls, in order. -/
def registerWrites (calls : List ModbusCall) : List (Int × List (BitVec 16)) :=
  calls.filterMap ModbusCall.registers

@[simp] theorem registerWrites_append (a b : List ModbusCall) :
    registerWrites (a ++ b) = registerWrites a ++ registerWrites b :=
  List.filterMap_append

/-- `bus'` comes after `bus`: modbus is still enabled or disabled as before, and the calls made
in between write the registers `writes`. -/
structure BusStep (writes : List (Int × List (BitVec 16))) (bus bus' : Bus σ) : Prop where
  enabled : bus'.modbus.enabled = bus.modbus.enabled
  calls : ∃ new, bus'.calls = bus.calls ++ new ∧ registerWrites new = writes

namespace BusStep

theorem refl (bus : Bus σ) : BusStep [] bus bus := ⟨rfl, [], by simp, rfl⟩

/-- Two operations make the writes of the first and then those of the second. -/
theorem trans {w w' : List (Int × List (BitVec 16))} {a b c : Bus σ} (hab : BusStep w a b)
    (hbc : BusStep w' b c) : BusStep (w ++ w') a c := by
  obtain ⟨new, hnew, hw⟩ := hab.calls
  obtain ⟨new', hnew', hw'⟩ := hbc.calls
  refine ⟨hbc.enabled.trans hab.enabled, new ++ new', ?_, ?_⟩
  · rw [hnew', hnew, List.append_assoc]
  · rw [registerWrites_append, hw, hw']

theorem trans_nil {w : List (Int × List (BitVec 16))} {a b c : Bus σ} (hab : BusStep [] a b)
    (hbc : BusStep w b c) : BusStep w a c := hab.trans hbc

theorem then_nil {w : List (Int × List (BitVec 16))} {a b c : Bus σ} (hab : BusStep w a b)
    (hbc : BusStep [] b c) : BusStep w a c := by
  have h := hab.trans hbc
  rwa [List.append_nil] at h

/-- Fields of `EdgeModbus` other than `enabled` may be rewritten. -/
theorem of_eq {bus bus' : Bus σ} (henabled : bus'.modbus.enabled = bus.modbus.enabled)
    (hcalls : bus'.calls = bus.calls) : BusStep [] bus bus' :=
  ⟨henabled, [], by simp [hcalls], rfl⟩

theorem log (bus : Bus σ) (env : σ) (call : ModbusCall) (h : call.registers = none) :
    BusStep [] bus (bus.log env call) :=
  ⟨rfl, [call], rfl, by simp [registerWrites, h]⟩

end BusStep

/-! ## One step lemma per operation

None of the operations of a poll writes a register: connecting, selecting the unit and reading are
other calls. -/

theorem Bus.nowUs_step (bus : Bus σ) : BusStep [] bus (bus.nowUs lib).2 := .of_eq rfl rfl

theorem Bus.newTcp_step (bus : Bus σ) : BusStep [] bus (bus.newTcp lib).2 := by
  unfold Bus.newTcp
  dsimp only
  split
  · have h := BusStep.log bus (lib.newTcp bus.modbus.host bus.modbus.port bus.env).2
      (.newTcp (some bus.created)) rfl
    exact h.trans_nil (.of_eq rfl rfl)
  · exact .log _ _ _ rfl

theorem Bus.setSlave_step (unit : UInt16) (bus : Bus σ) :
    BusStep [] bus (bus.setSlave lib unit).2 := .log _ _ _ rfl

theorem Bus.readRegisters_step (offset : Int) (width : Nat) (bus : Bus σ) :
    BusStep [] bus (bus.readRegisters lib offset width).2 := .log _ _ _ rfl

theorem noteConnectFailure_step (bus : Bus σ) : BusStep [] bus (noteConnectFailure lib bus) :=
  (bus.nowUs_step lib).trans_nil (.of_eq rfl rfl)

theorem backoffGate_step (bus : Bus σ) : BusStep [] bus (backoffGate lib bus).2 := by
  unfold backoffGate
  split
  · exact bus.nowUs_step lib
  · exact .refl bus

theorem edgeModbusConnect_step (bus : Bus σ) : BusStep [] bus (edgeModbusConnect lib bus).2 := by
  unfold edgeModbusConnect
  dsimp only
  split_ifs with henabled hconnected hgate
  · exact .refl bus
  · exact .refl bus
  · exact backoffGate_step lib bus
  · have hnew := (backoffGate_step lib bus).trans_nil (Bus.newTcp_step lib _)
    split
    · exact hnew.trans_nil (noteConnectFailure_step lib _)
    · next ctx _ =>
      have hup : BusStep [] bus (((backoffGate lib bus).2.newTcp lib).2.connect lib ctx).2 :=
        hnew.trans_nil (.log _ _ _ rfl)
      split
      · exact hup.trans_nil (.of_eq rfl rfl)
      · exact (hup.trans_nil (.log _ _ (.free ctx) rfl)).trans_nil (noteConnectFailure_step lib _)

theorem edgeModbusDisconnect_step (bus : Bus σ) :
    BusStep [] bus (edgeModbusDisconnect lib bus) := by
  unfold edgeModbusDisconnect
  split
  · exact .refl bus
  · next ctx _ =>
    have h := (BusStep.log bus (lib.close bus.env) (.close ctx) rfl).trans_nil
      (.log _ (lib.free (lib.close bus.env)) (.free ctx) rfl)
    exact h.trans_nil (.of_eq rfl rfl)

theorem ensureConnected_step (bus : Bus σ) : BusStep [] bus (ensureConnected lib bus).2 := by
  unfold ensureConnected
  split
  · exact .refl bus
  · exact edgeModbusConnect_step lib bus

/-- Selecting the unit of a node writes nothing, also when it is selected already. -/
theorem selectUnit_step (node : EdgeNode) (s : PollState σ) :
    BusStep [] s.bus (selectUnit lib node s).2.bus := by
  unfold selectUnit
  dsimp only
  split_ifs
  · exact Bus.setSlave_step lib _ _
  · exact Bus.setSlave_step lib _ _
  · exact .refl s.bus

theorem pollNode_step (i : Nat) (node : EdgeNode) (s : PollState σ) :
    BusStep [] s.bus (pollNode lib i node s).state.bus := by
  unfold pollNode
  dsimp only
  have hsel := selectUnit_step lib node s
  have hread := hsel.trans_nil (Bus.readRegisters_step lib (registerOffset node)
    (registerWidthForNode node) _)
  split_ifs
  · exact .refl s.bus
  · exact hsel.trans_nil (.of_eq rfl rfl)
  · refine BusStep.trans_nil ?_ (edgeModbusDisconnect_step lib _)
    exact hread.trans_nil (.of_eq rfl rfl)
  · exact hread.trans_nil (.of_eq rfl rfl)

/-- **Polling writes no register.** -/
theorem edgeModbusPoll_step (bus : Bus σ) (nodes : List EdgeNode) :
    BusStep [] bus (edgeModbusPoll lib bus nodes).2.1 := by
  unfold edgeModbusPoll
  dsimp only
  have hcounted : BusStep [] bus { bus with modbus.pollCount := bus.modbus.pollCount + 1 } :=
    .of_eq rfl rfl
  have hup := hcounted.trans_nil (ensureConnected_step lib _)
  split_ifs
  · exact hcounted
  · exact hup
  · refine sweep_state (fun s : PollState σ => BusStep [] bus s.bus) ?_ nodes 0 _ hup
    intro i node s hs
    exact hs.trans_nil (pollNode_step lib i node s)

/-! ## The writeback

One node is written by one call, of one register or of two, after its unit was selected. -/

theorem packNodeToRegisters_length (node : EdgeNode) :
    (packNodeToRegisters node).2.length = (packNodeToRegisters node).1 := by
  unfold packNodeToRegisters
  split
  all_goals first | rfl | (split <;> rfl)

/-- Every data type packs into as many registers as are polled for it. -/
theorem packNodeToRegisters_count (node : EdgeNode) :
    (packNodeToRegisters node).1 = registerWidthForNode node := by
  unfold packNodeToRegisters registerWidthForNode
  cases h : node.dataType <;> simp
  split <;> rfl

/-- The transfer of a writeback is one call, with the registers that the node packs into. -/
theorem sendRegisters_call (node : EdgeNode) (offset : Int) (bus : Bus σ) :
    (sendRegisters lib offset (packNodeToRegisters node) bus).2.modbus = bus.modbus ∧
      ∃ write : ModbusCall, write.registers = some (offset, (packNodeToRegisters node).2) ∧
        (sendRegisters lib offset (packNodeToRegisters node) bus).2.calls =
          bus.calls ++ [write] := by
  unfold sendRegisters
  dsimp only
  split_ifs with hone
  · -- one register: the list has exactly the element that is sent
    obtain ⟨value, hvalue⟩ := List.length_eq_one_iff.mp
      ((packNodeToRegisters_length node).trans hone)
    rw [hvalue]
    exact ⟨rfl, .writeRegister bus.modbus.ctx offset value _, rfl, rfl⟩
  · exact ⟨rfl, .writeRegisters bus.modbus.ctx offset _ _, rfl, rfl⟩

/-- The same as a step on the bus. -/
theorem sendRegisters_step (node : EdgeNode) (offset : Int) (bus : Bus σ) :
    BusStep [(offset, (packNodeToRegisters node).2)] bus
      (sendRegisters lib offset (packNodeToRegisters node) bus).2 := by
  obtain ⟨hmodbus, write, hwrite, hcalls⟩ := sendRegisters_call lib node offset bus
  refine ⟨congrArg EdgeModbus.enabled hmodbus, [write], hcalls, ?_⟩
  exact List.filterMap_cons_some hwrite

/-- The calls of a writeback that got as far as its transfer: it selected the unit of the node, and
the next call wrote the registers that the node packs into. -/
structure SentTo (node : EdgeNode) (calls : List ModbusCall) : Prop where
  writes : registerWrites calls = [(registerOffset node, (packNodeToRegisters node).2)]
  selected : ∃ before ctx write after,
    calls = before ++ .setSlave ctx node.modbusUnit true :: write :: after ∧
      write.registers = some (registerOffset node, (packNodeToRegisters node).2)

/-- A link that is up, a unit that is selected and a transfer are all that a writeback calls, but
for what it takes to drop the link. -/
theorem sentTo_calls {node : EdgeNode} {before after : List ModbusCall} (ctx : Option Nat)
    {write : ModbusCall} (hbefore : registerWrites before = [])
    (hwrite : write.registers = some (registerOffset node, (packNodeToRegisters node).2))
    (hafter : registerWrites after = []) :
    SentTo node (before ++ .setSlave ctx node.modbusUnit true :: write :: after) where
  writes := by
    rw [registerWrites_append, hbefore, List.nil_append]
    show (write :: after).filterMap ModbusCall.registers = _
    rw [List.filterMap_cons_some hwrite]
    exact congrArg _ hafter
  selected := ⟨before, ctx, write, after, rfl, hwrite⟩

/-- **What a writeback calls**: nothing that writes registers, or, for a writable node, the
selection of its unit and the transfer of its registers. -/
theorem edgeModbusWriteNode_calls (bus : Bus σ) (node : EdgeNode) :
    (edgeModbusWriteNode lib bus node).2.modbus.enabled = bus.modbus.enabled ∧
      ∃ calls, (edgeModbusWriteNode lib bus node).2.calls = bus.calls ++ calls ∧
        (registerWrites calls = [] ∨ node.writable = true ∧ SentTo node calls) := by
  have hquiet {bus' : Bus σ} (h : BusStep [] bus bus') : bus'.modbus.enabled = bus.modbus.enabled ∧
      ∃ calls, bus'.calls = bus.calls ++ calls ∧
        (registerWrites calls = [] ∨ node.writable = true ∧ SentTo node calls) := by
    obtain ⟨calls, hcalls, hnone⟩ := h.calls
    exact ⟨h.enabled, calls, hcalls, .inl hnone⟩
  unfold edgeModbusWriteNode
  dsimp only
  -- how far the call got decides whether registers were written
  have hup := ensureConnected_step lib bus
  have hsel := hup.trans_nil (Bus.setSlave_step lib node.modbusUnit _)
  split_ifs with henabled hwritable hregister hlink hunit hfailed
  · exact hquiet (.refl bus)
  · exact hquiet (.refl bus)
  · exact hquiet (.refl bus)
  · exact hquiet (hup.trans_nil (.of_eq rfl rfl))
  · exact hquiet (hsel.trans_nil (.of_eq rfl rfl))
  all_goals
    obtain ⟨before, hbefore, hnone⟩ := hup.calls
    obtain ⟨hmodbus, write, hwrite, hsent⟩ := sendRegisters_call lib node (registerOffset node)
      ((ensureConnected lib bus).2.setSlave lib node.modbusUnit).2
    have hselected : (lib.setSlave node.modbusUnit (ensureConnected lib bus).2.env).1 = true :=
      Bool.eq_true_of_not_eq_false hunit
    have hselect : ((ensureConnected lib bus).2.setSlave lib node.modbusUnit).2.calls =
        bus.calls ++ before ++ [.setSlave (ensureConnected lib bus).2.modbus.ctx node.modbusUnit
          true] := by
      rw [← hbefore, ← hselected]
      rfl
    have henabled := (congrArg EdgeModbus.enabled hmodbus).trans hsel.enabled
    rw [hselect] at hsent
  · -- a failed transfer drops the link
    obtain ⟨hdropped, after, hafter, hquiet⟩ := edgeModbusDisconnect_step lib
      { (sendRegisters lib (registerOffset node) (packNodeToRegisters node)
          ((ensureConnected lib bus).2.setSlave lib node.modbusUnit).2).2 with
        modbus.writeErrorCount := (sendRegisters lib (registerOffset node)
          (packNodeToRegisters node)
          ((ensureConnected lib bus).2.setSlave lib
            node.modbusUnit).2).2.modbus.writeErrorCount + 1 }
    refine ⟨hdropped.trans henabled, _, ?_, .inr ⟨by simpa using hwritable,
      sentTo_calls (ensureConnected lib bus).2.modbus.ctx hnone hwrite hquiet⟩⟩
    rw [hafter, hsent]
    simp only [List.append_assoc, List.cons_append, List.nil_append]
  · refine ⟨henabled, _, ?_, .inr ⟨by simpa using hwritable,
      sentTo_calls (ensureConnected lib bus).2.modbus.ctx hnone hwrite
        (show registerWrites [] = [] from rfl)⟩⟩
    rw [hsent]
    simp only [List.append_assoc, List.cons_append, List.nil_append]

/-- A writeback writes the registers its node packs into, if any, and only for a writable
node. -/
theorem edgeModbusWriteNode_step (bus : Bus σ) (node : EdgeNode) :
    ∃ writes, BusStep writes bus (edgeModbusWriteNode lib bus node).2 ∧
      (writes = [] ∨
        node.writable = true ∧
          writes = [(registerOffset node, (packNodeToRegisters node).2)]) := by
  obtain ⟨henabled, calls, hcalls, hwrites⟩ := edgeModbusWriteNode_calls lib bus node
  refine ⟨registerWrites calls, ⟨henabled, calls, hcalls, rfl⟩, ?_⟩
  exact hwrites.imp_right fun ⟨hwritable, hsent⟩ => ⟨hwritable, hsent.writes⟩

/-! ## When a writeback succeeds

Every call of it has to succeed: the connection, the unit and the write. The condition is on the
answers of libmodbus at the state in which each call is made. -/

/-- A link is there, or no back-off is in force and libmodbus sets one up. -/
def LinkComesUp (bus : Bus σ) : Prop :=
  bus.modbus.connected = true ∨
    (backoffGate lib bus).1 = false ∧
      ∃ ctx, ((backoffGate lib bus).2.newTcp lib).1 = some ctx ∧
        (((backoffGate lib bus).2.newTcp lib).2.connect lib ctx).1 = true

/-- What a writeback of `node` needs from the node and from libmodbus: a register above the
base, a link, a unit that can be selected and a device that takes the registers. -/
structure Deliverable (bus : Bus σ) (node : EdgeNode) : Prop where
  register : edgeModbusRegisterBase ≤ node.modbusRegister
  link : LinkComesUp lib bus
  unit : ((ensureConnected lib bus).2.setSlave lib node.modbusUnit).1 = true
  taken : (sendRegisters lib (registerOffset node) (packNodeToRegisters node)
    ((ensureConnected lib bus).2.setSlave lib node.modbusUnit).2).1 = false

theorem ensureConnected_ok_iff {bus : Bus σ} (henabled : bus.modbus.enabled = true) :
    (ensureConnected lib bus).1 = .ok ↔ LinkComesUp lib bus := by
  unfold ensureConnected LinkComesUp edgeModbusConnect
  simp only [henabled]
  cases hconnected : bus.modbus.connected with
  | true => simp
  | false =>
    cases hgate : (backoffGate lib bus).1 with
    | true => simp
    | false =>
      cases hnew : ((backoffGate lib bus).2.newTcp lib).1 with
      | none => simp
      | some ctx =>
        simp only [Option.some.injEq, exists_eq_left']
        cases hup : (((backoffGate lib bus).2.newTcp lib).2.connect lib ctx).1 <;> simp

/-- **A writeback succeeds exactly if its node is deliverable.** -/
theorem edgeModbusWriteNode_ok_iff {bus : Bus σ} {node : EdgeNode}
    (henabled : bus.modbus.enabled = true) (hwritable : node.writable = true) :
    (edgeModbusWriteNode lib bus node).1 = .ok ↔ Deliverable lib bus node := by
  have hlink := ensureConnected_ok_iff lib henabled
  unfold edgeModbusWriteNode
  dsimp only
  -- each failing exit contradicts one field of `Deliverable`
  split_ifs with h1 h2 hregister hdown hunit hfailed
  · simp [henabled] at h1
  · simp [hwritable] at h2
  · exact ⟨nofun, fun h => absurd h.register (by simpa using hregister)⟩
  · exact ⟨nofun, fun h => absurd (hlink.mpr h.link) hdown⟩
  · exact ⟨nofun, fun h => by simp [h.unit] at hunit⟩
  · exact ⟨nofun, fun h => by simp [h.taken] at hfailed⟩
  · refine ⟨fun _ => ?_, fun _ => rfl⟩
    exact ⟨by simpa using hregister, hlink.mp (by simpa using hdown), by simpa using hunit,
      by simpa using hfailed⟩

end OpcuaEdge
