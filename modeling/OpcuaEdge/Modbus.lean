import OpcuaEdge.Types
import OpcuaEdge.Lib.CLoop

/-!
# OpcuaEdge — Modbus polling and writeback (`edge_modbus.c`)

libmodbus and the monotonic clock are a parameter: `ModbusLib σ` gives, for every call, an answer
and the next state of the outside world, so that quantifying over it covers every pattern of
outcomes, including those of a device that stores what is written. A `Bus` is the module's
`EdgeModbus` together with that world and the list of libmodbus calls made so far, each with the
context it was made on.

The pointer arguments are never null here.
-/

namespace OpcuaEdge

open CStr CLoop

/-! ## libmodbus

The calls of libmodbus that the source makes, as a parameter. Each one's answer may depend on
everything that was called before. -/

/-- The outside world as `edge_modbus.c` sees it. A Boolean answer is "no error"; reads and
writes answer with the number of registers transferred. -/
structure ModbusLib (σ : Type) where
  nowUs : σ → UInt64 × σ
  newTcp : Bytes → UInt16 → σ → Bool × σ
  connect : σ → Bool × σ
  setSlave : UInt16 → σ → Bool × σ
  readRegisters : Int → Nat → σ → (Int × List (BitVec 16)) × σ
  writeRegister : Int → BitVec 16 → σ → Int × σ
  writeRegisters : Int → List (BitVec 16) → σ → Int × σ
  close : σ → σ
  free : σ → σ

/-- One libmodbus call: its context, its arguments and the answer. -/
inductive ModbusCall where
  | newTcp (ctx : Option Nat)
  | connect (ctx : Nat) (ok : Bool)
  | setSlave (ctx : Option Nat) (unit : UInt16) (ok : Bool)
  | readRegisters (ctx : Option Nat) (offset : Int) (width : Nat) (count : Int)
  | writeRegister (ctx : Option Nat) (offset : Int) (value : BitVec 16) (count : Int)
  | writeRegisters (ctx : Option Nat) (offset : Int) (values : List (BitVec 16)) (count : Int)
  | close (ctx : Nat)
  | free (ctx : Nat)
  deriving DecidableEq, Repr

/-- `EdgeModbusClient`. Its context is an identifier here. -/
structure EdgeModbus where
  host : Bytes := []
  port : UInt16 := 0
  connected : Bool := false
  enabled : Bool := false
  pollCount : UInt64 := 0
  readOkCount : UInt64 := 0
  readErrorCount : UInt64 := 0
  writeOkCount : UInt64 := 0
  writeErrorCount : UInt64 := 0
  nextConnectAttemptUs : UInt64 := 0
  connectBackoffUs : UInt64 := 0
  ctx : Option Nat := none

/-- `created` counts the contexts made so far and names the next one. -/
structure Bus (σ : Type) where
  modbus : EdgeModbus
  env : σ
  created : Nat := 0
  calls : List ModbusCall := []

variable {σ : Type}

namespace Bus

/-- A call that has been made, with the state that it left the library in. -/
def log (bus : Bus σ) (env : σ) (call : ModbusCall) : Bus σ :=
  { bus with env := env, calls := bus.calls ++ [call] }

/-- `now_us()`. -/
def nowUs (lib : ModbusLib σ) (bus : Bus σ) : UInt64 × Bus σ :=
  let r := lib.nowUs bus.env
  (r.1, { bus with env := r.2 })

/-- `modbus_new_tcp`. -/
def newTcp (lib : ModbusLib σ) (bus : Bus σ) : Option Nat × Bus σ :=
  let r := lib.newTcp bus.modbus.host bus.modbus.port bus.env
  if r.1 then
    (some bus.created,
      { bus.log r.2 (.newTcp (some bus.created)) with created := bus.created + 1 })
  else (none, bus.log r.2 (.newTcp none))

/-- `modbus_connect`. -/
def connect (lib : ModbusLib σ) (ctx : Nat) (bus : Bus σ) : Bool × Bus σ :=
  let r := lib.connect bus.env
  (r.1, bus.log r.2 (.connect ctx r.1))

/-- `modbus_set_slave`. -/
def setSlave (lib : ModbusLib σ) (unit : UInt16) (bus : Bus σ) : Bool × Bus σ :=
  let r := lib.setSlave unit bus.env
  (r.1, bus.log r.2 (.setSlave bus.modbus.ctx unit r.1))

/-- `modbus_read_registers`. -/
def readRegisters (lib : ModbusLib σ) (offset : Int) (width : Nat) (bus : Bus σ) :
    (Int × List (BitVec 16)) × Bus σ :=
  let r := lib.readRegisters offset width bus.env
  (r.1, bus.log r.2 (.readRegisters bus.modbus.ctx offset width r.1.1))

/-- `modbus_write_register`. -/
def writeRegister (lib : ModbusLib σ) (offset : Int) (value : BitVec 16) (bus : Bus σ) :
    Int × Bus σ :=
  let r := lib.writeRegister offset value bus.env
  (r.1, bus.log r.2 (.writeRegister bus.modbus.ctx offset value r.1))

/-- `modbus_write_registers`. -/
def writeRegisters (lib : ModbusLib σ) (offset : Int) (values : List (BitVec 16)) (bus : Bus σ) :
    Int × Bus σ :=
  let r := lib.writeRegisters offset values bus.env
  (r.1, bus.log r.2 (.writeRegisters bus.modbus.ctx offset values r.1))

/-- `modbus_close`. -/
def close (lib : ModbusLib σ) (ctx : Nat) (bus : Bus σ) : Bus σ :=
  bus.log (lib.close bus.env) (.close ctx)

/-- `modbus_free`. -/
def free (lib : ModbusLib σ) (ctx : Nat) (bus : Bus σ) : Bus σ :=
  bus.log (lib.free bus.env) (.free ctx)

end Bus

/-! ## Registers and values

`register_offset`, `pack_node_to_registers` and what they are made of. Nothing here touches the
bus. -/

/-- The size of the host's buffer. -/
def edgeModbusHostLen : Nat := 64
/-- The first holding register, as templates number them. -/
def edgeModbusRegisterBase : UInt32 := 40001
/-- Half a second. -/
def edgeModbusBackoffInitialUs : UInt64 := 500000
/-- Thirty seconds. -/
def edgeModbusBackoffMaxUs : UInt64 := 30000000

/-- `register_width_for_node`. -/
def registerWidthForNode (node : EdgeNode) : Nat :=
  if node.dataType = .int32 ∨ node.dataType = .uint32 then 2 else 1

/-- `(int)(node->modbus_register - edge_modbus_register_base)`. -/
def registerOffset (node : EdgeNode) : Int :=
  (node.modbusRegister - edgeModbusRegisterBase).toInt32.toInt

/-- `node->scale != 0.0 ? node->scale : 1.0`. -/
def effectiveScale (node : EdgeNode) : Double :=
  if node.scale.isZero then .fin 1 else node.scale

/-- High word first. -/
def joinWords (hi lo : BitVec 16) : BitVec 32 :=
  (hi.zeroExtend 32 <<< 16) ||| lo.zeroExtend 32

/-- `apply_registers_to_node`. The double is the first register as a signed number, times the
scale. -/
def applyRegistersToNode (node : EdgeNode) (raw : List (BitVec 16)) : EdgeNode :=
  let raw0 := raw.getD 0 0
  let raw1 := raw.getD 1 0
  match node.dataType with
  | .bool => { node with value.b := if raw0 &&& 1 ≠ 0 then 1 else 0 }
  | .int16 => { node with value.i16 := raw0 }
  | .int32 => { node with value.i32 := joinWords raw0 raw1 }
  | .uint32 => { node with value.u32 := joinWords raw0 raw1 }
  | .double => { node with value.d := (Double.ofInt raw0.toInt).mul (effectiveScale node) }
  | .unset => node

/-- The returned count and the registers it covers. -/
def packNodeToRegisters (node : EdgeNode) : Nat × List (BitVec 16) :=
  match node.dataType with
  | .bool => (1, [if node.value.b ≠ 0 then 1 else 0])
  | .int16 => (1, [node.value.i16])
  | .int32 => (2, [(node.value.i32 >>> 16).truncate 16, node.value.i32.truncate 16])
  | .uint32 => (2, [(node.value.u32 >>> 16).truncate 16, node.value.u32.truncate 16])
  | .double =>
    match node.value.d.div (effectiveScale node) with
    | .fin e =>
      let rounded := Double.toLong (if 0 ≤ e then e + 1 / 2 else e - 1 / 2)
      (1, [BitVec.ofInt 16 rounded])
    | _ => (1, [0])
  | .unset => (1, [0])

/-! ## Connection

The link is up while it has a context. A failure to connect doubles the back-off, up to its
maximum. -/

/-- `edge_modbus_init`; `host = none` is a null pointer. -/
def edgeModbusInit (host : Option Bytes) (port : UInt16) : EdgeStatus × EdgeModbus :=
  match host with
  | none => (.ok, {})
  | some host =>
    if host = [] ∨ port = 0 then (.ok, {})
    -- the record is cleared before the length is checked
    else if edgeModbusHostLen ≤ host.length then (.limit, {})
    else (.ok, { host, port, enabled := true })

/-- `note_connect_failure`. The next attempt waits for the back-off that is set here. -/
def noteConnectFailure (lib : ModbusLib σ) (bus : Bus σ) : Bus σ :=
  let doubled :=
    if bus.modbus.connectBackoffUs = 0 then edgeModbusBackoffInitialUs
    else bus.modbus.connectBackoffUs * 2
  let next := if edgeModbusBackoffMaxUs < doubled then edgeModbusBackoffMaxUs else doubled
  let now := bus.nowUs lib
  { now.2 with
    modbus.connectBackoffUs := next
    modbus.nextConnectAttemptUs := now.1 + next }

/-- `next_connect_attempt_us != 0 && now_us() < next_connect_attempt_us`: the clock is only read
when a deadline is set. -/
def backoffGate (lib : ModbusLib σ) (bus : Bus σ) : Bool × Bus σ :=
  if bus.modbus.nextConnectAttemptUs ≠ 0 then
    let now := bus.nowUs lib
    (now.1 < bus.modbus.nextConnectAttemptUs, now.2)
  else (false, bus)

/-- `edge_modbus_connect`. A context that cannot connect is freed at once. -/
def edgeModbusConnect (lib : ModbusLib σ) (bus : Bus σ) : EdgeStatus × Bus σ :=
  if bus.modbus.enabled = false then (.ok, bus)
  else if bus.modbus.connected then (.ok, bus)
  else
    let gate := backoffGate lib bus
    if gate.1 then (.error, gate.2)
    else
      let new := gate.2.newTcp lib
      match new.1 with
      | none => (.error, noteConnectFailure lib new.2)
      | some ctx =>
        let up := new.2.connect lib ctx
        if up.1 then
          (.ok, { up.2 with
            modbus.ctx := some ctx
            modbus.connected := true
            modbus.connectBackoffUs := 0
            modbus.nextConnectAttemptUs := 0 })
        -- the new context is freed and never stored
        else (.error, noteConnectFailure lib (up.2.free lib ctx))

/-- `edge_modbus_disconnect`. Without a context there is nothing to close. -/
def edgeModbusDisconnect (lib : ModbusLib σ) (bus : Bus σ) : Bus σ :=
  match bus.modbus.ctx with
  | none => bus
  | some ctx =>
    { (bus.close lib ctx).free lib ctx with modbus.ctx := none, modbus.connected := false }

/-- `if(modbus->connected == 0) { edge_modbus_connect(modbus) }`. -/
def ensureConnected (lib : ModbusLib σ) (bus : Bus σ) : EdgeStatus × Bus σ :=
  if bus.modbus.connected then (.ok, bus) else edgeModbusConnect lib bus

/-! ## Polling

One read request for each node, in the order of the template. The first one that fails ends the
poll and takes the link down. -/

/-- The variables of the poll loop. -/
structure PollState (σ : Type) where
  bus : Bus σ
  currentUnit : UInt16 := 0
  unitSet : Bool := false

/-- The unit selection of one turn, skipped when the node's unit is already selected. -/
def selectUnit (lib : ModbusLib σ) (node : EdgeNode) (s : PollState σ) : Bool × PollState σ :=
  if s.unitSet = false ∨ s.currentUnit ≠ node.modbusUnit then
    let r := s.bus.setSlave lib node.modbusUnit
    if r.1 then (true, { bus := r.2, currentUnit := node.modbusUnit, unitSet := true })
    else (false, { s with bus := r.2 })
  else (true, s)

/-- One turn of the loop. A node below the register base has no registers and is passed over. -/
def pollNode (lib : ModbusLib σ) (_ : Nat) (node : EdgeNode) (s : PollState σ) :
    Turn EdgeStatus EdgeNode (PollState σ) :=
  if node.modbusRegister < edgeModbusRegisterBase then { elem := node, state := s }
  else
    let width := registerWidthForNode node
    let sel := selectUnit lib node s
    -- a unit that cannot be selected costs this node's read only
    if sel.1 = false then
      { elem := node
        state := { sel.2 with
          bus.modbus.readErrorCount := sel.2.bus.modbus.readErrorCount + 1 } }
    else
      let r := sel.2.bus.readRegisters lib (registerOffset node) width
      -- a failed read drops the connection and ends the poll
      if r.1.1 ≠ width then
        { elem := node
          state := { sel.2 with
            bus := edgeModbusDisconnect lib
              { r.2 with modbus.readErrorCount := r.2.modbus.readErrorCount + 1 } }
          exit := some .ok }
      else
        { elem := applyRegistersToNode node r.1.2
          state := { sel.2 with
            bus := { r.2 with modbus.readOkCount := r.2.modbus.readOkCount + 1 } } }

/-- `edge_modbus_poll` over the model's nodes. -/
def edgeModbusPoll (lib : ModbusLib σ) (bus : Bus σ) (nodes : List EdgeNode) :
    EdgeStatus × Bus σ × List EdgeNode :=
  let counted := { bus with modbus.pollCount := bus.modbus.pollCount + 1 }
  if counted.modbus.enabled = false then (.ok, counted, nodes)
  else
    let up := ensureConnected lib counted
    -- without a connection nothing is read, and the poll still returns OK
    if up.1 ≠ .ok then (.ok, up.2, nodes)
    else
      let t := sweep (pollNode lib) 0 nodes { bus := up.2 }
      (t.exit.getD .ok, t.state.bus, t.elem)

/-! ## Writeback

One write request for a node that a client has written. -/

/-- The register write of `edge_modbus_write_node`: whether it failed, and the bus after it. -/
def sendRegisters (lib : ModbusLib σ) (offset : Int) (packed : Nat × List (BitVec 16))
    (bus : Bus σ) : Bool × Bus σ :=
  if packed.1 = 1 then
    let r := bus.writeRegister lib offset (packed.2.getD 0 0)
    (r.1 ≠ 1, r.2)
  else
    let r := bus.writeRegisters lib offset packed.2
    (r.1 ≠ packed.1, r.2)

/-- `edge_modbus_write_node`. -/
def edgeModbusWriteNode (lib : ModbusLib σ) (bus : Bus σ) (node : EdgeNode) :
    EdgeStatus × Bus σ :=
  if bus.modbus.enabled = false then (.ok, bus)
  else if node.writable = false then (.invalid, bus)
  else if node.modbusRegister < edgeModbusRegisterBase then (.invalid, bus)
  else
    let up := ensureConnected lib bus
    if up.1 ≠ .ok then
      (.error, { up.2 with modbus.writeErrorCount := up.2.modbus.writeErrorCount + 1 })
    else
      -- the unit is selected for every write, whatever was selected last
      let sel := up.2.setSlave lib node.modbusUnit
      if sel.1 = false then
        (.error, { sel.2 with modbus.writeErrorCount := sel.2.modbus.writeErrorCount + 1 })
      else
        let sent := sendRegisters lib (registerOffset node) (packNodeToRegisters node) sel.2
        -- only a failed transfer drops the connection
        if sent.1 then
          (.error, edgeModbusDisconnect lib
            { sent.2 with modbus.writeErrorCount := sent.2.modbus.writeErrorCount + 1 })
        else (.ok, { sent.2 with modbus.writeOkCount := sent.2.modbus.writeOkCount + 1 })

/-- `edge_modbus_clear`. -/
def edgeModbusClear (lib : ModbusLib σ) (bus : Bus σ) : Bus σ :=
  { edgeModbusDisconnect lib bus with modbus := {} }

end OpcuaEdge
