import OpcuaEdge.AddressSpace
import OpcuaEdge.Events
import OpcuaEdge.Modbus

/-!
# OpcuaEdge — the periodic tick (`edge_runtime.c`)

A tick drains the pending writes, polls, evaluates the events and, every
`persist_every_n_ticks`, persists the latest values. The statuses of all four are discarded.
`drainPendingWrites` lists the `edge_modbus_write_node` calls it makes, so that a run can be
observed: `Obs` is what a client, the PLC and the clock see of it.
-/

namespace OpcuaEdge

open CLoop Txn

variable {σ τ ρ : Type}

/-- One call of `edge_modbus_write_node` made by the drain: the node as handed over, what the
call returned and the libmodbus calls it made. -/
structure WriteBack where
  index : Nat
  node : EdgeNode
  status : EdgeStatus
  calls : List ModbusCall
  deriving DecidableEq

/-- What the loop carries from node to node. The list of writebacks is not in the source: it
records what was sent and how it ended. -/
structure DrainState (σ : Type) where
  bus : Bus σ
  writeBacks : List WriteBack := []

/-- The turn of the drain loop for node `i`. -/
def drainNode (lib : ModbusLib σ) (i : Nat) (node : EdgeNode) (s : DrainState σ) :
    Turn Unit EdgeNode (DrainState σ) :=
  if node.writable = false ∨ node.pendingWrite = false then { elem := node, state := s }
  else
    let r := edgeModbusWriteNode lib s.bus node
    -- the flag is cleared whatever the write returned
    { elem := { node with pendingWrite := false }
      state :=
        { bus := r.2
          writeBacks := s.writeBacks ++
            [{ index := i, node, status := r.1, calls := r.2.calls.drop s.bus.calls.length }] } }

/-- `drain_pending_writes`. It goes through all nodes, whatever becomes of their writes. -/
def drainPendingWrites (lib : ModbusLib σ) (bus : Bus σ) (nodes : List EdgeNode) :
    Turn Unit (List EdgeNode) (DrainState σ) :=
  sweep (drainNode lib) 0 nodes { bus }

/-! ## The runtime

The runtime's tick does four things in this order: it drains the pending writes, polls, evaluates
the events, and stores the values every so many ticks. -/

/-- The libraries the process is linked with. -/
structure Libs (σ τ ρ : Type) where
  modbus : ModbusLib σ
  events : EventEnv τ ρ

/-- `EdgeRuntime`, with what its pointers point at in place of the pointers. -/
structure EdgeRuntime (σ τ ρ : Type) where
  server : Option (EdgeServer ρ)
  model : EdgeModel
  store : Store τ
  bus : Bus σ
  tickCount : UInt64 := 0
  persistEveryNTicks : UInt32
  lastEventStats : EdgeEventStats := {}

/-- What the clock shows during one tick: at the start of the event pass and of the persist. -/
structure TickClock where
  evaluateMs : Nat
  persistMs : Nat

/-- `edge_runtime_tick`, with the write-backs of its drain. -/
def edgeRuntimeTick (libs : Libs σ τ ρ) (clock : TickClock) (rt : EdgeRuntime σ τ ρ) :
    EdgeRuntime σ τ ρ × List WriteBack :=
  let tickCount := rt.tickCount + 1
  -- commands go out before the registers are read
  let drained := drainPendingWrites libs.modbus rt.bus rt.model.nodes
  let polled := edgeModbusPoll libs.modbus drained.state.bus drained.elem
  let evaluated := edgeEventsEvaluate libs.events clock.evaluateMs
    { rt.model with nodes := polled.2.2 } rt.store rt.server
  let store :=
    if rt.persistEveryNTicks ≠ 0 ∧ tickCount % rt.persistEveryNTicks.toUInt64 = 0 then
      (edgeStorePersistLatestValues libs.events.engine evaluated.model clock.persistMs
        evaluated.store).2
    else evaluated.store
  ({ rt with
      server := evaluated.server
      model := evaluated.model
      store := store
      bus := polled.2.1
      tickCount := tickCount
      lastEventStats := evaluated.stats },
    drained.state.writeBacks)

/-! ## Runs

Between ticks clients write, in any order and as often as they like. A run is any sequence of such
calls. -/

/-- What happens to the process between startup and shutdown: a client writes the node with
index `i`, or the repeated callback fires. -/
inductive RunOp where
  | write (i : Nat) (value : Option UaVariant)
  | tick (clock : TickClock)

/-- What can be observed of a run, in order. -/
inductive Obs where
  | answered (i : Nat) (value : Option UaVariant) (status : UaStatusCode)
  | writeBack (w : WriteBack)
  | ticked
  deriving DecidableEq

/-- One step of a run. A write to a node that does not exist never reaches the callback. -/
def runStep (libs : Libs σ τ ρ) (rt : EdgeRuntime σ τ ρ) :
    RunOp → EdgeRuntime σ τ ρ × List Obs
  | .write i value =>
    match rt.model.nodes[i]? with
    | none => (rt, [])
    | some node =>
      let r := writeEdgeNode node value
      ({ rt with model.nodes := rt.model.nodes.set i r.2 }, [.answered i value r.1])
  | .tick clock =>
    let r := edgeRuntimeTick libs clock rt
    (r.1, r.2.map .writeBack ++ [.ticked])

/-- A run, with everything observed from its start on. -/
def runFrom (libs : Libs σ τ ρ) : List RunOp → EdgeRuntime σ τ ρ × List Obs →
    EdgeRuntime σ τ ρ × List Obs
  | [], st => st
  | op :: rest, st =>
    let r := runStep libs st.1 op
    runFrom libs rest (r.1, st.2 ++ r.2)

/-- A run from its start, with what was observed of it. -/
def run (libs : Libs σ τ ρ) (ops : List RunOp) (rt : EdgeRuntime σ τ ρ) :
    EdgeRuntime σ τ ρ × List Obs :=
  runFrom libs ops (rt, [])

end OpcuaEdge
