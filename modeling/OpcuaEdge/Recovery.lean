import OpcuaEdge.Backoff
import OpcuaEdge.Controller

/-!
# OpcuaEdge — an outage ends

While the device does not answer, the back-off keeps attempts apart. This module is about what
happens when the device is back. The runtime uses the link only through the entry points that the
back-off is about (`run_driven`), so in every state a run reaches the gate opens exactly when an
attempt is due (`Waiting.gate_open_iff`). From the first tick that finds an attempt due and the
device answering, the edge is a scan cycle again, whatever the link did before (`outage_ends`):
nothing has to be restarted, and no state of the link is stuck.
-/

namespace OpcuaEdge

open CStr CLoop ScanCycle

variable {σ τ ρ : Type}

/-! ## The runtime drives the link

Whatever the runtime does to the bus, it does by the link operations of `edge_modbus.c`. So what
holds over every sequence of these holds over every run. -/

/-- From `a` to `b` the link was used through the entry points that may connect, and in no other
way. -/
def Driven (lib : ModbusLib σ) (a b : Bus σ) : Prop :=
  ∃ ops, (∀ op ∈ ops, op.mayConnect = true) ∧ b = busAfter lib ops a

namespace Driven

variable {lib : ModbusLib σ} {a b c : Bus σ}

theorem refl (bus : Bus σ) : Driven lib bus bus := ⟨[], fun _ hop => (by cases hop), rfl⟩

theorem trans (hab : Driven lib a b) (hbc : Driven lib b c) : Driven lib a c := by
  obtain ⟨ops, hops, rfl⟩ := hab
  obtain ⟨more, hmore, rfl⟩ := hbc
  refine ⟨ops ++ more, fun op hop => ?_, List.foldl_append.symm⟩
  rcases List.mem_append.mp hop with hfirst | hsecond
  · exact hops op hfirst
  · exact hmore op hsecond

theorem single (op : LinkOp) (hop : op.mayConnect = true) (bus : Bus σ) :
    Driven lib bus (op.run lib bus) :=
  ⟨[op], fun _ hmem => List.mem_singleton.mp hmem ▸ hop, rfl⟩

end Driven

/-- The writeback of a tick drives the link: one operation for each write that is pending. -/
theorem drainPendingWrites_driven (lib : ModbusLib σ) (bus : Bus σ) (nodes : List EdgeNode) :
    Driven lib bus (drainPendingWrites lib bus nodes).state.bus := by
  refine sweep_state (fun s : DrainState σ => Driven lib bus s.bus) (fun i node s hs => ?_) nodes 0
    { bus } (.refl bus)
  obtain ⟨-, hturn⟩ | ⟨-, -, calls, -, hturn⟩ := drainNode_cases lib i node s
  · rw [hturn]
    exact hs
  · rw [hturn]
    exact hs.trans (.single (.writeNode node) rfl s.bus)

/-- So does every call of the runtime. -/
theorem runStep_driven (libs : Libs σ τ ρ) (rt : EdgeRuntime σ τ ρ) (op : RunOp) :
    Driven libs.modbus rt.bus (runStep libs rt op).1.bus := by
  cases op with
  | tick clock =>
    have hdrained := drainPendingWrites_driven libs.modbus rt.bus rt.model.nodes
    exact hdrained.trans
      (.single (.poll (drainPendingWrites libs.modbus rt.bus rt.model.nodes).elem) rfl _)
  | write i value =>
    -- a write changes nodes only
    obtain hstep | ⟨_, _, hstep⟩ | ⟨_, _, _, _, _, _, _, _, hstep⟩ :=
      runStep_write_cases libs rt i value
    all_goals
      rw [hstep]
      exact .refl rt.bus

theorem run_driven (libs : Libs σ τ ρ) (rt : EdgeRuntime σ τ ρ) (ops : List RunOp) :
    Driven libs.modbus rt.bus (run libs ops rt).1.bus :=
  run_induction libs rt (fun rt' _ => Driven libs.modbus rt.bus rt'.bus) (.refl rt.bus)
    (fun rt' _ op h => h.trans (runStep_driven libs rt' op)) ops

/-- **The back-off holds in every state of a run** whose readings of the clock are below 2^63. -/
theorem run_waits (lib : ModbusLib σ) (env : EventEnv τ ρ)
    {rt : EdgeRuntime (σ × List LinkEvent) τ ρ} (h : rt.bus.Waits) (ops : List RunOp)
    (hclock : ClockBounded (run { modbus := recorded lib, events := env } ops rt).1.bus.trace) :
    (run { modbus := recorded lib, events := env } ops rt).1.bus.Waits := by
  obtain ⟨linkOps, hlink, hbus⟩ := run_driven { modbus := recorded lib, events := env } rt ops
  rw [hbus] at hclock ⊢
  exact busAfter_waits lib linkOps hlink rt.bus h hclock

/-! ## The gate

After a failure the link refuses to connect before the back-off is over. The refused tick leaves
the device and the nodes' values as they are. -/

/-- **The gate is open at `t` exactly when an attempt is due at `t`.** -/
theorem Waiting.gate_open_iff {backoff next : UInt64} {trace : List LinkEvent}
    (h : Waiting backoff next trace) (t : UInt64) :
    (decide (next ≠ 0) && decide (t < next)) = false ↔ (attemptsOf (trace ++ [.read t])).Due := by
  rcases Nat.eq_zero_or_pos (attemptsOf trace).failures with hzero | hpos
  · -- nothing has failed, so there is no deadline
    have hevent : (attemptsOf (trace ++ [.read t])).failures = 0 := by
      rw [attemptsOf_append]
      exact hzero
    rw [h.open_gate hzero]
    refine ⟨fun _ hfailures => ?_, fun _ => rfl⟩
    rw [hevent] at hfailures
    cases hfailures
  · obtain ⟨noted, hnoted, hdeadline⟩ := h.deadline hpos
    have hnext : next ≠ 0 := fun hzero => by
      rw [h.next_eq_zero_iff.mp hzero] at hpos
      cases hpos
    rw [decide_eq_true hnext, Bool.true_and, decide_eq_false_iff_not, UInt64.lt_iff_toNat_lt,
      Nat.not_lt]
    refine ⟨h.due_of_read hpos, fun hdue => ?_⟩
    rw [h.attemptsOf_read hpos] at hdue
    obtain ⟨noted', now, hnoted', hnow, hreached⟩ := hdue hpos
    cases hnow
    cases hnoted.symm.trans hnoted'
    rw [hdeadline]
    exact hreached

/-! ## The device is back

Once the device answers and the clock is past the gate, the next tick connects, delivers what is
pending and polls. -/

/-- The same process, from now on with `plc` at the other end of the line. -/
def EdgeRuntime.facing (rt : EdgeRuntime σ τ ρ) (plc : Plc) : EdgeRuntime Plc τ ρ where
  server := rt.server
  model := rt.model
  store := rt.store
  bus := { modbus := rt.bus.modbus, env := plc, created := rt.bus.created, calls := rt.bus.calls }
  tickCount := rt.tickCount
  persistEveryNTicks := rt.persistEveryNTicks
  lastEventStats := rt.lastEventStats

/-- Facing a device that answers when an attempt is due, the link can come up. -/
theorem PlcReady.facing {clock : Nat → UInt64} {rt : EdgeRuntime (σ × List LinkEvent) τ ρ}
    (henabled : rt.bus.modbus.enabled = true) (hwaits : rt.bus.Waits) {plc : Plc}
    (hdue : (attemptsOf (rt.bus.trace ++ [.read (clock plc.readings)])).Due) :
    PlcReady clock plc.regs (rt.facing plc).bus := by
  refine ⟨henabled, .inr ?_, rfl⟩
  rw [backoffGate_fst]
  exact (hwaits.gate_open_iff _).mpr hdue

/-- **An outage ends.** A runtime was started and has run for any time in front of a line that did
whatever it liked. When an attempt to connect is due, thirty seconds after the last failure at the
latest, and the device answers, the edge is a scan cycle again: from there on it does what the
abstract controller does, whose registers are those of the plant and whose due nodes are the
commands not sent yet. -/
theorem outage_ends (lib : ModbusLib σ) (env : EventEnv τ ρ) (file : Option Bytes)
    (model : EdgeModel) (hmodel : LoadedAndWired file model)
    (hreal : ∀ node ∈ model.nodes, RealAddress node)
    (hapart : model.nodes.Pairwise RangesDisjoint) (host : Option Bytes) (port : UInt16) (s : σ)
    (rt : EdgeRuntime (σ × List LinkEvent) τ ρ)
    (hconfig : rt.model.nodes.map EdgeNode.config = model.nodes.map EdgeNode.config)
    (hnone : ∀ node ∈ rt.model.nodes, node.pendingWrite = false)
    (hbus : rt.bus = initialBus host port (s, [])) (henabled : rt.bus.modbus.enabled = true)
    (ops : List RunOp)
    (hclock : ClockBounded (run { modbus := recorded lib, events := env } ops rt).1.bus.trace)
    (clock : Nat → UInt64) (plc : Plc)
    (hdue : (attemptsOf ((run { modbus := recorded lib, events := env } ops rt).1.bus.trace ++
      [.read (clock plc.readings)])).Due) (later : List PlantOp) :
    let back := (run { modbus := recorded lib, events := env } ops rt).1.facing plc
    InService clock model.nodes (plantRun clock env later back) ∧
      controllerState (plantRun clock env later back) =
        ScanCycle.run (plantCells model.nodes) (later.filterMap (plantOp model.nodes))
          (controllerState back) := by
  intro back
  -- the back-off is kept from the start, whatever the network did to the run
  have hwaits : rt.bus.Waits := by
    rw [hbus]
    exact initialBus_waits host port s
  have hkept := (run_busStep { modbus := recorded lib, events := env } rt ops).enabled
  have hservice : InService clock model.nodes back := {
    config := (run_config { modbus := recorded lib, events := env } rt ops).trans hconfig
    ready := .facing (hkept.trans henabled) (run_waits lib env hwaits ops hclock) hdue
    writable := (run_pendingInv { modbus := recorded lib, events := env } hnone ops).writable }
  obtain ⟨hrefines, hstill⟩ :=
    plantRun_refines env (hmodel.addressed hreal hapart) later back hservice
  exact ⟨hstill, hrefines⟩

/-- The pump in front of a device that nobody answers for. -/
def pumpCutOff : EdgeRuntime (UInt64 × List LinkEvent) Unit Unit where
  server := none
  model := pumpModel
  store := { conn := { committed := {} }, env := () }
  bus := initialBus (some (lit "127.0.0.1")) 502 (1000, [])
  persistEveryNTicks := 1

/-- A tick that fails to connect; then a client starts the pump. -/
def pumpStranded : EdgeRuntime (UInt64 × List LinkEvent) Unit Unit :=
  (run { modbus := recorded unreachableDevice, events := (pumpLibs true).events }
    [.tick { evaluateMs := 1, persistMs := 1 }, .write 1 (some (.boolean true))] pumpCutOff).1

/-- What the stranded runtime did to the bus: one connection, refused, and the first back-off. -/
theorem pumpStranded_trace :
    pumpStranded.bus.trace = [.newTcp true, .connect false, .read 1000] := by decide +kernel

/-- The device is back 0.6 s later, and the next tick starts the pump. -/
theorem pump_outage_ends :
    pumpStranded.bus.modbus.connected = false ∧
      ∃ shown, (plantRun (fun _ => 601000) (pumpLibs true).events
          [.op (.tick { evaluateMs := 2, persistMs := 2 })]
          (pumpStranded.facing { regs := fun _ _ => 0 })).model.nodes[1]? = some shown ∧
        readEdgeNode shown = .boolean true := by
  have hclock : ClockBounded pumpStranded.bus.trace := by
    rw [pumpStranded_trace]
    intro t ht
    have hread : t = 1000 := by simpa using ht
    rw [hread]
    decide
  -- the clock is past the back-off
  have hdue : (attemptsOf (pumpStranded.bus.trace ++ [.read 601000])).Due := by
    rw [pumpStranded_trace]
    exact fun _ => ⟨1000, 601000, rfl, rfl, by decide⟩
  obtain ⟨hservice, hcycle⟩ := outage_ends unreachableDevice (pumpLibs true).events
    (some pumpTemplate) pumpModel pumpOnPlc_started (by decide +kernel) (by decide +kernel)
    (some (lit "127.0.0.1")) 502 1000 pumpCutOff rfl (by decide +kernel) rfl (by decide +kernel)
    [.tick { evaluateMs := 1, persistMs := 1 }, .write 1 (some (.boolean true))] hclock
    (fun _ => 601000) { regs := fun _ _ => 0 } hdue
    [.op (.tick { evaluateMs := 2, persistMs := 2 })]
  obtain ⟨shown, hshown, -, hread⟩ := hservice.controllerState_eq
    (List.getElem?_eq_getElem (by decide +kernel : 1 < pumpModel.nodes.length))
  refine ⟨by decide +kernel, shown, hshown, hread.symm.trans ?_⟩
  rw [hcycle]
  decide +kernel

end OpcuaEdge
