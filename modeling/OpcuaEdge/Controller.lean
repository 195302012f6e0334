import OpcuaEdge.Lib.ScanCycle
import OpcuaEdge.AddressBits
import OpcuaEdge.ReadYourWrites

/-!
# OpcuaEdge — the runtime is a scan cycle

To a client the edge is a controller that mirrors the registers of the plant (`ScanCycle`): the
image of a node is what a read shows, a node is due from an acknowledged write on, and a tick is a
cycle. This module has the runtime run against a device that answers, whose registers the plant
may change between any two operations, and shows that it does what the abstract controller does
(`plantRun_refines`). What holds of scan cycles then holds of the code (`command_delivered`,
`tick_settles`).

The device is the one behind sixteen bits of address (`lineLib`). The template has to give every
node registers of its own that these sixteen bits can name (`Addressed`).
-/

namespace OpcuaEdge

open CStr CLoop ScanCycle

variable {σ τ ρ : Type}

/-! ## The abstract controller

The scan cycle of the library, over the registers of a plant: a cell for each node, its values on
one side and its words on the other. -/

/-- A state of the abstract controller. -/
abbrev PlantState := State Nat UaVariant (List (BitVec 16))

/-- A step of it. -/
abbrev PlantStep := Step Nat UaVariant (List (BitVec 16))

/-- How the values of the nodes go to their registers and come back. -/
def plantCells (nodes : List EdgeNode) : Cells Nat UaVariant (List (BitVec 16)) where
  accepts i v := nodes[i]?.any fun node => (writeEdgeNode node (some v)).1 = .good
  encode i v := (nodes[i]?.map fun node => (packNodeToRegisters (writeValue node v)).2).getD []
  decode i raw :=
    (nodes[i]?.map fun node => readEdgeNode (applyRegistersToNode node raw)).getD .other

/-- The registers of every node. -/
def plantRegisters (nodes : List EdgeNode) (regs : RegFile UInt16 (BitVec 16)) (i : Nat) :
    List (BitVec 16) := (nodes[i]?.map (nodeRegisters regs)).getD []

/-! ## The runtime in front of a plant

Two things happen to a runtime in service: its own calls, and the plant changing its registers. -/

/-- What happens to the process, or to the registers of the plant. -/
inductive PlantOp where
  | op (op : RunOp)
  | move (regs : RegFile UInt16 (BitVec 16))

/-- One of these. The plant may change any register at any time. -/
def plantStep (clock : Nat → UInt64) (env : EventEnv τ ρ) (rt : EdgeRuntime Plc τ ρ) :
    PlantOp → EdgeRuntime Plc τ ρ
  | .op op => (runStep { modbus := lineLib clock, events := env } rt op).1
  | .move regs => { rt with bus.env.regs := regs }

/-- A sequence of them. -/
def plantRun (clock : Nat → UInt64) (env : EventEnv τ ρ) (ops : List PlantOp)
    (rt : EdgeRuntime Plc τ ρ) : EdgeRuntime Plc τ ρ := ops.foldl (plantStep clock env) rt

/-- The controller that the runtime and the plant are. -/
def controllerState (rt : EdgeRuntime Plc τ ρ) : PlantState where
  remote := plantRegisters rt.model.nodes rt.bus.env.regs
  image i := (rt.model.nodes[i]?.map readEdgeNode).getD .other
  due i := (rt.model.nodes[i]?.map (·.pendingWrite)).getD false

/-- The step of the controller, if it is one. -/
def plantOp (nodes : List EdgeNode) : PlantOp → Option PlantStep
  | .op (.write i (some v)) => some (.write i v)
  | .op (.write _ none) => none
  | .op (.tick _) => some .cycle
  | .move regs => some (.move (plantRegisters nodes regs))

/-! ## Nodes of one configuration

The refinement reads only what a template says of a node, which no run changes. So it can be stated
at the nodes of the start. -/

/-- The registers of a plant are read by the nodes' configuration. -/
theorem plantRegisters_congr {nodes nodes' : List EdgeNode}
    (h : nodes'.map EdgeNode.config = nodes.map EdgeNode.config)
    (regs : RegFile UInt16 (BitVec 16)) :
    plantRegisters nodes' regs = plantRegisters nodes regs := by
  funext i
  unfold plantRegisters
  have hi := congrArg (·[i]?) h
  simp only [List.getElem?_map] at hi
  cases hget : nodes[i]? with
  | none =>
    rw [hget] at hi
    rw [Option.map_eq_none_iff.mp hi]
  | some node =>
    rw [hget] at hi
    obtain ⟨node', hget', hconfig⟩ := Option.map_eq_some_iff.mp hi
    rw [hget', Option.map_some, Option.map_some, nodeRegisters_congr regs hconfig]

/-- Whether a value is accepted depends on the configuration alone. -/
theorem writeEdgeNode_status_congr {a b : EdgeNode} (h : a.config = b.config)
    (value : Option UaVariant) : (writeEdgeNode a value).1 = (writeEdgeNode b value).1 := by
  refine EdgeNode.config_congr (fun node => (writeEdgeNode node value).1) (fun node => ?_) h
  unfold writeEdgeNode EdgeNode.config
  cases node.writable <;> cases value <;> first | rfl | skip
  rename_i v
  cases node.dataType <;> cases v <;> rfl

/-- What a read shows after a poll does not depend on the value before it. -/
theorem readEdgeNode_apply_congr {a b : EdgeNode} (h : a.config = b.config)
    (hset : b.dataType ≠ .unset) (raw : List (BitVec 16)) :
    readEdgeNode (applyRegistersToNode a raw) = readEdgeNode (applyRegistersToNode b raw) := by
  have htype : a.dataType = b.dataType := EdgeNode.config_congr _ (fun _ => rfl) h
  have hscale : effectiveScale a = effectiveScale b := EdgeNode.config_congr _ (fun _ => rfl) h
  unfold readEdgeNode setVariantFromEdgeValue applyRegistersToNode
  rw [htype, hscale]
  cases hcase : b.dataType with
  | unset => exact absurd hcase hset
  | bool | int16 | int32 | uint32 | double => simp

/-- The registers a due node packs into are those of the value it shows. -/
theorem packNodeToRegisters_shown {a b : EdgeNode} (h : a.config = b.config)
    (hset : b.dataType ≠ .unset) (hwritable : a.writable = true) :
    (packNodeToRegisters (writeValue b (readEdgeNode a))).2 = (packNodeToRegisters a).2 := by
  have htype : a.dataType = b.dataType := EdgeNode.config_congr _ (fun _ => rfl) h
  have hscale : a.scale = b.scale := EdgeNode.config_congr _ (fun _ => rfl) h
  have hwritable' : b.writable = true :=
    (EdgeNode.config_congr EdgeNode.writable (fun _ => rfl) h).symm.trans hwritable
  unfold readEdgeNode setVariantFromEdgeValue writeValue writeEdgeNode packNodeToRegisters
  rw [htype, hwritable']
  cases hcase : b.dataType with
  | unset => exact absurd hcase hset
  | bool => by_cases hb : a.value.b = 0 <;> simp [hb]
  | int16 | int32 | uint32 => simp
  | double => simp [effectiveScale, hscale]

/-! ## One step

A runtime in service stays in service, and each of its steps is the steps of the abstract
controller that `plantOp` names. -/

/-- The nodes have registers of their own that a request can name. -/
structure Addressed (nodes : List EdgeNode) : Prop where
  typed : ∀ node ∈ nodes, node.dataType ≠ .unset
  real : ∀ node ∈ nodes, RealAddress node
  apart : nodes.Pairwise RangesDisjoint

theorem Addressed.above {nodes : List EdgeNode} (h : Addressed nodes) :
    ∀ node ∈ nodes, edgeModbusRegisterBase ≤ node.modbusRegister :=
  fun node hmem => (h.real node hmem).base_le

/-- The runtime has these nodes, a device that answers, and only writable nodes are pending. -/
structure InService (clock : Nat → UInt64) (nodes : List EdgeNode) (rt : EdgeRuntime Plc τ ρ) :
    Prop where
  config : rt.model.nodes.map EdgeNode.config = nodes.map EdgeNode.config
  ready : PlcReady clock rt.bus.env.regs rt.bus
  writable : ∀ node ∈ rt.model.nodes, node.pendingWrite = true → node.writable = true

variable {clock : Nat → UInt64} {env : EventEnv τ ρ} {nodes : List EdgeNode}
  {rt : EdgeRuntime Plc τ ρ}

/-- A tick leaves the link ready. -/
theorem PlcReady.tick (h : PlcReady clock rt.bus.env.regs rt.bus)
    (hreal : ∀ node ∈ rt.model.nodes, RealAddress node) (tick : TickClock) :
    PlcReady clock
      (edgeRuntimeTick { modbus := lineLib clock, events := env } tick rt).1.bus.env.regs
      (edgeRuntimeTick { modbus := lineLib clock, events := env } tick rt).1.bus := by
  have hdrained := drainPendingWrites_plc clock h fun node hmem => (hreal node hmem).base_le
  have hpolled := (edgeModbusPoll_plc clock hdrained
    (drainPendingWrites (plcLib clock) rt.bus rt.model.nodes).elem).2
  rw [edgeRuntimeTick_line clock env tick hreal]
  exact ⟨hpolled.enabled, hpolled.link, rfl⟩

/-- The same nodes, by index. -/
theorem InService.node (h : InService clock nodes rt) {i : Nat} {node : EdgeNode}
    (hget : rt.model.nodes[i]? = some node) :
    ∃ origin, nodes[i]? = some origin ∧ node.config = origin.config :=
  getElem?_of_config h.config hget

/-- A runtime in service has no node beyond the table of the start. -/
theorem InService.none (h : InService clock nodes rt) {i : Nat}
    (hget : rt.model.nodes[i]? = none) : nodes[i]? = none := by
  have hlength := congrArg List.length h.config
  rw [List.length_map, List.length_map] at hlength
  rw [List.getElem?_eq_none_iff] at hget ⊢
  omega

theorem InService.addressed (h : InService clock nodes rt) (hnodes : Addressed nodes) :
    Addressed rt.model.nodes where
  typed := forall_of_config (fun _ => Iff.rfl) h.config hnodes.typed
  real := forall_of_config (P := RealAddress) realAddress_config h.config hnodes.real
  apart := pairwise_of_config (R := RangesDisjoint) (fun _ _ => Iff.rfl) h.config hnodes.apart

/-- What the drain leaves in the registers is what the cycle sends. -/
theorem plantRegisters_drained (h : InService clock nodes rt) (hnodes : Addressed nodes) :
    plantRegisters rt.model.nodes (rt.bus.env.regs.writeAll (dueSlots rt.model.nodes)) =
      sent (plantCells nodes) (controllerState rt) := by
  have haddressed := h.addressed hnodes
  funext i
  unfold sent controllerState plantCells plantRegisters
  dsimp only
  rcases Option.eq_none_or_eq_some rt.model.nodes[i]? with hget | ⟨node, hget⟩
  · simp [hget]
  · obtain ⟨origin, horigin, hconfig⟩ := h.node hget
    have hmem := List.mem_of_getElem? hget
    simp only [hget, horigin, Option.map_some, Option.getD_some]
    rw [nodeRegisters_writeAll _ haddressed.above haddressed.apart node hmem, drainedRegisters]
    unfold EdgeNode.due
    -- a node with no pending write is not among the due slots
    cases hpending : node.pendingWrite with
    | false => simp
    | true =>
      have hwritable := h.writable node hmem hpending
      rw [packNodeToRegisters_shown hconfig
        (hnodes.typed origin (List.mem_of_getElem? horigin)) hwritable]
      simp [hwritable]

variable (env) in
/-- **A tick is a cycle.** -/
theorem tick_refines (h : InService clock nodes rt) (hnodes : Addressed nodes) (tick : TickClock) :
    controllerState (edgeRuntimeTick { modbus := lineLib clock, events := env } tick rt).1 =
      cycled (plantCells nodes) (controllerState rt) := by
  have haddressed := h.addressed hnodes
  -- the addresses are real, so the sixteen bits name the registers of the template
  rw [edgeRuntimeTick_line clock env tick haddressed.real]
  obtain ⟨hshown, hregs⟩ := edgeRuntimeTick_plc env h.ready haddressed.above tick
  have hdrained := plantRegisters_drained h hnodes
  have hconfig := edgeRuntimeTick_config { modbus := plcLib clock, events := env } tick rt
  refine State.ext ?_ (funext fun i => ?_) (funext fun i => ?_)
  · show plantRegisters _ _ = sent _ _
    rw [hregs, plantRegisters_congr hconfig, hdrained]
  · show ((_ : Option EdgeNode).map readEdgeNode).getD .other = _
    rw [hshown, List.getElem?_map]
    show _ = (plantCells nodes).decode i (sent (plantCells nodes) (controllerState rt) i)
    rw [← hdrained]
    unfold plantCells plantRegisters
    dsimp only
    cases hget : rt.model.nodes[i]? with
    | none => rw [h.none hget]; rfl
    | some node =>
      obtain ⟨origin, horigin, hsame⟩ := h.node hget
      rw [horigin]
      exact readEdgeNode_apply_congr ((drainedNode_config node).trans hsame)
        (hnodes.typed origin (List.mem_of_getElem? horigin)) _
  · have hquiet := edgeRuntimeTick_pendingWrite { modbus := plcLib clock, events := env } tick
      h.writable
    show ((_ : Option EdgeNode).map _).getD false = false
    cases hget : (edgeRuntimeTick { modbus := plcLib clock, events := env } tick
        rt).1.model.nodes[i]? with
    | none => rfl
    | some node => exact hquiet node (List.mem_of_getElem? hget)

/-- A write is accepted by the runtime exactly when the abstract controller accepts it. -/
theorem InService.accepts (h : InService clock nodes rt) {i : Nat} {node : EdgeNode}
    (hget : rt.model.nodes[i]? = some node) (v : UaVariant) :
    (plantCells nodes).accepts i v = decide ((writeEdgeNode node (some v)).1 = .good) := by
  obtain ⟨origin, horigin, hconfig⟩ := h.node hget
  show nodes[i]?.any _ = _
  rw [horigin, writeEdgeNode_status_congr hconfig]
  rfl

/-- Overwriting one node changes what is seen of it. -/
theorem getD_map_set {β : Type} (f : EdgeNode → β) (d : β) {l : List EdgeNode} {i : Nat}
    (hi : i < l.length) (node : EdgeNode) :
    (fun j => ((l.set i node)[j]?.map f).getD d) =
      Function.update (fun j => (l[j]?.map f).getD d) i (f node) := by
  funext j
  rw [Function.update_apply, List.getElem?_set]
  by_cases hij : i = j
  · subst hij
    rw [if_pos rfl, if_pos hi, if_pos rfl]
    rfl
  · rw [if_neg hij, if_neg (Ne.symm hij)]

/-- **A client's write is a write to its cell**, and without a value it is nothing. -/
theorem write_refines (h : InService clock nodes rt) (i : Nat) (value : Option UaVariant) :
    controllerState (runStep { modbus := lineLib clock, events := env } rt (.write i value)).1 =
      (value.map (written (plantCells nodes) (controllerState rt) i)).getD
        (controllerState rt) := by
  have hconfig := runStep_config { modbus := lineLib clock, events := env } rt (.write i value)
  rcases Option.eq_none_or_eq_some rt.model.nodes[i]? with hget | ⟨node, hget⟩
  · simp only [runStep, hget]
    cases value with
    | none => rfl
    | some v =>
      have haccepts : (plantCells nodes).accepts i v = false := by
        show nodes[i]?.any _ = false
        rw [h.none hget]
        rfl
      exact (if_neg (by simp [haccepts])).symm
  · simp only [runStep, hget] at hconfig ⊢
    obtain ⟨hlt, hnode⟩ := List.getElem?_eq_some_iff.mp hget
    -- a write that is refused leaves its node, and so the whole state, as it was
    obtain ⟨v, rfl, -, hgood, hpending, hread⟩ | ⟨hrefused, hsame⟩ := writeEdgeNode_cases node value
    · have haccepts := h.accepts hget v
      rw [hgood, decide_eq_true rfl] at haccepts
      refine (State.ext ?_ ?_ ?_).trans (if_pos haccepts).symm
      · exact plantRegisters_congr hconfig _
      · refine (getD_map_set readEdgeNode .other hlt _).trans ?_
        rw [hread]
        rfl
      · refine (getD_map_set EdgeNode.pendingWrite false hlt _).trans ?_
        rw [hpending]
        rfl
    · have hset : rt.model.nodes.set i (writeEdgeNode node value).2 = rt.model.nodes := by
        rw [hsame, ← hnode, List.set_getElem_self]
      rw [hset]
      cases value with
      | none => rfl
      | some v =>
        refine (if_neg ?_).symm
        rw [h.accepts hget v]
        simpa using hrefused

/-! ## Runs

Both statements over a whole run, by induction on its steps. -/

/-- Only writable nodes become pending. -/
theorem runStep_writable (libs : Libs σ τ ρ) {rt : EdgeRuntime σ τ ρ}
    (h : ∀ node ∈ rt.model.nodes, node.pendingWrite = true → node.writable = true) (op : RunOp) :
    ∀ node ∈ (runStep libs rt op).1.model.nodes,
      node.pendingWrite = true → node.writable = true := by
  -- a tick leaves nothing pending, and the callback marks writable nodes only
  cases op with
  | tick tick =>
    intro node hmem hpending
    rw [edgeRuntimeTick_pendingWrite libs tick h node hmem] at hpending
    cases hpending
  | write i value =>
    obtain hstep | ⟨_, _, hstep⟩ | ⟨_, _, _, -, hwritable, hsame, -, -, hstep⟩ :=
      runStep_write_cases libs rt i value
    · rw [hstep]; exact h
    · rw [hstep]; exact h
    · rw [hstep]
      intro other hmem hpending
      rcases List.mem_or_eq_of_mem_set hmem with hold | rfl
      · exact h other hold hpending
      · exact (EdgeNode.config_congr EdgeNode.writable (fun _ => rfl) hsame).trans hwritable

variable (env) in
theorem plantStep_inService (h : InService clock nodes rt) (hnodes : Addressed nodes)
    (op : PlantOp) : InService clock nodes (plantStep clock env rt op) := by
  cases op with
  | move regs =>
    refine ⟨h.config, ⟨h.ready.enabled, h.ready.link.imp id fun hgate => ?_, rfl⟩, h.writable⟩
    -- the gate does not depend on the registers
    rw [backoffGate_fst] at hgate ⊢
    exact hgate
  | op op =>
    have hconfig := (runStep_config { modbus := lineLib clock, events := env } rt op).trans h.config
    have hwritable := runStep_writable { modbus := lineLib clock, events := env } h.writable op
    cases op with
    | tick tick =>
      exact ⟨hconfig, h.ready.tick (h.addressed hnodes).real tick, hwritable⟩
    | write i value =>
      refine ⟨hconfig, ?_, hwritable⟩
      show PlcReady clock
        (runStep { modbus := lineLib clock, events := env } rt (.write i value)).1.bus.env.regs
        (runStep { modbus := lineLib clock, events := env } rt (.write i value)).1.bus
      obtain hstep | ⟨_, _, hstep⟩ | ⟨_, _, _, -, -, -, -, -, hstep⟩ :=
        runStep_write_cases { modbus := lineLib clock, events := env } rt i value
      all_goals
        rw [hstep]
        exact h.ready

/-- A step is the steps of the abstract controller that it stands for. -/
theorem plantStep_refines (h : InService clock nodes rt) (hnodes : Addressed nodes)
    (op : PlantOp) :
    controllerState (plantStep clock env rt op) =
      ScanCycle.run (plantCells nodes) (plantOp nodes op).toList (controllerState rt) := by
  cases op with
  | move regs =>
    refine State.ext ?_ rfl rfl
    exact plantRegisters_congr h.config regs
  | op op =>
    cases op with
    | tick tick => exact tick_refines env h hnodes tick
    | write i value =>
      refine (write_refines h i value).trans ?_
      cases value <;> rfl

variable (env) in
/-- **The runtime refines the scan cycle.** -/
theorem plantRun_refines (hnodes : Addressed nodes) (ops : List PlantOp) :
    ∀ rt : EdgeRuntime Plc τ ρ, InService clock nodes rt →
      controllerState (plantRun clock env ops rt) =
          ScanCycle.run (plantCells nodes) (ops.filterMap (plantOp nodes)) (controllerState rt) ∧
        InService clock nodes (plantRun clock env ops rt) := by
  induction ops with
  | nil => intro rt h; exact ⟨rfl, h⟩
  | cons op rest ih =>
    intro rt h
    obtain ⟨hrest, hservice⟩ := ih (plantStep clock env rt op) (plantStep_inService env h hnodes op)
    refine ⟨hrest.trans ?_, hservice⟩
    rw [plantStep_refines h hnodes op, List.filterMap_cons]
    cases plantOp nodes op with
    | none => rfl
    | some step => rfl

/-- The nodes of a model that was loaded and wired, where the template gives each of them registers
of its own among those that a request can name. -/
theorem LoadedAndWired.addressed {file : Option Bytes} {model : EdgeModel}
    (h : LoadedAndWired file model)
    (hreal : ∀ node ∈ model.nodes, RealAddress node)
    (hapart : model.nodes.Pairwise RangesDisjoint) : Addressed model.nodes :=
  ⟨fun node hmem => (h.wired.nodes node hmem).dataType_set, hreal, hapart⟩

/-- **To clients and the plant the edge is a scan cycle.** In front of a device that answers, and
however the plant moves its registers, every run of the runtime is a run of the abstract
controller: what reads show, which nodes are due and what the registers of the nodes hold. -/
theorem runtime_is_scan_cycle (clock : Nat → UInt64) (env : EventEnv τ ρ) (file : Option Bytes)
    (model : EdgeModel) (hmodel : LoadedAndWired file model)
    (hreal : ∀ node ∈ model.nodes, RealAddress node)
    (hapart : model.nodes.Pairwise RangesDisjoint) (rt : EdgeRuntime Plc τ ρ)
    (hrt : InService clock model.nodes rt) (ops : List PlantOp) :
    controllerState (plantRun clock env ops rt) =
      ScanCycle.run (plantCells model.nodes) (ops.filterMap (plantOp model.nodes))
        (controllerState rt) :=
  (plantRun_refines env (hmodel.addressed hreal hapart) ops rt hrt).1

theorem pumpOnPlc_inService :
    InService (fun _ => 0) pumpOnPlc.model.nodes pumpOnPlc :=
  ⟨rfl, ⟨by decide +kernel, .inr (by decide +kernel), rfl⟩, by decide +kernel⟩

/-- A client starts the pump, and between two ticks all registers move. -/
def pumpStirred : List PlantOp :=
  [.op (.write 1 (some (.boolean true))), .op (.tick { evaluateMs := 1, persistMs := 1 }),
    .move fun _ _ => 850, .op (.tick { evaluateMs := 2, persistMs := 2 })]

theorem pump_is_scan_cycle :
    controllerState (plantRun (fun _ => 0) (pumpLibs true).events pumpStirred pumpOnPlc) =
      ScanCycle.run (plantCells pumpOnPlc.model.nodes)
        (pumpStirred.filterMap (plantOp pumpOnPlc.model.nodes)) (controllerState pumpOnPlc) :=
  runtime_is_scan_cycle (fun _ => 0) (pumpLibs true).events (some pumpTemplate) pumpOnPlc.model
    pumpOnPlc_started (by decide +kernel) (by decide +kernel) pumpOnPlc pumpOnPlc_inService
    pumpStirred

/-- No tick and no write to node `i`. -/
def PlantOp.Spares (i : Nat) : PlantOp → Prop
  | .op (.write j _) => j ≠ i
  | .op (.tick _) => False
  | .move _ => True

instance (i : Nat) (op : PlantOp) : Decidable (op.Spares i) :=
  match op with
  | .op (.write j _) => inferInstanceAs (Decidable (j ≠ i))
  | .op (.tick _) => inferInstanceAs (Decidable False)
  | .move _ => inferInstanceAs (Decidable True)

/-- A step that spares a node stands for steps that leave its cell. -/
theorem PlantOp.Spares.leaves {i : Nat} {op : PlantOp} (h : op.Spares i) (nodes : List EdgeNode) :
    ∀ step ∈ plantOp nodes op, step.Leaves (plantCells nodes) i := by
  intro step hstep
  cases op with
  | move regs =>
    cases hstep
    exact trivial
  | op op =>
    cases op with
    | tick tick => exact h.elim
    | write j value =>
      cases value with
      | none => cases hstep
      | some v =>
        cases hstep
        exact fun hij => absurd hij h

/-- What the controller sees of a node. -/
theorem InService.controllerState_eq (h : InService clock nodes rt) {i : Nat} {node : EdgeNode}
    (hget : nodes[i]? = some node) : ∃ shown, rt.model.nodes[i]? = some shown ∧
      (controllerState rt).remote i = nodeRegisters rt.bus.env.regs node ∧
      (controllerState rt).image i = readEdgeNode shown := by
  rcases Option.eq_none_or_eq_some rt.model.nodes[i]? with hnone | ⟨shown, hshown⟩
  · rw [h.none hnone] at hget
    cases hget
  · refine ⟨shown, hshown, ?_, ?_⟩
    · show plantRegisters _ _ i = _
      rw [plantRegisters_congr h.config, plantRegisters, hget]
      rfl
    · show (rt.model.nodes[i]?.map readEdgeNode).getD .other = _
      rw [hshown]
      rfl

/-- A boolean or an integer that was written comes back from the registers. -/
theorem readEdgeNode_written {node : EdgeNode} {v : UaVariant}
    (hgood : (writeEdgeNode node (some v)).1 = .good) (hset : node.dataType ≠ .unset)
    (hdouble : node.dataType ≠ .double) :
    readEdgeNode (applyRegistersToNode node (packNodeToRegisters (writeValue node v)).2) = v := by
  have hconfig : (writeValue node v).config = node.config := writeEdgeNode_config node _
  have htype : (writeValue node v).dataType = node.dataType :=
    EdgeNode.config_congr EdgeNode.dataType (fun _ => rfl) hconfig
  rw [← htype] at hset hdouble
  obtain ⟨w, hw, -, -, -, hvalue⟩ | ⟨hrefused, -⟩ := writeEdgeNode_cases node (some v)
  · cases hw
    exact (readEdgeNode_decode_pack hconfig.symm hset hdouble).trans hvalue
  · exact absurd hgood hrefused

/-- **A command that was acknowledged is what the plant holds after the next tick**, whatever the
plant did in the meantime and whatever clients wrote to other nodes. -/
theorem command_delivered (clock : Nat → UInt64) (env : EventEnv τ ρ) (file : Option Bytes)
    (model : EdgeModel) (hmodel : LoadedAndWired file model)
    (hreal : ∀ node ∈ model.nodes, RealAddress node)
    (hapart : model.nodes.Pairwise RangesDisjoint) (rt : EdgeRuntime Plc τ ρ)
    (hrt : InService clock model.nodes rt) (before between : List PlantOp) (i : Nat)
    (node : EdgeNode) (hget : model.nodes[i]? = some node) (v : UaVariant)
    (hgood : (writeEdgeNode node (some v)).1 = .good)
    (hbetween : ∀ op ∈ between, op.Spares i) (tick : TickClock) :
    let done := plantRun clock env
      (before ++ (.op (.write i (some v)) :: between ++ [.op (.tick tick)])) rt
    nodeRegisters done.bus.env.regs node = (packNodeToRegisters (writeValue node v)).2 ∧
      ∃ shown, done.model.nodes[i]? = some shown ∧
        readEdgeNode shown =
          readEdgeNode (applyRegistersToNode node (packNodeToRegisters (writeValue node v)).2) ∧
        (node.dataType ≠ .double → readEdgeNode shown = v) := by
  intro done
  have hnodes := hmodel.addressed hreal hapart
  obtain ⟨-, hbefore⟩ := plantRun_refines env hnodes before rt hrt
  obtain ⟨hdone, hservice⟩ := plantRun_refines env hnodes
    (.op (.write i (some v)) :: between ++ [.op (.tick tick)]) _ hbefore
  have hsame : done = plantRun clock env (.op (.write i (some v)) :: between ++ [.op (.tick tick)])
      (plantRun clock env before rt) := List.foldl_append
  rw [← hsame] at hdone hservice
  -- the run of the controller is a write, steps that leave the cell alone, and a cycle
  have haccepts : (plantCells model.nodes).accepts i v = true := by
    show model.nodes[i]?.any _ = true
    rw [hget]
    exact decide_eq_true hgood
  have hleaves : ∀ step ∈ between.filterMap (plantOp model.nodes),
      step.Leaves (plantCells model.nodes) i := by
    intro step hstep
    obtain ⟨op, hop, hstep⟩ := List.mem_filterMap.mp hstep
    exact (hbetween op hop).leaves model.nodes step hstep
  have hsteps : (PlantOp.op (.write i (some v)) :: between ++ [PlantOp.op (.tick tick)]).filterMap
      (plantOp model.nodes) =
        .write i v :: between.filterMap (plantOp model.nodes) ++ [.cycle] := by
    rw [List.filterMap_append]
    rfl
  obtain ⟨hremote, himage⟩ := run_delivers (s := controllerState (plantRun clock env before rt))
    haccepts hleaves
  rw [← hsteps, ← hdone] at hremote himage
  have hencode : (plantCells model.nodes).encode i v =
      (packNodeToRegisters (writeValue node v)).2 := by
    show (model.nodes[i]?.map _).getD [] = _
    rw [hget]
    rfl
  obtain ⟨shown, hshown, hregisters, hread⟩ := hservice.controllerState_eq hget
  rw [hencode] at hremote himage
  have hdecode : (plantCells model.nodes).decode i (packNodeToRegisters (writeValue node v)).2 =
      readEdgeNode (applyRegistersToNode node (packNodeToRegisters (writeValue node v)).2) := by
    show (model.nodes[i]?.map _).getD UaVariant.other = _
    rw [hget]
    rfl
  have hback := (hread.symm.trans himage).trans hdecode
  exact ⟨hregisters.symm.trans hremote, shown, hshown, hback, fun hdouble => hback.trans
    (readEdgeNode_written hgood (hnodes.typed node (List.mem_of_getElem? hget)) hdouble)⟩

/-- The registers move after the pump was started, and before the tick. -/
theorem pump_command_delivered :
    ∃ shown, (plantRun (fun _ => 0) (pumpLibs true).events
        ([] ++ (.op (.write 1 (some (.boolean true))) :: [.move fun _ _ => 850] ++
          [.op (.tick { evaluateMs := 1, persistMs := 1 })])) pumpOnPlc).model.nodes[1]? =
        some shown ∧ readEdgeNode shown = .boolean true := by
  obtain ⟨-, shown, hshown, -, hread⟩ := command_delivered (fun _ => 0) (pumpLibs true).events
    (some pumpTemplate) pumpOnPlc.model pumpOnPlc_started (by decide +kernel) (by decide +kernel)
    pumpOnPlc pumpOnPlc_inService [] [.move fun _ _ => 850] 1
    (pumpOnPlc.model.nodes.get ⟨1, by decide +kernel⟩) (List.getElem?_eq_getElem _) (.boolean true)
    (by decide +kernel) (by decide +kernel) { evaluateMs := 1, persistMs := 1 }
  exact ⟨shown, hshown, hread (by decide +kernel)⟩

/-- **The edge does not stir the plant up**: a tick right after a tick sends nothing and shows
nothing new. -/
theorem tick_settles (hnodes : Addressed nodes) (h : InService clock nodes rt)
    (ops : List PlantOp) (tick tick' : TickClock) :
    controllerState (plantRun clock env (ops ++ [.op (.tick tick), .op (.tick tick')]) rt) =
      controllerState (plantRun clock env (ops ++ [.op (.tick tick)]) rt) := by
  rw [(plantRun_refines env hnodes _ rt h).1, (plantRun_refines env hnodes _ rt h).1,
    List.filterMap_append, List.filterMap_append]
  unfold ScanCycle.run
  rw [List.foldl_append, List.foldl_append]
  exact cycle_cycle

end OpcuaEdge
