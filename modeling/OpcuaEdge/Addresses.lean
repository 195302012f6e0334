import OpcuaEdge.Numerals
import OpcuaEdge.UnitCache
import OpcuaEdge.Registers

/-!
# OpcuaEdge — Modbus addresses of the nodes

The loader takes any register but 0. A register below 40001 is never read and never written, and
one from 105537 on has an offset that does not fit into the 16 bits of the protocol. Whether the
nodes of an accepted template have addresses can be told from their lines (`addresses_real_iff`).
-/

namespace OpcuaEdge

open CStr CLoop

variable {ω σ : Type}

/-! ## One node

`register_offset` subtracts the base without a check, in 16 bits. The result is an address on the
line only if the register is at or above the base and the node's last register is still below the
top. -/

/-- The distance of the node's register from 40001. -/
def registerDistance (node : EdgeNode) : Int := (node.modbusRegister.toNat : Int) - 40001

/-- All registers of the node are among the 65536 that the protocol can address. -/
structure RealAddress (node : EdgeNode) : Prop where
  nonneg : 0 ≤ registerDistance node
  below : registerDistance node ≤ 65535
  fits : registerDistance node + registerWidthForNode node ≤ 65536

theorem registerWidthForNode_pos (node : EdgeNode) : 1 ≤ registerWidthForNode node := by
  unfold registerWidthForNode
  split_ifs <;> omega

/-- The condition on the node's numbers: its first register is 40001 or above, its last 105536 or
below. -/
theorem realAddress_iff (node : EdgeNode) :
    RealAddress node ↔ 40001 ≤ node.modbusRegister.toNat ∧
      node.modbusRegister.toNat + registerWidthForNode node ≤ 105537 := by
  have hwidth := registerWidthForNode_pos node
  constructor
  · rintro ⟨hlow, -, hfits⟩
    unfold registerDistance at hlow hfits
    omega
  · rintro ⟨hlow, hfits⟩
    constructor <;> unfold registerDistance <;> omega

instance (node : EdgeNode) : Decidable (RealAddress node) :=
  decidable_of_iff _ (realAddress_iff node).symm

theorem RealAddress.base_le {node : EdgeNode} (h : RealAddress node) :
    edgeModbusRegisterBase ≤ node.modbusRegister :=
  UInt32.le_iff_toNat_le.mpr ((realAddress_iff node).mp h).1

/-- At a real address the subtraction of the source does not wrap. -/
theorem RealAddress.registerOffset_eq {node : EdgeNode} (h : RealAddress node) :
    registerOffset node = registerDistance node := by
  have hbelow := h.below
  unfold registerDistance at hbelow ⊢
  rw [OpcuaEdge.registerOffset_eq h.base_le, if_pos]
  omega

/-- A writable node is rejected for its register alone. -/
theorem RealAddress.not_invalid {node : EdgeNode} (h : RealAddress node)
    (hwritable : node.writable = true) (lib : ModbusLib σ) (bus : Bus σ) :
    (edgeModbusWriteNode lib bus node).1 ≠ .invalid := by
  unfold edgeModbusWriteNode
  rw [if_neg (show ¬ node.writable = false by rw [hwritable]; decide),
    if_neg (UInt32.not_lt.mpr h.base_le)]
  dsimp only
  split_ifs <;> exact nofun

/-! ## A poll

A poll asks for a node's registers at its offset. The requests of a whole poll are real exactly
when the nodes' addresses are. -/

/-- A device that knows every unit and answers every read in full. -/
structure Responsive (d : UnitDevice ω) : Prop where
  selectable : ∀ unit, d.selectable unit = true
  answers : ∀ unit offset width dev, (d.readRegisters unit offset width dev).1.1 = (width : Int)

/-- The read of the node's registers, at its distance from 40001. -/
structure ReadsOwn (node : EdgeNode) (r : ReadRequest) : Prop where
  unit : r.unit = node.modbusUnit
  offset : r.offset = registerDistance node
  width : r.width = registerWidthForNode node

/-- A responsive device is asked for every node. -/
theorem PollTrace.reads_all {d : UnitDevice ω} (hd : Responsive d) {nodes nodes' : List EdgeNode}
    {reads : List ReadRequest} (h : PollTrace d nodes reads nodes')
    (hreal : ∀ node ∈ nodes, RealAddress node) : List.Forall₂ ReadsOwn nodes reads := by
  have hattempts : ∀ node, RealAddress node → d.Attempts node :=
    fun node hnode => ⟨hnode.base_le, hd.selectable _⟩
  induction h with
  | done => exact .nil
  | skipped hskip _ _ => exact absurd (hattempts _ (hreal _ List.mem_cons_self)) hskip
  | read _ hfor _ _ ih =>
    obtain ⟨hnode, hrest⟩ := List.forall_mem_cons.mp hreal
    exact .cons ⟨hfor.unit, hfor.offset.trans hnode.registerOffset_eq, hfor.width⟩ (ih hrest)
  | @failed node rest r _ hfor hfailed =>
    obtain ⟨dev, hanswer⟩ := hfor.answer
    have hcount := hd.answers r.unit r.offset r.width dev
    rw [hanswer] at hcount
    exact absurd hcount hfailed

/-- On an established link a poll sends one read for every node, in their order. -/
theorem edgeModbusPoll_reads_all {d : UnitDevice ω} (hd : Responsive d) {bus : Bus (UnitLine ω)}
    (henabled : bus.modbus.enabled = true) (hconnected : bus.modbus.connected = true)
    {nodes : List EdgeNode} (hreal : ∀ node ∈ nodes, RealAddress node) :
    ∃ reads, (edgeModbusPoll (unitLib d) bus nodes).2.1.env.requests = bus.env.requests ++ reads ∧
      List.Forall₂ ReadsOwn nodes reads := by
  have hup : ensureConnected (unitLib d)
      { bus with modbus.pollCount := bus.modbus.pollCount + 1 } =
        (.ok, { bus with modbus.pollCount := bus.modbus.pollCount + 1 }) := if_pos hconnected
  obtain ⟨reads, hreads, htrace⟩ := edgeModbusPoll_trace d nodes henabled (by rw [hup])
  rw [hup] at hreads
  exact ⟨reads, hreads, htrace.reads_all hd hreal⟩

/-! ## The lines of a node

The register and the width of a node come from two lines of its block, so the condition on the node
is one on these lines. -/

/-- The number of registers that the lines of a node ask for. -/
def lineWidth (entries : List (Bytes × Bytes)) : Nat :=
  if lastValue (lit "data_type") entries = some (lit "int32") ∨
      lastValue (lit "data_type") entries = some (lit "uint32") then 2
  else 1

/-- The register that is read from the last `modbus_register=` line. -/
def lineRegister (entries : List (Bytes × Bytes)) : Nat :=
  ((lastValue (lit "modbus_register") entries).map fun value => (strtoul value).value).getD 0

/-- A block whose register is one of 40001 to 105536, the last one for a single register only. -/
def AddressInRange (block : Block) : Prop :=
  40001 ≤ lineRegister block.entries ∧
    lineRegister block.entries + lineWidth block.entries ≤ 105537

instance (block : Block) : Decidable (AddressInRange block) := by
  unfold AddressInRange
  infer_instance

theorem parseDataType_wide_iff (value : Bytes) :
    ((parseDataType value .unset).2 = .int32 ∨ (parseDataType value .unset).2 = .uint32) ↔
      value = lit "int32" ∨ value = lit "uint32" := by
  have hnames : [lit "bool", lit "int16", lit "int32", lit "uint32", lit "double"].Nodup := by
    decide +kernel
  simp only [List.nodup_cons, List.mem_cons, List.not_mem_nil, or_false, not_or] at hnames
  -- only the third and the fourth comparison store a type of two registers
  unfold parseDataType
  split_ifs with hbool hint16 hint32 huint32 hdouble
  · subst hbool
    simp [hnames]
  · subst hint16
    simp [hnames]
  · simp [hint32]
  · simp [huint32]
  · subst hdouble
    simp [hint32, huint32]
  · simp [hint32, huint32]

/-- The width that the lines give is the width of the node. -/
theorem lineWidth_eq {block : Block} {node : EdgeNode}
    (hnode : nodeOf block.entries = node.unresolved) :
    lineWidth block.entries = registerWidthForNode node := by
  have htype : node.dataType =
      fieldOf (lit "data_type") (fun value => (parseDataType value .unset).2) .unset
        block.entries :=
    (congrArg EdgeNode.dataType hnode).symm
  unfold lineWidth registerWidthForNode
  refine if_congr ?_ rfl rfl
  rw [htype]
  unfold fieldOf
  cases lastValue (lit "data_type") block.entries with
  | none => simp
  | some value => simpa using (parseDataType_wide_iff value).symm

/-- The register that the lines give is the register of the node. -/
theorem lineRegister_eq {block : Block} {node : EdgeNode}
    (hnode : nodeOf block.entries = node.unresolved) (hne : node.modbusRegister ≠ 0) :
    lineRegister block.entries = node.modbusRegister.toNat := by
  have hregister : node.modbusRegister =
      fieldOf (lit "modbus_register") (fun value => (parseU32 value 0).2) 0 block.entries :=
    (congrArg EdgeNode.modbusRegister hnode).symm
  rw [hregister] at hne ⊢
  unfold lineRegister
  unfold fieldOf at hne ⊢
  -- a register other than 0 must come from a line, and from one that parse_u32 took
  cases hvalue : lastValue (lit "modbus_register") block.entries with
  | none =>
    rw [hvalue] at hne
    exact absurd rfl hne
  | some value =>
    rw [hvalue] at hne
    have hok : (parseU32 value 0).1 = .ok := by
      by_contra hbad
      exact hne (parseU32_kept hbad)
    exact ((boundsStrtoul_u32 value 0 _).mp ⟨hok, rfl⟩).1.value

/-- A node has a real address exactly when its lines say one. -/
theorem realAddress_iff_lines {block : Block} {node : EdgeNode}
    (hnode : nodeOf block.entries = node.unresolved) (hne : node.modbusRegister ≠ 0) :
    RealAddress node ↔ AddressInRange block := by
  rw [realAddress_iff, AddressInRange, lineRegister_eq hnode hne, lineWidth_eq hnode]

/-! ## Templates

A template is accepted whatever the addresses in it are, so whether they are real is a question to
its lines. -/

/-- What real addresses are for: all nodes are polled and none is refused a writeback, each at the
offset that belongs to its register. -/
structure AddressesReal (model : EdgeModel) : Prop where
  inRange : ∀ node ∈ model.nodes, RealAddress node
  polled : ∀ (ω : Type) (d : UnitDevice ω) (bus : Bus (UnitLine ω)), Responsive d →
    bus.modbus.enabled = true → bus.modbus.connected = true →
    ∃ reads,
      (edgeModbusPoll (unitLib d) bus model.nodes).2.1.env.requests = bus.env.requests ++ reads ∧
        List.Forall₂ ReadsOwn model.nodes reads
  written : ∀ (σ : Type) (lib : ModbusLib σ) (bus : Bus σ), ∀ node ∈ model.nodes,
    node.writable = true → (edgeModbusWriteNode lib bus node).1 ≠ .invalid
  offset : ∀ node ∈ model.nodes, registerOffset node = registerDistance node

/-- **Every accepted node has a real Modbus address** exactly where the registers of the template
are between 40001 and 105536, with room for both registers of a wide node. -/
theorem addresses_real_iff (bytes : Bytes) (hok : (edgeConfigLoad (some bytes) {}).1 = .ok) :
    AddressesReal (edgeConfigLoad (some bytes) {}).2 ↔
      ∀ block ∈ blocksOfKind .node (blocksOf (stringsOf bytes)).2, AddressInRange block := by
  have hbuilt := builtFrom_of_ok hok
  have hwf := edgeConfigLoad_wellFormed _ _ (edgeConfigLoad_of_ok hok)
  have hlines : (∀ node ∈ (edgeConfigLoad (some bytes) {}).2.nodes, RealAddress node) ↔
      ∀ block ∈ blocksOfKind .node (blocksOf (stringsOf bytes)).2, AddressInRange block :=
    forall_mem_iff_of_forall₂ (forall₂_of_map_eq hbuilt.nodes) fun block node hmem hnode =>
      realAddress_iff_lines hnode (hwf.nodes node hmem).register_ne
  -- what is left is about nodes: real addresses imply every part, and are the first part
  rw [← hlines]
  constructor
  · exact AddressesReal.inRange
  · intro hreal
    exact {
      inRange := hreal
      polled := fun _ _ _ hd henabled hconnected =>
        edgeModbusPoll_reads_all hd henabled hconnected hreal
      written := fun _ lib bus node hmem hwritable =>
        (hreal node hmem).not_invalid hwritable lib bus
      offset := fun node hmem => (hreal node hmem).registerOffset_eq }

theorem pumpTemplate_addresses : AddressesReal (edgeConfigLoad (some pumpTemplate) {}).2 :=
  (addresses_real_iff pumpTemplate pumpTemplate_accepted).mpr (by decide +kernel)

/-- Two writable nodes, one below the first register and one behind the last. -/
def strayTemplate : Bytes :=
  templateOf ["[plant]", "id=north", "name=North", "[asset]", "id=depot", "type=yard", "name=Depot",
    "[node]", "asset=depot", "id=gate", "name=Gate", "data_type=bool", "access=read_write",
    "source=modbus", "modbus_unit=1", "modbus_register=1",
    "[node]", "asset=depot", "id=lamp", "name=Lamp", "data_type=bool", "access=read_write",
    "source=modbus", "modbus_unit=1", "modbus_register=105537"]

/-- Both are accepted; the first is never written, and the second is sent to an offset that the
protocol cannot carry. -/
theorem stray_registers_accepted :
    (edgeConfigLoad (some strayTemplate) {}).1 = .ok ∧
      (edgeConfigLoad (some strayTemplate) {}).2.nodes.map
        (fun node => (edgeModbusWriteNode (unitLib gateway) gatewayBus node).1) = [.invalid, .ok] ∧
      (edgeConfigLoad (some strayTemplate) {}).2.nodes.map registerOffset = [-40000, 65536] ∧
      ¬ AddressesReal (edgeConfigLoad (some strayTemplate) {}).2 := by
  obtain ⟨hok, hstatus, hoffsets, hwritable⟩ :
      (edgeConfigLoad (some strayTemplate) {}).1 = .ok ∧
      (edgeConfigLoad (some strayTemplate) {}).2.nodes.map
        (fun node => (edgeModbusWriteNode (unitLib gateway) gatewayBus node).1) = [.invalid, .ok] ∧
      (edgeConfigLoad (some strayTemplate) {}).2.nodes.map registerOffset = [-40000, 65536] ∧
      ∀ node ∈ (edgeConfigLoad (some strayTemplate) {}).2.nodes, node.writable = true := by
    decide +kernel
  refine ⟨hok, hstatus, hoffsets, fun h => ?_⟩
  -- the first of the two writes is answered INVALID, which a real address would exclude
  have hrejected : EdgeStatus.invalid ∈ (edgeConfigLoad (some strayTemplate) {}).2.nodes.map
      fun node => (edgeModbusWriteNode (unitLib gateway) gatewayBus node).1 := by
    rw [hstatus]
    exact List.mem_cons_self
  obtain ⟨node, hmem, hinvalid⟩ := List.mem_map.mp hrejected
  exact h.written _ _ _ node hmem (hwritable node hmem) hinvalid

end OpcuaEdge
