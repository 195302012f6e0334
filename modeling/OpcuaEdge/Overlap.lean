import OpcuaEdge.AddressBits
import OpcuaEdge.WellFormed

/-!
# OpcuaEdge — nodes that share registers

The loader does not look at register addresses, so whether the nodes of a template keep out of
each other's registers is up to the template. A node takes one register, or two if it is `int32`
or `uint32`; the ranges of two nodes of one unit overlap exactly when they start at the same
register or when one starts at the second register of the other (`rangesDisjoint_iff`).

Registers that the template keeps apart can still be one register of the device, since a request
carries sixteen bits of the offset. Whether writing one node shows in a poll of another is decided
on the line (`writesIsolated_iff`).
-/

namespace OpcuaEdge

open CStr CLoop

/-- The data type takes two registers. -/
def EdgeNode.isWide (node : EdgeNode) : Prop := node.dataType = .int32 ∨ node.dataType = .uint32

instance (node : EdgeNode) : Decidable node.isWide := inferInstanceAs (Decidable (_ ∨ _))

/-- Same unit, and either the same start or a start right behind that of a wide node. -/
def StartsCollide (a b : EdgeNode) : Prop :=
  a.modbusUnit = b.modbusUnit ∧
    (a.modbusRegister = b.modbusRegister ∨
      a.isWide ∧ b.modbusRegister.toNat = a.modbusRegister.toNat + 1 ∨
      b.isWide ∧ a.modbusRegister.toNat = b.modbusRegister.toNat + 1)

theorem registerWidthForNode_eq (node : EdgeNode) :
    registerWidthForNode node = if node.isWide then 2 else 1 := rfl

/-- Two nodes have a register in common exactly if they start at the same one, or one right behind
the start of a wide one. -/
theorem rangesDisjoint_iff (a b : EdgeNode) : RangesDisjoint a b ↔ ¬ StartsCollide a b := by
  unfold RangesDisjoint StartsCollide
  rw [not_and, registerWidthForNode_eq, registerWidthForNode_eq, ← UInt32.toNat_inj]
  refine forall_congr' fun _ => ?_
  by_cases ha : a.isWide <;> by_cases hb : b.isWide <;>
    simp only [ha, hb, if_true, if_false, true_and, false_and, or_false, false_or] <;> omega

/-! ## Writing one node and polling another

A poll shows the write of another node if the two have a register in common on the line. It takes
that the write is sent, that the poll gets to the node, and that what the node shows depends on its
register at all. -/

/-- On the line the two nodes have a register in common. -/
def SharesOnLine (a b : EdgeNode) : Prop :=
  a.modbusUnit = b.modbusUnit ∧
    lineAddress (registerOffset b) < lineAddress (registerOffset a) + registerWidthForNode a ∧
    lineAddress (registerOffset a) < lineAddress (registerOffset b) + registerWidthForNode b

instance : DecidableRel SharesOnLine := fun _ _ => inferInstanceAs (Decidable (_ ∧ _ ∧ _))

/-- Two nodes share no register on the line exactly if the range that is written is apart from the
range that is read. -/
theorem not_sharesOnLine_iff (a b : EdgeNode) :
    ¬ SharesOnLine a b ↔
      (lineSlot a).Apart b.modbusUnit (lineAddress (registerOffset b))
        (registerWidthForNode b) := by
  unfold SharesOnLine RegFile.Slot.Apart
  rw [length_lineSlot, not_and]
  show (a.modbusUnit = b.modbusUnit → _) ↔ (a.modbusUnit = b.modbusUnit →
    lineAddress (registerOffset a) + _ ≤ _ ∨ _ ≤ lineAddress (registerOffset a))
  refine forall_congr' fun _ => ?_
  omega

/-- Registers that are 65536 apart are one register on the line. -/
example : SharesOnLine { dataType := .bool, modbusUnit := 1, modbusRegister := 40001 }
    { dataType := .bool, modbusUnit := 1, modbusRegister := 105537 } := by decide

/-- For real addresses the line and the template agree on what two nodes share. -/
theorem sharesOnLine_iff_of_real {a b : EdgeNode} (ha : RealAddress a) (hb : RealAddress b) :
    SharesOnLine a b ↔ ¬ RangesDisjoint a b := by
  unfold SharesOnLine RangesDisjoint
  rw [ha.lineAddress_eq, hb.lineAddress_eq, ha.registerOffset_eq, hb.registerOffset_eq,
    Classical.not_imp]
  unfold registerDistance
  refine and_congr_right fun _ => ?_
  omega

/-- The node shows a NaN, whatever its register holds. -/
def EdgeNode.ShowsNan (node : EdgeNode) : Prop := node.dataType = .double ∧ node.scale = .nan

instance (node : EdgeNode) : Decidable node.ShowsNan := inferInstanceAs (Decidable (_ ∧ _))

/-- Writing `a` can change what the next poll shows of node `j`, which is `b`. -/
structure Disturbs (nodes : List EdgeNode) (a : EdgeNode) (j : Nat) (b : EdgeNode) : Prop where
  sent : a.Sent
  base : edgeModbusRegisterBase ≤ b.modbusRegister
  reached : PollReaches nodes j
  shared : SharesOnLine a b
  shown : ¬ b.ShowsNan

/-- The template alone decides about it, not the values of the nodes. -/
theorem Disturbs.of_config {nodes nodes' : List EdgeNode} {a a' b b' : EdgeNode} {j : Nat}
    (h : Disturbs nodes' a' j b')
    (hnodes : nodes'.map EdgeNode.config = nodes.map EdgeNode.config)
    (ha : a'.config = a.config) (hb : b'.config = b.config) : Disturbs nodes a j b where
  sent := (EdgeNode.config_congr EdgeNode.Sent (fun _ => rfl) ha).mp h.sent
  base :=
    (EdgeNode.config_congr (fun node => edgeModbusRegisterBase ≤ node.modbusRegister)
      (fun _ => rfl) hb).mp h.base
  -- which nodes a poll reaches depends on their configuration, like all the rest
  reached := by
    have htake : (nodes.take (j + 1)).map EdgeNode.config =
        (nodes'.take (j + 1)).map EdgeNode.config := by
      rw [List.map_take, List.map_take, hnodes]
    exact forall_of_config
      (P := fun node => edgeModbusRegisterBase ≤ node.modbusRegister → node.OnLine)
      (fun _ => Iff.rfl) htake h.reached
  shared := by
    have hfirst : SharesOnLine a' b' = SharesOnLine a b' :=
      EdgeNode.config_congr (SharesOnLine · b') (fun _ => rfl) ha
    have hsecond : SharesOnLine a b' = SharesOnLine a b :=
      EdgeNode.config_congr (SharesOnLine a) (fun _ => rfl) hb
    exact (hfirst.trans hsecond).mp h.shared
  shown := fun hnan =>
    h.shown ((EdgeNode.config_congr EdgeNode.ShowsNan (fun _ => rfl) hb).mpr hnan)

/-- Writing node `i`, whatever its value, leaves what a poll decodes for any other node. -/
def WritesIsolated (model : EdgeModel) : Prop :=
  ∀ (clock : Nat → UInt64) (regs : RegFile UInt16 (BitVec 16)) (bus : Bus Plc),
    LineReady clock regs bus →
      ∀ nodes : List EdgeNode, nodes.map EdgeNode.config = model.nodes.map EdgeNode.config →
        ∀ (i j : Nat) (a : EdgeNode), i ≠ j → nodes[i]? = some a →
          (edgeModbusPoll (lineLib clock) (edgeModbusWriteNode (lineLib clock) bus a).2
              nodes).2.2[j]? =
            (edgeModbusPoll (lineLib clock) bus nodes).2.2[j]?

/-! ### Nothing shows

If one of the conditions fails, the poll after the write decodes what it decoded before. -/

/-- A node that always shows a NaN shows it for all registers. -/
theorem applyRegistersToNode_nan {node : EdgeNode} (h : node.ShowsNan)
    (raw raw' : List (BitVec 16)) :
    applyRegistersToNode node raw = applyRegistersToNode node raw' := by
  have hscale : effectiveScale node = .nan := by
    unfold effectiveScale
    rw [h.2]
    rfl
  have hproduct (word : BitVec 16) : (Double.ofInt word.toInt).mul .nan = .nan := rfl
  unfold applyRegistersToNode
  simp only [h.1, hscale, hproduct]

/-- Where a condition fails, the node shows after the write what it showed before .. -/
theorem linePolled_written {regs : RegFile UInt16 (BitVec 16)} {nodes : List EdgeNode} {j : Nat}
    {a b : EdgeNode} (hb : nodes[j]? = some b) (h : ¬ Disturbs nodes a j b) :
    (linePolled (lineWritten regs a) nodes)[j]? = (linePolled regs nodes)[j]? := by
  by_cases hread : PollReaches nodes j ∧ edgeModbusRegisterBase ≤ b.modbusRegister
  · obtain ⟨hreached, hbase⟩ := hread
    rw [linePolled_reached _ hb hreached hbase, linePolled_reached _ hb hreached hbase]
    unfold lineWritten
    split_ifs with hsent
    · by_cases hshared : SharesOnLine a b
      · -- the only way left is that the node shows a NaN either way
        have hshown : b.ShowsNan := by
          by_contra hshown
          exact h ⟨hsent, hbase, hreached, hshared, hshown⟩
        rw [applyRegistersToNode_nan hshown]
      · have hsame : lineRegisters (regs.write (lineSlot a)) b = lineRegisters regs b :=
          RegFile.read_write_of_apart regs ((not_sharesOnLine_iff a b).mp hshared)
        rw [hsame]
    · rfl
  · have hkept : PollReaches nodes j → ¬ edgeModbusRegisterBase ≤ b.modbusRegister :=
      fun hreached hbase => hread ⟨hreached, hbase⟩
    rw [linePolled_kept _ hb hkept, linePolled_kept _ hb hkept]

/-- .. and if one fails for all pairs, writes are isolated. -/
theorem writesIsolated_of_not_disturbs {model : EdgeModel}
    (h : ∀ (i j : Nat) (a b : EdgeNode), i ≠ j → model.nodes[i]? = some a →
      model.nodes[j]? = some b → ¬ Disturbs model.nodes a j b) : WritesIsolated model := by
  intro clock regs bus hready nodes hconfig i j a hij ha
  rw [edgeModbusPoll_line (edgeModbusWriteNode_line hready a), edgeModbusPoll_line hready]
  cases hb : nodes[j]? with
  | none =>
    rw [List.getElem?_eq_none_iff] at hb
    rw [List.getElem?_eq_none (by rw [length_linePolled]; exact hb),
      List.getElem?_eq_none (by rw [length_linePolled]; exact hb)]
  | some b =>
    -- the nodes have other values than those of the model, and the same configuration
    obtain ⟨a', ha', haconfig⟩ := getElem?_of_config hconfig ha
    obtain ⟨b', hb', hbconfig⟩ := getElem?_of_config hconfig hb
    refine linePolled_written hb fun hdisturbs => ?_
    exact h i j a' b' hij ha' hb' (hdisturbs.of_config hconfig haconfig hbconfig)

/-! ### A write shows

On a device whose registers are all one, the write of a zero changes every node that reads the
register. -/

/-- The zero of every data type packs into zeros. -/
theorem packNodeToRegisters_zero {node : EdgeNode} (hvalue : node.value = {}) :
    ∀ word ∈ (packNodeToRegisters node).2, word = 0 := by
  unfold packNodeToRegisters
  cases htype : node.dataType with
  | bool | int16 | int32 | uint32 | unset => simp [hvalue]
  | double =>
    -- a quotient of zero, or none at all
    have hround : BitVec.ofInt 16
        (Double.toLong (if (0 : ℚ) ≤ 0 then 0 + 1 / 2 else 0 - 1 / 2)) = 0 := by decide +kernel
    have hquotient : node.value.d.div (effectiveScale node) = .fin 0 ∨
        node.value.d.div (effectiveScale node) = .nan := by
      rw [hvalue]
      cases effectiveScale node with
      | fin q =>
        by_cases hq : q = 0
        · exact .inr (by rw [Double.div, if_pos hq, if_pos rfl])
        · exact .inl (by rw [Double.div, if_neg hq, zero_div])
      | inf neg => exact .inl rfl
      | nan => exact .inr rfl
    intro word hword
    rcases hquotient with hzero | hnan
    · simp only [hzero, hround, List.mem_singleton] at hword
      exact hword
    · simp only [hnan, List.mem_singleton] at hword
      exact hword

theorem eq_singleton_zero {raw : List (BitVec 16)} (hlength : raw.length = 1) {k : Nat}
    (hzero : raw[k]? = some 0) : raw = [0] := by
  obtain ⟨word, rfl⟩ := List.length_eq_one_iff.mp hlength
  have hk : k = 0 := by
    obtain ⟨hk, -⟩ := List.getElem?_eq_some_iff.mp hzero
    simpa using hk
  subst hk
  simpa using hzero

/-- Zero and one are two multiples of a scale that is a number. -/
theorem zero_mul_scale_ne {node : EdgeNode} (hscale : node.scale ≠ .nan) :
    (Double.ofInt 0).mul (effectiveScale node) ≠ (Double.ofInt 1).mul (effectiveScale node) := by
  cases hcase : effectiveScale node with
  | fin q =>
    have hq := effectiveScale_ne_zero node hcase
    intro hsame
    simp only [Double.ofInt, Double.mul, Double.fin.injEq] at hsame
    exact hq (by simpa using hsame.symm)
  | inf neg => simp [Double.ofInt, Double.mul]
  | nan =>
    unfold effectiveScale at hcase
    split_ifs at hcase
    exact absurd hcase hscale

/-- A zero among the registers shows, where they were ones. -/
theorem applyRegistersToNode_ne {node : EdgeNode} (hset : node.dataType ≠ .unset)
    (hshown : ¬ node.ShowsNan) {raw : List (BitVec 16)}
    (hlength : raw.length = registerWidthForNode node) {k : Nat} (hzero : raw[k]? = some 0) :
    applyRegistersToNode node raw ≠
      applyRegistersToNode node (List.replicate (registerWidthForNode node) 1) := by
  intro hsame
  have hvalue := congrArg EdgeNode.value hsame
  unfold registerWidthForNode at hlength hvalue
  unfold applyRegistersToNode at hvalue
  cases htype : node.dataType with
  | unset => exact hset htype
  | bool | int16 =>
    rw [htype, if_neg (by decide)] at hlength
    simp [htype, eq_singleton_zero hlength hzero] at hvalue
  | int32 | uint32 =>
    -- both words can be told from the value, and one of them is a zero
    rw [htype, if_pos (by decide)] at hlength
    obtain ⟨hi, lo, rfl⟩ := List.length_eq_two.mp hlength
    have hwords : joinWords hi lo = joinWords 1 1 := by simpa [htype] using hvalue
    have hhi : hi = 1 := by rw [← joinWords_high hi lo, hwords, joinWords_high]
    have hlo : lo = 1 := by rw [← joinWords_low hi lo, hwords, joinWords_low]
    subst hhi hlo
    have hmem := List.mem_of_getElem? hzero
    simp at hmem
  | double =>
    rw [htype, if_neg (by decide)] at hlength
    have hscale : node.scale ≠ .nan := fun hnan => hshown ⟨htype, hnan⟩
    simp only [htype, eq_singleton_zero hlength hzero, if_neg (show ¬ (EdgeDataType.double =
      .int32 ∨ EdgeDataType.double = .uint32) from by decide), List.replicate_one,
      List.getD_cons_zero, EdgeValue.mk.injEq, true_and] at hvalue
    exact zero_mul_scale_ne hscale hvalue

/-- **A node that shares a register on the line is disturbed.** -/
theorem not_disturbs_of_writesIsolated {model : EdgeModel}
    (htyped : ∀ node ∈ model.nodes, node.dataType ≠ .unset) (h : WritesIsolated model)
    {i j : Nat} {a b : EdgeNode} (hij : i ≠ j) (ha : model.nodes[i]? = some a)
    (hb : model.nodes[j]? = some b) : ¬ Disturbs model.nodes a j b := by
  intro hdisturbs
  let regs : RegFile UInt16 (BitVec 16) := fun _ _ => 1
  let bus : Bus Plc := { modbus := { enabled := true, connected := true }, env := { regs } }
  let nodes := model.nodes.map EdgeNode.config
  have hready : LineReady (fun _ => 0) regs bus := ⟨rfl, rfl, rfl⟩
  have hconfig : nodes.map EdgeNode.config = model.nodes.map EdgeNode.config := by
    unfold nodes
    rw [List.map_map]
    rfl
  have ha' : nodes[i]? = some a.config := by
    unfold nodes
    rw [List.getElem?_map, ha, Option.map_some]
  have hb' : nodes[j]? = some b.config := by
    unfold nodes
    rw [List.getElem?_map, hb, Option.map_some]
  -- the nodes with zeros for values meet the same conditions
  have hdisturbs' : Disturbs nodes a.config j b.config := hdisturbs.of_config hconfig.symm rfl rfl
  have hsame := h (fun _ => 0) regs bus hready nodes hconfig i j a.config hij ha'
  rw [edgeModbusPoll_line (edgeModbusWriteNode_line hready a.config), edgeModbusPoll_line hready,
    linePolled_reached _ hb' hdisturbs'.reached hdisturbs'.base,
    linePolled_reached _ hb' hdisturbs'.reached hdisturbs'.base, Option.some.injEq,
    lineWritten, if_pos hdisturbs'.sent] at hsame
  obtain ⟨k, word, hword, hget⟩ := RegFile.exists_read_write_of_not_apart regs
    (registerWidthForNode_pos b.config)
    (by rw [length_lineSlot]; exact registerWidthForNode_pos a.config)
    (fun hapart => (not_sharesOnLine_iff a.config b.config).mpr hapart hdisturbs'.shared)
  have hdefault : a.config.value = {} := rfl
  rw [packNodeToRegisters_zero hdefault word hword] at hget
  have hones : lineRegisters regs b.config =
      List.replicate (registerWidthForNode b.config) 1 := by
    unfold lineRegisters RegFile.read regs
    rw [List.map_const', List.length_range]
  rw [hones] at hsame
  have hset : b.config.dataType ≠ .unset := htyped b (List.mem_of_getElem? hb)
  exact applyRegistersToNode_ne hset hdisturbs'.shown (RegFile.length_read _ _ _ _) hget hsame

/-- **Writes are isolated exactly if no node disturbs another.** -/
theorem writesIsolated_iff {model : EdgeModel}
    (htyped : ∀ node ∈ model.nodes, node.dataType ≠ .unset) :
    WritesIsolated model ↔ ∀ (i j : Nat) (a b : EdgeNode), i ≠ j → model.nodes[i]? = some a →
      model.nodes[j]? = some b → ¬ Disturbs model.nodes a j b :=
  ⟨fun h _ _ _ _ hij ha hb => not_disturbs_of_writesIsolated htyped h hij ha hb,
    writesIsolated_of_not_disturbs⟩

theorem rangesDisjoint_getElem? {nodes : List EdgeNode} (h : nodes.Pairwise RangesDisjoint)
    {i j : Nat} (hij : i ≠ j) {a b : EdgeNode} (ha : nodes[i]? = some a)
    (hb : nodes[j]? = some b) : RangesDisjoint a b := by
  obtain ⟨hi, rfl⟩ := List.getElem?_eq_some_iff.mp ha
  obtain ⟨hj, rfl⟩ := List.getElem?_eq_some_iff.mp hb
  rcases Nat.lt_or_gt_of_ne hij with hlt | hlt
  · exact List.pairwise_iff_getElem.mp h i j hi hj hlt
  · exact (List.pairwise_iff_getElem.mp h j i hj hi hlt).symm

/-! ## Accepted templates

The two parts of the condition are about pairs of nodes of the template: the first is what the
header comment of the shipped template says, the second what sixteen bits of address add to it. -/

/-- **Distinct nodes of an accepted template have registers of their own, and writing one leaves
the others alone, exactly when no two start registers collide and no node disturbs another on the
line.** -/
theorem registers_disjoint_iff (file : Option Bytes) (model : EdgeModel)
    (hload : edgeConfigLoad file {} = (.ok, model)) :
    model.nodes.Pairwise RangesDisjoint ∧ WritesIsolated model ↔
      ∀ (i j : Nat) (a b : EdgeNode), i ≠ j → model.nodes[i]? = some a →
        model.nodes[j]? = some b → ¬ StartsCollide a b ∧ ¬ Disturbs model.nodes a j b := by
  have htyped : ∀ node ∈ model.nodes, node.dataType ≠ .unset := fun node hmem =>
    ((edgeConfigLoad_wellFormed file model hload).nodes node hmem).dataType_set
  constructor
  · rintro ⟨hdisjoint, hisolated⟩ i j a b hij ha hb
    refine ⟨?_, (writesIsolated_iff htyped).mp hisolated i j a b hij ha hb⟩
    exact (rangesDisjoint_iff a b).mp (rangesDisjoint_getElem? hdisjoint hij ha hb)
  · intro h
    refine ⟨List.pairwise_iff_getElem.mpr fun i j hi hj hij => ?_, ?_⟩
    · exact (rangesDisjoint_iff _ _).mpr (h i j _ _ (Nat.ne_of_lt hij)
        (List.getElem?_eq_getElem hi) (List.getElem?_eq_getElem hj)).1
    · exact (writesIsolated_iff htyped).mpr fun i j a b hij ha hb => (h i j a b hij ha hb).2

theorem pumpTemplate_registers_disjoint :
    (edgeConfigLoad (some pumpTemplate) {}).2.nodes.Pairwise RangesDisjoint ∧
      WritesIsolated (edgeConfigLoad (some pumpTemplate) {}).2 := by
  have hdisjoint : (edgeConfigLoad (some pumpTemplate) {}).2.nodes.Pairwise RangesDisjoint := by
    decide +kernel
  have hreal : ∀ node ∈ (edgeConfigLoad (some pumpTemplate) {}).2.nodes, RealAddress node := by
    decide +kernel
  refine (registers_disjoint_iff (some pumpTemplate) _
    (edgeConfigLoad_of_ok pumpTemplate_accepted)).mpr fun i j a b hij ha hb => ?_
  have hab := rangesDisjoint_getElem? hdisjoint hij ha hb
  refine ⟨(rangesDisjoint_iff a b).mp hab, fun hdisturbs => ?_⟩
  exact (sharesOnLine_iff_of_real (hreal a (List.mem_of_getElem? ha))
    (hreal b (List.mem_of_getElem? hb))).mp hdisturbs.shared hab

/-- The speed and the status of the first high-pressure pump, as the shipped template has them. -/
def speedAndStatusTemplate : Bytes :=
  templateOf [
    "[plant]", "id=xyz_desalination", "name=XYZ Desalination Plant",
    "[asset]", "id=hp_pump_1", "type=hp_pump", "name=HP Pump 1 (RO Train 1 duty)",
      "parent=xyz_desalination",
    "[node]", "asset=hp_pump_1", "id=speed_rpm", "name=SpeedRPM", "data_type=int32",
      "access=read", "source=modbus", "modbus_unit=3", "modbus_register=40008", "scale=1.0",
    "[node]", "asset=hp_pump_1", "id=status", "name=Status", "data_type=int16",
      "access=read", "source=modbus", "modbus_unit=3", "modbus_register=40009", "scale=1.0"]

/-- The low word of the speed is the status. -/
theorem speed_overlaps_status :
    (edgeConfigLoad (some speedAndStatusTemplate) {}).1 = .ok ∧
      ¬ (edgeConfigLoad (some speedAndStatusTemplate) {}).2.nodes.Pairwise RangesDisjoint := by
  decide +kernel

end OpcuaEdge
