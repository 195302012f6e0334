import OpcuaEdge.AddressSpace
import OpcuaEdge.Modbus
import OpcuaEdge.ModbusLemmas
import OpcuaEdge.Frame
import OpcuaEdge.Lib.RegFile

/-!
# OpcuaEdge — registers of a node

Which registers of its unit a node occupies, and what packing a value and decoding it again gives
back. Two nodes whose register ranges are disjoint occupy disjoint ranges of offsets, although
the offset wraps to a negative `int` for registers far above the base (`RangesDisjoint.apart`).
-/

namespace OpcuaEdge

open CStr

/-! ## Ranges

Two nodes of one unit are independent on the line when no register belongs to both. -/

/-- `[modbus_register, modbus_register + width)` of the two nodes are disjoint if they are in the
same unit. -/
def RangesDisjoint (a b : EdgeNode) : Prop :=
  a.modbusUnit = b.modbusUnit →
    a.modbusRegister.toNat + registerWidthForNode a ≤ b.modbusRegister.toNat ∨
      b.modbusRegister.toNat + registerWidthForNode b ≤ a.modbusRegister.toNat

instance : DecidableRel RangesDisjoint := fun _ _ => inferInstanceAs (Decidable (_ → _ ∨ _))

theorem RangesDisjoint.symm {a b : EdgeNode} (h : RangesDisjoint a b) : RangesDisjoint b a :=
  fun hunit => (h hunit.symm).symm

instance : Std.Symm RangesDisjoint := ⟨fun _ _ => RangesDisjoint.symm⟩

/-- The registers a writeback of the node fills. -/
def nodeSlot (node : EdgeNode) : RegFile.Slot UInt16 (BitVec 16) where
  bank := node.modbusUnit
  start := registerOffset node
  values := (packNodeToRegisters node).2

/-- The registers a poll reads for the node. -/
def nodeRegisters (regs : RegFile UInt16 (BitVec 16)) (node : EdgeNode) : List (BitVec 16) :=
  regs.read node.modbusUnit (registerOffset node) (registerWidthForNode node)

theorem length_nodeSlot (node : EdgeNode) :
    (nodeSlot node).values.length = registerWidthForNode node :=
  (packNodeToRegisters_length node).trans (packNodeToRegisters_count node)

/-- The offset of a register at or above the base: the distance, as a two's complement `int`. -/
theorem registerOffset_eq {node : EdgeNode}
    (h : edgeModbusRegisterBase ≤ node.modbusRegister) :
    registerOffset node =
      if node.modbusRegister.toNat - 40001 < 2147483648 then
        (node.modbusRegister.toNat - 40001 : Int)
      else (node.modbusRegister.toNat - 40001 : Int) - 4294967296 := by
  have hsub := UInt32.toNat_sub_of_le _ _ h
  have hbase : edgeModbusRegisterBase.toNat = 40001 := rfl
  have hle : 40001 ≤ node.modbusRegister.toNat := by
    simpa [hbase] using UInt32.le_iff_toNat_le.mp h
  unfold registerOffset
  rw [show (node.modbusRegister - edgeModbusRegisterBase).toInt32.toInt =
    (node.modbusRegister - edgeModbusRegisterBase).toBitVec.toInt from rfl,
    BitVec.toInt_eq_toNat_cond, UInt32.toNat_toBitVec, hsub, hbase]
  split_ifs <;> omega

/-- Nodes with disjoint register ranges do not see each other's writes. -/
theorem RangesDisjoint.apart {a b : EdgeNode} (h : RangesDisjoint a b)
    (ha : edgeModbusRegisterBase ≤ a.modbusRegister)
    (hb : edgeModbusRegisterBase ≤ b.modbusRegister) :
    (nodeSlot a).Apart b.modbusUnit (registerOffset b) (registerWidthForNode b) := by
  intro hunit
  rw [length_nodeSlot]
  show registerOffset a + _ ≤ registerOffset b ∨ registerOffset b + _ ≤ registerOffset a
  have hwidth : ∀ node, registerWidthForNode node ≤ 2 := by
    intro node
    unfold registerWidthForNode
    split_ifs <;> omega
  have hwa := hwidth a
  have hwb := hwidth b
  have hna := a.modbusRegister.toNat_lt
  have hnb := b.modbusRegister.toNat_lt
  -- above the base no offset is negative, so the ranges compare as the registers do
  rw [registerOffset_eq ha, registerOffset_eq hb]
  have hla := UInt32.le_iff_toNat_le.mp ha
  have hlb := UInt32.le_iff_toNat_le.mp hb
  rw [show edgeModbusRegisterBase.toNat = 40001 from rfl] at hla hlb
  rcases h hunit with hlt | hlt <;> split_ifs <;> omega

/-! ## Packing and decoding

Writing a node packs its value into words, polling it decodes the words. Decoding what was packed
gives the value back, as far as scale and type let it. -/

/-- Splitting a number into two words and joining them gives it back. -/
theorem joinWords_split (v : BitVec 32) :
    joinWords ((v >>> 16).truncate 16) (v.truncate 16) = v := by
  unfold joinWords
  ext i hi
  by_cases h : i < 16
  · simp [h, BitVec.getLsbD_eq_getElem hi]
  · simp [h]
    grind

/-- The two words of a 32-bit value can be told from it. -/
theorem joinWords_high (hi lo : BitVec 16) : (joinWords hi lo >>> 16).truncate 16 = hi := by
  unfold joinWords
  ext i h
  simp only [BitVec.truncate_eq_setWidth, BitVec.getElem_setWidth, BitVec.getLsbD_ushiftRight]
  simp [h, show 16 + i < 32 from by omega]

theorem joinWords_low (hi lo : BitVec 16) : (joinWords hi lo).truncate 16 = lo := by
  unfold joinWords
  ext i h
  simp

/-- **Boolean and integer values survive the trip through the registers.** `node'` is the node at
the time of the poll, when its value may have been overwritten. -/
theorem readEdgeNode_decode_pack {node node' : EdgeNode} (hconfig : node'.config = node.config)
    (hset : node.dataType ≠ .unset) (hdouble : node.dataType ≠ .double) :
    readEdgeNode (applyRegistersToNode node' (packNodeToRegisters node).2) =
      readEdgeNode node := by
  have htype : node'.dataType = node.dataType :=
    EdgeNode.config_congr _ (fun _ => rfl) hconfig
  unfold readEdgeNode setVariantFromEdgeValue applyRegistersToNode packNodeToRegisters
  rw [htype]
  -- the words carry the whole value for every type but the scaled one
  cases hcase : node.dataType with
  | unset => exact absurd hcase hset
  | double => exact absurd hcase hdouble
  | bool =>
    by_cases hb : node.value.b ≠ 0
    · rw [if_pos hb]
      simpa using hb
    · rw [if_neg hb]
      simp [not_not.mp hb]
  | int16 => simp
  | int32 => simp [joinWords_split]
  | uint32 => simp [joinWords_split]

/-- A scale of zero counts as one, so nothing is ever divided by zero. -/
theorem effectiveScale_ne_zero (node : EdgeNode) {q : ℚ} (h : effectiveScale node = .fin q) :
    q ≠ 0 := by
  unfold effectiveScale at h
  split_ifs at h with hzero
  · cases h; norm_num
  · rw [h] at hzero
    simpa [Double.isZero] using hzero

/-- The register of a double node that holds a whole multiple of its scale. -/
theorem packNodeToRegisters_double {node : EdgeNode} (htype : node.dataType = .double) {q : ℚ}
    (hscale : effectiveScale node = .fin q) {k : Int} (hlow : -32768 ≤ k) (hhigh : k ≤ 32767)
    (hvalue : node.value.d = .fin (k * q)) :
    (packNodeToRegisters node).2 = [BitVec.ofInt 16 k] := by
  have hq := effectiveScale_ne_zero node hscale
  have hquotient : node.value.d.div (effectiveScale node) = .fin k := by
    rw [hvalue, hscale, Double.div, if_neg hq, mul_div_cancel_right₀ _ hq]
  have hround : Double.toLong (if (0 : ℚ) ≤ k then (k : ℚ) + 1 / 2 else (k : ℚ) - 1 / 2) = k := by
    rw [Double.toLong, Double.trunc_half_away, if_pos ⟨by omega, by omega⟩]
  unfold packNodeToRegisters
  simp only [htype, hquotient, hround]

/-- **A double that is a whole multiple of its scale survives the trip**, if the multiple fits a
signed register. -/
theorem readEdgeNode_decode_pack_double {node node' : EdgeNode}
    (hconfig : node'.config = node.config) (htype : node.dataType = .double) {q : ℚ}
    (hscale : effectiveScale node = .fin q) {k : Int} (hlow : -32768 ≤ k) (hhigh : k ≤ 32767)
    (hvalue : node.value.d = .fin (k * q)) :
    readEdgeNode (applyRegistersToNode node' (packNodeToRegisters node).2) =
      .double (.fin (k * q)) := by
  have htype' : node'.dataType = .double :=
    (EdgeNode.config_congr _ (fun _ => rfl) hconfig).trans htype
  have hscale' : effectiveScale node' = .fin q :=
    (EdgeNode.config_congr effectiveScale (fun _ => rfl) hconfig).trans hscale
  have hregister : (BitVec.ofInt 16 k).toInt = k := by
    rw [BitVec.toInt_ofInt, Int.bmod_eq_of_le (by omega) (by omega)]
  rw [packNodeToRegisters_double htype hscale hlow hhigh hvalue]
  unfold readEdgeNode setVariantFromEdgeValue applyRegistersToNode
  simp [htype', hscale', hregister, Double.ofInt, Double.mul]

end OpcuaEdge
