import OpcuaEdge.Plc

/-!
# OpcuaEdge — the register codec

`apply_registers_to_node` and `pack_node_to_registers` are two separate switches. They agree: each
undoes the other on every data type, up to the rounding of a double to a whole number of scales.
That number has to fit a signed register. `pack_node_to_registers` narrows it without a check, so a
double whose quotient by the scale is out of range is sent as another value
(`double_writeback_iff`).
-/

namespace OpcuaEdge

open CStr CLoop

/-! ## Narrowing a quotient

A value is divided by its scale, rounded half away from zero and narrowed to 16 bits. The narrowing
wraps, so the register has the rounded value only if that fits. -/

/-- The signed register that `pack_node_to_registers` makes of the quotient of value and scale. -/
def narrowed (e : ℚ) : BitVec 16 :=
  BitVec.ofInt 16 (Double.toLong (if 0 ≤ e then e + 1 / 2 else e - 1 / 2))

/-- The quotients that a signed register can hold after rounding. -/
def FitsRegister (e : ℚ) : Prop := -32768 - 1 / 2 < e ∧ e < 32767 + 1 / 2

theorem fitsRegister_iff (e : ℚ) :
    FitsRegister e ↔
      -32768 ≤ Double.trunc (if 0 ≤ e then e + 1 / 2 else e - 1 / 2) ∧
        Double.trunc (if 0 ≤ e then e + 1 / 2 else e - 1 / 2) ≤ 32767 := by
  rw [Double.trunc_half_away_mem_iff (by decide) (by decide)]
  unfold FitsRegister
  push_cast
  rfl

/-- A number that fits survives the narrowing. -/
theorem toInt_ofInt_of_fits {z : Int} (hlow : -32768 ≤ z) (hhigh : z ≤ 32767) :
    (BitVec.ofInt 16 z).toInt = z := by
  rw [BitVec.toInt_ofInt, Int.bmod_eq_of_le (by omega) (by omega)]

theorem narrowed_toInt_of_fits {e : ℚ} (h : FitsRegister e) :
    (narrowed e).toInt = Double.trunc (if 0 ≤ e then e + 1 / 2 else e - 1 / 2) := by
  obtain ⟨hlow, hhigh⟩ := (fitsRegister_iff e).mp h
  unfold narrowed Double.toLong
  rw [if_pos ⟨by omega, by omega⟩, toInt_ofInt_of_fits hlow hhigh]

/-- The two quotients half a step outside of the range wrap to the other end of it. -/
theorem narrowed_ends :
    (narrowed (32767 + 1 / 2)).toInt = -32768 ∧ (narrowed (-32768 - 1 / 2)).toInt = 32767 := by
  constructor <;> decide +kernel

/-- **The register is within half a step of the quotient** exactly for the quotients that fit. -/
theorem narrowed_close_iff (e : ℚ) : |((narrowed e).toInt : ℚ) - e| ≤ 1 / 2 ↔ FitsRegister e := by
  refine ⟨fun hclose => ?_, fun hfits => ?_⟩
  · have hlow : ((-32768 : Int) : ℚ) ≤ (narrowed e).toInt := by
      exact_mod_cast (narrowed e).le_toInt
    have hhigh : ((narrowed e).toInt : ℚ) ≤ ((32767 : Int) : ℚ) := by
      have hlt := (narrowed e).toInt_lt
      exact_mod_cast Int.le_of_lt_add_one hlt
    push_cast at hlow hhigh
    obtain ⟨habove, hbelow⟩ := abs_le.mp hclose
    -- only the two half-way cases are left, and they wrap
    have hends : e ≠ 32767 + 1 / 2 ∧ e ≠ -32768 - 1 / 2 := by
      constructor
      · rintro rfl
        rw [narrowed_ends.1] at hclose
        norm_num at hclose
      · rintro rfl
        rw [narrowed_ends.2] at hclose
        norm_num at hclose
    exact ⟨lt_of_le_of_ne (by linarith) hends.2.symm, lt_of_le_of_ne (by linarith) hends.1⟩
  · rw [narrowed_toInt_of_fits hfits]
    exact Double.abs_trunc_half_away_sub_le e

/-- A whole number in range is its own register. -/
theorem narrowed_intCast (word : BitVec 16) : narrowed word.toInt = word := by
  have hlow := word.le_toInt
  have hhigh := word.toInt_lt
  unfold narrowed Double.toLong
  rw [Double.trunc_half_away, if_pos ⟨by omega, by omega⟩, BitVec.ofInt_toInt]

/-! ## Doubles

For a `double` node, both directions in terms of its scale, with a scale of zero counting as one. -/

/-- The scale a double node is converted with. -/
def scaleFactor (s : ℚ) : ℚ := if s = 0 then 1 else s

theorem scaleFactor_ne_zero (s : ℚ) : scaleFactor s ≠ 0 := by
  unfold scaleFactor
  split_ifs with hs
  · exact one_ne_zero
  · exact hs

theorem effectiveScale_fin {node : EdgeNode} {s : ℚ} (h : node.scale = .fin s) :
    effectiveScale node = .fin (scaleFactor s) := by
  unfold effectiveScale scaleFactor
  rw [h]
  by_cases hs : s = 0
  · rw [if_pos hs, if_pos (by rw [hs]; rfl)]
  · rw [if_neg hs, if_neg (by simpa [Double.isZero] using hs)]

theorem applyRegistersToNode_double (node : EdgeNode) (htype : node.dataType = .double) {s : ℚ}
    (hscale : node.scale = .fin s) (raw : List (BitVec 16)) :
    applyRegistersToNode node raw =
      { node with value.d := .fin ((raw.getD 0 0).toInt * scaleFactor s) } := by
  unfold applyRegistersToNode
  simp only [htype, effectiveScale_fin hscale, Double.ofInt, Double.mul]

theorem packNodeToRegisters_narrowed (node : EdgeNode) (htype : node.dataType = .double) {s v : ℚ}
    (hscale : node.scale = .fin s) (hvalue : node.value.d = .fin v) :
    packNodeToRegisters node = (1, [narrowed (v / scaleFactor s)]) := by
  have hquotient : node.value.d.div (effectiveScale node) = .fin (v / scaleFactor s) := by
    rw [hvalue, effectiveScale_fin hscale, Double.div, if_neg (scaleFactor_ne_zero s)]
  unfold packNodeToRegisters narrowed
  simp only [htype, hquotient]

/-- Errors of the value are errors of the quotient, times the scale. -/
theorem abs_mul_sub_le_iff (k v : ℚ) {f : ℚ} (hf : f ≠ 0) :
    |k * f - v| ≤ |f| / 2 ↔ |k - v / f| ≤ 1 / 2 := by
  have hsplit : k * f - v = (k - v / f) * f := by
    rw [sub_mul, div_mul_cancel₀ v hf]
  have hpos : 0 < |f| := abs_pos.mpr hf
  rw [hsplit, abs_mul, div_eq_mul_inv |f| 2, mul_comm |f|, one_div]
  exact mul_le_mul_iff_of_pos_right hpos

/-- A double written and polled again, whatever value the node held in between. -/
theorem decoded_narrowed (node : EdgeNode) (htype : node.dataType = .double) {s v : ℚ}
    (hscale : node.scale = .fin s) (hvalue : node.value.d = .fin v) (other : EdgeValue) :
    (applyRegistersToNode { node with value := other } (packNodeToRegisters node).2).value.d =
      .fin ((narrowed (v / scaleFactor s)).toInt * scaleFactor s) := by
  rw [packNodeToRegisters_narrowed node htype hscale hvalue,
    applyRegistersToNode_double { node with value := other } htype hscale]
  rfl

/-- The error stays within half a scale exactly where the quotient fits the register. -/
theorem decoded_close_iff (s v : ℚ) :
    |(narrowed (v / scaleFactor s)).toInt * scaleFactor s - v| ≤ |scaleFactor s| / 2 ↔
      FitsRegister (v / scaleFactor s) := by
  rw [abs_mul_sub_le_iff _ _ (scaleFactor_ne_zero s), narrowed_close_iff]

/-! ## Round trips

What a register decodes to packs to the same register again, for every type but one: of a boolean
only the low bit comes back. -/

/-- What packing a node gives back of the two registers it was decoded from. A record that has no
data type packs into a zero register. -/
def packedBack (node : EdgeNode) (raw0 raw1 : BitVec 16) : List (BitVec 16) :=
  match node.dataType with
  | .bool => [BitVec.ofNat 16 (raw0.toNat % 2)]
  | .unset => [0]
  | _ => [raw0, raw1].take (registerWidthForNode node)

/-- The member of the value that the data type selects survives packing and decoding. -/
def ValueReproduced (node node' : EdgeNode) : Prop :=
  match node.dataType with
  | .bool => node.value.b = 0 ∨ node.value.b = 1 → node'.value.b = node.value.b
  | .int16 => node'.value.i16 = node.value.i16
  | .int32 => node'.value.i32 = node.value.i32
  | .uint32 => node'.value.u32 = node.value.u32
  | .double => ∀ s v : ℚ, node.scale = .fin s → node.value.d = .fin v →
      FitsRegister (v / scaleFactor s) →
        ∃ d, node'.value.d = .fin d ∧ |d - v| ≤ |scaleFactor s| / 2
  | .unset => True

/-- The three agreements of the codec on a node. `other` is the value that decoding overwrites. -/
structure CodecRoundTrip (node : EdgeNode) : Prop where
  count : (packNodeToRegisters node).1 = registerWidthForNode node
  decodePack : ∀ raw0 raw1 : BitVec 16,
    packNodeToRegisters (applyRegistersToNode node [raw0, raw1]) =
      (registerWidthForNode node, packedBack node raw0 raw1)
  packDecode : ∀ other : EdgeValue, ValueReproduced node
    (applyRegistersToNode { node with value := other } (packNodeToRegisters node).2)

theorem lowBit_eq (word : BitVec 16) :
    (if (if word &&& 1 ≠ 0 then (1 : BitVec 8) else 0) ≠ 0 then (1 : BitVec 16) else 0) =
      BitVec.ofNat 16 (word.toNat % 2) := by
  have hlow : word &&& 1 = BitVec.ofNat 16 (word.toNat % 2) := by
    apply BitVec.eq_of_toNat_eq
    rw [BitVec.toNat_and, BitVec.toNat_ofNat, show (1 : BitVec 16).toNat = 1 from rfl,
      Nat.and_one_is_mod]
    omega
  rw [hlow]
  rcases Nat.mod_two_eq_zero_or_one word.toNat with h | h
  · rw [h]; decide
  · rw [h]; decide

/-- Decoding two registers and packing the node again gives back the registers of the node. -/
theorem decode_pack {node : EdgeNode} {s : ℚ} (hscale : node.scale = .fin s)
    (raw0 raw1 : BitVec 16) :
    packNodeToRegisters (applyRegistersToNode node [raw0, raw1]) =
      (registerWidthForNode node, packedBack node raw0 raw1) := by
  unfold packedBack registerWidthForNode
  cases htype : node.dataType with
  | unset => simp [applyRegistersToNode, packNodeToRegisters, htype]
  | bool => simpa [applyRegistersToNode, packNodeToRegisters, htype] using lowBit_eq raw0
  | int16 => simp [applyRegistersToNode, packNodeToRegisters, htype]
  | int32 =>
    simp [applyRegistersToNode, packNodeToRegisters, htype, joinWords_high, joinWords_low]
  | uint32 =>
    simp [applyRegistersToNode, packNodeToRegisters, htype, joinWords_high, joinWords_low]
  | double =>
    -- the product is divided by the same scale, so the word that was read comes back
    have hpacked : packNodeToRegisters { node with value.d := .fin (raw0.toInt * scaleFactor s) }
        = (1, [narrowed (raw0.toInt * scaleFactor s / scaleFactor s)]) :=
      packNodeToRegisters_narrowed { node with value.d := .fin (raw0.toInt * scaleFactor s) } htype
        hscale rfl
    rw [mul_div_cancel_right₀ _ (scaleFactor_ne_zero s), narrowed_intCast] at hpacked
    rw [applyRegistersToNode_double node htype hscale]
    exact hpacked

/-- Packing a value and decoding the registers gives the value back. -/
theorem pack_decode (node : EdgeNode) (other : EdgeValue) :
    ValueReproduced node
      (applyRegistersToNode { node with value := other } (packNodeToRegisters node).2) := by
  unfold ValueReproduced
  cases htype : node.dataType with
  | unset => trivial
  | bool =>
    rintro (hb | hb)
    · simp [applyRegistersToNode, packNodeToRegisters, htype, hb]
    · simp [applyRegistersToNode, packNodeToRegisters, htype, hb]
  | int16 => simp [applyRegistersToNode, packNodeToRegisters, htype]
  | int32 => simpa [applyRegistersToNode, packNodeToRegisters, htype] using joinWords_split _
  | uint32 => simpa [applyRegistersToNode, packNodeToRegisters, htype] using joinWords_split _
  | double =>
    intro s v hscale hvalue hfits
    -- a double comes back as near as the narrowing to 16 bits allows
    have hdecoded := decoded_narrowed node htype hscale hvalue other
    simp only [htype] at hdecoded
    exact ⟨_, hdecoded, (decoded_close_iff s v).mpr hfits⟩

/-- **The register codec is a round trip** in both directions, for every data type and every
rational scale. -/
theorem codec_round_trip (node : EdgeNode) (s : ℚ) (hscale : node.scale = .fin s) :
    CodecRoundTrip node where
  count := packNodeToRegisters_count node
  decodePack := decode_pack hscale
  packDecode := pack_decode node

/-- A vibration sensor with a negative scale. -/
def negativeSensor : EdgeNode :=
  { dataType := .double, modbusUnit := 3, modbusRegister := 40006, scale := .fin (-1 / 100) }

theorem negativeSensor_round_trip : CodecRoundTrip negativeSensor :=
  codec_round_trip negativeSensor (-1 / 100) rfl

/-! ## Writing a double back

The other way round a value that is sent and polled again is off by at most half a step of the
scale, if its quotient fits. -/

variable {σ : Type}

/-- The register writes of one writeback. -/
def sentRegisters (lib : ModbusLib σ) (bus : Bus σ) (node : EdgeNode) :
    List (Int × List (BitVec 16)) :=
  registerWrites ((edgeModbusWriteNode lib bus node).2.calls.drop bus.calls.length)

/-- A successful writeback has sent the registers that the node packs into. -/
theorem sentRegisters_of_ok (lib : ModbusLib σ) {bus : Bus σ} {node : EdgeNode}
    (henabled : bus.modbus.enabled = true) (hok : (edgeModbusWriteNode lib bus node).1 = .ok) :
    sentRegisters lib bus node = [(registerOffset node, (packNodeToRegisters node).2)] := by
  have hstep : BusStep [(registerOffset node, (packNodeToRegisters node).2)] bus
      (edgeModbusWriteNode lib bus node).2 := by
    have hsel := (ensureConnected_step lib bus).trans_nil (Bus.setSlave_step lib node.modbusUnit _)
    have hsent := hsel.trans_nil (sendRegisters_step lib node (registerOffset node) _)
    unfold edgeModbusWriteNode at hok ⊢
    dsimp only at hok ⊢
    -- every exit before the transfer contradicts the status
    split_ifs at hok ⊢ with hdisabled
    · rw [henabled] at hdisabled
      cases hdisabled
    · exact hsent.then_nil (.of_eq rfl rfl)
  obtain ⟨calls, hcalls, hwrites⟩ := hstep.calls
  unfold sentRegisters
  rw [hcalls, List.drop_left, hwrites]

/-- The writeback of a double node sent one register, and it decodes to within half a scale of the
value. -/
def SentClose (lib : ModbusLib σ) (bus : Bus σ) (node : EdgeNode) (s v : ℚ) : Prop :=
  ∃ word d, sentRegisters lib bus node = [(registerOffset node, [word])] ∧
    (applyRegistersToNode node [word]).value.d = .fin d ∧ |d - v| ≤ |scaleFactor s| / 2

/-- **A double is sent to the device as it is**, up to half a scale, exactly where its quotient by
the scale fits a signed register. -/
theorem double_writeback_iff (lib : ModbusLib σ) (bus : Bus σ) (node : EdgeNode) (s v : ℚ)
    (htype : node.dataType = .double) (_ : node.writable = true)
    (_ : edgeModbusRegisterBase ≤ node.modbusRegister) (hscale : node.scale = .fin s)
    (hvalue : node.value.d = .fin v) (henabled : bus.modbus.enabled = true)
    (hok : (edgeModbusWriteNode lib bus node).1 = .ok) :
    SentClose lib bus node s v ↔ FitsRegister (v / scaleFactor s) := by
  have hpacked := packNodeToRegisters_narrowed node htype hscale hvalue
  have hsent := sentRegisters_of_ok lib henabled hok
  rw [hpacked] at hsent
  have hdecoded := applyRegistersToNode_double node htype hscale [narrowed (v / scaleFactor s)]
  rw [← decoded_close_iff s v]
  constructor
  · rintro ⟨word, d, hword, hd, hclose⟩
    rw [hsent] at hword
    cases hword
    rw [hdecoded] at hd
    cases hd
    exact hclose
  · intro hclose
    exact ⟨_, _, hsent, by rw [hdecoded]; rfl, hclose⟩

/-- A writable speed set point in whole revolutions. -/
def speedSetpoint (v : ℚ) : EdgeNode where
  dataType := .double
  writable := true
  modbusUnit := 3
  modbusRegister := 40012
  scale := .fin 1
  value := { d := .fin v }

/-- A bus in front of a device whose registers are all zero. -/
def idleBus : Bus Plc where
  modbus := (edgeModbusInit (some (lit "127.0.0.1")) 502).2
  env := { regs := fun _ _ => 0 }

theorem speed_sent_close : SentClose (plcLib fun _ => 0) idleBus (speedSetpoint 1480) 1 1480 :=
  (double_writeback_iff (plcLib fun _ => 0) idleBus (speedSetpoint 1480) 1 1480 rfl rfl
    (by decide) rfl rfl (by decide +kernel) (by decide +kernel)).mpr
    (by unfold FitsRegister scaleFactor; norm_num)

/-- A speed of 40000 is acknowledged, and sent as -25536. -/
theorem speed_sent_reversed :
    (edgeModbusWriteNode (plcLib fun _ => 0) idleBus (speedSetpoint 40000)).1 = .ok ∧
      sentRegisters (plcLib fun _ => 0) idleBus (speedSetpoint 40000) = [(11, [0x9C40])] ∧
      (applyRegistersToNode (speedSetpoint 40000) [0x9C40]).value.d = .fin (-25536) ∧
      ¬ SentClose (plcLib fun _ => 0) idleBus (speedSetpoint 40000) 1 40000 := by
  have hsent : sentRegisters (plcLib fun _ => 0) idleBus (speedSetpoint 40000)
      = [(11, [0x9C40])] := by decide +kernel
  have hdecoded : (applyRegistersToNode (speedSetpoint 40000) [0x9C40]).value.d
      = .fin (-25536) := by decide +kernel
  refine ⟨by decide +kernel, hsent, hdecoded, ?_⟩
  rintro ⟨word, d, hword, hd, hclose⟩
  rw [hsent] at hword
  cases hword
  rw [hdecoded] at hd
  cases hd
  unfold scaleFactor at hclose
  norm_num at hclose

end OpcuaEdge
