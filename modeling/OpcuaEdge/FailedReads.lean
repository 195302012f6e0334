import OpcuaEdge.UnitCache
import OpcuaEdge.Wiring

/-!
# OpcuaEdge — failing reads

A device that refuses some addresses and answers the others, on a network that never fails. The
poll takes the first refusal for a lost connection and stops there, so the nodes after it keep
their values, at this tick and at every later one.
-/

namespace OpcuaEdge

open CStr CLoop

/-- A device whose answer to a read depends on the address alone: registers, or an exception. -/
structure RegisterDevice where
  selectable : UInt16 → Bool
  answer : UInt16 → Int → Nat → Option (List (BitVec 16))
  clock : Nat → UInt64

namespace RegisterDevice

/-- Connections always succeed. The state counts how often the clock was read. -/
def toUnitDevice (dev : RegisterDevice) : UnitDevice Nat where
  nowUs n := (dev.clock n, n + 1)
  newTcp _ _ n := (true, n)
  connect n := (true, n)
  selectable := dev.selectable
  readRegisters unit offset width n :=
    match dev.answer unit offset width with
    | some raw => ((width, raw), n)
    | none => ((-1, []), n)
  writeRegister _ _ _ n := (1, n)
  writeRegisters _ _ values n := (values.length, n)
  close n := n
  free n := n

/-- The registers with which the device answers the node's own read. -/
def reading (dev : RegisterDevice) (node : EdgeNode) : Option (List (BitVec 16)) :=
  if edgeModbusRegisterBase ≤ node.modbusRegister ∧ dev.selectable node.modbusUnit = true then
    dev.answer node.modbusUnit (registerOffset node) (registerWidthForNode node)
  else none

/-- The node's own read is sent, and refused. -/
def refuses (dev : RegisterDevice) (node : EdgeNode) : Bool :=
  edgeModbusRegisterBase ≤ node.modbusRegister && dev.selectable node.modbusUnit &&
    (dev.answer node.modbusUnit (registerOffset node) (registerWidthForNode node)).isNone

/-- What a poll that reaches the node makes of it. -/
def decoded (dev : RegisterDevice) (node : EdgeNode) : EdgeNode :=
  match dev.reading node with
  | some raw => applyRegistersToNode node raw
  | none => node

variable {dev : RegisterDevice} {node : EdgeNode}

/-- A node that is not read has no reading, and nothing is refused. -/
theorem reading_of_not_attempts (h : ¬ dev.toUnitDevice.Attempts node) :
    dev.reading node = none ∧ dev.refuses node = false := by
  unfold reading refuses
  refine ⟨if_neg h, ?_⟩
  by_contra hrefuses
  simp only [Bool.not_eq_false, Bool.and_eq_true, decide_eq_true_eq] at hrefuses
  exact h hrefuses.1

/-- A node that is read has the device's answer, which is a refusal if it is none. -/
theorem reading_of_attempts (h : dev.toUnitDevice.Attempts node) :
    dev.reading node =
        dev.answer node.modbusUnit (registerOffset node) (registerWidthForNode node) ∧
      dev.refuses node = (dev.reading node).isNone := by
  have hreading : dev.reading node
      = dev.answer node.modbusUnit (registerOffset node) (registerWidthForNode node) := if_pos h
  refine ⟨hreading, ?_⟩
  unfold refuses
  rw [hreading, decide_eq_true h.1, show dev.selectable node.modbusUnit = true from h.2,
    Bool.true_and, Bool.true_and]

/-- A read that the device has answered tells whether it succeeded, and with which registers. -/
theorem reading_of_request {r : ReadRequest} (hattempt : dev.toUnitDevice.Attempts node)
    (hfor : r.For dev.toUnitDevice node) :
    (r.Succeeded ∧ dev.reading node = some r.registers) ∨
      (¬ r.Succeeded ∧ dev.reading node = none) := by
  obtain ⟨n, hanswer⟩ := hfor.answer
  rw [hfor.unit, hfor.offset, hfor.width] at hanswer
  rw [(reading_of_attempts hattempt).1]
  unfold toUnitDevice at hanswer
  dsimp only at hanswer
  -- the device either answers with the registers or with -1, which is never the width
  cases hcase : dev.answer node.modbusUnit (registerOffset node) (registerWidthForNode node) with
  | some raw =>
    rw [hcase] at hanswer
    obtain ⟨hcount, hraw⟩ := Prod.mk.inj hanswer
    refine .inl ⟨?_, congrArg some hraw⟩
    rw [ReadRequest.Succeeded, ← hcount, hfor.width]
  | none =>
    rw [hcase] at hanswer
    obtain ⟨hcount, -⟩ := Prod.mk.inj hanswer
    refine .inr ⟨fun hok => ?_, rfl⟩
    rw [ReadRequest.Succeeded, ← hcount] at hok
    omega

/-- **A poll decodes the nodes in front of the first refusal** and leaves those behind it. -/
theorem getElem?_of_trace {nodes nodes' : List EdgeNode} {reads : List ReadRequest}
    (h : PollTrace dev.toUnitDevice nodes reads nodes') :
    ∀ (j : Nat) (node : EdgeNode), nodes[j]? = some node →
      nodes'[j]? =
        some (if (nodes.take j).any dev.refuses then node else dev.decoded node) := by
  induction h with
  | done => intro j node hget; cases hget
  | skipped hskip _ ih =>
    -- a node that is not read refuses nothing
    obtain ⟨hreading, hrefuses⟩ := reading_of_not_attempts hskip
    intro j node hget
    cases j with
    | zero =>
      cases hget
      rw [List.take_zero, List.any_nil, if_neg (by decide), decoded, hreading]
      rfl
    | succ j =>
      rw [List.take_succ_cons, List.any_cons, hrefuses, Bool.false_or]
      exact ih j node hget
  | read hattempt hfor hok _ ih =>
    have hreading := (reading_of_request hattempt hfor).resolve_right fun h => h.1 hok
    have hrefuses := (reading_of_attempts hattempt).2
    rw [hreading.2] at hrefuses
    intro j node hget
    cases j with
    | zero =>
      cases hget
      rw [List.take_zero, List.any_nil, if_neg (by decide), decoded, hreading.2]
      rfl
    | succ j =>
      rw [List.take_succ_cons, List.any_cons, hrefuses, Option.isNone_some, Bool.false_or]
      exact ih j node hget
  | failed hattempt hfor hfailed =>
    -- behind the refusal all nodes are as they were
    have hreading := (reading_of_request hattempt hfor).resolve_left fun h => hfailed h.1
    have hrefuses := (reading_of_attempts hattempt).2
    rw [hreading.2] at hrefuses
    intro j node hget
    cases j with
    | zero =>
      cases hget
      rw [List.take_zero, List.any_nil, if_neg (by decide), decoded, hreading.2]
      rfl
    | succ j =>
      rw [List.take_succ_cons, List.any_cons, hrefuses, Option.isNone_none, Bool.true_or,
        if_pos rfl]
      exact hget

/-- On a network that has not failed so far the link is up or comes up. -/
theorem ensureConnected_ok {bus : Bus (UnitLine Nat)} (henabled : bus.modbus.enabled = true)
    (hlink : bus.modbus.connected = true ∨ bus.modbus.nextConnectAttemptUs = 0) :
    (ensureConnected (unitLib dev.toUnitDevice) bus).1 = .ok := by
  rw [ensureConnected_ok_iff _ henabled]
  refine hlink.imp id fun hnext => ?_
  have hgate : backoffGate (unitLib dev.toUnitDevice) bus = (false, bus) :=
    if_neg (not_not.mpr hnext)
  rw [hgate]
  exact ⟨rfl, bus.created, rfl, rfl⟩

end RegisterDevice

/-! ## Independence

What a poll shows of one node should not depend on the others. It does where a refusal comes before
the node. -/

/-- Every node whose own read the device answers holds what it decodes to. -/
def AnsweredDecoded (dev : RegisterDevice) (nodes nodes' : List EdgeNode) : Prop :=
  ∀ (j : Nat) (node : EdgeNode) (raw : List (BitVec 16)), nodes[j]? = some node →
    dev.reading node = some raw → nodes'[j]? = some (applyRegistersToNode node raw)

/-- No node whose read is refused comes before one that is answered, unless that one holds its
decoding already. -/
def RefusalsHarmless (dev : RegisterDevice) (nodes : List EdgeNode) : Prop :=
  ∀ (i j : Nat) (a b : EdgeNode) (raw : List (BitVec 16)), i < j → nodes[i]? = some a →
    nodes[j]? = some b → dev.refuses a = true → dev.reading b = some raw →
      applyRegistersToNode b raw = b

theorem any_refuses_iff {dev : RegisterDevice} {nodes : List EdgeNode} {j : Nat} :
    (nodes.take j).any dev.refuses = true ↔
      ∃ i a, i < j ∧ nodes[i]? = some a ∧ dev.refuses a = true := by
  rw [List.any_eq_true]
  constructor
  · rintro ⟨a, hmem, hrefuses⟩
    obtain ⟨i, hget⟩ := List.getElem?_of_mem hmem
    rw [List.getElem?_take] at hget
    split_ifs at hget with hlt
    exact ⟨i, a, hlt, hget, hrefuses⟩
  · rintro ⟨i, a, hlt, hget, hrefuses⟩
    refine ⟨a, List.mem_of_getElem? (i := i) ?_, hrefuses⟩
    rw [List.getElem?_take, if_pos hlt, hget]

/-- **The answered nodes are up to date after a poll** exactly where no refusal comes before one of
them that has something new to show. -/
theorem answered_decoded_iff (dev : RegisterDevice) (bus : Bus (UnitLine Nat))
    (nodes : List EdgeNode) (henabled : bus.modbus.enabled = true)
    (hlink : bus.modbus.connected = true ∨ bus.modbus.nextConnectAttemptUs = 0) :
    AnsweredDecoded dev nodes (edgeModbusPoll (unitLib dev.toUnitDevice) bus nodes).2.2 ↔
      RefusalsHarmless dev nodes := by
  obtain ⟨reads, -, htrace⟩ := edgeModbusPoll_trace dev.toUnitDevice nodes henabled
    (RegisterDevice.ensureConnected_ok henabled hlink)
  have hafter := RegisterDevice.getElem?_of_trace htrace
  constructor
  · -- a refused node keeps the value it had, which must then be the one decoded
    intro hdecoded i j a b raw hij ha hb hrefuses hreading
    have hnew := hdecoded j b raw hb hreading
    rw [hafter j b hb, if_pos (any_refuses_iff.mpr ⟨i, a, hij, ha, hrefuses⟩)] at hnew
    exact (Option.some.inj hnew).symm
  · intro hharmless j b raw hb hreading
    rw [hafter j b hb]
    by_cases hany : (nodes.take j).any dev.refuses = true
    · rw [if_pos hany]
      obtain ⟨i, a, hij, ha, hrefuses⟩ := any_refuses_iff.mp hany
      rw [hharmless i j a b raw hij ha hb hrefuses hreading]
    · rw [if_neg hany, RegisterDevice.decoded, hreading]

/-- The pump's PLC without the register at one offset; all others hold 1. -/
def pumpPlcWithout (missing : Int) : RegisterDevice where
  selectable unit := unit ≤ 247
  answer _ offset width := if offset = missing then none else some (List.replicate width 1)
  clock _ := 0

/-- The bus in front of it at startup. -/
def pumpLine : Bus (UnitLine Nat) where
  modbus := (edgeModbusInit (some (lit "127.0.0.1")) 502).2
  env := { dev := 0, slave := 255 }

/-- Without the register of the last node all the others are polled. -/
theorem pump_answered_decoded :
    AnsweredDecoded (pumpPlcWithout 9) pumpModel.nodes
      (edgeModbusPoll (unitLib (pumpPlcWithout 9).toUnitDevice) pumpLine pumpModel.nodes).2.2 := by
  refine (answered_decoded_iff (pumpPlcWithout 9) pumpLine pumpModel.nodes (by decide +kernel)
    (.inr (by decide +kernel))).mpr fun i j a b raw hij ha hb hrefuses _ => ?_
  have hlength : pumpModel.nodes.length = 2 := rfl
  have hj := (List.getElem?_eq_some_iff.mp hb).1
  obtain rfl : i = 0 := by omega
  -- the only node with another behind it is the vibration, which is answered
  have hanswered : pumpModel.nodes[0]?.map (pumpPlcWithout 9).refuses = some false := by
    decide +kernel
  rw [ha] at hanswered
  cases hrefuses.symm.trans (Option.some.inj hanswered)

/-- Without the vibration's register the command behind it is never shown, although the device
answers its read, and the poll returns OK. -/
theorem command_starved :
    LoadedAndWired (some pumpTemplate) pumpModel ∧
      (edgeModbusPoll (unitLib (pumpPlcWithout 5).toUnitDevice) pumpLine
        pumpModel.nodes).1 = .ok ∧
      pumpModel.nodes[1]?.map (pumpPlcWithout 5).reading = some (some [1]) ∧
      (edgeModbusPoll (unitLib (pumpPlcWithout 5).toUnitDevice) pumpLine
        pumpModel.nodes).2.2[1]?.map readEdgeNode = some (.boolean false) ∧
      ¬ AnsweredDecoded (pumpPlcWithout 5) pumpModel.nodes
        (edgeModbusPoll (unitLib (pumpPlcWithout 5).toUnitDevice) pumpLine
          pumpModel.nodes).2.2 := by
  have hanswered : pumpModel.nodes[1]?.map (pumpPlcWithout 5).reading = some (some [1]) := by
    decide +kernel
  have hshown : (edgeModbusPoll (unitLib (pumpPlcWithout 5).toUnitDevice) pumpLine
      pumpModel.nodes).2.2[1]?.map readEdgeNode = some (.boolean false) := by decide +kernel
  refine ⟨pumpModel_loadedAndWired, by decide +kernel, hanswered, hshown, fun hdecoded => ?_⟩
  -- the second node is answered and would show what was read
  cases hnode : pumpModel.nodes[1]? with
  | none => cases hnode
  | some node =>
    rw [hnode] at hanswered
    have hnew := hdecoded 1 node [1] hnode (Option.some.inj hanswered)
    rw [hnew] at hshown
    have hvalue : some (readEdgeNode (applyRegistersToNode node [1])) = some (.boolean true) := by
      cases hnode
      decide +kernel
    cases hshown.symm.trans hvalue

end OpcuaEdge
