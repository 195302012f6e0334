import OpcuaEdge.Frame

/-!
# OpcuaEdge — the cached unit selection

`edge_modbus_poll` selects a unit only when it differs from the one selected last. `unitLib` is
libmodbus on a line whose context has a selected unit: selecting succeeds or fails depending on the
unit only, and reads are answered in any way that depends on the unit. On it the poll does the same
as `edgeModbusPollSelecting`, which selects before every read (`cached_poll_agrees`), and what it
reads and stores is told by `PollTrace`.
-/

namespace OpcuaEdge

open CStr CLoop

/-! ## A line with units

A device that tells its units apart, behind a context that remembers which of them was selected
last. -/

/-- What is behind the line, answering for the unit that is selected. -/
structure UnitDevice (ω : Type) where
  nowUs : ω → UInt64 × ω
  newTcp : Bytes → UInt16 → ω → Bool × ω
  connect : ω → Bool × ω
  selectable : UInt16 → Bool
  readRegisters : UInt16 → Int → Nat → ω → (Int × List (BitVec 16)) × ω
  writeRegister : UInt16 → Int → BitVec 16 → ω → Int × ω
  writeRegisters : UInt16 → Int → List (BitVec 16) → ω → Int × ω
  close : ω → ω
  free : ω → ω

/-- A read as the device has seen and answered it. -/
structure ReadRequest where
  unit : UInt16
  offset : Int
  width : Nat
  count : Int
  registers : List (BitVec 16)

/-- The device, the unit selected in the context, and the reads sent so far. -/
structure UnitLine (ω : Type) where
  dev : ω
  slave : UInt16
  requests : List ReadRequest := []

variable {ω : Type}

/-- The calls of libmodbus on such a line. -/
def unitLib (d : UnitDevice ω) : ModbusLib (UnitLine ω) where
  nowUs line := ((d.nowUs line.dev).1, { line with dev := (d.nowUs line.dev).2 })
  newTcp host port line :=
    ((d.newTcp host port line.dev).1, { line with dev := (d.newTcp host port line.dev).2 })
  connect line := ((d.connect line.dev).1, { line with dev := (d.connect line.dev).2 })
  -- a unit that cannot be selected leaves the one before it selected
  setSlave unit line :=
    (d.selectable unit, if d.selectable unit then { line with slave := unit } else line)
  readRegisters offset width line :=
    let r := d.readRegisters line.slave offset width line.dev
    (r.1, { line with
      dev := r.2
      requests := line.requests ++ [⟨line.slave, offset, width, r.1.1, r.1.2⟩] })
  writeRegister offset value line :=
    let r := d.writeRegister line.slave offset value line.dev
    (r.1, { line with dev := r.2 })
  writeRegisters offset values line :=
    let r := d.writeRegisters line.slave offset values line.dev
    (r.1, { line with dev := r.2 })
  close line := { line with dev := d.close line.dev }
  free line := { line with dev := d.free line.dev }

/-! ## Selecting before every read

The poll of the source selects a unit only if another one was selected last. Here is the poll
without that saving. -/

variable {σ : Type}

/-- A turn of the plain poll: the unit is selected whatever was selected before. -/
def pollNodeSelecting (lib : ModbusLib σ) (_ : Nat) (node : EdgeNode) (bus : Bus σ) :
    Turn EdgeStatus EdgeNode (Bus σ) :=
  if node.modbusRegister < edgeModbusRegisterBase then { elem := node, state := bus }
  else
    let width := registerWidthForNode node
    let sel := bus.setSlave lib node.modbusUnit
    if sel.1 = false then
      { elem := node
        state := { sel.2 with modbus.readErrorCount := sel.2.modbus.readErrorCount + 1 } }
    else
      let r := sel.2.readRegisters lib (registerOffset node) width
      if r.1.1 ≠ width then
        { elem := node
          state := edgeModbusDisconnect lib
            { r.2 with modbus.readErrorCount := r.2.modbus.readErrorCount + 1 }
          exit := some .ok }
      else
        { elem := applyRegistersToNode node r.1.2
          state := { r.2 with modbus.readOkCount := r.2.modbus.readOkCount + 1 } }

/-- The poll that `edge_modbus_poll` is compared with. -/
def edgeModbusPollSelecting (lib : ModbusLib σ) (bus : Bus σ) (nodes : List EdgeNode) :
    EdgeStatus × Bus σ × List EdgeNode :=
  let counted := { bus with modbus.pollCount := bus.modbus.pollCount + 1 }
  if counted.modbus.enabled = false then (.ok, counted, nodes)
  else
    let up := ensureConnected lib counted
    if up.1 ≠ .ok then (.ok, up.2, nodes)
    else
      let t := sweep (pollNodeSelecting lib) 0 nodes up.2
      (t.exit.getD .ok, t.state, t.elem)

/-! ## The simulation

The two polls send different calls but leave the line alike: the unit that the cache thinks
selected is selected. -/

/-- The same record and the same world; the calls made so far may differ. -/
structure Bus.SameWorld (a b : Bus σ) : Prop where
  modbus : a.modbus = b.modbus
  env : a.env = b.env

theorem Bus.SameWorld.disconnect {lib : ModbusLib σ} {a b : Bus σ} (h : a.SameWorld b) :
    (edgeModbusDisconnect lib a).SameWorld (edgeModbusDisconnect lib b) := by
  unfold edgeModbusDisconnect
  rw [← h.modbus]
  cases hctx : a.modbus.ctx with
  | none => exact h
  | some ctx =>
    refine ⟨?_, ?_⟩
    · show { a.modbus with ctx := none, connected := false }
        = { b.modbus with ctx := none, connected := false }
      rw [h.modbus]
    · show lib.free (lib.close a.env) = lib.free (lib.close b.env)
      rw [h.env]

/-- The cached and the plain loop side by side. What the cache remembers is what the context has
selected, and a unit that has been selected once can be selected again. -/
structure CacheAgrees (d : UnitDevice ω) (s : PollState (UnitLine ω)) (bus : Bus (UnitLine ω)) :
    Prop where
  world : s.bus.SameWorld bus
  slave : s.unitSet = true → s.bus.env.slave = s.currentUnit
  selectable : s.unitSet = true → d.selectable s.currentUnit = true

/-- After the selection of a node's unit the two loops are at the same place again: both have it
selected, or neither could select it. -/
theorem selectUnit_agrees {d : UnitDevice ω} {s : PollState (UnitLine ω)}
    {bus : Bus (UnitLine ω)} (h : CacheAgrees d s bus) (node : EdgeNode) :
    (selectUnit (unitLib d) node s).1 = d.selectable node.modbusUnit ∧
      (bus.setSlave (unitLib d) node.modbusUnit).1 = d.selectable node.modbusUnit ∧
      CacheAgrees d (selectUnit (unitLib d) node s).2
        (bus.setSlave (unitLib d) node.modbusUnit).2 := by
  have hplain : (bus.setSlave (unitLib d) node.modbusUnit).2.env
      = if d.selectable node.modbusUnit then { bus.env with slave := node.modbusUnit }
        else bus.env := rfl
  unfold selectUnit
  by_cases hselect : s.unitSet = false ∨ s.currentUnit ≠ node.modbusUnit
  · rw [if_pos hselect]
    have hcached : (s.bus.setSlave (unitLib d) node.modbusUnit).2.env
        = if d.selectable node.modbusUnit then { s.bus.env with slave := node.modbusUnit }
          else s.bus.env := rfl
    have hanswer : (s.bus.setSlave (unitLib d) node.modbusUnit).1
        = d.selectable node.modbusUnit := rfl
    have hworld : (s.bus.setSlave (unitLib d) node.modbusUnit).2.SameWorld
        (bus.setSlave (unitLib d) node.modbusUnit).2 :=
      ⟨h.world.modbus, by rw [hplain, hcached, h.world.env]⟩
    dsimp only
    rw [hanswer]
    cases hselectable : d.selectable node.modbusUnit with
    | true =>
      rw [hselectable, if_pos rfl] at hcached
      exact ⟨rfl, hselectable, hworld, fun _ => congrArg UnitLine.slave hcached,
        fun _ => hselectable⟩
    | false =>
      -- nothing was selected: the cache and the context stay as they were
      rw [hselectable, if_neg Bool.false_ne_true] at hcached
      exact ⟨rfl, hselectable, hworld,
        fun hset => (congrArg UnitLine.slave hcached).trans (h.slave hset), h.selectable⟩
  · rw [if_neg hselect]
    simp only [not_or, Bool.not_eq_false, not_not] at hselect
    obtain ⟨hset, hunit⟩ := hselect
    have hselectable : d.selectable node.modbusUnit = true := hunit ▸ h.selectable hset
    rw [hselectable, if_pos rfl] at hplain
    refine ⟨hselectable.symm, rfl, ⟨h.world.modbus, ?_⟩, h.slave, h.selectable⟩
    -- the plain loop selects what is selected already
    rw [hplain, ← h.world.env, ← hunit, ← h.slave hset]

theorem Bus.SameWorld.readRegisters (lib : ModbusLib σ) {a b : Bus σ} (h : a.SameWorld b)
    (offset : Int) (width : Nat) :
    (a.readRegisters lib offset width).1 = (b.readRegisters lib offset width).1 ∧
      (a.readRegisters lib offset width).2.SameWorld (b.readRegisters lib offset width).2 := by
  unfold Bus.readRegisters
  dsimp only
  rw [h.env]
  exact ⟨rfl, h.modbus, rfl⟩

/-- A change of the counters that depends on nothing but the record. -/
theorem Bus.SameWorld.count {a b : Bus σ} (h : a.SameWorld b) (f : EdgeModbus → EdgeModbus) :
    Bus.SameWorld { a with modbus := f a.modbus } { b with modbus := f b.modbus } :=
  ⟨congrArg f h.modbus, h.env⟩

/-- Disconnecting selects no unit and reads nothing. -/
theorem edgeModbusDisconnect_line (d : UnitDevice ω) (bus : Bus (UnitLine ω)) :
    (edgeModbusDisconnect (unitLib d) bus).env.slave = bus.env.slave ∧
      (edgeModbusDisconnect (unitLib d) bus).env.requests = bus.env.requests := by
  unfold edgeModbusDisconnect
  split
  · exact ⟨rfl, rfl⟩
  · exact ⟨rfl, rfl⟩

/-- One node. Where the cache skips a selection, selecting again would change nothing. -/
theorem pollNode_agrees {d : UnitDevice ω} {s : PollState (UnitLine ω)} {bus : Bus (UnitLine ω)}
    (h : CacheAgrees d s bus) (i : Nat) (node : EdgeNode) :
    (pollNode (unitLib d) i node s).elem = (pollNodeSelecting (unitLib d) i node bus).elem ∧
      (pollNode (unitLib d) i node s).exit = (pollNodeSelecting (unitLib d) i node bus).exit ∧
      CacheAgrees d (pollNode (unitLib d) i node s).state
        (pollNodeSelecting (unitLib d) i node bus).state := by
  obtain ⟨hcached, hplain, hsel⟩ := selectUnit_agrees h node
  obtain ⟨hanswer, hread⟩ := hsel.world.readRegisters (unitLib d) (registerOffset node)
    (registerWidthForNode node)
  unfold pollNode pollNodeSelecting
  by_cases hbelow : node.modbusRegister < edgeModbusRegisterBase
  · rw [if_pos hbelow, if_pos hbelow]
    exact ⟨rfl, rfl, h⟩
  · rw [if_neg hbelow, if_neg hbelow]
    dsimp only
    rw [hcached, hplain]
    cases hselectable : d.selectable node.modbusUnit with
    | false =>
      rw [if_pos rfl, if_pos rfl]
      exact ⟨rfl, rfl, hsel.world.count fun m => { m with readErrorCount := m.readErrorCount + 1 },
        hsel.slave, hsel.selectable⟩
    | true =>
      simp only [Bool.true_eq_false, if_false, hanswer]
      split_ifs
      · -- a failed read drops the connection in both, and with it no selection is lost
        have hcounted := hread.count fun m => { m with readErrorCount := m.readErrorCount + 1 }
        refine ⟨rfl, rfl, hcounted.disconnect, fun hset => ?_, hsel.selectable⟩
        exact (edgeModbusDisconnect_line d _).1.trans (hsel.slave hset)
      · exact ⟨rfl, rfl, hread.count fun m => { m with readOkCount := m.readOkCount + 1 },
          hsel.slave, hsel.selectable⟩

/-- The two polls as a whole. -/
theorem edgeModbusPoll_agrees (d : UnitDevice ω) (bus : Bus (UnitLine ω)) (nodes : List EdgeNode) :
    (edgeModbusPoll (unitLib d) bus nodes).2.2 =
        (edgeModbusPollSelecting (unitLib d) bus nodes).2.2 ∧
      (edgeModbusPoll (unitLib d) bus nodes).1 =
        (edgeModbusPollSelecting (unitLib d) bus nodes).1 ∧
      (edgeModbusPoll (unitLib d) bus nodes).2.1.SameWorld
        (edgeModbusPollSelecting (unitLib d) bus nodes).2.1 := by
  unfold edgeModbusPoll edgeModbusPollSelecting
  dsimp only
  split_ifs
  · exact ⟨rfl, rfl, rfl, rfl⟩
  · exact ⟨rfl, rfl, rfl, rfl⟩
  · -- nothing is remembered at the start of the loop, whatever unit is selected
    obtain ⟨helem, hexit, hstate⟩ := sweep_simulates (CacheAgrees d)
      (fun i node s bus h => pollNode_agrees h i node) nodes 0 _ _
      (⟨⟨rfl, rfl⟩, nofun, nofun⟩ : CacheAgrees d
        { bus := (ensureConnected (unitLib d)
            { bus with modbus.pollCount := bus.modbus.pollCount + 1 }).2 } _)
    exact ⟨helem, congrArg (Option.getD · .ok) hexit, hstate.world⟩

/-! ## What a poll reads and stores

Every read that a poll sends is the read of a node, at the unit, offset and width of that node. -/

/-- The read of the node, sent to the node's own unit, with the device's answer. -/
structure ReadRequest.For (d : UnitDevice ω) (node : EdgeNode) (r : ReadRequest) : Prop where
  unit : r.unit = node.modbusUnit
  offset : r.offset = registerOffset node
  width : r.width = registerWidthForNode node
  answer : ∃ dev, (d.readRegisters r.unit r.offset r.width dev).1 = (r.count, r.registers)

/-- As many registers as were asked for. -/
def ReadRequest.Succeeded (r : ReadRequest) : Prop := r.count = r.width

/-- A poll that gets as far as the node sends a read for it. -/
def UnitDevice.Attempts (d : UnitDevice ω) (node : EdgeNode) : Prop :=
  edgeModbusRegisterBase ≤ node.modbusRegister ∧ d.selectable node.modbusUnit = true

/-- The reads of a poll and the nodes after it. Up to the first failing read, the nodes that are
read get what the device answered, and those that are skipped or whose unit cannot be selected keep
their value; the failing one and all after it keep theirs. -/
inductive PollTrace (d : UnitDevice ω) :
    List EdgeNode → List ReadRequest → List EdgeNode → Prop
  | done : PollTrace d [] [] []
  | skipped {node rest reads rest'} (hskip : ¬ d.Attempts node)
      (hrest : PollTrace d rest reads rest') :
      PollTrace d (node :: rest) reads (node :: rest')
  | read {node rest r reads rest'} (hattempt : d.Attempts node) (hfor : r.For d node)
      (hok : r.Succeeded) (hrest : PollTrace d rest reads rest') :
      PollTrace d (node :: rest) (r :: reads) (applyRegistersToNode node r.registers :: rest')
  | failed {node rest r} (hattempt : d.Attempts node) (hfor : r.For d node)
      (hfailed : ¬ r.Succeeded) :
      PollTrace d (node :: rest) [r] (node :: rest)

/-- The read that is sent next for the node, and its answer. -/
def requestOf (d : UnitDevice ω) (node : EdgeNode) (bus : Bus (UnitLine ω)) : ReadRequest where
  unit := bus.env.slave
  offset := registerOffset node
  width := registerWidthForNode node
  count := (bus.readRegisters (unitLib d) (registerOffset node) (registerWidthForNode node)).1.1
  registers :=
    (bus.readRegisters (unitLib d) (registerOffset node) (registerWidthForNode node)).1.2

/-- A request sent for a node asks for that node's registers. -/
theorem requestOf_for (d : UnitDevice ω) (node : EdgeNode) {bus : Bus (UnitLine ω)}
    (hunit : bus.env.slave = node.modbusUnit) : (requestOf d node bus).For d node where
  unit := hunit
  offset := rfl
  width := rfl
  answer := ⟨bus.env.dev, rfl⟩

/-- The three kinds of turns of the plain poll. -/
theorem pollNodeSelecting_cases (d : UnitDevice ω) (i : Nat) (node : EdgeNode)
    (bus : Bus (UnitLine ω)) :
    ¬ d.Attempts node ∧ (pollNodeSelecting (unitLib d) i node bus).exit = none ∧
        (pollNodeSelecting (unitLib d) i node bus).elem = node ∧
        (pollNodeSelecting (unitLib d) i node bus).state.env.requests = bus.env.requests ∨
      d.Attempts node ∧ ∃ r : ReadRequest, r.For d node ∧
        (pollNodeSelecting (unitLib d) i node bus).state.env.requests = bus.env.requests ++ [r] ∧
        (r.Succeeded ∧ (pollNodeSelecting (unitLib d) i node bus).exit = none ∧
            (pollNodeSelecting (unitLib d) i node bus).elem =
              applyRegistersToNode node r.registers ∨
          ¬ r.Succeeded ∧ (pollNodeSelecting (unitLib d) i node bus).exit = some .ok ∧
            (pollNodeSelecting (unitLib d) i node bus).elem = node) := by
  unfold pollNodeSelecting
  dsimp only
  by_cases hbelow : node.modbusRegister < edgeModbusRegisterBase
  · rw [if_pos hbelow]
    exact .inl ⟨fun h => absurd h.1 (UInt32.not_le.mpr hbelow), rfl, rfl, rfl⟩
  · rw [if_neg hbelow]
    have hanswer : (bus.setSlave (unitLib d) node.modbusUnit).1
        = d.selectable node.modbusUnit := rfl
    have henv : (bus.setSlave (unitLib d) node.modbusUnit).2.env
        = if d.selectable node.modbusUnit then { bus.env with slave := node.modbusUnit }
          else bus.env := rfl
    rw [hanswer]
    cases hselectable : d.selectable node.modbusUnit with
    | false =>
      rw [hselectable, if_neg Bool.false_ne_true] at henv
      rw [if_pos rfl]
      exact .inl ⟨fun h => Bool.false_ne_true (hselectable.symm.trans h.2), rfl, rfl,
        congrArg UnitLine.requests henv⟩
    | true =>
      rw [hselectable, if_pos rfl] at henv
      -- the read goes to the unit that has just been selected
      have hunit : (bus.setSlave (unitLib d) node.modbusUnit).2.env.slave = node.modbusUnit :=
        congrArg UnitLine.slave henv
      have hbefore : (bus.setSlave (unitLib d) node.modbusUnit).2.env.requests
          = bus.env.requests := (congrArg UnitLine.requests henv).trans rfl
      simp only [Bool.true_eq_false, if_false]
      refine .inr ⟨⟨UInt32.not_lt.mp hbelow, hselectable⟩, _, requestOf_for d node hunit, ?_⟩
      rw [← hbefore]
      generalize (bus.setSlave (unitLib d) node.modbusUnit).2 = sel
      split_ifs with hcount
      · exact ⟨(edgeModbusDisconnect_line d _).2, .inr ⟨hcount, rfl, rfl⟩⟩
      · exact ⟨rfl, .inl ⟨not_not.mp hcount, rfl, rfl⟩⟩

/-- **The plain loop reads and stores as a trace says.** -/
theorem sweep_pollNodeSelecting_trace (d : UnitDevice ω) :
    ∀ (nodes : List EdgeNode) (i : Nat) (bus : Bus (UnitLine ω)),
      ∃ reads,
        (sweep (pollNodeSelecting (unitLib d)) i nodes bus).state.env.requests =
            bus.env.requests ++ reads ∧
          PollTrace d nodes reads (sweep (pollNodeSelecting (unitLib d)) i nodes bus).elem := by
  intro nodes
  induction nodes with
  | nil => intro i bus; exact ⟨[], (List.append_nil _).symm, .done⟩
  | cons node rest ih =>
    intro i bus
    obtain ⟨hskip, hexit, helem, hsame⟩ | ⟨hattempt, r, hfor, hmore, hcase⟩ :=
      pollNodeSelecting_cases d i node bus
    · -- a node that is not read
      obtain ⟨reads, hreads, htrace⟩ := ih (i + 1) (pollNodeSelecting (unitLib d) i node bus).state
      rw [sweep_cons_next hexit, helem]
      exact ⟨reads, by rw [hreads, hsame], .skipped hskip htrace⟩
    · -- a read that succeeds, and one that ends the poll
      obtain ⟨hok, hexit, helem⟩ | ⟨hfailed, hexit, helem⟩ := hcase
      · obtain ⟨reads, hreads, htrace⟩ :=
          ih (i + 1) (pollNodeSelecting (unitLib d) i node bus).state
        rw [sweep_cons_next hexit, helem]
        refine ⟨r :: reads, ?_, .read hattempt hfor hok htrace⟩
        rw [hreads, hmore, List.append_assoc, List.singleton_append]
      · rw [sweep_cons_exit hexit, helem]
        exact ⟨[r], hmore, .failed hattempt hfor hfailed⟩

/-! ## Agreement

Both polls therefore send the same reads and decode the same answers. -/

/-- Everything of a node but its value. -/
def EdgeNode.unvalued (node : EdgeNode) : EdgeNode := { node with value := {} }

theorem applyRegistersToNode_unvalued (node : EdgeNode) (raw : List (BitVec 16)) :
    (applyRegistersToNode node raw).unvalued = node.unvalued := by
  unfold applyRegistersToNode
  dsimp only
  split <;> rfl

/-- What a poll (`cached`) and the plain poll (`plain`) leave behind, both started on `bus`. -/
structure CachedPollAgrees (d : UnitDevice ω) (bus : Bus (UnitLine ω)) (nodes : List EdgeNode)
    (cached plain : EdgeStatus × Bus (UnitLine ω) × List EdgeNode) : Prop where
  status : cached.1 = plain.1
  polled : cached.2.2 = plain.2.2
  readOkCount : cached.2.1.modbus.readOkCount = plain.2.1.modbus.readOkCount
  readErrorCount : cached.2.1.modbus.readErrorCount = plain.2.1.modbus.readErrorCount
  pollCount : cached.2.1.modbus.pollCount = plain.2.1.modbus.pollCount
  connected : cached.2.1.modbus.connected = plain.2.1.modbus.connected
  requests : cached.2.1.env.requests = plain.2.1.env.requests
  trace : bus.modbus.enabled = true →
    ∃ reads, cached.2.1.env.requests = bus.env.requests ++ reads ∧
      PollTrace d nodes reads cached.2.2
  disabled : bus.modbus.enabled = false →
    cached.2.1.env.requests = bus.env.requests ∧ cached.2.2 = nodes
  unvalued : cached.2.2.map EdgeNode.unvalued = nodes.map EdgeNode.unvalued

/-- The trace of a poll on a connected bus. -/
theorem edgeModbusPoll_trace (d : UnitDevice ω) {bus : Bus (UnitLine ω)} (nodes : List EdgeNode)
    (henabled : bus.modbus.enabled = true)
    (hup : (ensureConnected (unitLib d)
      { bus with modbus.pollCount := bus.modbus.pollCount + 1 }).1 = .ok) :
    ∃ reads,
      (edgeModbusPoll (unitLib d) bus nodes).2.1.env.requests =
          (ensureConnected (unitLib d)
            { bus with modbus.pollCount := bus.modbus.pollCount + 1 }).2.env.requests ++ reads ∧
        PollTrace d nodes reads (edgeModbusPoll (unitLib d) bus nodes).2.2 := by
  obtain ⟨hnodes, -, hworld⟩ := edgeModbusPoll_agrees d bus nodes
  rw [hnodes, hworld.env]
  unfold edgeModbusPollSelecting
  rw [if_neg (by rw [henabled]; decide)]
  simp only [hup, ne_eq, not_true_eq_false, if_false]
  exact sweep_pollNodeSelecting_trace d nodes 0 _

/-- **Remembering the unit changes nothing**: the poll does what a poll that selects the unit before
every read does, whatever unit was selected before and whatever the device answers. -/
theorem cached_poll_agrees (d : UnitDevice ω) (bus : Bus (UnitLine ω)) (nodes : List EdgeNode)
    (hconnected : bus.modbus.connected = true) :
    CachedPollAgrees d bus nodes (edgeModbusPoll (unitLib d) bus nodes)
      (edgeModbusPollSelecting (unitLib d) bus nodes) := by
  obtain ⟨hnodes, hstatus, hworld⟩ := edgeModbusPoll_agrees d bus nodes
  -- the link is up, so the poll starts without a connect
  have hup : ensureConnected (unitLib d)
      { bus with modbus.pollCount := bus.modbus.pollCount + 1 } =
        (.ok, { bus with modbus.pollCount := bus.modbus.pollCount + 1 }) := if_pos hconnected
  refine ⟨hstatus, hnodes, congrArg EdgeModbus.readOkCount hworld.modbus,
    congrArg EdgeModbus.readErrorCount hworld.modbus, congrArg EdgeModbus.pollCount hworld.modbus,
    congrArg EdgeModbus.connected hworld.modbus, congrArg UnitLine.requests hworld.env,
    fun henabled => ?_, fun hdisabled => ?_,
    edgeModbusPoll_map _ applyRegistersToNode_unvalued _ bus nodes⟩
  · obtain ⟨reads, hreads, htrace⟩ := edgeModbusPoll_trace d nodes henabled (by rw [hup])
    rw [hup] at hreads
    exact ⟨reads, hreads, htrace⟩
  · unfold edgeModbusPoll
    rw [if_pos hdisabled]
    exact ⟨rfl, rfl⟩

/-- Two units behind one gateway; the second has no register above offset 8. -/
def gateway : UnitDevice Nat where
  nowUs n := (0, n)
  newTcp _ _ n := (true, n)
  connect n := (true, n)
  selectable unit := unit ≤ 2
  readRegisters unit offset width n :=
    ((if unit = 2 ∧ 8 < offset then -1 else width, List.replicate width (BitVec.ofNat 16 n)), n + 1)
  writeRegister _ _ _ n := (1, n)
  writeRegisters _ _ values n := (values.length, n)
  close n := n
  free n := n

/-- A connected bus on which the last writeback went to unit 2. -/
def gatewayBus : Bus (UnitLine Nat) where
  modbus :=
    { host := lit "127.0.0.1", port := 502, connected := true, enabled := true, ctx := some 0 }
  env := { dev := 7, slave := 2 }
  created := 1

/-- A node of unit 1, one of a unit that cannot be selected, and two of unit 2. -/
def gatewayNodes : List EdgeNode :=
  [(1, 40001), (3, 40001), (2, 40005), (2, 40012)].map fun (unit, register) =>
    { dataType := .int16, modbusUnit := unit, modbusRegister := register }

theorem gateway_poll_agrees :
    CachedPollAgrees gateway gatewayBus gatewayNodes
      (edgeModbusPoll (unitLib gateway) gatewayBus gatewayNodes)
      (edgeModbusPollSelecting (unitLib gateway) gatewayBus gatewayNodes) :=
  cached_poll_agrees gateway gatewayBus gatewayNodes rfl

end OpcuaEdge
