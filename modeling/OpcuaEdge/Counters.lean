import OpcuaEdge.ModbusLink

/-!
# OpcuaEdge — what the counters of the Modbus link count

`edge_modbus.c` keeps five counters. Here they are audited against the calls of libmodbus: whatever
the line answers, and in whichever order the operations come, each complete read and each complete
write on the line has been counted, each read that failed and each writeback that returned an error
too, and nothing else (`counters_exact`). The counters have 64 bits and the auditor's have not, so
they agree modulo `2 ^ 64`. Only `edge_modbus_clear` starts again from zero.
-/

namespace OpcuaEdge

open CStr CLoop

variable {σ : Type}

/-! ## Accounts

What an audit of the calls gives, in numbers without bound. The link's own counters are these
modulo 2^64 (`Shows`), as they are `uint64_t`. -/

/-- One account for each counter of `EdgeModbus`. -/
structure Counters where
  polls : Nat := 0
  readsOk : Nat := 0
  readErrors : Nat := 0
  writesOk : Nat := 0
  writeErrors : Nat := 0
  deriving DecidableEq, Repr

namespace Counters

/-- Accounts of two stretches of time add up. -/
def add (c d : Counters) : Counters where
  polls := c.polls + d.polls
  readsOk := c.readsOk + d.readsOk
  readErrors := c.readErrors + d.readErrors
  writesOk := c.writesOk + d.writesOk
  writeErrors := c.writeErrors + d.writeErrors

instance : Add Counters := ⟨add⟩

theorem add_def (c d : Counters) : c + d = c.add d := rfl

theorem add_assoc (c d e : Counters) : c + d + e = c + (d + e) := by
  simp only [add_def, add, Nat.add_assoc]

@[simp] theorem add_empty (c : Counters) : c + {} = c := rfl

@[simp] theorem empty_add (c : Counters) : {} + c = c := by
  simp only [add_def, add, Nat.zero_add]

end Counters

/-- The five counters of the link are these, modulo `2 ^ 64`. -/
def EdgeModbus.Shows (modbus : EdgeModbus) (c : Counters) : Prop :=
  modbus.pollCount = .ofNat c.polls ∧ modbus.readOkCount = .ofNat c.readsOk ∧
    modbus.readErrorCount = .ofNat c.readErrors ∧ modbus.writeOkCount = .ofNat c.writesOk ∧
    modbus.writeErrorCount = .ofNat c.writeErrors

/-- Adding one wraps on both sides alike. -/
theorem wrapped_succ {x : UInt64} {n : Nat} (h : x = .ofNat n) : x + 1 = .ofNat (n + 1) := by
  rw [h, UInt64.ofNat_add]
  rfl

namespace EdgeModbus.Shows

variable {modbus : EdgeModbus}

/-- Each increment of the source adds one to its account; first that of a poll .. -/
theorem poll (c : Counters) (h : modbus.Shows c) :
    ({ modbus with pollCount := modbus.pollCount + 1 } : EdgeModbus).Shows
      (c + { polls := 1 }) := by
  obtain ⟨hpolls, hreads, hreadErrors, hwrites, hwriteErrors⟩ := h
  exact ⟨wrapped_succ hpolls, hreads, hreadErrors, hwrites, hwriteErrors⟩

/-- .. of a complete read .. -/
theorem readOk (c : Counters) (h : modbus.Shows c) :
    ({ modbus with readOkCount := modbus.readOkCount + 1 } : EdgeModbus).Shows
      (c + { readsOk := 1 }) := by
  obtain ⟨hpolls, hreads, hreadErrors, hwrites, hwriteErrors⟩ := h
  exact ⟨hpolls, wrapped_succ hreads, hreadErrors, hwrites, hwriteErrors⟩

/-- .. of a failed read .. -/
theorem readError (c : Counters) (h : modbus.Shows c) :
    ({ modbus with readErrorCount := modbus.readErrorCount + 1 } : EdgeModbus).Shows
      (c + { readErrors := 1 }) := by
  obtain ⟨hpolls, hreads, hreadErrors, hwrites, hwriteErrors⟩ := h
  exact ⟨hpolls, hreads, wrapped_succ hreadErrors, hwrites, hwriteErrors⟩

/-- .. of a complete write .. -/
theorem writeOk (c : Counters) (h : modbus.Shows c) :
    ({ modbus with writeOkCount := modbus.writeOkCount + 1 } : EdgeModbus).Shows
      (c + { writesOk := 1 }) := by
  obtain ⟨hpolls, hreads, hreadErrors, hwrites, hwriteErrors⟩ := h
  exact ⟨hpolls, hreads, hreadErrors, wrapped_succ hwrites, hwriteErrors⟩

/-- .. and of a writeback that failed. -/
theorem writeError (c : Counters) (h : modbus.Shows c) :
    ({ modbus with writeErrorCount := modbus.writeErrorCount + 1 } : EdgeModbus).Shows
      (c + { writeErrors := 1 }) := by
  obtain ⟨hpolls, hreads, hreadErrors, hwrites, hwriteErrors⟩ := h
  exact ⟨hpolls, hreads, hreadErrors, hwrites, wrapped_succ hwriteErrors⟩

end EdgeModbus.Shows

/-- A read that brought all the registers it asked for. -/
def ModbusCall.readsFully : ModbusCall → Bool
  | .readRegisters _ _ width count => decide (count = width)
  | _ => false

/-- What keeps a node of a poll from being read: a unit that cannot be selected, or a read that
brought another number of registers. -/
def ModbusCall.readFails : ModbusCall → Bool
  | .setSlave _ _ ok => !ok
  | .readRegisters _ _ width count => decide (count ≠ width)
  | _ => false

/-- A write that took all the registers it was given. -/
def ModbusCall.writesFully : ModbusCall → Bool
  | .writeRegister _ _ _ count => decide (count = 1)
  | .writeRegisters _ _ values count => decide (count = values.length)
  | _ => false

/-- The account of the calls of a poll. -/
def readAccount (calls : List ModbusCall) : Counters where
  readsOk := calls.countP ModbusCall.readsFully
  readErrors := calls.countP ModbusCall.readFails

/-- The account of two lists of calls is the sum of theirs. -/
theorem readAccount_append (a b : List ModbusCall) :
    readAccount (a ++ b) = readAccount a + readAccount b := by
  simp only [readAccount, List.countP_append]
  rfl

/-- The account of the calls of a writeback that returned `status`. -/
def writeAccount (status : EdgeStatus) (calls : List ModbusCall) : Counters where
  writesOk := calls.countP ModbusCall.writesFully
  writeErrors := if status = .error then 1 else 0

/-- The calls of libmodbus that an operation makes. -/
def LinkOp.calls (lib : ModbusLib σ) (bus : Bus σ) (op : LinkOp) : List ModbusCall :=
  (op.run lib bus).calls.drop bus.calls.length

/-- The counters after an operation, as an auditor of the line would keep them. -/
def LinkOp.audit (lib : ModbusLib σ) (bus : Bus σ) (c : Counters) : LinkOp → Counters
  | .connect => c
  | .poll nodes => c + ({ polls := 1 } + readAccount (LinkOp.calls lib bus (.poll nodes)))
  | .writeNode node =>
    c + writeAccount (edgeModbusWriteNode lib bus node).1 (LinkOp.calls lib bus (.writeNode node))
  | .disconnect => c
  | .clear => {}

/-- The account of a whole run, operation by operation. -/
def audited (lib : ModbusLib σ) : List LinkOp → Bus σ → Counters → Counters
  | [], _, c => c
  | op :: rest, bus, c => audited lib rest (op.run lib bus) (op.audit lib bus c)

/-! ## Steps on the line

An operation is metered by `d` if it has made the calls `new` and its counters have moved on by
`d`. Most operations move none, and are made of calls that no account looks at. -/

/-- From `a` to `b` the calls `new` were made, and the counters went up by `d`. -/
structure Metered (d : Counters) (new : List ModbusCall) (a b : Bus σ) : Prop where
  calls : b.calls = a.calls ++ new
  counters : ∀ c, a.modbus.Shows c → b.modbus.Shows (c + d)

namespace Metered

theorem refl (bus : Bus σ) : Metered {} [] bus bus := ⟨by simp, fun _ h => h⟩

theorem trans {d e : Counters} {new more : List ModbusCall} {a b c : Bus σ}
    (hab : Metered d new a b) (hbc : Metered e more b c) :
    Metered (d + e) (new ++ more) a c := by
  constructor
  · rw [hbc.calls, hab.calls, List.append_assoc]
  · intro k h
    rw [← Counters.add_assoc]
    exact hbc.counters _ (hab.counters k h)

/-- A call that nothing has counted yet. -/
theorem log {d : Counters} {new : List ModbusCall} {a b : Bus σ} (hab : Metered d new a b)
    (env : σ) (call : ModbusCall) : Metered d (new ++ [call]) a (b.log env call) := by
  have hcall : Metered {} [call] b (b.log env call) := ⟨rfl, fun _ h => h⟩
  exact hab.trans hcall

/-- Counting in between the calls. -/
theorem count {d : Counters} (e : Counters) {new : List ModbusCall} {a b c : Bus σ}
    (hab : Metered d new a b) (hcalls : c.calls = b.calls)
    (hcounters : ∀ k, b.modbus.Shows k → c.modbus.Shows (k + e)) : Metered (d + e) new a c := by
  constructor
  · rw [hcalls, hab.calls]
  · intro k h
    rw [← Counters.add_assoc]
    exact hcounters _ (hab.counters k h)

end Metered

/-- Calls that neither a poll nor a writeback accounts for. -/
structure Idle (new : List ModbusCall) : Prop where
  reads : readAccount new = {}
  writes : new.countP ModbusCall.writesFully = 0

theorem Idle.nil : Idle [] := ⟨rfl, rfl⟩

/-- Calls that no account looks at, after others of the kind. -/
theorem Idle.append {a b : List ModbusCall} (ha : Idle a) (hb : Idle b) : Idle (a ++ b) where
  reads := by rw [readAccount_append, ha.reads, hb.reads]; rfl
  writes := by rw [List.countP_append, ha.writes, hb.writes]

/-- Steps that make and break the connection. -/
def Unmetered (a b : Bus σ) : Prop := ∃ new, Idle new ∧ Metered {} new a b

theorem Unmetered.refl (bus : Bus σ) : Unmetered bus bus := ⟨[], .nil, .refl bus⟩

theorem Unmetered.trans {a b c : Bus σ} (hab : Unmetered a b) (hbc : Unmetered b c) :
    Unmetered a c := by
  obtain ⟨new, hidle, hmetered⟩ := hab
  obtain ⟨more, hidle', hmetered'⟩ := hbc
  exact ⟨new ++ more, hidle.append hidle', hmetered.trans hmetered'⟩

/-- An operation without calls, which touches other fields. -/
theorem Unmetered.of_eq {a b : Bus σ} (hcalls : b.calls = a.calls)
    (hcounters : ∀ k, a.modbus.Shows k → b.modbus.Shows k) : Unmetered a b :=
  ⟨[], .nil, by rw [hcalls, List.append_nil], hcounters⟩

theorem Unmetered.log (bus : Bus σ) (env : σ) {call : ModbusCall} (h : Idle [call]) :
    Unmetered bus (bus.log env call) := ⟨[call], h, rfl, fun _ h => h⟩

section Steps

variable (lib : ModbusLib σ)

theorem noteConnectFailure_unmetered (bus : Bus σ) :
    Unmetered bus (noteConnectFailure lib bus) := .of_eq rfl fun _ h => h

/-- Connecting is counted nowhere. -/
theorem edgeModbusConnect_unmetered (bus : Bus σ) :
    Unmetered bus (edgeModbusConnect lib bus).2 := by
  have hgate : Unmetered bus (backoffGate lib bus).2 := by
    unfold backoffGate
    split
    · exact .of_eq rfl fun _ h => h
    · exact .refl bus
  unfold edgeModbusConnect
  dsimp only
  split_ifs
  · exact .refl bus
  · exact .refl bus
  · exact hgate
  · -- along the branches of the source: no account looks at a context being made or connected
    have hnew : Unmetered bus ((backoffGate lib bus).2.newTcp lib).2 := by
      apply hgate.trans
      unfold Bus.newTcp
      dsimp only
      split
      · exact ⟨[_], ⟨rfl, rfl⟩, rfl, fun _ h => h⟩
      · exact .log _ _ ⟨rfl, rfl⟩
    split
    · exact hnew.trans (noteConnectFailure_unmetered lib _)
    · next ctx _ =>
      have hup := hnew.trans (.log _ _ ⟨rfl, rfl⟩ :
        Unmetered _ ((((backoffGate lib bus).2.newTcp lib).2.connect lib ctx).2))
      split
      · exact hup.trans (.of_eq rfl fun _ h => h)
      · exact (hup.trans (.log _ _ ⟨rfl, rfl⟩)).trans (noteConnectFailure_unmetered lib _)

/-- Nor is disconnecting .. -/
theorem edgeModbusDisconnect_unmetered (bus : Bus σ) :
    Unmetered bus (edgeModbusDisconnect lib bus) := by
  unfold edgeModbusDisconnect
  split
  · exact .refl bus
  · next ctx _ =>
    have hclose := Unmetered.log bus (lib.close bus.env) (⟨rfl, rfl⟩ : Idle [.close ctx])
    have hfree := Unmetered.log (bus.close lib ctx) (lib.free (lib.close bus.env))
      (⟨rfl, rfl⟩ : Idle [.free ctx])
    exact (hclose.trans hfree).trans (.of_eq rfl fun _ h => h)

/-- .. or connecting where it is needed. -/
theorem ensureConnected_unmetered (bus : Bus σ) :
    Unmetered bus (ensureConnected lib bus).2 := by
  unfold ensureConnected
  split
  · exact .refl bus
  · exact edgeModbusConnect_unmetered lib bus

/-! ## A poll

The counters move with the calls: a unit that cannot be selected and a short read are failed reads,
and a full one is a complete read. -/

/-- The part of a poll from `a` to `b` is accounted for. -/
def PollMetered (a b : Bus σ) : Prop := ∃ new, Metered (readAccount new) new a b

theorem PollMetered.trans {a b c : Bus σ} (hab : PollMetered a b) (hbc : PollMetered b c) :
    PollMetered a c := by
  obtain ⟨new, hnew⟩ := hab
  obtain ⟨more, hmore⟩ := hbc
  refine ⟨new ++ more, ?_⟩
  rw [readAccount_append]
  exact hnew.trans hmore

theorem Unmetered.poll {a b : Bus σ} (h : Unmetered a b) : PollMetered a b := by
  obtain ⟨new, hidle, hmetered⟩ := h
  refine ⟨new, ?_⟩
  rw [hidle.reads]
  exact hmetered

/-- Selecting a unit is one call, a failed read when the unit cannot be selected. -/
theorem setSlave_metered (unit : UInt16) (bus : Bus σ) :
    ∃ call, Metered {} [call] bus (bus.setSlave lib unit).2 ∧
      readAccount [call] = { readErrors := if (bus.setSlave lib unit).1 then 0 else 1 } ∧
      [call].countP ModbusCall.writesFully = 0 := by
  refine ⟨_, ⟨rfl, fun _ h => h⟩, ?_, rfl⟩
  cases hok : (lib.setSlave unit bus.env).1 with
  | true => simp [readAccount, ModbusCall.readsFully, ModbusCall.readFails, Bus.setSlave, hok]
  | false => simp [readAccount, ModbusCall.readsFully, ModbusCall.readFails, Bus.setSlave, hok]

/-- A unit that cannot be selected counts as a failed read, and any other selection as nothing. -/
theorem selectUnit_metered (node : EdgeNode) (s : PollState σ) :
    ∃ new, Metered {} new s.bus (selectUnit lib node s).2.bus ∧
      readAccount new = { readErrors := if (selectUnit lib node s).1 then 0 else 1 } := by
  unfold selectUnit
  dsimp only
  -- the call is made for the first node and whenever the unit changes
  by_cases hset : s.unitSet = false ∨ s.currentUnit ≠ node.modbusUnit
  · rw [if_pos hset]
    obtain ⟨call, hcall, haccount, _⟩ := setSlave_metered lib node.modbusUnit s.bus
    cases hok : (s.bus.setSlave lib node.modbusUnit).1 with
    | true =>
      rw [hok] at haccount
      exact ⟨[call], hcall, haccount⟩
    | false =>
      rw [hok] at haccount
      exact ⟨[call], hcall, haccount⟩
  · rw [if_neg hset]
    exact ⟨[], .refl s.bus, rfl⟩

/-- A read is one call, and its count says on which account it goes. -/
theorem readRegisters_metered (offset : Int) (width : Nat) (bus : Bus σ) :
    ∃ call, Metered {} [call] bus (bus.readRegisters lib offset width).2 ∧
      readAccount [call] =
        if (bus.readRegisters lib offset width).1.1 ≠ width then { readErrors := 1 }
        else { readsOk := 1 } := by
  refine ⟨_, ⟨rfl, fun _ h => h⟩, ?_⟩
  by_cases hcount : (lib.readRegisters offset width bus.env).1.1 = width
  · simp [readAccount, ModbusCall.readsFully, ModbusCall.readFails, Bus.readRegisters, hcount]
  · simp [readAccount, ModbusCall.readsFully, ModbusCall.readFails, Bus.readRegisters, hcount]

/-- One node: its unit, its read, and what is counted for them. -/
theorem pollNode_metered (i : Nat) (node : EdgeNode) (s : PollState σ) :
    PollMetered s.bus (pollNode lib i node s).state.bus := by
  obtain ⟨new, hsel, haccount⟩ := selectUnit_metered lib node s
  unfold pollNode
  dsimp only
  by_cases hregister : node.modbusRegister < edgeModbusRegisterBase
  · rw [if_pos hregister]
    exact (Unmetered.refl s.bus).poll
  rw [if_neg hregister]
  cases hunit : (selectUnit lib node s).1 with
  | false =>
    rw [if_pos rfl]
    rw [hunit] at haccount
    refine ⟨new, ?_⟩
    rw [haccount]
    exact hsel.count { readErrors := 1 } rfl EdgeModbus.Shows.readError
  | true =>
    rw [if_neg (by decide)]
    rw [hunit] at haccount
    -- the read is one more call, and it decides which counter goes up
    obtain ⟨call, hread, hcall⟩ := readRegisters_metered lib (registerOffset node)
      (registerWidthForNode node) (selectUnit lib node s).2.bus
    have hboth := hsel.trans hread
    have haccounts : readAccount (new ++ [call]) = readAccount [call] := by
      rw [readAccount_append, haccount]
      exact Counters.empty_add _
    by_cases hcount : ((selectUnit lib node s).2.bus.readRegisters lib (registerOffset node)
        (registerWidthForNode node)).1.1 ≠ registerWidthForNode node
    · rw [if_pos hcount] at hcall ⊢
      refine PollMetered.trans ⟨new ++ [call], ?_⟩ (edgeModbusDisconnect_unmetered lib _).poll
      rw [haccounts, hcall]
      exact hboth.count { readErrors := 1 } rfl EdgeModbus.Shows.readError
    · rw [if_neg hcount] at hcall ⊢
      refine ⟨new ++ [call], ?_⟩
      rw [haccounts, hcall]
      exact hboth.count { readsOk := 1 } rfl EdgeModbus.Shows.readOk

theorem edgeModbusPoll_metered (bus : Bus σ) (nodes : List EdgeNode) :
    ∃ new, Metered ({ polls := 1 } + readAccount new) new bus
      (edgeModbusPoll lib bus nodes).2.1 := by
  let counted : Bus σ := { bus with modbus.pollCount := bus.modbus.pollCount + 1 }
  have hcounted : Metered { polls := 1 } [] bus counted :=
    ⟨by simp [counted], EdgeModbus.Shows.poll⟩
  -- what follows the count is on the account of the reads
  have hrest : PollMetered counted (edgeModbusPoll lib bus nodes).2.1 := by
    have hup := (ensureConnected_unmetered lib counted).poll
    unfold edgeModbusPoll
    dsimp only
    split_ifs
    · exact (Unmetered.refl counted).poll
    · exact hup
    · apply sweep_state (fun s : PollState σ => PollMetered counted s.bus)
      · intro i node s hs
        exact hs.trans (pollNode_metered lib i node s)
      · exact hup
  obtain ⟨new, hnew⟩ := hrest
  exact ⟨new, hcounted.trans hnew⟩

/-! ## A writeback

A complete write is told from the call; a failure is told from the status, as it may come from the
connection, the unit or the write. -/

/-- A register write is one call, complete when it did not fail. -/
theorem sendRegisters_metered (offset : Int) {packed : Nat × List (BitVec 16)}
    (hlength : packed.2.length = packed.1) (bus : Bus σ) :
    ∃ call, Metered {} [call] bus (sendRegisters lib offset packed bus).2 ∧
      [call].countP ModbusCall.writesFully =
        if (sendRegisters lib offset packed bus).1 then 0 else 1 := by
  unfold sendRegisters
  by_cases hone : packed.1 = 1
  · rw [if_pos hone]
    refine ⟨_, ⟨rfl, fun _ h => h⟩, ?_⟩
    simp [ModbusCall.writesFully, Bus.writeRegister]
  · rw [if_neg hone]
    refine ⟨_, ⟨rfl, fun _ h => h⟩, ?_⟩
    by_cases hcount : (lib.writeRegisters offset packed.2 bus.env).1 = packed.1
    · simp [ModbusCall.writesFully, Bus.writeRegisters, hcount, hlength]
    · simp [ModbusCall.writesFully, Bus.writeRegisters, hcount, hlength]

/-- One writeback: at most one complete write, and a failure if it returned an error. -/
theorem edgeModbusWriteNode_metered (bus : Bus σ) (node : EdgeNode) :
    ∃ new, Metered (writeAccount (edgeModbusWriteNode lib bus node).1 new) new bus
      (edgeModbusWriteNode lib bus node).2 := by
  obtain ⟨made, hmade, hup⟩ := ensureConnected_unmetered lib bus
  obtain ⟨select, hselect, _, hselected⟩ := setSlave_metered lib node.modbusUnit
    (ensureConnected lib bus).2
  obtain ⟨call, hcall, hcomplete⟩ := sendRegisters_metered lib (registerOffset node)
    (packNodeToRegisters_length node)
    ((ensureConnected lib bus).2.setSlave lib node.modbusUnit).2
  -- how far the call got decides which calls there are to account for
  have hsel := hup.trans hselect
  have hsent := hsel.trans hcall
  have hnone : (made ++ [select]).countP ModbusCall.writesFully = 0 := by
    rw [List.countP_append, hmade.writes, hselected]
  have hwrites : (made ++ [select] ++ [call]).countP ModbusCall.writesFully
      = [call].countP ModbusCall.writesFully := by
    rw [List.countP_append, hnone, Nat.zero_add]
  unfold edgeModbusWriteNode
  dsimp only
  split_ifs with henabled hwritable hregister hlink hunit hfailed
  · exact ⟨[], .refl bus⟩
  · exact ⟨[], .refl bus⟩
  · exact ⟨[], .refl bus⟩
  · refine ⟨made, ?_⟩
    rw [writeAccount, hmade.writes]
    exact hup.count { writeErrors := 1 } rfl EdgeModbus.Shows.writeError
  · refine ⟨made ++ [select], ?_⟩
    rw [writeAccount, hnone]
    exact hsel.count { writeErrors := 1 } rfl EdgeModbus.Shows.writeError
  · rw [if_pos hfailed] at hcomplete
    -- the connection is dropped as well
    let sent := (sendRegisters lib (registerOffset node) (packNodeToRegisters node)
      ((ensureConnected lib bus).2.setSlave lib node.modbusUnit).2).2
    let failed : Bus σ :=
      { sent with modbus.writeErrorCount := sent.modbus.writeErrorCount + 1 }
    have hfailure : Metered ({} + { writeErrors := 1 }) (made ++ [select] ++ [call]) bus failed :=
      hsent.count { writeErrors := 1 } rfl EdgeModbus.Shows.writeError
    obtain ⟨drop, hdrop, hdropped⟩ := edgeModbusDisconnect_unmetered lib failed
    refine ⟨made ++ [select] ++ [call] ++ drop, ?_⟩
    rw [writeAccount, List.countP_append, hwrites, hcomplete, hdrop.writes]
    exact hfailure.trans hdropped
  · rw [if_neg hfailed] at hcomplete
    refine ⟨made ++ [select] ++ [call], ?_⟩
    rw [writeAccount, hwrites, hcomplete]
    exact hsent.count { writesOk := 1 } rfl EdgeModbus.Shows.writeOk

end Steps

/-! ## Runs

Operation by operation the counters show the account. Clearing the link sets both back. -/

theorem Metered.drop {d : Counters} {new : List ModbusCall} {a b : Bus σ}
    (h : Metered d new a b) : b.calls.drop a.calls.length = new := by
  rw [h.calls, List.drop_left]

/-- **One operation**: it leaves the counters that the audit expects. -/
theorem LinkOp.run_audit (lib : ModbusLib σ) (op : LinkOp) {bus : Bus σ} {c : Counters}
    (h : bus.modbus.Shows c) : (op.run lib bus).modbus.Shows (op.audit lib bus c) := by
  -- each operation shows the calls it made, and the audit counts just these
  cases op with
  | connect =>
    obtain ⟨new, _, hmetered⟩ := edgeModbusConnect_unmetered lib bus
    exact hmetered.counters c h
  | poll nodes =>
    obtain ⟨new, hmetered⟩ := edgeModbusPoll_metered lib bus nodes
    have hnew : LinkOp.calls lib bus (.poll nodes) = new := hmetered.drop
    rw [LinkOp.audit, hnew]
    exact hmetered.counters c h
  | writeNode node =>
    obtain ⟨new, hmetered⟩ := edgeModbusWriteNode_metered lib bus node
    have hnew : LinkOp.calls lib bus (.writeNode node) = new := hmetered.drop
    rw [LinkOp.audit, hnew]
    exact hmetered.counters c h
  | disconnect =>
    obtain ⟨new, _, hmetered⟩ := edgeModbusDisconnect_unmetered lib bus
    exact hmetered.counters c h
  | clear => exact ⟨rfl, rfl, rfl, rfl, rfl⟩

/-- **A run**, by induction on its operations. -/
theorem busAfter_audited (lib : ModbusLib σ) (ops : List LinkOp) :
    ∀ {bus : Bus σ} {c : Counters}, bus.modbus.Shows c →
      (busAfter lib ops bus).modbus.Shows (audited lib ops bus c) := by
  induction ops with
  | nil => intro bus c h; exact h
  | cons op rest ih => intro bus c h; exact ih (op.run_audit lib h)

/-- `edge_modbus_init` starts every counter at zero. -/
theorem initialBus_shows (host : Option Bytes) (port : UInt16) (env : σ) :
    (initialBus host port env).modbus.Shows {} := by
  unfold initialBus edgeModbusInit
  split
  · exact ⟨rfl, rfl, rfl, rfl, rfl⟩
  · split_ifs <;> exact ⟨rfl, rfl, rfl, rfl, rfl⟩

/-- **The counters are exact**: after any operations since `edge_modbus_init`, on any line, they say
what an auditor of the calls of libmodbus would say, modulo `2 ^ 64`. -/
theorem counters_exact (lib : ModbusLib σ) (host : Option Bytes) (port : UInt16) (env : σ)
    (ops : List LinkOp) :
    (busAfter lib ops (initialBus host port env)).modbus.Shows
      (audited lib ops (initialBus host port env) {}) :=
  busAfter_audited lib ops (initialBus_shows host port env)

end OpcuaEdge
