import OpcuaEdge.ModbusLink

/-!
# OpcuaEdge — exponential back-off

Three entry points may try to connect, and all of them go through the gate of
`edge_modbus_connect`. To speak about the clock, libmodbus is run with a recorder (`recorded`): a
library that answers as before and also keeps the clock readings and the attempts to connect, in
order. What the trace says about the attempts so far (`attemptsOf`) is then compared with the two
fields `connect_backoff_us` and `next_connect_attempt_us`, both of which use 0 for "none".
-/

namespace OpcuaEdge

open CStr CLoop

variable {σ : Type}

/-! ## The trace

The answers that the back-off depends on, written down as the library gives them: clock readings,
and attempts with their outcome. What should be due can be told from them alone. -/

/-- A reading of the clock, the creation of a context, or an attempt to connect it. -/
inductive LinkEvent where
  | read (nowUs : UInt64)
  | newTcp (ok : Bool)
  | connect (ok : Bool)
  deriving DecidableEq, Repr

/-- The library with a recorder. -/
def recorded (lib : ModbusLib σ) : ModbusLib (σ × List LinkEvent) where
  nowUs s := let r := lib.nowUs s.1; (r.1, (r.2, s.2 ++ [.read r.1]))
  newTcp host port s := let r := lib.newTcp host port s.1; (r.1, (r.2, s.2 ++ [.newTcp r.1]))
  connect s := let r := lib.connect s.1; (r.1, (r.2, s.2 ++ [.connect r.1]))
  setSlave unit s := let r := lib.setSlave unit s.1; (r.1, (r.2, s.2))
  readRegisters offset width s := let r := lib.readRegisters offset width s.1; (r.1, (r.2, s.2))
  writeRegister offset value s := let r := lib.writeRegister offset value s.1; (r.1, (r.2, s.2))
  writeRegisters offset values s := let r := lib.writeRegisters offset values s.1; (r.1, (r.2, s.2))
  close s := (lib.close s.1, s.2)
  free s := (lib.free s.1, s.2)

/-- What has been written down so far. -/
def Bus.trace (bus : Bus (σ × List LinkEvent)) : List LinkEvent := bus.env.2

/-- What a trace says about the attempts to connect: how many have failed since the last
success, the first reading after the last failure, and the last reading of all. -/
structure Attempts where
  failures : Nat := 0
  noted : Option UInt64 := none
  last : Option UInt64 := none
  deriving DecidableEq, Repr

/-- What one answer changes. A failure is noted at the first reading after it. -/
def Attempts.event (a : Attempts) : LinkEvent → Attempts
  | .read t =>
    { a with
      noted := if 0 < a.failures then some (a.noted.getD t) else none
      last := some t }
  | .newTcp ok => if ok then a else { a with failures := a.failures + 1, noted := none }
  | .connect ok =>
    if ok then { a with failures := 0, noted := none }
    else { a with failures := a.failures + 1, noted := none }

/-- The attempts of a whole trace. -/
def attemptsOf (trace : List LinkEvent) : Attempts := trace.foldl Attempts.event {}

theorem attemptsOf_append (trace : List LinkEvent) (event : LinkEvent) :
    attemptsOf (trace ++ [event]) = (attemptsOf trace).event event := by
  unfold attemptsOf
  rw [List.foldl_append]
  rfl

/-- The back-off after `k` failures in a row: it doubles from half a second up to thirty. -/
def backoffAfter (k : Nat) : Nat := if k = 0 then 0 else min (500000 * 2 ^ (k - 1)) 30000000

theorem backoffAfter_le (k : Nat) : backoffAfter k ≤ 30000000 := by
  unfold backoffAfter
  split_ifs <;> omega

theorem backoffAfter_one : backoffAfter 1 = 500000 := by decide

theorem backoffAfter_pos {k : Nat} (h : 0 < k) : 500000 ≤ backoffAfter k := by
  have hpow : 0 < 2 ^ (k - 1) := Nat.pow_pos (by decide)
  unfold backoffAfter
  rw [if_neg (by omega)]
  omega

/-- Each wait is twice the one before it, up to the limit. -/
theorem backoffAfter_succ {k : Nat} (h : 0 < k) :
    backoffAfter (k + 1) = min (backoffAfter k * 2) 30000000 := by
  obtain ⟨j, rfl⟩ : ∃ j, k = j + 1 := ⟨k - 1, by omega⟩
  have hpow : 2 ^ (j + 1) = 2 ^ j * 2 := pow_succ 2 j
  unfold backoffAfter
  rw [if_neg (by omega), if_neg (by omega), Nat.add_sub_cancel, Nat.add_sub_cancel, hpow]
  omega

/-- Where attempts have failed, the clock has reached the time noted at the last failure plus the
back-off. -/
def Attempts.Due (a : Attempts) : Prop :=
  0 < a.failures → ∃ noted now, a.noted = some noted ∧ a.last = some now ∧
    noted.toNat + backoffAfter a.failures ≤ now.toNat

/-- Whether the answer is one to an attempt. -/
def LinkEvent.isAttempt : LinkEvent → Bool
  | .read _ => false
  | .newTcp _ => true
  | .connect _ => true

/-- Every attempt to connect was due. -/
def Spaced (trace : List LinkEvent) : Prop :=
  ∀ pre event post, trace = pre ++ event :: post → event.isAttempt = true → (attemptsOf pre).Due

/-- One more answer, which is due if it is one to an attempt. -/
theorem Spaced.append {trace : List LinkEvent} (h : Spaced trace) {event : LinkEvent}
    (hdue : event.isAttempt = true → (attemptsOf trace).Due) : Spaced (trace ++ [event]) := by
  intro pre last post heq hattempt
  rcases cut_append heq with ⟨rfl, rfl⟩ | ⟨post', hbefore⟩
  · exact hdue hattempt
  · exact h pre last post' hbefore hattempt

/-- All readings of the clock are below 2^63. -/
def ClockBounded (trace : List LinkEvent) : Prop := ∀ t, .read t ∈ trace → t.toNat < 2 ^ 63

/-- A part of a trace reads no later times than the whole. -/
theorem ClockBounded.of_append {a b : List LinkEvent} (h : ClockBounded (a ++ b)) :
    ClockBounded a :=
  fun t ht => h t (List.mem_append_left _ ht)

/-! ## The two fields

The source keeps the length of the wait and the time of the next attempt, and sets both to zero
when a connect succeeds. `Waiting` says what they mean: the length is that of the failures so far,
and the time is the noted one plus the length. -/

/-- The next back-off, as `note_connect_failure` computes it, is the one after one more failure;
nothing wraps around. -/
theorem nextBackoff_toNat {backoff : UInt64} {k : Nat} (h : backoff.toNat = backoffAfter k) :
    (if edgeModbusBackoffMaxUs <
        (if backoff = 0 then edgeModbusBackoffInitialUs else backoff * 2)
      then edgeModbusBackoffMaxUs
      else if backoff = 0 then edgeModbusBackoffInitialUs else backoff * 2).toNat
      = backoffAfter (k + 1) := by
  have hmax : edgeModbusBackoffMaxUs.toNat = 30000000 := by decide
  have hinitial : edgeModbusBackoffInitialUs.toNat = 500000 := by decide
  rcases Nat.eq_zero_or_pos k with rfl | hk
  · have hzero : backoff = 0 := UInt64.toNat_inj.mp h
    rw [if_pos hzero, if_neg (by decide), hinitial, backoffAfter_one]
  · have hle := backoffAfter_le k
    have hpos := backoffAfter_pos hk
    have hne : backoff ≠ 0 := by
      intro hzero
      rw [hzero] at h
      have hnat : (0 : UInt64).toNat = 0 := rfl
      omega
    -- the back-off never exceeds its maximum, so doubling it does not wrap
    have hdouble : (backoff * 2).toNat = backoffAfter k * 2 := by
      rw [UInt64.toNat_mul, h]
      exact Nat.mod_eq_of_lt (by show backoffAfter k * 2 < 2 ^ 64; omega)
    rw [if_neg hne, backoffAfter_succ hk]
    split_ifs with hcap
    · rw [UInt64.lt_iff_toNat_lt, hmax, hdouble] at hcap
      rw [hmax]
      omega
    · rw [UInt64.lt_iff_toNat_lt, hmax, hdouble] at hcap
      rw [hdouble]
      omega

/-- The two fields agree with what the trace says, and every attempt so far was due. -/
structure Waiting (backoff next : UInt64) (trace : List LinkEvent) : Prop where
  backoff_eq : backoff.toNat = backoffAfter (attemptsOf trace).failures
  open_gate : (attemptsOf trace).failures = 0 → next = 0
  deadline : 0 < (attemptsOf trace).failures → ∃ noted, (attemptsOf trace).noted = some noted ∧
    next.toNat = noted.toNat + backoffAfter (attemptsOf trace).failures
  spaced : Spaced trace

namespace Waiting

variable {backoff next : UInt64} {trace : List LinkEvent}

/-- A deadline is set exactly if attempts have failed. -/
theorem next_eq_zero_iff (h : Waiting backoff next trace) :
    next = 0 ↔ (attemptsOf trace).failures = 0 := by
  refine ⟨fun hnext => ?_, h.open_gate⟩
  by_contra hfailures
  obtain ⟨noted, -, hdeadline⟩ := h.deadline (by omega)
  have hpos := backoffAfter_pos (Nat.pos_of_ne_zero hfailures)
  rw [hnext] at hdeadline
  have hzero : (0 : UInt64).toNat = 0 := rfl
  omega

/-- Another look at the clock changes the last reading only. -/
theorem attemptsOf_read (h : Waiting backoff next trace)
    (hfailures : 0 < (attemptsOf trace).failures) (t : UInt64) :
    attemptsOf (trace ++ [.read t]) = { attemptsOf trace with last := some t } := by
  obtain ⟨noted, hnoted, -⟩ := h.deadline hfailures
  rw [attemptsOf_append]
  unfold Attempts.event
  simp only [hfailures, if_true, hnoted, Option.getD_some]

theorem read (h : Waiting backoff next trace) (hfailures : 0 < (attemptsOf trace).failures)
    (t : UInt64) : Waiting backoff next (trace ++ [.read t]) where
  backoff_eq := by rw [h.attemptsOf_read hfailures]; exact h.backoff_eq
  open_gate := by rw [h.attemptsOf_read hfailures]; exact h.open_gate
  deadline := by rw [h.attemptsOf_read hfailures]; exact h.deadline
  spaced := h.spaced.append fun hattempt => (by cases hattempt)

/-- A reading that has reached the deadline makes the next attempt due. -/
theorem due_of_read (h : Waiting backoff next trace)
    (hfailures : 0 < (attemptsOf trace).failures) {t : UInt64} (hreached : next.toNat ≤ t.toNat) :
    (attemptsOf (trace ++ [.read t])).Due := by
  obtain ⟨noted, hnoted, hdeadline⟩ := h.deadline hfailures
  rw [h.attemptsOf_read hfailures]
  intro _
  exact ⟨noted, t, hnoted, rfl, by rw [← hdeadline]; exact hreached⟩

/-- A failed attempt: the clock is read and the deadline set. -/
theorem failed {k : Nat} (hfailures : (attemptsOf trace).failures = k + 1)
    (hnoted : (attemptsOf trace).noted = none) (hspaced : Spaced trace) {later t : UInt64}
    (hlater : later.toNat = backoffAfter (k + 1)) (ht : t.toNat < 2 ^ 63) :
    Waiting later (t + later) (trace ++ [.read t]) := by
  have hattempts : attemptsOf (trace ++ [.read t])
      = { failures := k + 1, noted := some t, last := some t } := by
    rw [attemptsOf_append]
    unfold Attempts.event
    simp only [hfailures, hnoted, Nat.zero_lt_succ, if_true, Option.getD_none]
  exact {
    backoff_eq := by rw [hattempts]; exact hlater
    open_gate := fun hzero => by rw [hattempts] at hzero; exact absurd hzero (Nat.succ_ne_zero k)
    deadline := by
      intro _
      rw [hattempts]
      refine ⟨t, rfl, ?_⟩
      have hle := backoffAfter_le (k + 1)
      -- the clock is below 2^63 and the back-off is at most its bound, so the sum does not wrap
      rw [UInt64.toNat_add, hlater]
      exact Nat.mod_eq_of_lt (by omega)
    spaced := hspaced.append fun hattempt => (by cases hattempt) }

/-- A connection that came up resets everything. -/
theorem succeeded (hspaced : Spaced trace) (hdue : (attemptsOf trace).Due) :
    Waiting 0 0 (trace ++ [.connect true]) := by
  have hfailures : (attemptsOf (trace ++ [.connect true])).failures = 0 := by
    rw [attemptsOf_append]
    rfl
  exact {
    backoff_eq := by rw [hfailures]; rfl
    open_gate := fun _ => rfl
    deadline := fun hpos => by rw [hfailures] at hpos; cases hpos
    spaced := hspaced.append fun _ => hdue }

end Waiting

/-! ## Operations

Every operation either leaves the gate alone or goes through it. Those that connect are followed
answer by answer; the others change neither of the two fields and read no clock. -/

/-- What the back-off of a bus depends on. -/
def Bus.Waits (bus : Bus (σ × List LinkEvent)) : Prop :=
  Waiting bus.modbus.connectBackoffUs bus.modbus.nextConnectAttemptUs bus.trace

/-- The same two fields and the same trace. -/
structure SameGate (bus bus' : Bus (σ × List LinkEvent)) : Prop where
  backoff : bus'.modbus.connectBackoffUs = bus.modbus.connectBackoffUs
  next : bus'.modbus.nextConnectAttemptUs = bus.modbus.nextConnectAttemptUs
  trace : bus'.trace = bus.trace

theorem SameGate.refl (bus : Bus (σ × List LinkEvent)) : SameGate bus bus := ⟨rfl, rfl, rfl⟩

/-- One operation that leaves the gate alone after another. -/
theorem SameGate.trans {a b c : Bus (σ × List LinkEvent)} (hab : SameGate a b)
    (hbc : SameGate b c) : SameGate a c :=
  ⟨hbc.backoff.trans hab.backoff, hbc.next.trans hab.next, hbc.trace.trans hab.trace⟩

/-- An operation that leaves the gate alone keeps the invariant. -/
theorem SameGate.waits {bus bus' : Bus (σ × List LinkEvent)} (h : SameGate bus bus')
    (hwaits : bus.Waits) : bus'.Waits := by
  unfold Bus.Waits
  rw [h.backoff, h.next, h.trace]
  exact hwaits

section Operations

variable (lib : ModbusLib σ)

/-- Noting a failure reads the clock and doubles the wait. -/
theorem noteConnectFailure_waits {bus : Bus (σ × List LinkEvent)} {k : Nat}
    (hbackoff : bus.modbus.connectBackoffUs.toNat = backoffAfter k)
    (hfailures : (attemptsOf bus.trace).failures = k + 1)
    (hnoted : (attemptsOf bus.trace).noted = none) (hspaced : Spaced bus.trace)
    (hclock : ClockBounded (noteConnectFailure (recorded lib) bus).trace) :
    (noteConnectFailure (recorded lib) bus).Waits :=
  Waiting.failed hfailures hnoted hspaced (nextBackoff_toNat hbackoff)
    (hclock _ (List.mem_append_right _ (List.mem_singleton_self _)))

/-- The gate may read the clock; it lets an attempt pass only when that is due. -/
theorem backoffGate_waits {bus : Bus (σ × List LinkEvent)} (h : bus.Waits) :
    (backoffGate (recorded lib) bus).2.Waits ∧
      ((backoffGate (recorded lib) bus).1 = false →
        (attemptsOf (backoffGate (recorded lib) bus).2.trace).Due) := by
  unfold backoffGate
  split_ifs with hnext
  · -- a deadline is set, so attempts have failed
    have hfailures : 0 < (attemptsOf bus.trace).failures :=
      Nat.pos_of_ne_zero fun hzero => hnext (h.next_eq_zero_iff.mpr hzero)
    refine ⟨h.read hfailures _, fun hgate => h.due_of_read hfailures ?_⟩
    have hreached := of_decide_eq_false hgate
    rw [UInt64.lt_iff_toNat_lt] at hreached
    exact Nat.le_of_not_lt hreached
  · refine ⟨h, fun _ hfailures => ?_⟩
    rw [h.next_eq_zero_iff.mp (not_not.mp hnext)] at hfailures
    cases hfailures

/-- The part of `edge_modbus_connect` behind the gate. -/
def attemptConnect (lib : ModbusLib σ) (bus : Bus σ) : EdgeStatus × Bus σ :=
  let new := bus.newTcp lib
  match new.1 with
  | none => (.error, noteConnectFailure lib new.2)
  | some ctx =>
    let up := new.2.connect lib ctx
    if up.1 then
      (.ok, { up.2 with
        modbus.ctx := some ctx
        modbus.connected := true
        modbus.connectBackoffUs := 0
        modbus.nextConnectAttemptUs := 0 })
    else (.error, noteConnectFailure lib (up.2.free lib ctx))

/-- `edge_modbus_connect`: what it does before the gate, the gate, and the attempt. -/
theorem edgeModbusConnect_eq (lib : ModbusLib σ) (bus : Bus σ) :
    edgeModbusConnect lib bus =
      if bus.modbus.enabled = false then (.ok, bus)
      else if bus.modbus.connected then (.ok, bus)
      else if (backoffGate lib bus).1 then (.error, (backoffGate lib bus).2)
      else attemptConnect lib (backoffGate lib bus).2 := rfl

/-- `modbus_new_tcp` with its answer in the trace. -/
theorem Bus.newTcp_recorded (bus : Bus (σ × List LinkEvent)) :
    (∃ env : σ × List LinkEvent, env.2 = bus.trace ++ [.newTcp true] ∧
      bus.newTcp (recorded lib) = (some bus.created,
        { bus with
          env := env, created := bus.created + 1
          calls := bus.calls ++ [.newTcp (some bus.created)] })) ∨
      ∃ env : σ × List LinkEvent, env.2 = bus.trace ++ [.newTcp false] ∧
        bus.newTcp (recorded lib) =
          (none, { bus with env := env, calls := bus.calls ++ [.newTcp none] }) := by
  unfold Bus.newTcp
  dsimp only
  split_ifs with hnew
  · refine .inl ⟨_, ?_, rfl⟩
    exact congrArg (fun ok => bus.trace ++ [.newTcp ok]) hnew
  · refine .inr ⟨_, ?_, rfl⟩
    exact congrArg (fun ok => bus.trace ++ [.newTcp ok]) (Bool.eq_false_iff.mpr hnew)

/-- **What an attempt can do**: it fails at `modbus_new_tcp`, it fails at `modbus_connect`, or the
connection comes up. -/
theorem attemptConnect_cases (bus : Bus (σ × List LinkEvent)) :
    (∃ failed : Bus (σ × List LinkEvent), failed.modbus = bus.modbus ∧
      failed.trace = bus.trace ++ [.newTcp false] ∧
      (attemptConnect (recorded lib) bus).2 = noteConnectFailure (recorded lib) failed) ∨
    (∃ failed : Bus (σ × List LinkEvent), failed.modbus = bus.modbus ∧
      failed.trace = bus.trace ++ [.newTcp true] ++ [.connect false] ∧
      (attemptConnect (recorded lib) bus).2 = noteConnectFailure (recorded lib) failed) ∨
    ((attemptConnect (recorded lib) bus).2.modbus.connectBackoffUs = 0 ∧
      (attemptConnect (recorded lib) bus).2.modbus.nextConnectAttemptUs = 0 ∧
      (attemptConnect (recorded lib) bus).2.trace =
        bus.trace ++ [.newTcp true] ++ [.connect true]) := by
  unfold attemptConnect
  dsimp only
  -- no context; a context that does not connect; a connection
  rcases bus.newTcp_recorded lib with ⟨env, htrace, hnew⟩ | ⟨env, htrace, hnew⟩
  · right
    rw [hnew, ← htrace]
    dsimp only
    split_ifs with hup
    · refine .inr ⟨rfl, rfl, ?_⟩
      exact congrArg (fun ok => env.2 ++ [.connect ok]) hup
    · refine .inl ⟨_, ?_, ?_, rfl⟩
      · rfl
      · exact congrArg (fun ok => env.2 ++ [.connect ok]) (Bool.eq_false_iff.mpr hup)
  · rw [hnew]
    refine .inl ⟨_, ?_, ?_, rfl⟩
    · rfl
    · exact htrace

/-- A failure is one more, and its time is not noted yet. -/
theorem attemptsOf_failed (trace : List LinkEvent) {event : LinkEvent}
    (h : event = .newTcp false ∨ event = .connect false) :
    (attemptsOf (trace ++ [event])).failures = (attemptsOf trace).failures + 1 ∧
      (attemptsOf (trace ++ [event])).noted = none := by
  rw [attemptsOf_append]
  rcases h with rfl | rfl <;> exact ⟨rfl, rfl⟩

theorem attemptConnect_waits {bus : Bus (σ × List LinkEvent)} (h : bus.Waits)
    (hdue : (attemptsOf bus.trace).Due)
    (hclock : ClockBounded (attemptConnect (recorded lib) bus).2.trace) :
    (attemptConnect (recorded lib) bus).2.Waits := by
  have hcreated : attemptsOf (bus.trace ++ [.newTcp true]) = attemptsOf bus.trace :=
    attemptsOf_append _ _
  have hspaced : Spaced (bus.trace ++ [.newTcp true]) := h.spaced.append fun _ => hdue
  have hdue' : (attemptsOf (bus.trace ++ [.newTcp true])).Due := by rw [hcreated]; exact hdue
  -- either failure notes the back-off of one failure more
  rcases attemptConnect_cases lib bus with
    ⟨failed, hmodbus, htrace, heq⟩ | ⟨failed, hmodbus, htrace, heq⟩ | ⟨hbackoff, hnext, htrace⟩
  · rw [heq] at hclock ⊢
    obtain ⟨hfailures, hnoted⟩ := attemptsOf_failed bus.trace (.inl rfl)
    refine noteConnectFailure_waits lib ?_ (by rw [htrace, hfailures]) (by rw [htrace, hnoted])
      (by rw [htrace]; exact h.spaced.append fun _ => hdue) hclock
    rw [hmodbus]
    exact h.backoff_eq
  · rw [heq] at hclock ⊢
    obtain ⟨hfailures, hnoted⟩ := attemptsOf_failed (bus.trace ++ [.newTcp true]) (.inr rfl)
    rw [hcreated] at hfailures
    refine noteConnectFailure_waits lib ?_ (by rw [htrace, hfailures]) (by rw [htrace, hnoted])
      (by rw [htrace]; exact hspaced.append fun _ => hdue') hclock
    rw [hmodbus]
    exact h.backoff_eq
  · unfold Bus.Waits
    rw [hbackoff, hnext, htrace]
    exact .succeeded hspaced hdue'

/-- Connecting keeps the invariant: an attempt is only made when it is due. -/
theorem edgeModbusConnect_waits {bus : Bus (σ × List LinkEvent)} (h : bus.Waits)
    (hclock : ClockBounded (edgeModbusConnect (recorded lib) bus).2.trace) :
    (edgeModbusConnect (recorded lib) bus).2.Waits := by
  obtain ⟨hgate, hdue⟩ := backoffGate_waits lib h
  rw [edgeModbusConnect_eq] at hclock ⊢
  split_ifs at hclock ⊢ with henabled hup hblocked
  · exact h
  · exact h
  · exact hgate
  · exact attemptConnect_waits lib hgate (hdue (Bool.eq_false_iff.mpr hblocked)) hclock

theorem ensureConnected_waits {bus : Bus (σ × List LinkEvent)} (h : bus.Waits)
    (hclock : ClockBounded (ensureConnected (recorded lib) bus).2.trace) :
    (ensureConnected (recorded lib) bus).2.Waits := by
  unfold ensureConnected at hclock ⊢
  split_ifs at hclock ⊢
  · exact h
  · exact edgeModbusConnect_waits lib h hclock

/-! Everything but an attempt to connect leaves the gate alone. -/

/-- Disconnecting leaves the gate alone .. -/
theorem edgeModbusDisconnect_same (bus : Bus (σ × List LinkEvent)) :
    SameGate bus (edgeModbusDisconnect (recorded lib) bus) := by
  unfold edgeModbusDisconnect
  split <;> exact ⟨rfl, rfl, rfl⟩

/-- .. and so does selecting a unit .. -/
theorem selectUnit_same (node : EdgeNode) (s : PollState (σ × List LinkEvent)) :
    SameGate s.bus (selectUnit (recorded lib) node s).2.bus := by
  unfold selectUnit
  dsimp only
  split_ifs <;> exact ⟨rfl, rfl, rfl⟩

/-- .. polling a node .. -/
theorem pollNode_same (i : Nat) (node : EdgeNode) (s : PollState (σ × List LinkEvent)) :
    SameGate s.bus (pollNode (recorded lib) i node s).state.bus := by
  have hsel := selectUnit_same lib node s
  unfold pollNode
  dsimp only
  split_ifs
  · exact .refl s.bus
  · exact hsel.trans ⟨rfl, rfl, rfl⟩
  · refine hsel.trans (SameGate.trans ?_ (edgeModbusDisconnect_same lib _))
    exact ⟨rfl, rfl, rfl⟩
  · exact hsel.trans ⟨rfl, rfl, rfl⟩

/-- .. and writing registers. -/
theorem sendRegisters_same (offset : Int) (packed : Nat × List (BitVec 16))
    (bus : Bus (σ × List LinkEvent)) :
    SameGate bus (sendRegisters (recorded lib) offset packed bus).2 := by
  unfold sendRegisters
  dsimp only
  split_ifs <;> exact ⟨rfl, rfl, rfl⟩

/-- What polling does after the check for a connection leaves the gate alone. -/
theorem pollLoop_same (nodes : List EdgeNode) (s : PollState (σ × List LinkEvent)) :
    SameGate s.bus (sweep (pollNode (recorded lib)) 0 nodes s).state.bus :=
  sweep_state (fun s' => SameGate s.bus s'.bus)
    (fun i node _ hs => hs.trans (pollNode_same lib i node _)) nodes 0 s (.refl s.bus)

/-- What leaves the gate alone after the check for a connection. -/
theorem waits_after_ensureConnected {bus bus' : Bus (σ × List LinkEvent)} (h : bus.Waits)
    (hsame : SameGate (ensureConnected (recorded lib) bus).2 bus')
    (hclock : ClockBounded bus'.trace) : bus'.Waits := by
  rw [hsame.trace] at hclock
  exact hsame.waits (ensureConnected_waits lib h hclock)

/-- A poll leaves the gate alone, or it is a check for a connection and more that does. -/
theorem edgeModbusPoll_same (bus : Bus (σ × List LinkEvent)) (nodes : List EdgeNode) :
    ∃ counted, SameGate bus counted ∧
      (SameGate counted (edgeModbusPoll (recorded lib) bus nodes).2.1 ∨
        SameGate (ensureConnected (recorded lib) counted).2
          (edgeModbusPoll (recorded lib) bus nodes).2.1) := by
  let counted : Bus (σ × List LinkEvent) :=
    { bus with modbus.pollCount := bus.modbus.pollCount + 1 }
  have hloop := pollLoop_same lib nodes { bus := (ensureConnected (recorded lib) counted).2 }
  refine ⟨counted, ⟨rfl, rfl, rfl⟩, ?_⟩
  unfold edgeModbusPoll
  dsimp only
  split_ifs
  · exact .inl (.refl _)
  · exact .inr (.refl _)
  · exact .inr hloop

/-- A writeback goes through the gate at most once, at its beginning. -/
theorem edgeModbusWriteNode_same (bus : Bus (σ × List LinkEvent)) (node : EdgeNode) :
    SameGate bus (edgeModbusWriteNode (recorded lib) bus node).2 ∨
      SameGate (ensureConnected (recorded lib) bus).2
        (edgeModbusWriteNode (recorded lib) bus node).2 := by
  have hset : SameGate (ensureConnected (recorded lib) bus).2
      ((ensureConnected (recorded lib) bus).2.setSlave (recorded lib) node.modbusUnit).2 :=
    ⟨rfl, rfl, rfl⟩
  have hsent := hset.trans
    (sendRegisters_same lib (registerOffset node) (packNodeToRegisters node) _)
  unfold edgeModbusWriteNode
  dsimp only
  -- the first three returns come before the connect, the others behind it
  split_ifs
  · exact .inl (.refl bus)
  · exact .inl (.refl bus)
  · exact .inl (.refl bus)
  · exact .inr ⟨rfl, rfl, rfl⟩
  · exact .inr ⟨rfl, rfl, rfl⟩
  · refine .inr (hsent.trans (SameGate.trans ?_ (edgeModbusDisconnect_same lib _)))
    exact ⟨rfl, rfl, rfl⟩
  · exact .inr (hsent.trans ⟨rfl, rfl, rfl⟩)

/-! The trace only grows. -/

/-- An attempt only adds to the trace .. -/
theorem attemptConnect_extends (bus : Bus (σ × List LinkEvent)) :
    bus.trace <+: (attemptConnect (recorded lib) bus).2.trace := by
  have hnote : ∀ failed : Bus (σ × List LinkEvent),
      failed.trace <+: (noteConnectFailure (recorded lib) failed).trace :=
    fun failed => List.prefix_append _ _
  rcases attemptConnect_cases lib bus with
    ⟨failed, -, htrace, heq⟩ | ⟨failed, -, htrace, heq⟩ | ⟨-, -, htrace⟩
  · rw [heq]
    exact (htrace ▸ List.prefix_append _ _ : bus.trace <+: failed.trace).trans (hnote failed)
  · rw [heq]
    rw [List.append_assoc] at htrace
    exact (htrace ▸ List.prefix_append _ _ : bus.trace <+: failed.trace).trans (hnote failed)
  · rw [htrace, List.append_assoc]
    exact List.prefix_append _ _

/-- .. and so does connecting .. -/
theorem edgeModbusConnect_prefix (bus : Bus (σ × List LinkEvent)) :
    bus.trace <+: (edgeModbusConnect (recorded lib) bus).2.trace := by
  have hgate : bus.trace <+: (backoffGate (recorded lib) bus).2.trace := by
    unfold backoffGate
    split_ifs
    · exact List.prefix_append _ _
    · exact List.prefix_refl _
  rw [edgeModbusConnect_eq]
  split_ifs
  · exact List.prefix_refl _
  · exact List.prefix_refl _
  · exact hgate
  · exact hgate.trans (attemptConnect_extends lib _)

/-- .. and connecting where it is needed. -/
theorem ensureConnected_prefix (bus : Bus (σ × List LinkEvent)) :
    bus.trace <+: (ensureConnected (recorded lib) bus).2.trace := by
  unfold ensureConnected
  split_ifs
  · exact List.prefix_refl _
  · exact edgeModbusConnect_prefix lib bus

end Operations

/-! ## Runs

The operations that a running program makes, in any order. The trace of a run begins with that of
each of its parts, so a bound on the clock of the whole is one for the parts. -/

/-- The entry points that may try to connect. -/
def LinkOp.mayConnect : LinkOp → Bool
  | .connect => true
  | .poll _ => true
  | .writeNode _ => true
  | .disconnect => false
  | .clear => false

theorem LinkOp.run_waits (lib : ModbusLib σ) {op : LinkOp} (hop : op.mayConnect = true)
    {bus : Bus (σ × List LinkEvent)} (h : bus.Waits)
    (hclock : ClockBounded (op.run (recorded lib) bus).trace) :
    (op.run (recorded lib) bus).Waits := by
  cases op with
  | connect => exact edgeModbusConnect_waits lib h hclock
  | poll nodes =>
    obtain ⟨counted, hcounted, hsame | hsame⟩ := edgeModbusPoll_same lib bus nodes
    · exact hsame.waits (hcounted.waits h)
    · exact waits_after_ensureConnected lib (hcounted.waits h) hsame hclock
  | writeNode node =>
    rcases edgeModbusWriteNode_same lib bus node with hsame | hsame
    · exact hsame.waits h
    · exact waits_after_ensureConnected lib h hsame hclock
  | disconnect => cases hop
  | clear => cases hop

/-- Each operation only adds to the trace .. -/
theorem LinkOp.run_prefix (lib : ModbusLib σ) {op : LinkOp} (hop : op.mayConnect = true)
    (bus : Bus (σ × List LinkEvent)) : bus.trace <+: (op.run (recorded lib) bus).trace := by
  cases op with
  | connect => exact edgeModbusConnect_prefix lib bus
  | poll nodes =>
    obtain ⟨counted, hcounted, hsame | hsame⟩ := edgeModbusPoll_same lib bus nodes
    · exact (hsame.trace.trans hcounted.trace) ▸ List.prefix_refl _
    · exact hcounted.trace ▸ hsame.trace ▸ ensureConnected_prefix lib counted
  | writeNode node =>
    rcases edgeModbusWriteNode_same lib bus node with hsame | hsame
    · exact hsame.trace ▸ List.prefix_refl _
    · exact hsame.trace ▸ ensureConnected_prefix lib bus
  | disconnect => cases hop
  | clear => cases hop

/-- .. and so does a sequence of them. -/
theorem busAfter_prefix (lib : ModbusLib σ) (ops : List LinkOp)
    (hops : ∀ op ∈ ops, op.mayConnect = true) :
    ∀ bus : Bus (σ × List LinkEvent), bus.trace <+: (busAfter (recorded lib) ops bus).trace := by
  induction ops with
  | nil => intro bus; exact List.prefix_refl _
  | cons op rest ih =>
    intro bus
    obtain ⟨hop, hrest⟩ := List.forall_mem_cons.mp hops
    exact (op.run_prefix lib hop bus).trans (ih hrest _)

theorem busAfter_waits (lib : ModbusLib σ) (ops : List LinkOp)
    (hops : ∀ op ∈ ops, op.mayConnect = true) :
    ∀ bus : Bus (σ × List LinkEvent), bus.Waits →
      ClockBounded (busAfter (recorded lib) ops bus).trace →
      (busAfter (recorded lib) ops bus).Waits := by
  induction ops with
  | nil => intro bus h _; exact h
  | cons op rest ih =>
    intro bus h hclock
    obtain ⟨hop, hrest⟩ := List.forall_mem_cons.mp hops
    -- the readings of the first call are among those of the run
    obtain ⟨later, hlater⟩ := busAfter_prefix lib rest hrest (op.run (recorded lib) bus)
    have hfirst : ClockBounded (op.run (recorded lib) bus).trace := by
      refine ClockBounded.of_append (b := later) ?_
      rw [hlater]
      exact hclock
    exact ih hrest _ (op.run_waits lib hop h hfirst) hclock

theorem initialBus_waits (host : Option Bytes) (port : UInt16) (env : σ) :
    (initialBus host port (env, [])).Waits := by
  have hfields : (edgeModbusInit host port).2.connectBackoffUs = 0
      ∧ (edgeModbusInit host port).2.nextConnectAttemptUs = 0 := by
    unfold edgeModbusInit
    split
    · exact ⟨rfl, rfl⟩
    · split_ifs <;> exact ⟨rfl, rfl⟩
  exact {
    backoff_eq := congrArg UInt64.toNat hfields.1
    open_gate := fun _ => hfields.2
    deadline := fun hpos => (by cases hpos)
    spaced := fun pre event post heq => (by cases pre <;> cases heq) }

/-- **Every caller respects the exponential back-off.** After `k` failed attempts in a row the
back-off is `backoffAfter k`, and no attempt is made before the clock has reached the time noted at
the last failure plus this back-off. -/
theorem backoff_respected (lib : ModbusLib σ) (host : Option Bytes) (port : UInt16) (env : σ)
    (ops : List LinkOp) (hops : ∀ op ∈ ops, op.mayConnect = true)
    (hclock : ClockBounded (busAfter (recorded lib) ops (initialBus host port (env, []))).trace) :
    (busAfter (recorded lib) ops (initialBus host port (env, []))).modbus.connectBackoffUs.toNat =
        backoffAfter (attemptsOf
          (busAfter (recorded lib) ops (initialBus host port (env, []))).trace).failures ∧
      ∀ pre event post,
        (busAfter (recorded lib) ops (initialBus host port (env, []))).trace =
            pre ++ event :: post →
          event.isAttempt = true → 0 < (attemptsOf pre).failures →
            ∃ noted now, (attemptsOf pre).noted = some noted ∧ (attemptsOf pre).last = some now ∧
              noted.toNat + backoffAfter (attemptsOf pre).failures ≤ now.toNat := by
  have hwaits := busAfter_waits lib ops hops _ (initialBus_waits host port env) hclock
  exact ⟨hwaits.backoff_eq, hwaits.spaced⟩

/-- A device that nobody answers for; every look at the clock takes 0.3 s. -/
def unreachableDevice : ModbusLib UInt64 where
  nowUs s := (s, s + 300000)
  newTcp _ _ s := (true, s)
  connect s := (false, s)
  setSlave _ s := (false, s)
  readRegisters _ _ s := ((-1, []), s)
  writeRegister _ _ s := (-1, s)
  writeRegisters _ _ s := (-1, s)
  close s := s
  free s := s

/-- Four calls on the unreachable device. -/
def unreachableBus : Bus (UInt64 × List LinkEvent) :=
  busAfter (recorded unreachableDevice) [.connect, .poll [], .connect, .poll []]
    (initialBus (some (lit "127.0.0.1")) 502 (1000, []))

/-- What happens on it: two attempts, and the readings of the clock between them. -/
theorem unreachableBus_trace : unreachableBus.trace =
    [.newTcp true, .connect false, .read 1000, .read 301000, .read 601000,
      .newTcp true, .connect false, .read 901000, .read 1201000] := by decide +kernel

/-- The second attempt waits until 0.5 s after the first; then the back-off is a second. -/
theorem unreachable_waits :
    unreachableBus.modbus.enabled = true ∧
      unreachableBus.modbus.connectBackoffUs.toNat = backoffAfter 2 ∧
      Spaced unreachableBus.trace := by
  -- the trace reads the clock five times, far below the bound
  have hclock : ClockBounded unreachableBus.trace := by
    rw [unreachableBus_trace]
    intro t ht
    have hread : t = 1000 ∨ t = 301000 ∨ t = 601000 ∨ t = 901000 ∨ t = 1201000 := by
      simpa using ht
    rcases hread with rfl | rfl | rfl | rfl | rfl
    all_goals decide
  obtain ⟨hbackoff, hspaced⟩ := backoff_respected unreachableDevice (some (lit "127.0.0.1")) 502
    1000 [.connect, .poll [], .connect, .poll []] (by decide) hclock
  refine ⟨by decide +kernel, hbackoff.trans ?_, hspaced⟩
  show backoffAfter (attemptsOf unreachableBus.trace).failures = backoffAfter 2
  rw [unreachableBus_trace]
  rfl

end OpcuaEdge
