import OpcuaEdge.ModbusLemmas

/-!
# OpcuaEdge — the connection state machine

Connections are opened and torn down from four functions, with `connected` and `ctx` as separate
fields. What libmodbus sees of it is the list of calls; which contexts are alive is read off that
list (`liveContexts`). `Custody` says that a list of calls keeps custody of its contexts: at most
one is alive, none is freed twice, and every call is made on the one that is alive. `Linked` ties
it to the fields of `EdgeModbus` and is kept by every operation (`LinkOp.run_linked`).

The proof has one lemma for each kind of call and one for each function:

* **`Custody.new`, `Custody.use`, `Custody.free`** — a context that is made while none is alive, a
  call on the one that is, and its release;
* **`edgeModbusPoll_linked`** — the loop over the nodes, whose turns use the context or end with
  its release;
* **`LinkOp.run_disabled`** — a link without a host never makes a call.
-/

namespace OpcuaEdge

open CStr CLoop

variable {σ : Type}

/-! ## Contexts in a list of calls

A context is created and freed by a call, and used by others. Whether it is handled well can be
told from the list of calls. -/

/-- The context that a call creates. -/
def ModbusCall.creates : ModbusCall → Option Nat
  | .newTcp ctx => ctx
  | _ => none

/-- The context that a call frees. -/
def ModbusCall.frees : ModbusCall → Option Nat
  | .free ctx => some ctx
  | _ => none

/-- The context a call is made on, `some none` for a null pointer. -/
def ModbusCall.madeOn : ModbusCall → Option (Option Nat)
  | .newTcp _ => none
  | .connect ctx _ => some (some ctx)
  | .setSlave ctx _ _ => some ctx
  | .readRegisters ctx _ _ _ => some ctx
  | .writeRegister ctx _ _ _ => some ctx
  | .writeRegisters ctx _ _ _ => some ctx
  | .close ctx => some (some ctx)
  | .free ctx => some (some ctx)

/-- The contexts created so far. -/
def createdContexts (calls : List ModbusCall) : List Nat := calls.filterMap ModbusCall.creates

/-- The contexts freed so far. -/
def freedContexts (calls : List ModbusCall) : List Nat := calls.filterMap ModbusCall.frees

/-- The contexts created and not yet freed. -/
def liveContexts (calls : List ModbusCall) : List Nat :=
  (createdContexts calls).filter (· ∉ freedContexts calls)

@[simp] theorem createdContexts_append (a b : List ModbusCall) :
    createdContexts (a ++ b) = createdContexts a ++ createdContexts b := List.filterMap_append

@[simp] theorem freedContexts_append (a b : List ModbusCall) :
    freedContexts (a ++ b) = freedContexts a ++ freedContexts b := List.filterMap_append

/-- Where a list with one more element can be cut. -/
theorem cut_append {α : Type} {l pre post : List α} {a last : α}
    (h : l ++ [last] = pre ++ a :: post) :
    (l = pre ∧ a = last) ∨ ∃ post', l = pre ++ a :: post' := by
  rcases List.eq_nil_or_concat post with rfl | ⟨post', other, rfl⟩
  · obtain ⟨hpre, hlast⟩ := List.append_inj' h rfl
    exact .inl ⟨hpre, (List.cons.inj hlast).1.symm⟩
  · refine .inr ⟨post', ?_⟩
    rw [List.concat_eq_append, ← List.cons_append, ← List.append_assoc] at h
    exact (List.append_inj' h rfl).1

/-- The calls keep custody of their contexts, which are numbered below `next`; `ctx` is the one
that is alive. -/
structure Custody (calls : List ModbusCall) (next : Nat) (ctx : Option Nat) : Prop where
  created : ∀ c ∈ createdContexts calls, c < next
  freed : ∀ c ∈ freedContexts calls, c < next
  live : liveContexts calls = ctx.toList
  freed_once : (freedContexts calls).Nodup
  made_on_live : ∀ pre call post, calls = pre ++ call :: post → ∀ c, call.madeOn = some c →
    ∃ k, c = some k ∧ liveContexts pre = [k]

namespace Custody

variable {calls : List ModbusCall} {next : Nat}

theorem nil : Custody [] 0 none where
  created c hc := by cases hc
  freed c hc := by cases hc
  live := rfl
  freed_once := List.nodup_nil
  made_on_live pre call post h := by cases pre <;> cases h

/-- One more call, made on the context that is alive or on none. -/
theorem made_on_live_append {ctx : Option Nat} (h : Custody calls next ctx) {last : ModbusCall}
    (hlast : ∀ c, last.madeOn = some c → ∃ k, c = some k ∧ ctx = some k) :
    ∀ pre call post, calls ++ [last] = pre ++ call :: post → ∀ c, call.madeOn = some c →
      ∃ k, c = some k ∧ liveContexts pre = [k] := by
  intro pre call post heq c hc
  rcases cut_append heq with ⟨rfl, rfl⟩ | ⟨post', hbefore⟩
  · obtain ⟨k, hk, hctx⟩ := hlast c hc
    refine ⟨k, hk, ?_⟩
    rw [h.live, hctx]
    rfl
  · exact h.made_on_live pre call post' hbefore c hc

/-- A call that creates and frees nothing, on the context that is alive. -/
theorem use {ctx : Option Nat} (h : Custody calls next ctx) (call : ModbusCall)
    (hcreates : call.creates = none) (hfrees : call.frees = none)
    (hon : ∀ c, call.madeOn = some c → ∃ k, c = some k ∧ ctx = some k) :
    Custody (calls ++ [call]) next ctx := by
  have hcreated : createdContexts (calls ++ [call]) = createdContexts calls := by
    simp [createdContexts, hcreates]
  have hfreed : freedContexts (calls ++ [call]) = freedContexts calls := by
    simp [freedContexts, hfrees]
  exact {
    created := by rw [hcreated]; exact h.created
    freed := by rw [hfreed]; exact h.freed
    live := by unfold liveContexts; rw [hcreated, hfreed]; exact h.live
    freed_once := by rw [hfreed]; exact h.freed_once
    made_on_live := h.made_on_live_append hon }

/-- `modbus_new_tcp` gives a context of its own. -/
theorem new (h : Custody calls next none) :
    Custody (calls ++ [.newTcp (some next)]) (next + 1) (some next) := by
  have hcreated :
      createdContexts (calls ++ [.newTcp (some next)]) = createdContexts calls ++ [next] :=
    createdContexts_append calls _
  have hfreed : freedContexts (calls ++ [.newTcp (some next)]) = freedContexts calls := by
    simp [freedContexts, ModbusCall.frees]
  have hnew : next ∉ freedContexts calls := fun hmem => absurd (h.freed next hmem) (by omega)
  -- a context is named by the number of contexts before it, so the new one is neither old nor
  -- freed
  exact {
    created := by
      intro c hc
      rw [hcreated] at hc
      rcases List.mem_append.mp hc with hc | hc
      · exact Nat.lt_succ_of_lt (h.created c hc)
      · rw [List.mem_singleton.mp hc]
        exact Nat.lt_succ_self next
    freed := by
      intro c hc
      rw [hfreed] at hc
      exact Nat.lt_succ_of_lt (h.freed c hc)
    live := by
      have hlive := h.live
      unfold liveContexts at hlive ⊢
      rw [hcreated, hfreed, List.filter_append, hlive]
      simp [hnew]
    freed_once := by rw [hfreed]; exact h.freed_once
    made_on_live := h.made_on_live_append fun c hc => (by cases hc) }

/-- `modbus_free` of the context that is alive leaves none. -/
theorem free {k : Nat} (h : Custody calls next (some k)) :
    Custody (calls ++ [.free k]) next none := by
  have hcreated : createdContexts (calls ++ [.free k]) = createdContexts calls := by
    simp [createdContexts, ModbusCall.creates]
  have hfreed : freedContexts (calls ++ [.free k]) = freedContexts calls ++ [k] :=
    freedContexts_append calls _
  have hlive : (createdContexts calls).filter (· ∉ freedContexts calls) = [k] := h.live
  have hk : k ∈ createdContexts calls ∧ k ∉ freedContexts calls := by
    have hmem : k ∈ (createdContexts calls).filter (· ∉ freedContexts calls) := by
      rw [hlive]
      exact List.mem_singleton_self k
    simpa using List.mem_filter.mp hmem
  -- the context that is freed is the live one, so no other is left and none is freed twice
  exact {
    created := by rw [hcreated]; exact h.created
    freed := by
      intro c hc
      rw [hfreed] at hc
      rcases List.mem_append.mp hc with hc | hc
      · exact h.freed c hc
      · rw [List.mem_singleton.mp hc]
        exact h.created k hk.1
    live := by
      unfold liveContexts
      rw [hcreated, hfreed]
      refine List.filter_eq_nil_iff.mpr fun c hc hnot => ?_
      simp only [List.mem_append, List.mem_singleton, not_or, decide_eq_true_eq] at hnot
      have hmem : c ∈ (createdContexts calls).filter (· ∉ freedContexts calls) :=
        List.mem_filter.mpr ⟨hc, by simpa using hnot.1⟩
      rw [hlive] at hmem
      exact hnot.2 (List.mem_singleton.mp hmem)
    freed_once := by
      rw [hfreed]
      refine List.nodup_append.mpr ⟨h.freed_once, List.pairwise_singleton _ k,
        fun c hc c' hc' heq => ?_⟩
      rw [List.mem_singleton.mp hc'] at heq
      exact hk.2 (heq ▸ hc)
    made_on_live := h.made_on_live_append fun c hc => ⟨k, (Option.some.inj hc).symm, rfl⟩ }

end Custody

/-! ## The fields of the connection

Besides its context the link keeps a flag and the times of its back-off. They say the same:
connected means that there is a context, and then no back-off is running. -/

/-- The invariant of the link. -/
structure Linked (bus : Bus σ) : Prop where
  custody : Custody bus.calls bus.created bus.modbus.ctx
  connected : bus.modbus.connected = bus.modbus.ctx.isSome
  no_backoff : bus.modbus.ctx.isSome →
    bus.modbus.connectBackoffUs = 0 ∧ bus.modbus.nextConnectAttemptUs = 0
  disabled : bus.modbus.enabled = false → bus.modbus.ctx = none

section Operations

variable (lib : ModbusLib σ)

/-- A failed attempt to connect leaves no context behind. -/
theorem linked_noteConnectFailure {bus : Bus σ} (hcustody : Custody bus.calls bus.created none)
    (hctx : bus.modbus.ctx = none) (hconnected : bus.modbus.connected = false) :
    Linked (noteConnectFailure lib bus) := by
  have hctx' : (noteConnectFailure lib bus).modbus.ctx = none := hctx
  exact {
    custody := by rw [hctx']; exact hcustody
    connected := by rw [hctx']; exact hconnected
    no_backoff := fun hsome => by rw [hctx'] at hsome; cases hsome
    disabled := fun _ => hctx' }

/-- The gate only reads the clock. -/
theorem backoffGate_others (bus : Bus σ) :
    (backoffGate lib bus).2 = { bus with env := (backoffGate lib bus).2.env } := by
  unfold backoffGate
  split_ifs <;> rfl

/-- `modbus_new_tcp` gives the next context or none. -/
theorem Bus.newTcp_cases (bus : Bus σ) :
    (∃ env, bus.newTcp lib = (some bus.created,
      { bus with
        env := env, created := bus.created + 1
        calls := bus.calls ++ [.newTcp (some bus.created)] })) ∨
      ∃ env, bus.newTcp lib =
        (none, { bus with env := env, calls := bus.calls ++ [.newTcp none] }) := by
  unfold Bus.newTcp
  dsimp only
  split_ifs
  · exact .inl ⟨_, rfl⟩
  · exact .inr ⟨_, rfl⟩

/-- A link that is not connected has no context .. -/
theorem Linked.ctx_none {bus : Bus σ} (h : Linked bus) (hconnected : bus.modbus.connected = false) :
    bus.modbus.ctx = none := by
  have hisSome := h.connected
  rw [hconnected] at hisSome
  simpa using hisSome.symm

/-- .. and one that is has one. -/
theorem Linked.ctx_some {bus : Bus σ} (h : Linked bus) (hconnected : bus.modbus.connected = true) :
    ∃ ctx, bus.modbus.ctx = some ctx :=
  Option.isSome_iff_exists.mp (h.connected.symm.trans hconnected)

/-- Connecting keeps the invariant: a context that could not be connected is freed at once. -/
theorem edgeModbusConnect_linked {bus : Bus σ} (h : Linked bus) :
    Linked (edgeModbusConnect lib bus).2 := by
  unfold edgeModbusConnect
  dsimp only
  split_ifs with henabled hup hgate
  · exact h
  · exact h
  · rw [backoffGate_others]
    exact ⟨h.custody, h.connected, h.no_backoff, h.disabled⟩
  · -- not connected, so no context is alive
    have hconnected := Bool.eq_false_iff.mpr hup
    have hctx := h.ctx_none hconnected
    have hcustody := h.custody
    rw [hctx] at hcustody
    rw [backoffGate_others]
    rcases Bus.newTcp_cases lib { bus with env := (backoffGate lib bus).2.env } with
      ⟨env, hnew⟩ | ⟨env, hnew⟩
    · rw [hnew]
      dsimp only
      split_ifs with hanswer
      · -- the new context is alive and stored
        exact {
          custody := hcustody.new.use _ rfl rfl fun c hc => ⟨_, (Option.some.inj hc).symm, rfl⟩
          connected := rfl
          no_backoff := fun _ => ⟨rfl, rfl⟩
          disabled := fun hdisabled => absurd hdisabled henabled }
      · -- the new context was alive for the attempt and is freed
        have hattempt := hcustody.new.use (.connect bus.created (lib.connect env).1) rfl rfl
          fun c hc => ⟨_, (Option.some.inj hc).symm, rfl⟩
        exact linked_noteConnectFailure lib hattempt.free hctx hconnected
    · rw [hnew]
      exact linked_noteConnectFailure lib (hcustody.use _ rfl rfl fun c hc => (by cases hc)) hctx
        hconnected

theorem edgeModbusDisconnect_linked {bus : Bus σ} (h : Linked bus) :
    Linked (edgeModbusDisconnect lib bus) := by
  unfold edgeModbusDisconnect
  cases hctx : bus.modbus.ctx with
  | none => exact h
  | some ctx =>
    have hcustody := h.custody
    rw [hctx] at hcustody
    have hclosed := hcustody.use (.close ctx) rfl rfl
      fun c hc => ⟨_, (Option.some.inj hc).symm, rfl⟩
    exact {
      custody := hclosed.free
      connected := rfl
      no_backoff := fun hsome => (by cases hsome)
      disabled := fun _ => rfl }

theorem ensureConnected_linked {bus : Bus σ} (h : Linked bus) :
    Linked (ensureConnected lib bus).2 := by
  unfold ensureConnected
  split_ifs
  · exact h
  · exact edgeModbusConnect_linked lib h

theorem edgeModbusConnect_ok {bus : Bus σ} (henabled : bus.modbus.enabled = true)
    (hok : (edgeModbusConnect lib bus).1 = .ok) :
    (edgeModbusConnect lib bus).2.modbus.connected = true := by
  unfold edgeModbusConnect at hok ⊢
  dsimp only at hok ⊢
  rw [if_neg (by rw [henabled]; decide)] at hok ⊢
  by_cases hup : bus.modbus.connected = true
  · rw [if_pos hup]
    exact hup
  · rw [if_neg hup] at hok ⊢
    cases hgate : (backoffGate lib bus).1 with
    | true => rw [hgate, if_pos rfl] at hok; cases hok
    | false =>
      rw [hgate, if_neg (by decide)] at hok
      rw [if_neg (by decide)]
      cases hnew : ((backoffGate lib bus).2.newTcp lib).1 with
      | none => rw [hnew] at hok; cases hok
      | some ctx =>
        simp only [hnew] at hok ⊢
        -- of the ways behind modbus_new_tcp only the last one returns OK
        split_ifs at hok ⊢
        rfl

/-- Where the check for a connection succeeds, a context is there. -/
theorem ensureConnected_ctx {bus : Bus σ} (h : Linked bus) (henabled : bus.modbus.enabled = true)
    (hok : (ensureConnected lib bus).1 = .ok) :
    ∃ ctx, (ensureConnected lib bus).2.modbus.ctx = some ctx := by
  refine (ensureConnected_linked lib h).ctx_some ?_
  unfold ensureConnected at hok ⊢
  split_ifs at hok ⊢ with hup
  · exact hup
  · exact edgeModbusConnect_ok lib henabled hok

/-- The counters are not part of the link. -/
theorem Linked.counted {bus : Bus σ} (h : Linked bus)
    (polls readOks readErrors writeOks writeErrors : UInt64) :
    Linked { bus with
      modbus.pollCount := polls
      modbus.readOkCount := readOks
      modbus.readErrorCount := readErrors
      modbus.writeOkCount := writeOks
      modbus.writeErrorCount := writeErrors } :=
  ⟨h.custody, h.connected, h.no_backoff, h.disabled⟩

/-- Calls on the stored context change nothing about the link. -/
theorem Linked.use {bus : Bus σ} (h : Linked bus) {ctx : Nat} (hctx : bus.modbus.ctx = some ctx)
    (env : σ) {call : ModbusCall} (hcreates : call.creates = none) (hfrees : call.frees = none)
    (hon : call.madeOn = some (some ctx)) : Linked (bus.log env call) where
  custody := h.custody.use call hcreates hfrees fun _ hc =>
    ⟨ctx, Option.some.inj (hc.symm.trans hon), hctx⟩
  connected := h.connected
  no_backoff := h.no_backoff
  disabled := h.disabled

/-- The state of the poll loop while the connection stands. -/
def Polling (s : PollState σ) : Prop := Linked s.bus ∧ ∃ ctx, s.bus.modbus.ctx = some ctx

theorem selectUnit_polling (node : EdgeNode) {s : PollState σ} (h : Polling s) :
    Polling (selectUnit lib node s).2 := by
  obtain ⟨hlinked, ctx, hctx⟩ := h
  have hset : Linked (s.bus.setSlave lib node.modbusUnit).2 :=
    hlinked.use hctx _ rfl rfl (congrArg some hctx)
  unfold selectUnit
  dsimp only
  split_ifs
  · exact ⟨hset, ctx, hctx⟩
  · exact ⟨hset, ctx, hctx⟩
  · exact ⟨hlinked, ctx, hctx⟩

/-- A node is polled on a live context; a failure disconnects, and the poll is over. -/
theorem pollNode_polling (i : Nat) (node : EdgeNode) {s : PollState σ} (h : Polling s) :
    ((pollNode lib i node s).exit = none → Polling (pollNode lib i node s).state)
      ∧ Linked (pollNode lib i node s).state.bus := by
  obtain ⟨hsel, ctx, hctx⟩ := selectUnit_polling lib node h
  have hread : Linked ((selectUnit lib node s).2.bus.readRegisters lib (registerOffset node)
      (registerWidthForNode node)).2 := hsel.use hctx _ rfl rfl (congrArg some hctx)
  unfold pollNode
  dsimp only
  split_ifs
  · exact ⟨fun _ => h, h.1⟩
  · -- the unit could not be selected: one more read error
    refine ⟨fun _ => ⟨?_, ctx, hctx⟩, ?_⟩
    · exact hsel.counted _ _ _ _ _
    · exact hsel.counted _ _ _ _ _
  · refine ⟨fun hnone => (by cases hnone), edgeModbusDisconnect_linked lib ?_⟩
    exact hread.counted _ _ _ _ _
  · refine ⟨fun _ => ⟨?_, ctx, hctx⟩, ?_⟩
    · exact hread.counted _ _ _ _ _
    · exact hread.counted _ _ _ _ _

theorem edgeModbusPoll_linked {bus : Bus σ} (h : Linked bus) (nodes : List EdgeNode) :
    Linked (edgeModbusPoll lib bus nodes).2.1 := by
  have hcounted : Linked { bus with modbus.pollCount := bus.modbus.pollCount + 1 } :=
    h.counted _ _ _ _ _
  have hup := ensureConnected_linked lib hcounted
  unfold edgeModbusPoll
  dsimp only
  split_ifs with hdisabled hdown
  · exact hcounted
  · exact hup
  · have hctx := ensureConnected_ctx lib hcounted (Bool.not_eq_false _ ▸ hdisabled)
      (not_not.mp hdown)
    -- the connection stands at every turn, until a failed read drops it and ends the loop
    have hloop := sweep_cases Polling (fun s : PollState σ => Linked s.bus)
      (fun i node s hs hnext => (pollNode_polling lib i node hs).1 hnext)
      (fun i node s _ hs _ => (pollNode_polling lib i node hs).2) nodes 0
      { bus := (ensureConnected lib _).2 } ⟨hup, hctx⟩
    rcases hloop with hstanding | hdropped
    · exact hstanding.1
    · exact hdropped

theorem sendRegisters_linked {bus : Bus σ} (h : Linked bus) {ctx : Nat}
    (hctx : bus.modbus.ctx = some ctx) (offset : Int) (packed : Nat × List (BitVec 16)) :
    Linked (sendRegisters lib offset packed bus).2 := by
  unfold sendRegisters
  dsimp only
  split_ifs
  · exact h.use hctx _ rfl rfl (congrArg some hctx)
  · exact h.use hctx _ rfl rfl (congrArg some hctx)

theorem edgeModbusWriteNode_linked {bus : Bus σ} (h : Linked bus) (node : EdgeNode) :
    Linked (edgeModbusWriteNode lib bus node).2 := by
  have hup := ensureConnected_linked lib h
  unfold edgeModbusWriteNode
  dsimp only
  split_ifs with hdisabled hwritable hregister hdown hunit hfailed
  · exact h
  · exact h
  · exact h
  · exact hup.counted _ _ _ _ _
  -- the link is up from here on: the unit is selected and the registers are sent
  all_goals
    obtain ⟨ctx, hctx⟩ := ensureConnected_ctx lib h (Bool.not_eq_false _ ▸ hdisabled)
      (not_not.mp hdown)
    have hsel : Linked ((ensureConnected lib bus).2.setSlave lib node.modbusUnit).2 :=
      hup.use hctx _ rfl rfl (congrArg some hctx)
    have hsent :=
      sendRegisters_linked lib hsel hctx (registerOffset node) (packNodeToRegisters node)
  · exact hsel.counted _ _ _ _ _
  · refine edgeModbusDisconnect_linked lib ?_
    exact hsent.counted _ _ _ _ _
  · exact hsent.counted _ _ _ _ _

theorem edgeModbusDisconnect_ctx (bus : Bus σ) :
    (edgeModbusDisconnect lib bus).modbus.ctx = none := by
  unfold edgeModbusDisconnect
  split
  · assumption
  · rfl

theorem edgeModbusClear_linked {bus : Bus σ} (h : Linked bus) :
    Linked (edgeModbusClear lib bus) := by
  have hcustody := (edgeModbusDisconnect_linked lib h).custody
  rw [edgeModbusDisconnect_ctx] at hcustody
  exact {
    custody := hcustody
    connected := rfl
    no_backoff := fun hsome => (by cases hsome)
    disabled := fun _ => rfl }

end Operations

/-! ## Runs

Any operations in any order, from the link as it is initialised. -/

/-- The calls into `edge_modbus.c` after `edge_modbus_init`. -/
inductive LinkOp where
  | connect
  | poll (nodes : List EdgeNode)
  | writeNode (node : EdgeNode)
  | disconnect
  | clear

/-- The link after one operation. -/
def LinkOp.run (lib : ModbusLib σ) (bus : Bus σ) : LinkOp → Bus σ
  | .connect => (edgeModbusConnect lib bus).2
  | .poll nodes => (edgeModbusPoll lib bus nodes).2.1
  | .writeNode node => (edgeModbusWriteNode lib bus node).2
  | .disconnect => edgeModbusDisconnect lib bus
  | .clear => edgeModbusClear lib bus

/-- The link after a sequence of them. -/
def busAfter (lib : ModbusLib σ) (ops : List LinkOp) (bus : Bus σ) : Bus σ :=
  ops.foldl (fun bus op => op.run lib bus) bus

/-- What `edge_modbus_init` leaves behind, before any call of libmodbus. -/
def initialBus (host : Option Bytes) (port : UInt16) (env : σ) : Bus σ where
  modbus := (edgeModbusInit host port).2
  env := env

theorem initialBus_linked (host : Option Bytes) (port : UInt16) (env : σ) :
    Linked (initialBus host port env) := by
  have hfields : (edgeModbusInit host port).2.ctx = none
      ∧ (edgeModbusInit host port).2.connected = false := by
    unfold edgeModbusInit
    split
    · exact ⟨rfl, rfl⟩
    · split_ifs <;> exact ⟨rfl, rfl⟩
  have hctx : (initialBus host port env).modbus.ctx = none := hfields.1
  exact {
    custody := by rw [hctx]; exact .nil
    connected := by rw [hctx]; exact hfields.2
    no_backoff := fun hsome => by rw [hctx] at hsome; cases hsome
    disabled := fun _ => hctx }

/-- Every operation keeps the invariant .. -/
theorem LinkOp.run_linked (lib : ModbusLib σ) (op : LinkOp) {bus : Bus σ} (h : Linked bus) :
    Linked (op.run lib bus) := by
  cases op with
  | connect => exact edgeModbusConnect_linked lib h
  | poll nodes => exact edgeModbusPoll_linked lib h nodes
  | writeNode node => exact edgeModbusWriteNode_linked lib h node
  | disconnect => exact edgeModbusDisconnect_linked lib h
  | clear => exact edgeModbusClear_linked lib h

/-- .. and so does a sequence of them. -/
theorem busAfter_linked (lib : ModbusLib σ) (ops : List LinkOp) :
    ∀ bus : Bus σ, Linked bus → Linked (busAfter lib ops bus) := by
  induction ops with
  | nil => intro bus h; exact h
  | cons op rest ih => intro bus h; exact ih _ (op.run_linked lib h)

/-- Without modbus no operation calls libmodbus. -/
theorem LinkOp.run_disabled (lib : ModbusLib σ) (op : LinkOp) {bus : Bus σ} (h : Linked bus)
    (hdisabled : bus.modbus.enabled = false) : (op.run lib bus).calls = bus.calls := by
  have hnone := h.disabled hdisabled
  -- a disabled link returns first thing, and has no context to close or free
  cases op with
  | connect =>
    unfold LinkOp.run edgeModbusConnect
    simp only [hdisabled, if_true]
  | poll nodes =>
    unfold LinkOp.run edgeModbusPoll
    simp only [hdisabled, if_true]
  | writeNode node =>
    unfold LinkOp.run edgeModbusWriteNode
    simp only [hdisabled, if_true]
  | disconnect =>
    unfold LinkOp.run edgeModbusDisconnect
    simp only [hnone]
  | clear =>
    unfold LinkOp.run edgeModbusClear edgeModbusDisconnect
    simp only [hnone]

/-- What holds of the connection after each call. -/
structure LinkInvariant (bus : Bus σ) : Prop where
  connected_iff : bus.modbus.connected = true ↔ bus.modbus.ctx ≠ none
  live_count : (liveContexts bus.calls).length = if bus.modbus.connected then 1 else 0
  freed_once : (freedContexts bus.calls).Nodup
  made_on_live : ∀ pre call post, bus.calls = pre ++ call :: post → ∀ c, call.madeOn = some c →
    ∃ ctx, c = some ctx ∧ liveContexts pre = [ctx]
  no_backoff : bus.modbus.connected = true →
    bus.modbus.connectBackoffUs = 0 ∧ bus.modbus.nextConnectAttemptUs = 0

theorem Linked.invariant {bus : Bus σ} (h : Linked bus) : LinkInvariant bus where
  connected_iff := by rw [h.connected, Option.isSome_iff_ne_none]
  live_count := by
    rw [h.custody.live, h.connected]
    cases bus.modbus.ctx <;> rfl
  freed_once := h.custody.freed_once
  made_on_live := h.custody.made_on_live
  no_backoff hup := h.no_backoff (h.connected.symm.trans hup)

/-- **The connection state machine is sound**: after any calls the invariant holds, and while modbus
is disabled no further call reaches libmodbus. -/
theorem link_invariant (lib : ModbusLib σ) (host : Option Bytes) (port : UInt16) (env : σ)
    (ops : List LinkOp) :
    LinkInvariant (busAfter lib ops (initialBus host port env)) ∧
      ((busAfter lib ops (initialBus host port env)).modbus.enabled = false →
        ∀ op : LinkOp, (op.run lib (busAfter lib ops (initialBus host port env))).calls =
          (busAfter lib ops (initialBus host port env)).calls) := by
  have hlinked := busAfter_linked lib ops _ (initialBus_linked host port env)
  exact ⟨hlinked.invariant, fun hdisabled op => op.run_disabled lib hlinked hdisabled⟩

end OpcuaEdge
