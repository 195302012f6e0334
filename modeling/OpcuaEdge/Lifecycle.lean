import OpcuaEdge.Commands
import OpcuaEdge.EventPass
import OpcuaEdge.ModbusLink
import OpcuaEdge.Process

/-!
# OpcuaEdge — what the process acquires it releases

`main` cleans up by hand on each of its failure paths. `Held` is what the process holds at a time,
and `Held.step` says which calls are legal then: a file is closed once and only used while it is
open, the callback is registered on a live server and taken back by its own identifier, registers
are only transferred while it is registered. The calls of every life of the process are legal, and
at its end nothing is held (`process_releases`), with one exception: a connection that SQLite
allocated and could not open.

`Held` is what one function acquires and another one releases. The template's `FILE` and the
prepared statements are not among it: a function that opens one closes it before each of its own
returns, so none is open between two calls of this record.
-/

namespace OpcuaEdge

open CStr CLoop Txn

variable {σ τ ρ : Type}

/-! ## What is held

Each acquiring call is recorded with its result, each releasing call as it is made. A call is legal
only in states in which the library allows it. -/

/-- The database connection, the configuration before there is a server, the server, its run, and
the repeated callback by its identifier. -/
structure Held where
  db : Bool := false
  config : Bool := false
  server : Bool := false
  running : Bool := false
  callback : Option UInt64 := none
  deriving DecidableEq, Repr

/-- A call that takes a connection down. -/
def ModbusCall.tearsDown : ModbusCall → Bool
  | .close _ => true
  | .free _ => true
  | _ => false

/-- What is held after a call, `none` if the call was not legal. -/
def Held.step (h : Held) : LifeCall → Option Held
  | .sqliteOpen result =>
    if h.db then none else some { h with db := decide (result ≠ .failed false) }
  | .sqliteCalls entries => if entries = [] ∨ h.db then some h else none
  | .sqliteClose => if h.db then some { h with db := false } else none
  | .uaConfig ok => if h.config then none else some { h with config := ok }
  | .uaConfigClear => if h.config then some { h with config := false } else none
  -- a server that could be created owns the configuration
  | .uaNew ok =>
    if h.config && !h.server then some { h with config := !ok, server := ok } else none
  | .uaAddNodes _ => if h.server then some h else none
  | .uaAddRepeatedCallback id =>
    if h.server && h.callback.isNone then some { h with callback := id } else none
  | .uaRunStartup ok => if h.server && !h.running then some { h with running := ok } else none
  | .uaRunIterate => if h.running then some h else none
  | .uaRunShutdown => if h.running then some { h with running := false } else none
  | .uaRemoveCallback id =>
    if h.server ∧ h.callback = some id then some { h with callback := none } else none
  -- the callbacks of a server go with it
  | .uaDelete =>
    if h.server && !h.running then some { h with server := false, callback := none } else none
  | .modbusCalls calls =>
    if h.callback.isSome || calls.all ModbusCall.tearsDown then some h else none

/-- The calls are legal one after the other and lead from `h` to `h'`. -/
def Leads (h : Held) (calls : List LifeCall) (h' : Held) : Prop :=
  calls.foldlM Held.step h = some h'

theorem Leads.append {h h' h'' : Held} {calls calls' : List LifeCall} (hfirst : Leads h calls h')
    (hsecond : Leads h' calls' h'') : Leads h (calls ++ calls') h'' := by
  unfold Leads at *
  rw [List.foldlM_append, hfirst]
  exact hsecond

/-! ## The server stays alive while it runs

Nothing that a tick does deletes the server or loses the context of the link, so the calls of a
tick are legal whenever the process is serving. -/

/-- The runtime has a server. -/
def Live (server : Option (EdgeServer ρ)) : Prop := (server.bind (·.ua)).isSome = true

theorem Live.update {server : Option (EdgeServer ρ)} (h : Live server) (f : ρ → ρ) :
    Live (server.map (·.update f)) := by
  cases server with
  | none => exact h
  | some server =>
    unfold Live EdgeServer.update at *
    simpa using h

/-- Emitting a notification leaves the server alive .. -/
theorem emitOpcuaEvent_live (lib : UaLib ρ) (model : EdgeModel) (event : EdgeEvent)
    {server : Option (EdgeServer ρ)} (h : Live server) :
    Live (emitOpcuaEvent lib model event server).2 := by
  cases server with
  | none => exact h
  | some server =>
    obtain ⟨ua, emitted⟩ := server
    cases ua with
    | none => exact h
    | some ua =>
      unfold emitOpcuaEvent
      dsimp only
      split
      · rfl
      · split_ifs <;> rfl

/-- .. and so does a whole pass. -/
theorem edgeEventsEvaluate_live (env : EventEnv τ ρ) (nowMs : Nat) (model : EdgeModel)
    (store : Store τ) {server : Option (EdgeServer ρ)} (h : Live server) :
    Live (edgeEventsEvaluate env nowMs model store server).server := by
  refine sweep_state (fun s : EvalState τ ρ => Live s.server) (fun i event s hs => ?_)
    model.events 0 { store, server } h
  obtain ⟨-, hturn⟩ | ⟨-, -, hturn⟩ | ⟨-, -, -, hturn⟩ | ⟨-, -, -, s', rfl, hturn⟩ :=
    evaluateEvent_cases env model nowMs i event s
  · rw [hturn]; exact hs
  · rw [hturn]; exact hs
  · rw [hturn]; exact emitOpcuaEvent_live env.lib model _ hs
  · rw [hturn]; exact emitOpcuaEvent_live env.lib model _ hs

/-- The server is alive, and so is at most one context, which the connection fields know. -/
structure Serviceable (rt : EdgeRuntime σ τ ρ) : Prop where
  live : Live rt.server
  linked : Linked rt.bus

theorem drainPendingWrites_linked (lib : ModbusLib σ) {bus : Bus σ} (h : Linked bus)
    (nodes : List EdgeNode) : Linked (drainPendingWrites lib bus nodes).state.bus := by
  refine sweep_state (fun s : DrainState σ => Linked s.bus) (fun i node s hs => ?_) nodes 0
    { bus } h
  obtain ⟨-, hturn⟩ | ⟨-, -, calls, -, hturn⟩ := drainNode_cases lib i node s
  · rw [hturn]; exact hs
  · rw [hturn]; exact edgeModbusWriteNode_linked lib hs node

/-- A tick keeps both. -/
theorem edgeRuntimeTick_sound (libs : Libs σ τ ρ) (clock : TickClock) {rt : EdgeRuntime σ τ ρ}
    (h : Serviceable rt) : Serviceable (edgeRuntimeTick libs clock rt).1 where
  live := edgeEventsEvaluate_live libs.events _ _ _ h.live
  linked :=
    edgeModbusPoll_linked libs.modbus (drainPendingWrites_linked libs.modbus h.linked _) _

/-- So does every step .. -/
theorem runStep_sound (libs : Libs σ τ ρ) {rt : EdgeRuntime σ τ ρ} (h : Serviceable rt)
    (op : RunOp) : Serviceable (runStep libs rt op).1 := by
  cases op with
  | tick clock => exact edgeRuntimeTick_sound libs clock h
  | write i value =>
    -- a write changes nodes only
    obtain hstep | ⟨_, _, hstep⟩ | ⟨_, _, _, _, _, _, _, _, hstep⟩ :=
      runStep_write_cases libs rt i value
    · rw [hstep]; exact h
    · rw [hstep]; exact h
    · rw [hstep]; exact ⟨h.live, h.linked⟩

/-- .. and every run. -/
theorem runFrom_sound (libs : Libs σ τ ρ) (ops : List RunOp) :
    ∀ st : EdgeRuntime σ τ ρ × List Obs, Serviceable st.1 →
      Serviceable (runFrom libs ops st).1 := by
  induction ops with
  | nil => intro st h; exact h
  | cons op rest ih => intro st h; exact ih _ (runStep_sound libs h op)

/-! ## The server loop

An iteration of the server may run the callback, and any number of client writes. -/

/-- What is held while the callback `id` is registered. -/
def Held.registered (id : UInt64) : Held := { db := true, server := true, callback := some id }

/-- What is held while the server runs. -/
def Held.serving (id : UInt64) : Held := { Held.registered id with running := true }

theorem leads_callsSince (id : UInt64) (before after : EdgeRuntime σ τ ρ) :
    Leads (Held.serving id) (.uaRunIterate :: callsSince before after) (Held.serving id) := by
  simp [Leads, callsSince, Held.step, Held.serving, Held.registered]

theorem serverIterate_sound (lib : UaServerLib ρ) (libs : Libs σ τ ρ) {s : ServeState σ τ ρ}
    (h : Serviceable s.rt) (ops : List RunOp) : Serviceable (serverIterate lib libs s ops).rt :=
  runFrom_sound libs ops _ ⟨h.live.update _, h.linked⟩

/-- The turns of the server loop keep the server alive, and their calls are legal. -/
theorem iterations_serving (lib : UaServerLib ρ) (libs : Libs σ τ ρ) {before : Held}
    {id : UInt64} (iterations : List (List RunOp)) :
    ∀ s : ServeState σ τ ρ, Serviceable s.rt → Leads before s.log (Held.serving id) →
      Serviceable (iterations.foldl (serverIterate lib libs) s).rt ∧
        Leads before (iterations.foldl (serverIterate lib libs) s).log (Held.serving id) := by
  induction iterations with
  | nil => intro s hsound hlog; exact ⟨hsound, hlog⟩
  | cons ops rest ih =>
    intro s hsound hlog
    exact ih _ (serverIterate_sound lib libs hsound ops) (hlog.append (leads_callsSince id _ _))

/-- After the loop the callback is still registered, whether the server came up or not. -/
theorem edgeServerRun_registered (lib : UaServerLib ρ) (libs : Libs σ τ ρ) {before : Held}
    {id : UInt64} (iterations : List (List RunOp)) {s : ServeState σ τ ρ}
    (hsound : Serviceable s.rt) (hlog : Leads before s.log (Held.registered id)) :
    Serviceable (edgeServerRun lib libs iterations s).2.rt ∧
      Leads before (edgeServerRun lib libs iterations s).2.log (Held.registered id) := by
  obtain ⟨ua, hua⟩ := Option.isSome_iff_exists.mp hsound.live
  have hup : ∀ ok : Bool, Leads (Held.registered id) [.uaRunStartup ok]
      { Held.registered id with running := ok } := fun ok => by
    simp [Leads, Held.step, Held.registered]
  have hdown : Leads (Held.serving id) [.uaRunShutdown] (Held.registered id) := by
    simp [Leads, Held.step, Held.serving, Held.registered]
  unfold edgeServerRun
  simp only [hua]
  -- a server that does not start is shut down by nobody
  split_ifs with hstartup
  · refine ⟨⟨hsound.live.update _, hsound.linked⟩, ?_⟩
    rw [hstartup]
    exact hlog.append (hup false)
  · have hserving : Leads before (s.log ++ [.uaRunStartup (lib.runStartup ua).1])
        (Held.serving id) := by
      rw [Bool.not_eq_false _ |>.mp hstartup]
      exact hlog.append (hup true)
    obtain ⟨hsound', hlog'⟩ := iterations_serving lib libs iterations
      { s with
        rt.server := s.rt.server.map (·.update fun ua => (lib.runStartup ua).2)
        log := s.log ++ [.uaRunStartup (lib.runStartup ua).1] }
      ⟨hsound.live.update _, hsound.linked⟩ hserving
    exact ⟨⟨hsound'.live.update _, hsound'.linked⟩, hlog'.append hdown⟩

/-- A live server is deleted, and its callbacks with it. -/
theorem leads_edgeServerClear {server : Option (EdgeServer ρ)} (h : Live server)
    (callback : Option UInt64) :
    Leads { db := true, server := true, callback } ((server.map edgeServerClear).getD [])
      { db := true } := by
  cases server with
  | none => cases h
  | some server =>
    have hua : server.ua.isSome = true := h
    simp [Leads, edgeServerClear, hua, Held.step]

/-! ## Taking a connection down

The last operation on the link happens when the callback is gone. All that it does then is to close
and to free. -/

/-- Clearing the link only takes it down. -/
theorem edgeModbusClear_calls (lib : ModbusLib σ) (bus : Bus σ) :
    ((edgeModbusClear lib bus).calls.drop bus.calls.length).all ModbusCall.tearsDown = true := by
  unfold edgeModbusClear edgeModbusDisconnect
  cases bus.modbus.ctx with
  | none => simp
  | some ctx => simp [Bus.close, Bus.free, Bus.log, ModbusCall.tearsDown]

theorem Linked.cleared (lib : ModbusLib σ) {bus : Bus σ} (h : Linked bus) :
    Custody (edgeModbusClear lib bus).calls (edgeModbusClear lib bus).created none :=
  (edgeModbusClear_linked lib h).custody

/-! ## The stages of `main`

Startup acquires one thing after the other. Each stage either goes on with what it has acquired, or
releases it and everything before it. -/

/-- A server that could not be created leaves nothing behind. -/
theorem leads_edgeServerInit (lib : UaServerLib ρ) (port : UInt16) :
    Leads { db := true } (edgeServerInit lib port).2.2
      { db := true, server := (edgeServerInit lib port).2.1.ua.isSome } := by
  unfold edgeServerInit
  split_ifs
  · rfl
  · cases lib.newWithConfig port with
    | none => rfl
    | some ua => rfl

theorem leads_singleton {h h' : Held} {call : LifeCall} (hstep : h.step call = some h') :
    Leads h [call] h' := by
  simp [Leads, hstep]

/-- The callback is registered, or the server is deleted. -/
theorem startupRuntime_registered (w : World σ τ ρ) {rt : EdgeRuntime σ τ ρ}
    (hsound : Serviceable rt) {before : Held} {log : List LifeCall}
    (hlog : Leads before log { db := true, server := true }) :
    Serviceable (startupRuntime w rt log).2.rt ∧
      ∃ callback, Leads before (startupRuntime w rt log).2.log
          { db := true, server := true, callback } ∧
        ((startupRuntime w rt log).1 = .served →
          callback = some (startupRuntime w rt log).2.callbackId) := by
  obtain ⟨ua, hua⟩ := Option.isSome_iff_exists.mp hsound.live
  unfold startupRuntime edgeRuntimeRegister
  simp only [hua]
  -- without the repeated callback the loop is not entered, and there is none to remove
  cases hid : (w.server.addRepeatedCallback ua).1 with
  | none =>
    exact ⟨⟨hsound.live.update _, hsound.linked⟩, none, hlog.append (leads_singleton rfl), nofun⟩
  | some id =>
    exact ⟨⟨hsound.live.update _, hsound.linked⟩, some id, hlog.append (leads_singleton rfl),
      fun _ => rfl⟩

/-- The address space is loaded and the runtime started, or the server is deleted. -/
theorem startupSpace_registered (w : World σ τ ρ) (o : OpenedStore τ) {bus : Bus σ}
    (hbus : Linked bus) (ua : ρ) {before : Held} {log : List LifeCall}
    (hlog : Leads before log { db := true, server := true }) :
    Serviceable (startupSpace w o bus ua log).2.rt ∧
      ∃ callback, Leads before (startupSpace w o bus ua log).2.log
          { db := true, server := true, callback } ∧
        ((startupSpace w o bus ua log).1 = .served →
          callback = some (startupSpace w o bus ua log).2.callbackId) := by
  have hfilled : ∀ count, Leads before (log ++ [.uaAddNodes count])
      { db := true, server := true } := fun count => hlog.append (leads_singleton rfl)
  have hsound : Serviceable (edgeRuntimeInit
      { ua := some (edgeAddressSpaceLoad w.builder o.model ua).2.ua } o.model o.store bus
      persistEveryNTicks) := ⟨rfl, hbus⟩
  unfold startupSpace
  dsimp only
  -- a space that cannot be filled ends start-up before the callback is asked for
  split_ifs with hspace
  · exact ⟨hsound, none, hfilled _, nofun⟩
  · exact startupRuntime_registered w hsound (hfilled _)

/-- A startup that never had a server holds the connection only. -/
theorem startupServer_none {w : World σ τ ρ} {options : Options} {o : OpenedStore τ}
    (h : (startupServer w options o).2.2 = none) :
    Leads { db := true } (startupServer w options o).2.1 { db := true } := by
  have hinit := leads_edgeServerInit w.server options.opcuaPort
  unfold startupServer at h ⊢
  dsimp only at h ⊢
  split_ifs at h ⊢ with hmodbus
  · rfl
  · cases hua : (edgeServerInit w.server options.opcuaPort).2.1.ua with
    | none =>
      rw [hua] at hinit
      exact hinit
    | some ua => simp [hua] at h

/-- One that had a server holds it, and its callback if that could be registered. -/
theorem startupServer_some {w : World σ τ ρ} {options : Options} {o : OpenedStore τ}
    {r : Registered σ τ ρ} (h : (startupServer w options o).2.2 = some r) :
    Serviceable r.rt ∧ r.log = (startupServer w options o).2.1 ∧
      ∃ callback, Leads { db := true } r.log { db := true, server := true, callback } ∧
        ((startupServer w options o).1 = .served → callback = some r.callbackId) := by
  have hinit := leads_edgeServerInit w.server options.opcuaPort
  unfold startupServer at h ⊢
  dsimp only at h ⊢
  split_ifs at h ⊢ with hmodbus
  · -- without a UA_Server there is nothing registered
    cases hua : (edgeServerInit w.server options.opcuaPort).2.1.ua with
    | none => simp [hua] at h
    | some ua =>
      rw [hua] at hinit
      simp only [hua] at h ⊢
      cases h
      obtain ⟨hsound, callback, hlog, hserved⟩ := startupSpace_registered w o
        (initialBus_linked (some options.modbusHost) options.modbusPort w.network) ua hinit
      exact ⟨hsound, rfl, callback, hlog, hserved⟩

/-! ## Shutdown

The server is run down before its callback is taken back, and the link is cleared after the last
tick. -/

/-- The callback is taken back, unless open62541 called it 0. -/
theorem leads_edgeRuntimeUnregister (lib : UaServerLib ρ) (id : UInt64) {rt : EdgeRuntime σ τ ρ}
    (h : Live rt.server) :
    Live (edgeRuntimeUnregister lib id rt).1.server ∧
      (edgeRuntimeUnregister lib id rt).1.bus = rt.bus ∧
      ∃ callback, Leads (Held.registered id) (edgeRuntimeUnregister lib id rt).2
        { db := true, server := true, callback } := by
  unfold edgeRuntimeUnregister
  split_ifs
  · exact ⟨h, rfl, some id, rfl⟩
  · exact ⟨h.update _, rfl, none, leads_singleton (by simp [Held.step, Held.registered])⟩

/-- The persist and the teardown of the connection need the database only. -/
theorem leads_teardown (entries : List Entry) {calls : List ModbusCall}
    (hcalls : calls.all ModbusCall.tearsDown = true) (callback : Option UInt64) :
    Leads { db := true, server := true, callback } [.sqliteCalls entries, .modbusCalls calls]
      { db := true, server := true, callback } := by
  simp [Leads, Held.step, hcalls]

theorem serveAndStop_leads (w : World σ τ ρ) {r : Registered σ τ ρ} (hsound : Serviceable r.rt)
    {before : Held} (hlog : Leads before r.log (Held.registered r.callbackId)) :
    Leads before (serveAndStop w r).1.log { db := true } ∧
      Custody (serveAndStop w r).2.2.2.calls (serveAndStop w r).2.2.2.created none := by
  obtain ⟨hserved, hservedLog⟩ :=
    edgeServerRun_registered w.server w.libs w.iterations (s := { rt := r.rt, log := r.log })
      hsound hlog
  obtain ⟨hlive, hbus, callback, hunregister⟩ :=
    leads_edgeRuntimeUnregister w.server r.callbackId hserved.live
  refine ⟨?_, ?_⟩
  · refine ((hservedLog.append hunregister).append (leads_teardown _ ?_ callback)).append
      (leads_edgeServerClear hlive callback)
    exact edgeModbusClear_calls w.libs.modbus _
  · refine Linked.cleared w.libs.modbus ?_
    rw [hbus]
    exact hserved.linked

/-! ## A life of the process

All stages in a row, from nothing to nothing. -/

/-- A connection that was opened is closed. -/
theorem leads_opened {entries : List Entry} {calls : List LifeCall}
    (h : Leads { db := true } calls { db := true }) :
    Leads {} ([.sqliteOpen .opened, .sqliteCalls entries] ++ calls ++ [.sqliteClose]) {} := by
  have hopening : Leads {} [.sqliteOpen .opened, .sqliteCalls entries] { db := true } := by
    simp [Leads, Held.step]
  exact (hopening.append h).append (leads_singleton rfl)

/-- A process that has got a store releases everything it acquires. -/
theorem mainOpened_releases (w : World σ τ ρ) (options : Options) (disk : Disk)
    (model : EdgeModel) :
    Leads {} (mainOpened w options disk model).log {} ∧
      Custody (mainOpened w options disk model).bus.calls
        (mainOpened w options disk model).bus.created none := by
  have hidle : Custody (Bus.calls { modbus := {}, env := w.network })
      (Bus.created { modbus := {}, env := w.network }) none := .nil
  unfold mainOpened
  dsimp only
  -- each way out gives back what was taken up to it
  by_cases hstore : (startupStore w (disk options.dbPath) model).1 ≠ .modbus
  · rw [if_pos hstore]
    exact ⟨leads_opened (show Leads _ [] _ from rfl), hidle⟩
  · rw [if_neg hstore]
    cases hstarted : (startupServer w options
        (startupStore w (disk options.dbPath) model).2).2.2 with
    | none => exact ⟨leads_opened (startupServer_none hstarted), hidle⟩
    | some r =>
      obtain ⟨hsound, hcalls, callback, hlog, hserved⟩ := startupServer_some hstarted
      dsimp only
      rw [← hcalls]
      split_ifs with hfailed hregister
      · refine ⟨?_, hsound.linked.cleared w.libs.modbus⟩
        rw [List.append_assoc _ r.log]
        exact leads_opened (hlog.append (leads_edgeServerClear hsound.live callback))
      · refine ⟨?_, hidle⟩
        rw [List.append_assoc _ r.log]
        exact leads_opened (hlog.append (leads_edgeServerClear hsound.live callback))
      · cases hserved (not_not.mp hfailed)
        obtain ⟨hstop, hcustody⟩ := serveAndStop_leads w hsound hlog
        exact ⟨leads_opened hstop, hcustody⟩

/-- **What the process acquires it releases.** Whatever the libraries answer and wherever `main`
returns, its calls are legal one after the other and nothing is held at the end but a connection
that SQLite allocated and could not open; every Modbus context has been freed once and was not
used after. -/
theorem process_releases (w : World σ τ ρ) (options : Options) (disk : Disk) :
    Leads {} (edgeMain w options disk).log
        { db := decide ((edgeMain w options disk).stage = .openStore ∧
          w.sqliteOpen options.dbPath = .failed true) } ∧
      Custody (edgeMain w options disk).bus.calls (edgeMain w options disk).bus.created none := by
  unfold edgeMain
  dsimp only
  by_cases hloaded : (startupLoad w options).1 ≠ .openStore
  · rw [if_pos hloaded]
    simp only [hloaded, false_and, decide_false]
    exact ⟨rfl, .nil⟩
  · rw [if_neg hloaded]
    -- sqlite3_open can fail and still hand out a handle; that one is not closed
    cases hopen : w.sqliteOpen options.dbPath with
    | failed allocated => cases allocated <;> exact ⟨rfl, .nil⟩
    | opened =>
      simp only [reduceCtorEq, and_false, decide_false]
      exact mainOpened_releases w options disk _

end OpcuaEdge
