import OpcuaEdge.AddressSpace
import OpcuaEdge.Runtime

/-!
# OpcuaEdge — the server and its repeated callback (`edge_server.c`, `edge_runtime.c`)

The lifecycle of the `UA_Server`: it is created, filled, run until the stop flag is cleared, and
deleted, with the tick as a repeated callback of it in between. The part of open62541 that this
takes is `UaServerLib`. A turn of the server loop runs whatever is due: the network layer answers
clients and the timer fires the callback, so it is given by the operations it makes, a list of
`RunOp`. Calls that acquire, use or release something are logged as `LifeCall`s.
-/

namespace OpcuaEdge

open CStr Txn

variable {σ τ ρ : Type}

/-! ## Calls

The calls that a process makes to SQLite, open62541 and libmodbus, as far as they take or give back
a resource. -/

/-- How `sqlite3_open_v2` answers. A connection that could not be opened may have been allocated
all the same. -/
inductive SqliteOpen where
  | opened
  | failed (allocated : Bool)
  deriving DecidableEq, Repr

/-- One such call, with its answer where it has one. -/
inductive LifeCall where
  | sqliteOpen (result : SqliteOpen)
  | sqliteCalls (entries : List Entry)
  | sqliteClose
  | uaConfig (ok : Bool)
  | uaConfigClear
  | uaNew (ok : Bool)
  | uaAddNodes (count : Nat)
  | uaAddRepeatedCallback (id : Option UInt64)
  | uaRunStartup (ok : Bool)
  | uaRunIterate
  | uaRunShutdown
  | uaRemoveCallback (id : UInt64)
  | uaDelete
  | modbusCalls (calls : List ModbusCall)
  deriving DecidableEq, Repr

/-- The calls of `edge_server.c` and of `edge_runtime_register`. -/
structure UaServerLib (ρ : Type) where
  setMinimal : UInt16 → Bool
  newWithConfig : UInt16 → Option ρ
  addRepeatedCallback : ρ → Option UInt64 × ρ
  runStartup : ρ → Bool × ρ
  runIterate : ρ → ρ
  runShutdown : ρ → ρ
  removeCallback : UInt64 → ρ → ρ

/-- A call on the server that answers nothing. -/
def EdgeServer.update (f : ρ → ρ) (server : EdgeServer ρ) : EdgeServer ρ :=
  { server with ua := server.ua.map f }

/-! ## The server

Starting the server takes a configuration and then the server itself. If the second fails, the
first is given back. -/

/-- `edge_server_init`: the status, the server and the calls. -/
def edgeServerInit (lib : UaServerLib ρ) (port : UInt16) :
    EdgeStatus × EdgeServer ρ × List LifeCall :=
  if lib.setMinimal port = false then (.error, { ua := none }, [.uaConfig false])
  else
    match lib.newWithConfig port with
    | none => (.error, { ua := none }, [.uaConfig true, .uaNew false, .uaConfigClear])
    | some ua => (.ok, { ua := some ua }, [.uaConfig true, .uaNew true])

/-- `edge_server_clear`: the calls it makes. -/
def edgeServerClear (server : EdgeServer ρ) : List LifeCall :=
  if server.ua.isSome then [.uaDelete] else []

/-! ## The callback

The runtime's tick is a repeated callback of the server, known by an identifier. -/

/-- `edge_runtime_init` with pointers that are not null. -/
def edgeRuntimeInit (server : EdgeServer ρ) (model : EdgeModel) (store : Store τ) (bus : Bus σ)
    (persistEveryNTicks : UInt32) : EdgeRuntime σ τ ρ where
  server := some server
  model := model
  store := store
  bus := bus
  persistEveryNTicks := persistEveryNTicks

/-- `edge_runtime_register`; the status, the identifier of the callback and the calls. -/
def edgeRuntimeRegister (lib : UaServerLib ρ) (rt : EdgeRuntime σ τ ρ) :
    EdgeStatus × UInt64 × EdgeRuntime σ τ ρ × List LifeCall :=
  match rt.server.bind (·.ua) with
  | none => (.invalid, 0, rt, [])
  | some ua =>
    let r := lib.addRepeatedCallback ua
    let rt' := { rt with server := rt.server.map (·.update fun _ => r.2) }
    match r.1 with
    | none => (.error, 0, rt', [.uaAddRepeatedCallback none])
    | some id => (.ok, id, rt', [.uaAddRepeatedCallback (some id)])

/-- `edge_runtime_unregister`. Without a server or an identifier there is nothing to remove. -/
def edgeRuntimeUnregister (lib : UaServerLib ρ) (id : UInt64) (rt : EdgeRuntime σ τ ρ) :
    EdgeRuntime σ τ ρ × List LifeCall :=
  if (rt.server.bind (·.ua)).isNone ∨ id = 0 then (rt, [])
  else
    ({ rt with server := rt.server.map (·.update (lib.removeCallback id)) },
      [.uaRemoveCallback id])

/-! ## The server loop

The loop of `main`, for as long as it is to run: each round lets the server work, which may call
back. -/

/-- The process while the server runs: the runtime, everything observed of it and the calls. -/
structure ServeState (σ τ ρ : Type) where
  rt : EdgeRuntime σ τ ρ
  seen : List Obs := []
  log : List LifeCall := []

/-- The calls that lead from one runtime to a later one. -/
def callsSince (before after : EdgeRuntime σ τ ρ) : List LifeCall :=
  [.modbusCalls (after.bus.calls.drop before.bus.calls.length),
    .sqliteCalls (after.store.log.drop before.store.log.length)]

/-- One `UA_Server_run_iterate`, in which `ops` happen. -/
def serverIterate (lib : UaServerLib ρ) (libs : Libs σ τ ρ) (s : ServeState σ τ ρ)
    (ops : List RunOp) : ServeState σ τ ρ :=
  let rt := { s.rt with server := s.rt.server.map (·.update lib.runIterate) }
  let r := runFrom libs ops (rt, s.seen)
  { rt := r.1, seen := r.2, log := s.log ++ .uaRunIterate :: callsSince rt r.1 }

/-- `edge_server_run`; the stop flag is cleared after `iterations` turns of the loop. -/
def edgeServerRun (lib : UaServerLib ρ) (libs : Libs σ τ ρ) (iterations : List (List RunOp))
    (s : ServeState σ τ ρ) : EdgeStatus × ServeState σ τ ρ :=
  match s.rt.server.bind (·.ua) with
  | none => (.error, { s with log := s.log ++ [.uaRunStartup false] })
  | some ua =>
    let up := lib.runStartup ua
    let started :=
      { s with
        rt.server := s.rt.server.map (·.update fun ua => (lib.runStartup ua).2)
        log := s.log ++ [.uaRunStartup up.1] }
    -- the flag is not looked at before the startup
    if up.1 = false then (.error, started)
    else
      let served := iterations.foldl (serverIterate lib libs) started
      (.ok, { served with
        rt.server := served.rt.server.map (·.update lib.runShutdown)
        log := served.log ++ [.uaRunShutdown] })

end OpcuaEdge
