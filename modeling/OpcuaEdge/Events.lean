import OpcuaEdge.Store

/-!
# OpcuaEdge — threshold events (`edge_events.c`)

`edgeEventsEvaluate` is one pass over the events: it latches a rising edge, records it in the
history and emits a notification, and returns at the first failure. open62541 is a parameter
(`UaLib`); an `EdgeServer` carries its state together with the notifications it accepted. Next
to its results a pass lists its attempts to record and to emit, in order, with their status.
-/

namespace OpcuaEdge

open CStr CLoop Txn

/-- The size of the message buffer. -/
def edgeEventMessageLen : Nat := 192

/-! ## open62541

What the event code needs of the OPC UA library: a namespace lookup, and the four calls that make
an event and trigger it. -/

/-- The arguments of `UA_Server_createEvent`. -/
structure UaEvent where
  namespaceIndex : UInt16
  source : Bytes
  severity : UInt16
  message : Bytes
  sourceName : Bytes
  deriving DecidableEq

/-- The calls `emit_opcua_event` makes, with their answers. -/
structure UaLib (ρ : Type) where
  getNamespaceByName : ρ → Option Nat × ρ
  setScalar : ρ → Bool × ρ
  createEvent : UaEvent → ρ → Bool × ρ

/-- `ua = none` is a null pointer; `emitted` lists the events the server accepted. -/
structure EdgeServer (ρ : Type) where
  ua : Option ρ
  emitted : List UaEvent := []

/-! ## Conditions and messages

Both read the event's source node. An event without one is never met, and it has no message. -/

/-- `edge_node_as_double(event->source_node)`. -/
def eventValue (model : EdgeModel) (event : EdgeEvent) : Double :=
  ((model.sourceOf event).map edgeNodeAsDouble).getD (.fin 0)

/-- `event_condition_met`. An unset condition is never met, and no comparison with a NaN is. -/
def eventConditionMet (model : EdgeModel) (event : EdgeEvent) : Bool :=
  match model.sourceOf event with
  | none => false
  | some node =>
    match event.condition with
    | .greaterThan => event.threshold.lt (edgeNodeAsDouble node)
    | .lessThan => (edgeNodeAsDouble node).lt event.threshold
    | .unset => false

/-- `make_event_message`. Both numbers are printed with three decimals, and a text that does not
fit the buffer is an error. -/
def makeEventMessage (model : EdgeModel) (event : EdgeEvent) : EdgeStatus × Bytes :=
  match model.sourceOf event with
  | none => (.invalid, [])
  | some node =>
    let condition := if event.condition = .lessThan then lit "below" else lit "above"
    formatInto edgeEventMessageLen
      (event.id ++ lit " " ++ condition ++ lit " " ++ formatFixed3 (edgeNodeAsDouble node)
        ++ lit " threshold " ++ formatFixed3 event.threshold)

variable {τ ρ : Type}

/-! ## Emission

One OPC UA event of the plant's event type, with the plant's ids as its fields. Every call may
fail, and none is tried after one that did. -/

/-- The notification of an event. -/
def uaEventOf (model : EdgeModel) (event : EdgeEvent) (ns : Nat) : UaEvent where
  namespaceIndex := ns.toUInt16
  source := (makeEventSourceNodeid event).2
  severity := event.severity
  message := (makeEventMessage model event).2
  sourceName := (formatInto edgeEventNodeidLen event.assetId).2

/-- `emit_opcua_event`. -/
def emitOpcuaEvent (lib : UaLib ρ) (model : EdgeModel) (event : EdgeEvent)
    (server : Option (EdgeServer ρ)) : EdgeStatus × Option (EdgeServer ρ) :=
  match server with
  -- without a server there is nothing to do, and that is a success
  | none => (.ok, none)
  | some server =>
    match server.ua with
    | none => (.invalid, some server)
    | some ua =>
      let ns := lib.getNamespaceByName ua
      let failed := fun ua : ρ => (EdgeStatus.error, some { server with ua := some ua })
      match ns.1 with
      | none => failed ns.2
      | some nsIndex =>
        if (makeEventSourceNodeid event).1 ≠ .ok ∨ (makeEventMessage model event).1 ≠ .ok then
          failed ns.2
        else if (formatInto edgeEventNodeidLen event.assetId).1 ≠ .ok then failed ns.2
        else
          let fields := lib.setScalar ns.2
          if fields.1 = false then failed fields.2
          else
            let notification := uaEventOf model event nsIndex
            let r := lib.createEvent notification fields.2
            if r.1 then
              (.ok, some { ua := some r.2, emitted := server.emitted ++ [notification] })
            else failed r.2

/-! ## One pass

A pass goes through the event table once. A refused attempt ends it, with the latch of the event
already set. -/

/-- The counters of a pass. -/
structure EdgeEventStats where
  checkedCount : Nat := 0
  firedCount : Nat := 0
  emittedCount : Nat := 0
  deriving DecidableEq, Repr

/-- An attempt to record or to emit the event with the given index. -/
inductive EventAttempt where
  | insert (event : Nat) (status : EdgeStatus)
  | emit (event : Nat) (status : EdgeStatus)
  deriving DecidableEq, Repr

/-- What a pass carries from event to event. The list of attempts is not in the source: it records
what was tried and how it ended. -/
structure EvalState (τ ρ : Type) where
  store : Store τ
  server : Option (EdgeServer ρ)
  stats : EdgeEventStats := {}
  attempts : List EventAttempt := []

/-- The collaborators of a pass. -/
structure EventEnv (τ ρ : Type) where
  engine : Engine τ
  lib : UaLib ρ

/-- The rising edge of event `i`: latch, record, emit, count. -/
def fireEvent (env : EventEnv τ ρ) (model : EdgeModel) (nowMs : Nat) (i : Nat) (event : EdgeEvent)
    (s : EvalState τ ρ) : Turn EdgeStatus EdgeEvent (EvalState τ ρ) :=
  -- the latch is set first, and nothing below takes it back
  let latched := { event with active := true }
  let recorded :=
    edgeStoreInsertEventHistory env.engine latched (eventValue model latched) nowMs s.store
  let s₁ := { s with store := recorded.2, attempts := s.attempts ++ [.insert i recorded.1] }
  if recorded.1 ≠ .ok then { elem := latched, state := s₁, exit := some .error }
  else
    let emitted := emitOpcuaEvent env.lib model latched s₁.server
    let s₂ := { s₁ with server := emitted.2, attempts := s₁.attempts ++ [.emit i emitted.1] }
    if emitted.1 ≠ .ok then { elem := latched, state := s₂, exit := some .error }
    else
      { elem := latched
        state := { s₂ with
          stats.firedCount := s₂.stats.firedCount + 1
          stats.emittedCount := s₂.stats.emittedCount + (if s₂.server.isSome then 1 else 0) } }

/-- One turn of the loop. An event fires on the rising edge of its condition, and the latch is
released once the condition is no longer met. -/
def evaluateEvent (env : EventEnv τ ρ) (model : EdgeModel) (nowMs : Nat) (i : Nat)
    (event : EdgeEvent) (s : EvalState τ ρ) : Turn EdgeStatus EdgeEvent (EvalState τ ρ) :=
  let s₁ := { s with stats.checkedCount := s.stats.checkedCount + 1 }
  if eventConditionMet model event ∧ event.active = false then
    fireEvent env model nowMs i event s₁
  else if eventConditionMet model event = false then
    { elem := { event with active := false }, state := s₁ }
  -- still met and latched: nothing is tried again
  else { elem := event, state := s₁ }

/-- What a pass leaves behind. -/
structure EvalResult (τ ρ : Type) where
  status : EdgeStatus
  model : EdgeModel
  store : Store τ
  server : Option (EdgeServer ρ)
  stats : EdgeEventStats
  attempts : List EventAttempt

/-- `edge_events_evaluate`; `nowMs` is what `edge_time_now_ms` reads at its start. -/
def edgeEventsEvaluate (env : EventEnv τ ρ) (nowMs : Nat) (model : EdgeModel) (store : Store τ)
    (server : Option (EdgeServer ρ)) : EvalResult τ ρ :=
  let t := sweep (evaluateEvent env model nowMs) 0 model.events { store, server }
  { status := t.exit.getD .ok
    model := { model with events := t.elem }
    store := t.state.store
    server := t.state.server
    stats := t.state.stats
    attempts := t.state.attempts }

end OpcuaEdge
