import OpcuaEdge.Controller
import OpcuaEdge.EventHistory
import OpcuaEdge.Integrity
import OpcuaEdge.Lib.Trace
import OpcuaEdge.Recency

/-!
# OpcuaEdge — the alarms of a run

A tick evaluates the events on the values that its poll leaves. Over a run of ticks and client
writes, the rows that become durable in the history are those of the rising edges of these values,
whatever libmodbus answers and whichever persists SQLite refuses, as long as no alarm is refused and
no transaction is stranded (`alarms_are_rising_edges`). In front of a plant the values are those of
the abstract controller, so the history tells what its registers did (`alarms_follow_the_plant`).

The log of a run is put together from its steps, three times:

* **`tick_logged`** — one tick, whose alarms are the edges of its pass;
* **`logged_of_steps`** — any sequence of such steps, for the runs of a process
  (`killed_process_recorded`) and for those in front of a plant;
* **`tickedPass_alike`** — in front of a plant, the pass of a tick finds what the abstract
  controller shows after its cycle.
-/

namespace OpcuaEdge

open CStr CLoop Txn ScanCycle Trace

variable {σ τ ρ : Type}

/-! ## Passes as a log

The rising edges of a list of passes are what its alarms should be: an entry for each event that
was not active before a pass and whose condition the pass found met. -/

/-- The conditions of the last pass, or `before`. -/
def latchesAfter (model : EdgeModel) (before : EdgeEvent → Bool) (passes : List Pass) :
    EdgeEvent → Bool :=
  passes.foldl (fun _ pass => conditionAt model pass) before

/-- The edges of a longer list: the later passes start from the latches that the earlier ones
leave. -/
theorem risingEdges_append (model : EdgeModel) (passes later : List Pass) :
    ∀ before, risingEdges model before (passes ++ later) =
      risingEdges model before passes ++
        risingEdges model (latchesAfter model before passes) later := by
  induction passes with
  | nil => intro before; rfl
  | cons pass rest ih =>
    intro before
    show _ :: risingEdges model (conditionAt model pass) (rest ++ later) = _
    rw [ih]
    rfl

/-- The runtime has the nodes of `model`; its latches are the conditions `before`, and no
transaction is open. -/
structure Alarmed (model : EdgeModel) (before : EdgeEvent → Bool) (rt : EdgeRuntime σ τ ρ) :
    Prop where
  config : rt.model.nodes.map EdgeNode.config = model.nodes.map EdgeNode.config
  writable : ∀ node ∈ rt.model.nodes, node.pendingWrite = true → node.writable = true
  latches : rt.model.events = model.events.map fun e => e.setActive (before e)
  outside : rt.store.conn.txn = none

/-- From `rt` to `rt'` the edges of the passes were recorded and, if there is a server, emitted. -/
structure AlarmsLogged (model : EdgeModel) (before : EdgeEvent → Bool) (passes : List Pass)
    (rt rt' : EdgeRuntime σ τ ρ) : Prop where
  alarmed : Alarmed model (latchesAfter model before passes) rt'
  history : rt'.store.conn.committed.eventHistory = rt.store.conn.committed.eventHistory ++
    (risingEdges model before passes).flatten.map (edgeRow model)
  served : rt'.server.isSome = rt.server.isSome
  emitted : (emittedBy rt'.server).map UaEvent.body = (emittedBy rt.server).map UaEvent.body ++
    if rt.server.isSome then (risingEdges model before passes).flatten.map (edgeNotification model)
    else []

variable {model : EdgeModel} {before : EdgeEvent → Bool} {rt rt' rt'' : EdgeRuntime σ τ ρ}

/-- Nothing is recorded without a pass. -/
theorem AlarmsLogged.nothing (h : Alarmed model before rt')
    (hstore : rt'.store = rt.store) (hserver : rt'.server = rt.server) :
    AlarmsLogged model before [] rt rt' where
  alarmed := h
  history := by rw [hstore]; exact (List.append_nil _).symm
  served := by rw [hserver]
  emitted := by rw [hserver]; exact ((congrArg _ (ite_self _)).trans (List.append_nil _)).symm

/-- What the database has of it. -/
structure EdgesRecorded (model : EdgeModel) (before : EdgeEvent → Bool) (passes : List Pass)
    (rt rt' : EdgeRuntime σ τ ρ) : Prop where
  alarmed : Alarmed model (latchesAfter model before passes) rt'
  history : rt'.store.conn.committed.eventHistory = rt.store.conn.committed.eventHistory ++
    (risingEdges model before passes).flatten.map (edgeRow model)

/-- The records of two stretches make those of both. -/
theorem EdgesRecorded.append {passes later : List Pass}
    (h : EdgesRecorded model before passes rt rt')
    (h' : AlarmsLogged model (latchesAfter model before passes) later rt' rt'') :
    EdgesRecorded model before (passes ++ later) rt rt'' where
  alarmed := by
    unfold latchesAfter
    rw [List.foldl_append]
    exact h'.alarmed
  history := by
    rw [h'.history, h.history, risingEdges_append, List.flatten_append, List.map_append,
      List.append_assoc]

theorem AlarmsLogged.trans {passes later : List Pass} (h : AlarmsLogged model before passes rt rt')
    (h' : AlarmsLogged model (latchesAfter model before passes) later rt' rt'') :
    AlarmsLogged model before (passes ++ later) rt rt'' := by
  have hrecorded : EdgesRecorded model before passes rt rt' := ⟨h.alarmed, h.history⟩
  obtain ⟨halarmed, hhistory⟩ := hrecorded.append h'
  refine ⟨halarmed, hhistory, h'.served.trans h.served, ?_⟩
  rw [h'.emitted, h.emitted, h.served, risingEdges_append, List.flatten_append, List.map_append,
    List.append_assoc]
  split_ifs
  · rfl
  · rw [List.append_nil]

/-! ## One tick

A tick makes one pass over the events, on the values that its poll has just left. -/

/-- The node values that a tick leaves, with the time of its event pass. -/
def tickedPass (libs : Libs σ τ ρ) (clock : TickClock) (rt : EdgeRuntime σ τ ρ) : Pass where
  values i := ((edgeRuntimeTick libs clock rt).1.model.nodes[i]?.map (·.value)).getD {}
  nowMs := clock.evaluateMs

/-- Nodes of the template with other values are what these values make of the template. -/
theorem eq_setValues {nodes nodes' : List EdgeNode}
    (hconfig : nodes'.map EdgeNode.config = nodes.map EdgeNode.config)
    (hquiet : ∀ node ∈ nodes, node.pendingWrite = false)
    (hquiet' : ∀ node ∈ nodes', node.pendingWrite = false) :
    nodes' = nodes.mapIdx fun i node =>
      { node with value := (nodes'[i]?.map (·.value)).getD {} } := by
  apply List.ext_getElem?
  intro i
  have hi := congrArg (·[i]?) hconfig
  simp only [List.getElem?_map] at hi
  rw [List.getElem?_mapIdx]
  rcases Option.eq_none_or_eq_some nodes'[i]? with hnone | ⟨node', hget'⟩
  · rw [hnone] at hi
    rw [hnone, Option.map_eq_none_iff.mp hi.symm]
    rfl
  · rw [hget'] at hi
    obtain ⟨node, hget, hsame⟩ := Option.map_eq_some_iff.mp hi.symm
    have hpending := hquiet node (List.mem_of_getElem? hget)
    have hpending' := hquiet' node' (List.mem_of_getElem? hget')
    rw [hget', hget]
    refine congrArg some ?_
    -- what the configuration of a node leaves out is its value and its pending flag
    have hnode : { node.config with value := node'.value, pendingWrite := false } =
        { node'.config with value := node'.value, pendingWrite := false } := by rw [hsame]
    cases node
    cases node'
    cases hpending
    cases hpending'
    exact hnode.symm

/-- What the tick evaluates. -/
theorem tickPass_eq (libs : Libs σ τ ρ) (clock : TickClock) (h : Alarmed model before rt)
    (hpending : ∀ node ∈ model.nodes, node.pendingWrite = false) :
    tickPass libs clock rt = edgeEventsEvaluate libs.events (tickedPass libs clock rt).nowMs
      (setValues (tickedPass libs clock rt).values { rt.model with nodes := model.nodes })
      rt.store rt.server := by
  have hnodes := eq_setValues ((edgeRuntimeTick_config libs clock rt).trans h.config) hpending
    (edgeRuntimeTick_pendingWrite libs clock h.writable)
  have hmodel : { rt.model with nodes := (edgeRuntimeTick libs clock rt).1.model.nodes } =
      setValues (tickedPass libs clock rt).values { rt.model with nodes := model.nodes } :=
    congrArg (fun nodes => { rt.model with nodes := nodes }) hnodes
  rw [← hmodel]
  rfl

/-- The pass of a tick ends no transaction. -/
theorem tickPass_quiet (libs : Libs σ τ ρ) (clock : TickClock) (rt : EdgeRuntime σ τ ρ) :
    rt.store.Quiet (tickPass libs clock rt).store := by
  refine sweep_state (fun s : EvalState τ ρ => rt.store.Quiet s.store) (fun i event s hs => ?_)
    _ 0 { store := rt.store, server := rt.server } (.refl _)
  have hrecorded : ∀ model : EdgeModel,
      rt.store.Quiet (s.recorded libs.events model clock.evaluateMs i event).2.store := by
    intro model
    show rt.store.Quiet (edgeStoreInsertEventHistory libs.events.engine _ _ _ s.store).2
    have hprepare := hs.trans (Session.quiet_prepare libs.events.engine s.store)
    unfold edgeStoreInsertEventHistory
    dsimp only
    split_ifs
    · exact hprepare
    · exact hprepare.trans (Session.quiet_step _ _ _)
  -- a turn records or does nothing; emitting and latching leave the store alone
  obtain ⟨-, hturn⟩ | ⟨-, -, hturn⟩ | ⟨-, -, -, hturn⟩ | ⟨-, -, -, _, rfl, hturn⟩ :=
    evaluateEvent_cases libs.events _ clock.evaluateMs i event s
  · rw [hturn]; exact hs
  · rw [hturn]; exact hrecorded _
  · rw [hturn]; exact hrecorded _
  · rw [hturn]; exact hrecorded _

/-- Storing the values only adds to the log of the connection. -/
theorem persistLatestValues_log (engine : Engine τ) (model : EdgeModel) (nowMs : Nat)
    (store : Store τ) :
    store.log <+: (edgeStorePersistLatestValues engine model nowMs store).2.log := by
  have hprepare := Session.quiet_prepare engine store
  have hbegin := hprepare.trans (Session.quiet_begin engine _)
  have hloop := (quiet_kept engine store).latestLoop model.nodes nowMs _ hbegin
  unfold edgeStorePersistLatestValues
  dsimp only
  split_ifs
  · exact hprepare.isPrefix
  · exact hbegin.isPrefix
  · split
    · exact hloop.isPrefix.trans (Session.settled_rollback engine _).isPrefix
    · exact hloop.isPrefix.trans (Session.settled_commit engine _).isPrefix

theorem tick_log (libs : Libs σ τ ρ) (clock : TickClock) (rt : EdgeRuntime σ τ ρ) :
    (tickPass libs clock rt).store.log <+: (edgeRuntimeTick libs clock rt).1.store.log := by
  rw [edgeRuntimeTick_store]
  split_ifs
  · exact persistLatestValues_log _ _ _ _
  · exact List.prefix_rfl

/-- After its pass a tick adds nothing to the history, and it leaves no transaction open unless it
strands one. -/
theorem tick_outside (libs : Libs σ τ ρ) (clock : TickClock) (htxn : rt.store.conn.txn = none)
    (hquiet : rt.store.Quiet (edgeRuntimeTick libs clock rt).1.store) :
    (edgeRuntimeTick libs clock rt).1.store.conn.txn = none ∧
      (edgeRuntimeTick libs clock rt).1.store.conn.committed.eventHistory =
        (tickPass libs clock rt).store.conn.committed.eventHistory := by
  have houtside := tickPass_txn libs clock htxn
  -- the pass comes first in the log, so the rest of it is the persist's
  obtain ⟨-, hpersist⟩ := hquiet.split (tickPass_quiet libs clock rt).isPrefix
    (tick_log libs clock rt)
  rw [edgeRuntimeTick_store] at hpersist ⊢
  split_ifs at hpersist ⊢ with hdue
  · obtain ⟨new, hlog, hsettled⟩ := settled_persistLatestValues libs.events.engine
      (tickPass libs clock rt).model clock.persistMs houtside
    obtain ⟨new', hlog', hnew⟩ := hpersist
    obtain rfl : new' = new := List.append_cancel_left (hlog'.symm.trans hlog)
    refine ⟨hsettled.mpr hnew, ?_⟩
    -- a persist writes no history, whether it commits or rolls back
    have hall : (tickPass libs clock rt).store.conn.All fun db =>
        db.eventHistory = (tickPass libs clock rt).store.conn.committed.eventHistory :=
      ⟨rfl, fun w hw => by rw [houtside] at hw; cases hw⟩
    exact (persistLatestValues_history libs.events.engine _ clock.persistMs hall).1
  · exact ⟨houtside, rfl⟩

/-- **What a tick records**: the rising edges of the values it leaves. -/
theorem tick_logged (libs : Libs σ τ ρ) (clock : TickClock) (h : Alarmed model before rt)
    (hpending : ∀ node ∈ model.nodes, node.pendingWrite = false)
    (hquiet : rt.store.Quiet (edgeRuntimeTick libs clock rt).1.store)
    (hok : ∀ a ∈ (tickPass libs clock rt).attempts, a.status = .ok) :
    AlarmsLogged model before [tickedPass libs clock rt] rt (edgeRuntimeTick libs clock rt).1 := by
  -- the pass sees the template's nodes with the ticked values, so the latches describe it
  have hlatched : LatchedAs model before { rt.model with nodes := model.nodes } :=
    ⟨fun _ => rfl, h.latches⟩
  have hpass := tickPass_eq libs clock h hpending
  obtain ⟨houtside, hhistory⟩ := tick_outside libs clock h.outside hquiet
  have hbefore := tickPass_txn libs clock h.outside
  rw [hpass] at hok hhistory hbefore
  obtain ⟨heffect, hafter⟩ := edgeEventsEvaluate_effect hlatched hok
  have hedges := List.flatten_singleton (l := ((model.events.filter fun e =>
    conditionAt model (tickedPass libs clock rt) e && !before e).map
      (tickedPass libs clock rt, ·)))
  constructor
  · refine ⟨(edgeRuntimeTick_config libs clock rt).trans h.config, fun node hmem hset => ?_, ?_,
      houtside⟩
    · rw [edgeRuntimeTick_pendingWrite libs clock h.writable node hmem] at hset
      cases hset
    · show (tickPass libs clock rt).model.events = _
      rw [hpass]
      exact hafter.events
  · rw [hhistory, ← Conn.view_outside hbefore, heffect.history, Conn.view_outside h.outside]
    exact congrArg (fun edges => _ ++ edges.map (edgeRow model)) hedges.symm
  · show (tickPass libs clock rt).server.isSome = _
    rw [hpass]
    exact heffect.served
  · show (emittedBy (tickPass libs clock rt).server).map UaEvent.body = _
    rw [hpass, heffect.emitted]
    exact congrArg (fun edges => _ ++ if rt.server.isSome then edges.map (edgeNotification model)
      else []) hedges.symm

/-! ## A run

Each step of a run adds the edges of its pass, if it makes one. -/

/-- The pass of a step, if it is a tick. -/
def stepPass (libs : Libs σ τ ρ) (rt : EdgeRuntime σ τ ρ) : RunOp → Option Pass
  | .write _ _ => none
  | .tick clock => some (tickedPass libs clock rt)

/-- What the pass of a step tried. -/
def stepAttempts (libs : Libs σ τ ρ) (rt : EdgeRuntime σ τ ρ) : RunOp → List EventAttempt
  | .write _ _ => []
  | .tick clock => (tickPass libs clock rt).attempts

theorem runStep_log (libs : Libs σ τ ρ) (rt : EdgeRuntime σ τ ρ) (op : RunOp) :
    rt.store.log <+: (runStep libs rt op).1.store.log := by
  cases op with
  | tick clock => exact (tickPass_quiet libs clock rt).isPrefix.trans (tick_log libs clock rt)
  | write i value =>
    have hstore : (runStep libs rt (.write i value)).1.store = rt.store := by
      obtain hstep | ⟨_, _, hstep⟩ | ⟨_, _, _, _, _, _, _, _, hstep⟩ :=
        runStep_write_cases libs rt i value
      all_goals rw [hstep]
    exact hstore ▸ List.prefix_rfl

/-- One step. A write makes no pass. A tick makes one, and its alarms are the edges of that pass. -/
theorem runStep_logged (libs : Libs σ τ ρ) (h : Alarmed model before rt)
    (hpending : ∀ node ∈ model.nodes, node.pendingWrite = false) (op : RunOp)
    (hquiet : rt.store.Quiet (runStep libs rt op).1.store)
    (hok : ∀ a ∈ stepAttempts libs rt op, a.status = .ok) :
    AlarmsLogged model before (stepPass libs rt op).toList rt (runStep libs rt op).1 := by
  cases op with
  | tick clock => exact tick_logged libs clock h hpending hquiet hok
  | write i value =>
    -- a client's write is no pass: it only marks a node as pending
    have hconfig := (runStep_config libs rt (.write i value)).trans h.config
    have hwritable := runStep_writable libs h.writable (.write i value)
    have hothers : (runStep libs rt (.write i value)).1.model.events = rt.model.events ∧
        (runStep libs rt (.write i value)).1.store = rt.store ∧
        (runStep libs rt (.write i value)).1.server = rt.server := by
      obtain hstep | ⟨_, _, hstep⟩ | ⟨_, _, _, _, _, _, _, _, hstep⟩ :=
        runStep_write_cases libs rt i value
      all_goals
        rw [hstep]
        exact ⟨rfl, rfl, rfl⟩
    obtain ⟨hevents, hstore, hserver⟩ := hothers
    refine .nothing ⟨hconfig, hwritable, hevents.trans h.latches, ?_⟩ hstore hserver
    rw [hstore]
    exact h.outside

/-- A run logs what its steps log. -/
theorem logged_of_steps {α : Type} {step : EdgeRuntime σ τ ρ → α → EdgeRuntime σ τ ρ}
    {passes : EdgeRuntime σ τ ρ → α → List Pass}
    {attempts : EdgeRuntime σ τ ρ → α → List EventAttempt} (Inv : EdgeRuntime σ τ ρ → Prop)
    (hinv : ∀ rt op, Inv rt → Inv (step rt op))
    (hlog : ∀ rt op, rt.store.log <+: (step rt op).store.log)
    (hstep : ∀ before rt op, Inv rt → Alarmed model before rt →
      rt.store.Quiet (step rt op).store → (∀ a ∈ attempts rt op, a.status = .ok) →
      AlarmsLogged model before (passes rt op) rt (step rt op)) (ops : List α) :
    ∀ before rt, Inv rt → Alarmed model before rt → rt.store.Quiet (ops.foldl step rt).store →
      (∀ a ∈ collect step attempts ops rt, a.status = .ok) →
      AlarmsLogged model before (collect step passes ops rt) rt (ops.foldl step rt) := by
  have hlogs : ∀ (ops : List α) rt, rt.store.log <+: (ops.foldl step rt).store.log := by
    intro ops
    induction ops with
    | nil => intro rt; exact List.prefix_rfl
    | cons op rest ih => intro rt; exact (hlog rt op).trans (ih (step rt op))
  -- the log of a run splits at every step, so each step is quiet by itself
  induction ops with
  | nil => intro before rt _ h _ _; exact .nothing h rfl rfl
  | cons op rest ih =>
    intro before rt hrt h hquiet hok
    obtain ⟨hfirst, hlater⟩ := hquiet.split (hlog rt op) (hlogs rest (step rt op))
    rw [collect, List.forall_mem_append] at hok
    have hlogged := hstep before rt op hrt h hfirst hok.1
    exact hlogged.trans (ih _ (step rt op) (hinv rt op hrt) hlogged.alarmed hlater hok.2)

theorem runFrom_fst (libs : Libs σ τ ρ) (ops : List RunOp) :
    ∀ st : EdgeRuntime σ τ ρ × List Obs,
      (runFrom libs ops st).1 = ops.foldl (fun rt op => (runStep libs rt op).1) st.1 := by
  induction ops with
  | nil => intro st; rfl
  | cons op rest ih => intro st; exact ih _

/-- What the ticks of a run leave, and what they attempt. -/
def runTicks (libs : Libs σ τ ρ) (ops : List RunOp) (rt : EdgeRuntime σ τ ρ) : List Pass :=
  collect (fun rt op => (runStep libs rt op).1) (fun rt op => (stepPass libs rt op).toList) ops rt

/-- What the passes of a run tried. -/
def runAttempts (libs : Libs σ τ ρ) (ops : List RunOp) (rt : EdgeRuntime σ τ ρ) :
    List EventAttempt :=
  collect (fun rt op => (runStep libs rt op).1) (stepAttempts libs) ops rt

/-- **The history of a run is the rising edges of what its ticks leave.** Clients may write, reads
and write-backs may fail, and SQLite may refuse to persist the values: as long as no alarm is
refused and no transaction is stranded, the rows made durable and the notifications handed to the
server are those of the edges, in order, and the latches are the conditions of the last tick. -/
theorem alarms_are_rising_edges (libs : Libs σ τ ρ) (file : Option Bytes) (model : EdgeModel)
    (hmodel : LoadedAndWired file model) (before : EdgeEvent → Bool) (rt : EdgeRuntime σ τ ρ)
    (hrt : Alarmed model before rt) (ops : List RunOp)
    (hquiet : rt.store.Quiet (run libs ops rt).1.store)
    (hok : ∀ a ∈ runAttempts libs ops rt, a.status = .ok) :
    AlarmsLogged model before (runTicks libs ops rt) rt (run libs ops rt).1 := by
  have hrun : (run libs ops rt).1 = ops.foldl (fun rt op => (runStep libs rt op).1) rt :=
    runFrom_fst libs ops (rt, [])
  rw [hrun] at hquiet ⊢
  refine logged_of_steps (fun _ => True) (fun _ _ _ => trivial) (runStep_log libs)
    (fun before rt op _ h => ?_) ops before rt trivial hrt hquiet hok
  exact runStep_logged libs h hmodel.none_pending op

/-- Every register of this plant reads 1000, so the pump shakes from the first tick on. -/
def shakenLibs : Libs Unit Unit Unit :=
  { pumpLibs true with
    modbus.readRegisters := fun _ width s => ((width, List.replicate width 1000), s) }

/-- The pump is started, and runs for two ticks. -/
def pumpShaken : List RunOp := startPump ++ [.tick { evaluateMs := 2, persistMs := 2 }]

/-- The running example: the vibration rises above its threshold in the first tick and stays there
in the second. -/
theorem pump_alarm_is_rising_edge :
    (risingEdges pumpRuntime.model (fun _ => false)
        (runTicks shakenLibs pumpShaken pumpRuntime)).map List.length = [1, 0] ∧
      AlarmsLogged pumpRuntime.model (fun _ => false) (runTicks shakenLibs pumpShaken pumpRuntime)
        pumpRuntime (run shakenLibs pumpShaken pumpRuntime).1 := by
  refine ⟨by decide +kernel, ?_⟩
  exact alarms_are_rising_edges shakenLibs (some pumpTemplate) pumpRuntime.model
    pumpRuntime_started (fun _ => false) pumpRuntime
    ⟨rfl, by decide +kernel, pumpRuntime_started.latchedAs.events, rfl⟩ pumpShaken
    ⟨_, (List.nil_append _).symm, by decide +kernel⟩ (by decide +kernel)

/-! ## A process

The server loop of a process is a run. What its alarms left in the history is therefore on disk
when the process is killed. -/

/-- A process that came up has no alarm latched: the values it restored say nothing about the
alarms before. -/
theorem ComesUp.alarmed {w : World σ τ ρ} {options : Options} {disk : Disk} {s : Started σ τ ρ}
    (h : ComesUp w options disk s) :
    Alarmed (startupLoad w options).2 (fun _ => false) s.registered.rt := by
  have hmodel := startupLoad_ok h.loaded
  obtain ⟨-, -, -, hrestored⟩ := startupStore_ok h.store
  -- registering leaves the runtime's model as the restore made it
  obtain ⟨hrt, -⟩ := startupServer_runtime h.registered
  rw [h.opened] at hrt
  refine ⟨h.serves.config, fun node hmem hpending => ?_, ?_, h.outside⟩
  · rw [hrt, hrestored] at hmem
    rw [restored_none_pending hmodel _ _ node hmem] at hpending
    cases hpending
  · have hevents : s.registered.rt.model.events = (startupLoad w options).2.events := by
      rw [hrt, hrestored]
      unfold edgeStoreLoadLatestValues
      dsimp only
      split_ifs <;> rfl
    rw [hevents]
    exact hmodel.latchedAs.events

/-- The passes of the server loop, each with what it attempts. -/
def loopLog (w : World σ τ ρ) (rt : EdgeRuntime σ τ ρ) : List (Pass × List EventAttempt) :=
  (trackLoop w (fun rt op log => log ++
    (stepPass w.libs rt op).toList.map (·, stepAttempts w.libs rt op)) rt []).2

/-- The loop records the edges of its ticks, whatever happens to the server. -/
theorem loopEnd_history (w : World σ τ ρ) (h : Alarmed model before rt)
    (hpending : ∀ node ∈ model.nodes, node.pendingWrite = false)
    (hquiet : rt.store.Quiet (loopEnd w rt).1.store)
    (hok : ∀ entry ∈ loopLog w rt, ∀ a ∈ entry.2, a.status = .ok) :
    (loopEnd w rt).1.store.conn.committed.eventHistory =
      rt.store.conn.committed.eventHistory ++
        (risingEdges model before ((loopLog w rt).map Prod.fst)).flatten.map (edgeRow model) := by
  -- the log only grows, and what is quiet so far has recorded its edges so far
  refine (trackLoop_induction₂ w (checkpoint w.libs)
    (fun rt op log => log ++
      (stepPass w.libs rt op).toList.map (·, stepAttempts w.libs rt op))
    (fun rt' _ log => rt.store.log <+: rt'.store.log ∧
      (rt.store.Quiet rt'.store → (∀ entry ∈ log, ∀ a ∈ entry.2, a.status = .ok) →
        EdgesRecorded model before (log.map Prod.fst) rt rt'))
    ?_ ?_ (g := rt.model.nodes) (d := [])
    ⟨List.prefix_rfl, fun _ _ => ⟨h, (List.append_nil _).symm⟩⟩).2 hquiet hok |>.history
  · rintro rt' _ log server ⟨hlog, hrt⟩
    refine ⟨hlog, fun hquiet hok => ?_⟩
    obtain ⟨halarmed, hhistory⟩ := hrt hquiet hok
    exact ⟨⟨halarmed.config, halarmed.writable, halarmed.latches, halarmed.outside⟩, hhistory⟩
  · rintro rt' _ log op ⟨hlog, hrt⟩
    refine ⟨hlog.trans (runStep_log w.libs rt' op), fun hquiet hok => ?_⟩
    obtain ⟨hbefore, hstep⟩ := hquiet.split hlog (runStep_log w.libs rt' op)
    rw [List.forall_mem_append] at hok
    have hrecorded := hrt hbefore hok.1
    have hattempts : ∀ a ∈ stepAttempts w.libs rt' op, a.status = .ok := by
      cases op with
      | write i value => exact List.forall_mem_nil _
      | tick clock => exact hok.2 _ (List.mem_singleton_self _)
    have hlogged := runStep_logged w.libs hrecorded.alarmed hpending op hstep hattempts
    have hpasses : (log ++ (stepPass w.libs rt' op).toList.map
        (·, stepAttempts w.libs rt' op)).map Prod.fst =
        log.map Prod.fst ++ (stepPass w.libs rt' op).toList := by
      rw [List.map_append, List.map_map]
      exact congrArg (log.map Prod.fst ++ ·) (List.map_id _)
    rw [hpasses]
    exact hrecorded.append hlogged

/-- **A process that is killed has recorded every alarm of its ticks**, and no other: what its
database has more of alarms than before are the edges since it came up. -/
theorem killed_process_recorded (w : World σ τ ρ) (options : Options) (disk : Disk)
    (s : Started σ τ ρ) (hs : edgeStartup w options disk = some s)
    (hquiet : s.registered.rt.store.Quiet (loopEnd w s.registered.rt).1.store)
    (hok : ∀ entry ∈ loopLog w s.registered.rt, ∀ a ∈ entry.2, a.status = .ok) :
    (killedDisk w options disk s options.dbPath).data.eventHistory =
      (disk options.dbPath).data.eventHistory ++
        (risingEdges (startupLoad w options).2 (fun _ => false)
          ((loopLog w s.registered.rt).map Prod.fst)).flatten.map
            (edgeRow (startupLoad w options).2) := by
  have hup := edgeStartup_some hs
  have hloop := loopEnd_history w hup.alarmed (startupLoad_ok hup.loaded).none_pending hquiet hok
  rw [hup.committed] at hloop
  unfold killedDisk closedDisk
  rw [Function.update_self]
  exact hloop

/-- The shaken pump in a process that is killed after two turns with a tick each. -/
def shakenWorld : World Unit Unit Unit :=
  { pumpWorld [[.tick { evaluateMs := 1, persistMs := 1 }],
      [.tick { evaluateMs := 2, persistMs := 2 }]] with libs := shakenLibs }

/-- A process that is killed after its alarm leaves the row behind. -/
theorem killed_pump_recorded :
    ∃ s, edgeStartup shakenWorld {} emptyDisk = some s ∧
      (killedDisk shakenWorld {} emptyDisk s (lit "opcua-edge.db")).data.eventHistory.map
          (·.createdMs) = [1] ∧
      (killedDisk shakenWorld {} emptyDisk s (lit "opcua-edge.db")).data.eventHistory =
        [] ++ (risingEdges (startupLoad shakenWorld {}).2 (fun _ => false)
          ((loopLog shakenWorld s.registered.rt).map Prod.fst)).flatten.map
            (edgeRow (startupLoad shakenWorld {}).2) := by
  have hfacts : ((edgeStartup shakenWorld {} emptyDisk).map fun s : Started Unit Unit Unit =>
      (decide (s.registered.rt.store.log <+: (loopEnd shakenWorld s.registered.rt).1.store.log),
        decide (∀ e ∈ (loopEnd shakenWorld s.registered.rt).1.store.log, ¬ e.strands),
        decide (∀ entry ∈ loopLog shakenWorld s.registered.rt, ∀ a ∈ entry.2, a.status = .ok),
        (killedDisk shakenWorld {} emptyDisk s (lit "opcua-edge.db")).data.eventHistory.map
          (·.createdMs))) = some (true, true, true, [1]) := by decide +kernel
  obtain ⟨s, hs, hsome⟩ := Option.map_eq_some_iff.mp hfacts
  obtain ⟨hlog, hstrands, hok, hcreated⟩ : _ ∧ _ ∧ _ ∧ _ := by
    simpa only [Prod.mk.injEq] using hsome
  -- the loop only added to the log, and stranded nothing
  obtain ⟨new, hnew⟩ := of_decide_eq_true hlog
  refine ⟨s, hs, hcreated, killed_process_recorded shakenWorld {} emptyDisk s hs
    ⟨new, hnew.symm, fun e he => ?_⟩ (of_decide_eq_true hok)⟩
  refine of_decide_eq_true hstrands e ?_
  rw [← hnew]
  exact List.mem_append_right _ he

/-! ## In front of a plant

With the plant as the device the edges are a function of the plant: of its registers and of what
clients wrote, with no runtime in it. -/

/-- A node value that shows as this variant. -/
def shownValue : UaVariant → EdgeValue
  | .boolean v => { b := if v then 1 else 0 }
  | .int16 v => { i16 := v }
  | .int32 v => { i32 := v }
  | .uint32 v => { u32 := v }
  | .double v => { d := v }
  | .other => {}

/-- What an abstract controller shows, as the values of a pass. -/
def shownPass (s : PlantState) (nowMs : Nat) : Pass where
  values i := shownValue (s.image i)
  nowMs := nowMs

/-- The pass of a cycle. -/
def plantPass (nodes : List EdgeNode) (s : PlantState) : PlantOp → List Pass
  | .op (.tick clock) => [shownPass (cycled (plantCells nodes) s) clock.evaluateMs]
  | .op (.write _ _) => []
  | .move _ => []

/-- The abstract controller in one operation on the runtime or the plant. -/
def controllerStep (nodes : List EdgeNode) (s : PlantState) (op : PlantOp) : PlantState :=
  ScanCycle.run (plantCells nodes) (plantOp nodes op).toList s

/-- The cycles of the abstract controller. -/
def plantCycles (nodes : List EdgeNode) (ops : List PlantOp) (s : PlantState) : List Pass :=
  collect (controllerStep nodes) (plantPass nodes) ops s

/-- The two passes read the same numbers. -/
structure Alike (model : EdgeModel) (p q : Pass) : Prop where
  nowMs : p.nowMs = q.nowMs
  values : (setValues p.values model).nodes.map edgeNodeAsDouble =
    (setValues q.values model).nodes.map edgeNodeAsDouble

section Alike

variable {p q : Pass}

/-- Two models with like values give an event the same source value. -/
theorem Alike.source (h : Alike model p q) (event : EdgeEvent) :
    ((setValues p.values model).sourceOf event).map edgeNodeAsDouble =
      ((setValues q.values model).sourceOf event).map edgeNodeAsDouble := by
  unfold EdgeModel.sourceOf
  cases event.sourceNode with
  | none => rfl
  | some i =>
    have hi := congrArg (·[i]?) h.values
    simpa only [List.getElem?_map, Option.bind_some] using hi

theorem Alike.conditionAt (h : Alike model p q) :
    conditionAt model p = conditionAt model q := by
  funext event
  have hsource := h.source event
  unfold OpcuaEdge.conditionAt eventConditionMet
  cases hp : (setValues p.values model).sourceOf event with
  | none =>
    rw [hp] at hsource
    rw [Option.map_eq_none_iff.mp hsource.symm]
  | some node =>
    rw [hp] at hsource
    obtain ⟨node', hq, hsame⟩ := Option.map_eq_some_iff.mp hsource.symm
    simp only [hq, hsame]

theorem Alike.eventValue (h : Alike model p q) (event : EdgeEvent) :
    eventValue (setValues p.values model) event = eventValue (setValues q.values model) event := by
  unfold OpcuaEdge.eventValue
  rw [h.source]

theorem Alike.edgeRow (h : Alike model p q) (event : EdgeEvent) :
    edgeRow model (p, event) = edgeRow model (q, event) := by
  show historyRow _ p.nowMs event = historyRow _ q.nowMs event
  unfold historyRow
  rw [h.nowMs, h.eventValue]

/-- Emit the same notifications. -/
theorem Alike.edgeNotification (h : Alike model p q) (event : EdgeEvent) :
    edgeNotification model (p, event) = edgeNotification model (q, event) := by
  have hsource := h.source event
  have hmessage : makeEventMessage (setValues p.values model) event =
      makeEventMessage (setValues q.values model) event := by
    -- the message reads the source node only through its printed value
    unfold makeEventMessage
    cases hp : (setValues p.values model).sourceOf event with
    | none =>
      rw [hp] at hsource
      rw [Option.map_eq_none_iff.mp hsource.symm]
    | some node =>
      rw [hp] at hsource
      obtain ⟨node', hq, hsame⟩ := Option.map_eq_some_iff.mp hsource.symm
      simp only [hq, hsame]
  show (uaEventOf (setValues p.values model) event 0).body =
    (uaEventOf (setValues q.values model) event 0).body
  unfold uaEventOf
  rw [hmessage]

theorem Alike.edges (h : Alike model p q) (f : Pass × EdgeEvent → β)
    (hf : ∀ event, f (p, event) = f (q, event)) :
    (risingEdges model before [p]).flatten.map f =
      (risingEdges model before [q]).flatten.map f := by
  show ((_ :: []).flatten).map f = ((_ :: []).flatten).map f
  rw [List.flatten_singleton, List.flatten_singleton, List.map_map, List.map_map, h.conditionAt]
  exact List.map_congr_left fun event _ => hf event

/-- What is logged of a pass is logged of one that is alike. -/
theorem AlarmsLogged.congr (h : AlarmsLogged model before [p] rt rt') (halike : Alike model p q) :
    AlarmsLogged model before [q] rt rt' where
  alarmed := by
    have hlatches : latchesAfter model before [q] = latchesAfter model before [p] :=
      halike.conditionAt.symm
    rw [hlatches]
    exact h.alarmed
  history := by rw [h.history, halike.edges _ halike.edgeRow]
  served := h.served
  emitted := by rw [h.emitted, halike.edges _ halike.edgeNotification]

end Alike

/-- What a decoded node shows is its number. -/
theorem edgeNodeAsDouble_shown {node : EdgeNode} (hset : node.dataType ≠ .unset)
    (raw : List (BitVec 16)) {other : EdgeNode} (htype : other.dataType = node.dataType) :
    edgeNodeAsDouble { other with value := shownValue (readEdgeNode
      (applyRegistersToNode node raw)) } = edgeNodeAsDouble (applyRegistersToNode node raw) := by
  unfold edgeNodeAsDouble readEdgeNode setVariantFromEdgeValue applyRegistersToNode
  dsimp only
  rw [htype]
  cases hcase : node.dataType with
  | unset => exact absurd hcase hset
  | bool => split_ifs <;> simp_all [shownValue]
  | int16 | int32 | uint32 | double => simp_all [shownValue]

/-- The value of a node as a double is read from its type and its member. -/
theorem edgeNodeAsDouble_congr {a b : EdgeNode} (htype : a.dataType = b.dataType)
    (hvalue : a.value = b.value) : edgeNodeAsDouble a = edgeNodeAsDouble b := by
  unfold edgeNodeAsDouble
  rw [htype, hvalue]

section Plant

variable {clock : Nat → UInt64} {env : EventEnv τ ρ} {rt : EdgeRuntime Plc τ ρ}

/-- The abstract controller shows the numbers that the tick evaluates. -/
theorem tickedPass_alike (h : InService clock model.nodes rt) (hnodes : Addressed model.nodes)
    (tick : TickClock) :
    Alike model (tickedPass { modbus := lineLib clock, events := env } tick rt)
      (shownPass (cycled (plantCells model.nodes) (controllerState rt)) tick.evaluateMs) := by
  refine ⟨rfl, ?_⟩
  have haddressed := h.addressed hnodes
  have hsame := edgeRuntimeTick_line clock env tick haddressed.real
  obtain ⟨hticked, -⟩ := edgeRuntimeTick_plc env h.ready haddressed.above tick
  rw [← hsame] at hticked
  rw [← tick_refines env h hnodes tick]
  apply List.ext_getElem?
  intro i
  unfold setValues
  simp only [List.getElem?_map, List.getElem?_mapIdx]
  -- node by node: the tick decodes what the cycle of the plant shows
  rcases Option.eq_none_or_eq_some rt.model.nodes[i]? with hnone | ⟨shown, hget⟩
  · rw [h.none hnone]
    rfl
  · obtain ⟨node, hnode, hconfig⟩ := h.node hget
    -- draining and polling keep the type, and typed nodes show their value
    have htype : node.dataType = (drainedNode shown).dataType :=
      EdgeNode.config_congr _ (fun _ => rfl) (hconfig.symm.trans (drainedNode_config shown).symm)
    have hset : (drainedNode shown).dataType ≠ .unset := by
      rw [← htype]
      exact hnodes.typed node (List.mem_of_getElem? hnode)
    rw [hnode]
    unfold tickedPass shownPass controllerState
    dsimp only
    rw [hticked, List.getElem?_map, hget]
    refine congrArg some ?_
    have hkept := EdgeNode.config_congr (·.dataType) (fun _ => rfl)
      (applyRegistersToNode_config (drainedNode shown) (nodeRegisters
        (rt.bus.env.regs.writeAll (dueSlots rt.model.nodes)) shown))
    refine Eq.trans ?_ (edgeNodeAsDouble_shown hset _ htype).symm
    apply edgeNodeAsDouble_congr
    · exact htype.trans hkept.symm
    · rfl

/-- What an operation attempts to record and to emit. -/
def plantAttempts (clock : Nat → UInt64) (env : EventEnv τ ρ) (rt : EdgeRuntime Plc τ ρ) :
    PlantOp → List EventAttempt
  | .op op => stepAttempts { modbus := lineLib clock, events := env } rt op
  | .move _ => []

/-- One step of a runtime in front of a plant. The edges are those of the abstract controller's
cycle. -/
theorem plantStep_logged (h : Alarmed model before rt) (hservice : InService clock model.nodes rt)
    (hnodes : Addressed model.nodes) (hpending : ∀ node ∈ model.nodes, node.pendingWrite = false)
    (op : PlantOp) (hquiet : rt.store.Quiet (plantStep clock env rt op).store)
    (hok : ∀ a ∈ plantAttempts clock env rt op, a.status = .ok) :
    AlarmsLogged model before (plantPass model.nodes (controllerState rt) op) rt
      (plantStep clock env rt op) := by
  cases op with
  | move regs => exact .nothing ⟨h.config, h.writable, h.latches, h.outside⟩ rfl rfl
  | op op =>
    have hlogged :=
      runStep_logged { modbus := lineLib clock, events := env } h hpending op hquiet hok
    cases op with
    | write i value => exact hlogged
    | tick tick => exact hlogged.congr (tickedPass_alike hservice hnodes tick)

theorem plantStep_log (clock : Nat → UInt64) (env : EventEnv τ ρ) (rt : EdgeRuntime Plc τ ρ)
    (op : PlantOp) : rt.store.log <+: (plantStep clock env rt op).store.log := by
  cases op with
  | move regs => exact List.prefix_rfl
  | op op => exact runStep_log { modbus := lineLib clock, events := env } rt op

end Plant

/-- **The history tells what the plant did.** In front of a device that answers, and however the
plant moves its registers, the alarms of a run are the rising edges in what the abstract controller
shows in its cycles: the registers decide, not the values the runtime happened to have. -/
theorem alarms_follow_the_plant (clock : Nat → UInt64) (env : EventEnv τ ρ) (file : Option Bytes)
    (model : EdgeModel) (hmodel : LoadedAndWired file model)
    (hreal : ∀ node ∈ model.nodes, RealAddress node)
    (hapart : model.nodes.Pairwise RangesDisjoint) (before : EdgeEvent → Bool)
    (rt : EdgeRuntime Plc τ ρ) (hservice : InService clock model.nodes rt)
    (hrt : Alarmed model before rt) (ops : List PlantOp)
    (hquiet : rt.store.Quiet (plantRun clock env ops rt).store)
    (hok : ∀ a ∈ collect (plantStep clock env) (plantAttempts clock env) ops rt, a.status = .ok) :
    AlarmsLogged model before (plantCycles model.nodes ops (controllerState rt)) rt
      (plantRun clock env ops rt) := by
  have hnodes := hmodel.addressed hreal hapart
  -- the log of the run, told in the passes of the program
  have hlogged := logged_of_steps (InService clock model.nodes)
    (fun rt op h => plantStep_inService env h hnodes op) (plantStep_log clock env)
    (fun before rt op hservice h hquiet hok =>
      plantStep_logged h hservice hnodes hmodel.none_pending op hquiet hok)
    ops before rt hservice hrt hquiet hok
  -- the same passes, told by the controller over the plant's registers
  have hcycles := collect_simulated (controllerStep model.nodes) (plantPass model.nodes)
    controllerState (InService clock model.nodes)
    (fun rt op h => plantStep_inService env h hnodes op)
    (fun rt op h => plantStep_refines h hnodes op) ops rt hservice
  rw [hcycles] at hlogged
  exact hlogged

/-- The registers of the plant rise to 900, fall, and rise again, with a tick after each move and
one in between. -/
def plantShaken : List PlantOp :=
  [.op (.tick { evaluateMs := 1, persistMs := 1 }),
    .move fun _ _ => 900, .op (.tick { evaluateMs := 2, persistMs := 2 }),
    .op (.tick { evaluateMs := 3, persistMs := 3 }),
    .move fun _ _ => 0, .op (.tick { evaluateMs := 4, persistMs := 4 }),
    .move fun _ _ => 900, .op (.tick { evaluateMs := 5, persistMs := 5 })]

theorem pump_alarms_follow_the_plant :
    (risingEdges pumpOnPlc.model (fun _ => false) (plantCycles pumpOnPlc.model.nodes plantShaken
        (controllerState pumpOnPlc))).map List.length = [0, 1, 0, 0, 1] ∧
      AlarmsLogged pumpOnPlc.model (fun _ => false)
        (plantCycles pumpOnPlc.model.nodes plantShaken (controllerState pumpOnPlc)) pumpOnPlc
        (plantRun (fun _ => 0) (pumpLibs true).events plantShaken pumpOnPlc) := by
  refine ⟨by decide +kernel, ?_⟩
  exact alarms_follow_the_plant (fun _ => 0) (pumpLibs true).events (some pumpTemplate)
    pumpOnPlc.model pumpOnPlc_started (by decide +kernel) (by decide +kernel) (fun _ => false)
    pumpOnPlc pumpOnPlc_inService
    ⟨rfl, by decide +kernel, pumpOnPlc_started.latchedAs.events, rfl⟩ plantShaken
    ⟨_, (List.nil_append _).symm, by decide +kernel⟩ (by decide +kernel)

end OpcuaEdge
