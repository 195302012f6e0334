import OpcuaEdge.Restart
import OpcuaEdge.SchemaGrowth

/-!
# OpcuaEdge — what a life commits

Of everything that a process asks of SQLite only three things can become durable: the model it
loaded, the rows of its alarms and the values of its nodes. `KeptByLife` is the rule that follows
for a property of the tables: if those three keep it, the life does not destroy it, whatever SQLite
answers and wherever `main` returns (`edgeMain_keeps`). A process that is killed is covered too:
from then on nothing it asks is granted.
-/

namespace OpcuaEdge

open CStr CLoop Txn Upsert

variable {σ τ ρ : Type}

/-! ## The rule

A property of the database that a life must keep has few ways to be broken: opening applies a
model, a pass adds a history row, a tick stores the values. What survives these survives every
life. -/

/-- What a life with this model commits keeps `I`; `J` holds besides from the persist of the model
on. -/
structure KeptByLife (model : EdgeModel) (I J : Db → Prop) : Prop where
  configured : ∀ db, I db → J (applyModel model db)
  recorded : ∀ event ∈ model.events, ∀ value nowMs db, J db →
    J (StoreCall.apply (.insertEventHistory event value nowMs) db)
  valued : ∀ (current : EdgeModel) nowMs db,
    current.nodes.map EdgeNode.config = model.nodes.map EdgeNode.config → J db →
      J (applyLatestValues current nowMs db)
  done : ∀ db, J db → I db

/-- The runtime has the nodes and events of the model, with other values and latches. -/
structure Runs (model current : EdgeModel) : Prop where
  nodes : current.nodes.map EdgeNode.config = model.nodes.map EdgeNode.config
  events : current.events.map (·.setActive false) = model.events.map (·.setActive false)

/-- An event of a running model is one of the template's, up to its latch. -/
theorem Runs.exists_event {model current : EdgeModel} (h : Runs model current) {event : EdgeEvent}
    (hmem : event ∈ current.events) (active : Bool) :
    ∃ origin ∈ model.events, event.setActive active = origin.setActive active := by
  have hquiet := List.mem_map_of_mem (f := (·.setActive false)) hmem
  rw [h.events] at hquiet
  obtain ⟨origin, horigin, heq⟩ := List.mem_map.mp hquiet
  exact ⟨origin, horigin, congrArg (·.setActive active) heq.symm⟩

/-! ## The event pass

A pass over the events inserts rows one at a time, each of an event of the template. -/

theorem edgeEventsEvaluate_runs (env : EventEnv τ ρ) (nowMs : Nat) (model : EdgeModel)
    (store : Store τ) (server : Option (EdgeServer ρ)) :
    Runs model (edgeEventsEvaluate env nowMs model store server).model where
  nodes := rfl
  events := edgeEventsEvaluate_definitions env nowMs model store server

/-- The inserts are the only calls of a pass on the store. -/
theorem edgeEventsEvaluate_committed {P : Db → Prop} (env : EventEnv τ ρ) (nowMs : Nat)
    (model : EdgeModel) {store : Store τ} (server : Option (EdgeServer ρ))
    (hrecord : ∀ event ∈ model.events, ∀ value db, P db →
      P (StoreCall.apply (.insertEventHistory (event.setActive true) value nowMs) db))
    (h : P store.conn.committed) :
    P (edgeEventsEvaluate env nowMs model store server).store.conn.committed := by
  refine sweep_state_mem (fun s : EvalState τ ρ => P s.store.conn.committed) model.events
    (fun i event hmem s hs => ?_) 0 { store, server } h
  -- outside a transaction a row is committed as soon as SQLite takes it
  have hrecorded : P (s.recorded env model nowMs i event).2.store.conn.committed := by
    show P (StoreCall.run env.engine s.store (.insertEventHistory (event.setActive true)
      (eventValue model event) nowMs)).2.conn.committed
    rw [run_committed]
    split_ifs
    · exact hrecord event hmem _ _ hs
    · exact hs
  obtain ⟨-, hturn⟩ | ⟨-, -, hturn⟩ | ⟨-, -, -, hturn⟩ | ⟨-, -, -, _, rfl, hturn⟩ :=
    evaluateEvent_cases env model nowMs i event s
  · rw [hturn]; exact hs
  · rw [hturn]; exact hrecorded
  · rw [hturn]; exact hrecorded
  · rw [hturn]; exact hrecorded

/-! ## A run

The rule for a tick, a step, and the server loop. -/

/-- The runtime runs the model, and `J` holds of what is committed. -/
structure Keeping (model : EdgeModel) (J : Db → Prop) (rt : EdgeRuntime σ τ ρ) : Prop where
  runs : Runs model rt.model
  committed : J rt.store.conn.committed

section

variable {model : EdgeModel} {I J : Db → Prop} (h : KeptByLife model I J)

include h

/-- Storing the values keeps the property. -/
theorem KeptByLife.persistLatestValues (engine : Engine τ) {current : EdgeModel}
    (hnodes : current.nodes.map EdgeNode.config = model.nodes.map EdgeNode.config) (nowMs : Nat)
    {store : Store τ} (hJ : J store.conn.committed) :
    J (edgeStorePersistLatestValues engine current nowMs store).2.conn.committed := by
  show J (StoreCall.run engine store (.persistLatestValues current nowMs)).2.conn.committed
  rw [run_committed]
  split_ifs
  · exact h.valued current nowMs _ hnodes hJ
  · exact hJ

/-- So does a tick: its pass, and the storing if it is due. -/
theorem KeptByLife.tick (libs : Libs σ τ ρ) (clock : TickClock) {rt : EdgeRuntime σ τ ρ}
    (hrt : Keeping model J rt) :
    Keeping model J (edgeRuntimeTick libs clock rt).1 := by
  have hevents := (edgeEventsEvaluate_runs libs.events clock.evaluateMs
    { rt.model with nodes := (edgeModbusPoll libs.modbus
        (drainPendingWrites libs.modbus rt.bus rt.model.nodes).state.bus
        (drainPendingWrites libs.modbus rt.bus rt.model.nodes).elem).2.2 }
    rt.store rt.server).events
  have hruns : Runs model (edgeRuntimeTick libs clock rt).1.model :=
    ⟨(edgeRuntimeTick_config libs clock rt).trans hrt.runs.nodes, hevents.trans hrt.runs.events⟩
  -- the recorded event is a configured one but for its latch
  have hpass : J (tickPass libs clock rt).store.conn.committed := by
    refine edgeEventsEvaluate_committed libs.events clock.evaluateMs _ rt.server
      (fun event hmem value db hdb => ?_) hrt.committed
    obtain ⟨origin, horigin, heq⟩ := hrt.runs.exists_event hmem true
    rw [heq]
    exact h.recorded origin horigin value clock.evaluateMs db hdb
  refine ⟨hruns, ?_⟩
  rw [edgeRuntimeTick_store]
  split_ifs
  · exact h.persistLatestValues libs.events.engine hruns.nodes clock.persistMs hpass
  · exact hpass

/-- And a step of any kind. -/
theorem KeptByLife.step (libs : Libs σ τ ρ) {rt : EdgeRuntime σ τ ρ}
    (hrt : Keeping model J rt) (op : RunOp) : Keeping model J (runStep libs rt op).1 := by
  cases op with
  | tick clock => exact h.tick libs clock hrt
  | write i value =>
    have hconfig := (runStep_config libs rt (.write i value)).trans hrt.runs.nodes
    obtain hstep | ⟨_, _, hstep⟩ | ⟨_, _, _, _, _, _, _, _, hstep⟩ :=
      runStep_write_cases libs rt i value
    all_goals
      rw [hstep] at hconfig ⊢
      exact ⟨⟨hconfig, hrt.runs.events⟩, hrt.committed⟩

theorem KeptByLife.loopEnd (w : World σ τ ρ) {rt : EdgeRuntime σ τ ρ}
    (hrt : Keeping model J rt) : Keeping model J (loopEnd w rt).1 :=
  trackLoop_induction w (P := fun rt _ => Keeping model J rt)
    (fun _ _ _ hs => ⟨hs.runs, hs.committed⟩) (fun _ _ op hs => h.step w.libs hs op) hrt

end

/-! ## A life

A life goes through the stages of `main`. The database is changed by the opening, by the loop and
by the shutdown. -/

/-- What the startup of the database commits: the model, or nothing. -/
theorem startupStore_committed (w : World σ τ ρ) (file : DbFile) (model : EdgeModel) :
    (startupStore w file model).2.store.conn.committed =
      if (startupStore w file model).1 = .schema ∨ (startupStore w file model).1 = .persistModel
        then file.data else applyModel model file.data := by
  have hall := allOrNothing_persistModel w.libs.events.engine model (startupSchema w file).2.2
  unfold startupStore
  dsimp only
  by_cases hschema : (startupSchema w file).1 ≠ .ok
  · rw [if_pos hschema, if_pos (.inl rfl)]
    rfl
  · rw [if_neg hschema]
    by_cases hpersist : (edgeStorePersistModel w.libs.events.engine model
        (startupSchema w file).2.2).1 ≠ .ok
    · rw [if_pos hpersist, if_pos (.inr rfl)]
      exact hall.1 hpersist
    · rw [if_neg hpersist]
      obtain ⟨-, hconn⟩ := hall.2 (not_not.mp hpersist)
      -- restoring the values only reads
      have hrestored := loadLatestValues_committed w.libs.events.engine model
        (edgeStorePersistModel w.libs.events.engine model (startupSchema w file).2.2).2
      rw [hconn] at hrestored
      dsimp only
      split_ifs <;> first | exact hrestored | simp_all

/-- A connection that was never used has nothing to take down. -/
theorem edgeModbusClear_initialBus (lib : ModbusLib σ) (host : Bytes) (port : UInt16) (env : σ) :
    (edgeModbusClear lib (initialBus (some host) port env)).calls = [] := by
  have hctx : (initialBus (some host) port env).modbus.ctx = none := by
    unfold initialBus edgeModbusInit
    dsimp only
    split_ifs <;> rfl
  unfold edgeModbusClear edgeModbusDisconnect
  rw [hctx]
  rfl

/-- A startup that fails leaves what it committed, and has made no Modbus call. -/
theorem mainOpened_failed {w : World σ τ ρ} {options : Options} {disk : Disk} {model : EdgeModel}
    (h : (mainOpened w options disk model).stage ≠ .served) :
    (mainOpened w options disk model).disk = closedDisk disk options.dbPath
        (startupStore w (disk options.dbPath) model).2.schema
        (startupStore w (disk options.dbPath) model).2.store ∧
      (mainOpened w options disk model).bus.calls = [] := by
  unfold mainOpened at h ⊢
  dsimp only at h ⊢
  by_cases hstore : (startupStore w (disk options.dbPath) model).1 ≠ .modbus
  · rw [if_pos hstore]
    exact ⟨rfl, rfl⟩
  · rw [if_neg hstore] at h ⊢
    cases hstarted : (startupServer w options
        (startupStore w (disk options.dbPath) model).2).2.2 with
    | none => exact ⟨rfl, rfl⟩
    | some r =>
      simp only [hstarted] at h
      dsimp only
      -- before the server loop the link is at most set up and cleared, which calls nothing
      by_cases hfailed : (startupServer w options
          (startupStore w (disk options.dbPath) model).2).1 ≠ .served
      · rw [if_pos hfailed]
        refine ⟨rfl, ?_⟩
        dsimp only
        split_ifs
        · obtain ⟨-, -, -, -, hbus⟩ := startupServer_runtime hstarted
          rw [hbus]
          exact edgeModbusClear_initialBus w.libs.modbus _ _ w.network
        · rfl
      · rw [if_neg hfailed] at h
        exact absurd rfl h

/-- A process changes the file that it opened, if any: it leaves what the startup or the shutdown
committed. -/
theorem edgeMain_disk (w : World σ τ ρ) (options : Options) (disk : Disk) :
    (edgeMain w options disk).disk = disk ∨
      (startupLoad w options).1 = .openStore ∧
        ((edgeMain w options disk).disk = closedDisk disk options.dbPath
            (startupStore w (disk options.dbPath) (startupLoad w options).2).2.schema
            (startupStore w (disk options.dbPath) (startupLoad w options).2).2.store ∨
          ∃ s, Served w options disk s) := by
  -- a process that served is described by Served; any other closes the file where it stopped
  by_cases hserved : (edgeMain w options disk).stage = .served
  · obtain ⟨s, hs⟩ := edgeMain_served hserved
    exact .inr ⟨(edgeStartup_some hs.startup).loaded, .inr ⟨s, hs⟩⟩
  · unfold edgeMain at hserved ⊢
    dsimp only at hserved ⊢
    by_cases hloaded : (startupLoad w options).1 ≠ .openStore
    · rw [if_pos hloaded]
      exact .inl rfl
    · rw [if_neg hloaded] at hserved ⊢
      cases hopens : w.sqliteOpen options.dbPath with
      | failed allocated => exact .inl rfl
      | opened =>
        rw [hopens] at hserved
        exact .inr ⟨not_not.mp hloaded, .inl (mainOpened_failed hserved).1⟩

/-- A process that came up runs the model it persisted. -/
theorem ComesUp.runs {w : World σ τ ρ} {options : Options} {disk : Disk} {s : Started σ τ ρ}
    (h : ComesUp w options disk s) : Runs (startupLoad w options).2 s.registered.rt.model := by
  obtain ⟨-, -, -, hrestored⟩ := startupStore_ok h.store
  obtain ⟨hmodel, -⟩ := startupServer_runtime h.registered
  refine ⟨h.serves.config, ?_⟩
  rw [hmodel, h.opened, hrestored]
  unfold edgeStoreLoadLatestValues
  dsimp only
  split_ifs <;> rfl

theorem ComesUp.committed {w : World σ τ ρ} {options : Options} {disk : Disk} {s : Started σ τ ρ}
    (h : ComesUp w options disk s) : s.registered.rt.store.conn.committed =
      applyModel (startupLoad w options).2 (disk options.dbPath).data := by
  obtain ⟨-, hstore, -⟩ := startupServer_runtime h.registered
  rw [hstore, h.opened, startupStore_committed, h.store, if_neg (by decide)]

/-- **What the commits of a life keep, the life keeps**, for the file that it opens and for all the
others. -/
theorem edgeMain_keeps {I J : Db → Prop} (w : World σ τ ρ) (options : Options)
    (h : ∀ file, LoadedAndWired file (startupLoad w options).2 →
      KeptByLife (startupLoad w options).2 I J) {disk : Disk} {path : Bytes}
    (hI : I (disk path).data) : I ((edgeMain w options disk).disk path).data := by
  -- only the file that is opened can have changed
  have hclosed : ∀ schema (store : Store τ), (path = options.dbPath → I store.conn.committed) →
      I (closedDisk disk options.dbPath schema store path).data := by
    intro schema store hstore
    unfold closedDisk
    by_cases hpath : path = options.dbPath
    · rw [hpath, Function.update_self]
      exact hstore hpath
    · rw [Function.update_of_ne hpath]
      exact hI
  obtain hsame | ⟨hloaded, hfailed | ⟨s, hs⟩⟩ := edgeMain_disk w options disk
  · rw [hsame]
    exact hI
  · have hkept := h _ (startupLoad_ok hloaded)
    rw [hfailed]
    refine hclosed _ _ ?_
    rintro rfl
    rw [startupStore_committed]
    split_ifs
    · exact hI
    · exact hkept.done _ (hkept.configured _ hI)
  · have hkept := h _ (startupLoad_ok hloaded)
    have hup := edgeStartup_some hs.startup
    obtain ⟨-, -, hstore⟩ := serveAndStop_persist w s.registered
    rw [hs.disk]
    refine hclosed _ _ ?_
    rintro rfl
    have hkeeping : Keeping (startupLoad w options).2 J (loopEnd w s.registered.rt).1 := by
      refine hkept.loopEnd w ⟨hup.runs, ?_⟩
      rw [hup.committed]
      exact hkept.configured _ hI
    rw [hstore]
    exact hkept.done _ (hkept.persistLatestValues w.libs.events.engine hkeeping.runs.nodes
      w.shutdownMs hkeeping.committed)

/-! ## The schema

Of the schema a life changes what `edge_store_init_schema` changes, once, when the file has been
opened. -/

theorem startupStore_schema (w : World σ τ ρ) (file : DbFile) (model : EdgeModel) :
    (startupStore w file model).2.schema = (startupSchema w file).2.1 := by
  unfold startupStore
  dsimp only
  split_ifs <;> rfl

/-- **What the changes of a schema keep, the life keeps**, for the file that it opens and for all
the others. -/
theorem edgeMain_keepsSchema {I : SchemaDb → Prop} (h : KeptBySchema I) (w : World σ τ ρ)
    (options : Options) {disk : Disk} {path : Bytes} (hI : I (disk path).schema) :
    I ((edgeMain w options disk).disk path).schema := by
  have hclosed : ∀ (opened : OpenedStore τ) (store : Store τ),
      opened = (startupStore w (disk options.dbPath) (startupLoad w options).2).2 →
        I (closedDisk disk options.dbPath opened.schema store path).schema := by
    rintro opened store rfl
    unfold closedDisk
    by_cases hpath : path = options.dbPath
    · subst hpath
      rw [Function.update_self, startupStore_schema]
      have hopened : Conn.All I { committed := (disk options.dbPath).schema } := ⟨hI, nofun⟩
      show I (edgeStoreInitSchema w.libs.events.engine
        { conn := { committed := (disk options.dbPath).schema }, env := w.sqlite }).2.conn.committed
      -- only opening the store changes the schema
      exact (h.initSchema w.libs.events.engine hopened).1
    · rw [Function.update_of_ne hpath]
      exact hI
  obtain hsame | ⟨-, hfailed | ⟨s, hs⟩⟩ := edgeMain_disk w options disk
  · rw [hsame]
    exact hI
  · rw [hfailed]
    exact hclosed _ _ rfl
  · rw [hs.disk]
    exact hclosed _ _ (edgeStartup_some hs.startup).opened

/-! ## A life that fails

A process that ends before its loop has made no call on the bus and at most applied its model. -/

/-- What a process that did not come up leaves: nothing was sent to the plant and no other file has
changed; of its own database the values and the alarms are as they were, the configuration is as it
was or has got the rows of the template, and the schema has grown at most, with every row kept. -/
structure LeavesAlone (w : World σ τ ρ) (options : Options) (disk : Disk) (done : ProcessEnd σ) :
    Prop where
  silent : done.bus.calls = []
  otherFiles : ∀ path, path ≠ options.dbPath → done.disk path = disk path
  latestValues : (done.disk options.dbPath).data.latestValues =
    (disk options.dbPath).data.latestValues
  eventHistory : (done.disk options.dbPath).data.eventHistory =
    (disk options.dbPath).data.eventHistory
  configuration : (done.disk options.dbPath).data = (disk options.dbPath).data ∨
    ∃ model, LoadedAndWired (w.files options.configPath) model ∧
      (done.disk options.dbPath).data = applyModel model (disk options.dbPath).data
  schema : SchemaGrown (disk options.dbPath).schema (done.disk options.dbPath).schema
  schemaRows : RowsKept (disk options.dbPath).schema (done.disk options.dbPath).schema

theorem leavesAlone_of_data {w : World σ τ ρ} {options : Options} {disk : Disk}
    {done : ProcessEnd σ} (hsilent : done.bus.calls = [])
    (hothers : ∀ path, path ≠ options.dbPath → done.disk path = disk path)
    (hdata : (done.disk options.dbPath).data = (disk options.dbPath).data ∨
      ∃ model, LoadedAndWired (w.files options.configPath) model ∧
        (done.disk options.dbPath).data = applyModel model (disk options.dbPath).data)
    (hschema : SchemaGrown (disk options.dbPath).schema (done.disk options.dbPath).schema)
    (hrows : RowsKept (disk options.dbPath).schema (done.disk options.dbPath).schema) :
    LeavesAlone w options disk done := by
  refine ⟨hsilent, hothers, ?_, ?_, hdata, hschema, hrows⟩
  all_goals
    obtain hsame | ⟨model, -, hmodel⟩ := hdata
    · rw [hsame]
    · rw [hmodel]
      rfl

/-- **A process that does not come up leaves the plant alone, and of the data everything but the
configuration tables.** -/
theorem failed_process_leavesAlone (w : World σ τ ρ) (options : Options) (disk : Disk)
    (h : (edgeMain w options disk).exitCode ≠ 0) :
    LeavesAlone w options disk (edgeMain w options disk) := by
  have hgrown : SchemaGrown (disk options.dbPath).schema
      ((edgeMain w options disk).disk options.dbPath).schema :=
    edgeMain_keepsSchema (schemaGrown_keptBySchema _) w options (.refl _)
  have hrows : RowsKept (disk options.dbPath).schema
      ((edgeMain w options disk).disk options.dbPath).schema :=
    edgeMain_keepsSchema (rowsKept_keptBySchema _) w options (.refl _)
  have hfailed : (edgeMain w options disk).stage ≠ .served := by
    intro hserved
    rw [ProcessEnd.exitCode, if_pos hserved] at h
    exact h rfl
  unfold edgeMain at hfailed hgrown hrows ⊢
  dsimp only at hfailed hgrown hrows ⊢
  -- before the store is opened nothing is touched, behind it the model may have been applied
  by_cases hloaded : (startupLoad w options).1 ≠ .openStore
  · rw [if_pos hloaded] at hgrown hrows ⊢
    exact leavesAlone_of_data rfl (fun _ _ => rfl) (.inl rfl) hgrown hrows
  · rw [if_neg hloaded] at hfailed hgrown hrows ⊢
    cases hopens : w.sqliteOpen options.dbPath with
    | failed allocated =>
      rw [hopens] at hgrown hrows
      exact leavesAlone_of_data rfl (fun _ _ => rfl) (.inl rfl) hgrown hrows
    | opened =>
      rw [hopens] at hfailed hgrown hrows
      obtain ⟨hdisk, hsilent⟩ := mainOpened_failed hfailed
      have hcommitted := startupStore_committed w (disk options.dbPath) (startupLoad w options).2
      refine leavesAlone_of_data hsilent (fun path hpath => ?_) ?_ hgrown hrows
      · dsimp only
        rw [hdisk, closedDisk, Function.update_of_ne hpath]
      · dsimp only
        rw [hdisk, closedDisk, Function.update_self]
        split_ifs at hcommitted
        · exact .inl hcommitted
        · exact .inr ⟨_, startupLoad_ok (not_not.mp hloaded), hcommitted⟩

/-- The server is up, but the tick cannot be registered. -/
theorem unregistered_pump_leavesAlone :
    LeavesAlone { pumpWorld [startPump] with server.addRepeatedCallback := fun ua => (none, ua) } {}
      emptyDisk
      (edgeMain { pumpWorld [startPump] with server.addRepeatedCallback := fun ua => (none, ua) } {}
        emptyDisk) :=
  failed_process_leavesAlone _ {} emptyDisk (by decide +kernel)

end OpcuaEdge
