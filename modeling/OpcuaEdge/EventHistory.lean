import OpcuaEdge.EventPass
import OpcuaEdge.Wiring

/-!
# OpcuaEdge — the history of a run of passes

Passes of `edge_events_evaluate` with node values set freely in between. When every insert and
every emission succeeds, the history is the sequence of rising edges (`history_is_rising_edges`).
-/

namespace OpcuaEdge

open CStr CLoop Txn

variable {τ ρ : Type}

/-- The node values found by a pass and the time it reads. -/
structure Pass where
  values : Nat → EdgeValue
  nowMs : Nat

/-- The template with the values that the nodes hold at a time. -/
def setValues (values : Nat → EdgeValue) (model : EdgeModel) : EdgeModel :=
  { model with nodes := model.nodes.mapIdx fun i node => { node with value := values i } }

/-- The results of consecutive passes, each on the values set for it and on the latches, the store
and the server that the one before left. -/
def runPasses (env : EventEnv τ ρ) : List Pass → EdgeModel → Store τ → Option (EdgeServer ρ) →
    List (EvalResult τ ρ)
  | [], _, _, _ => []
  | pass :: rest, model, store, server =>
    let r := edgeEventsEvaluate env pass.nowMs (setValues pass.values model) store server
    r :: runPasses env rest r.model r.store r.server

/-! ## Rising edges

What a run of passes should record can be told from the values alone: an edge is an event whose
condition holds in a pass and did not hold in the pass before. -/

/-- Whether the condition of an event holds in a pass. -/
def conditionAt (model : EdgeModel) (pass : Pass) (event : EdgeEvent) : Bool :=
  eventConditionMet (setValues pass.values model) event

/-- For each pass the events whose condition holds there and did not hold `before`, in order of
their index. -/
def risingEdges (model : EdgeModel) : (EdgeEvent → Bool) → List Pass →
    List (List (Pass × EdgeEvent))
  | _, [] => []
  | before, pass :: rest =>
    ((model.events.filter fun e => conditionAt model pass e && !before e).map (pass, ·)) ::
      risingEdges model (conditionAt model pass) rest

/-- The row of an edge: the event's id, its source value in that pass, threshold and severity. -/
def edgeRow (model : EdgeModel) (edge : Pass × EdgeEvent) : HistoryRow :=
  historyRow (setValues edge.1.values model) edge.1.nowMs edge.2

/-- The notification for an edge, but for the namespace of its NodeId. -/
def edgeNotification (model : EdgeModel) (edge : Pass × EdgeEvent) : UaEvent :=
  (uaEventOf (setValues edge.1.values model) edge.2 0).body

/-! ## Latches on a template

The events of a run are those of the template, with latches that change. What a pass reads of an
event does not include its latch, so the lemmas below compare two models with the same nodes. -/

/-- `current` is `model` with other node values and with the latches given by `before`. -/
structure LatchedAs (model : EdgeModel) (before : EdgeEvent → Bool) (current : EdgeModel) :
    Prop where
  nodes : ∀ values, (setValues values current).nodes = (setValues values model).nodes
  events : current.events = model.events.map fun e => e.setActive (before e)

/-- The condition reads the value of the node, and not the latch. -/
theorem eventConditionMet_congr {a b : EdgeModel} (h : a.nodes = b.nodes) (event : EdgeEvent)
    (active : Bool) : eventConditionMet a (event.setActive active) = eventConditionMet b event := by
  unfold eventConditionMet EdgeModel.sourceOf
  rw [h]
  rfl

/-- The row of an edge does not depend on the latch .. -/
theorem historyRow_congr {a b : EdgeModel} (h : a.nodes = b.nodes) (nowMs : Nat)
    (event : EdgeEvent) (active : Bool) :
    historyRow a nowMs (event.setActive active) = historyRow b nowMs event := by
  unfold historyRow eventValue EdgeModel.sourceOf
  rw [h]
  rfl

/-- .. and neither does its notification. -/
theorem uaEventOf_congr {a b : EdgeModel} (h : a.nodes = b.nodes) (event : EdgeEvent)
    (active : Bool) (ns : Nat) :
    uaEventOf a (event.setActive active) ns = uaEventOf b event ns := by
  unfold uaEventOf makeEventMessage EdgeModel.sourceOf
  rw [h]
  rfl

theorem setValues_setValues (values values' : Nat → EdgeValue) (model : EdgeModel) :
    (setValues values (setValues values' model)).nodes = (setValues values model).nodes := by
  unfold setValues
  simp only [List.mapIdx_mapIdx]
  rfl

/-- The rising events of a pass, as records of the template. -/
theorem filter_rises {model current : EdgeModel} {before : EdgeEvent → Bool}
    (h : LatchedAs model before current) (pass : Pass) :
    current.events.filter (rises (setValues pass.values current)) =
      (model.events.filter fun e => conditionAt model pass e && !before e).map
        fun e => e.setActive (before e) := by
  rw [h.events, List.filter_map]
  refine congrArg _ (List.filter_congr fun e _ => ?_)
  show (eventConditionMet _ (e.setActive (before e)) && !before e) = _
  rw [eventConditionMet_congr (h.nodes pass.values)]
  rfl

/-- What one pass of a run leaves when all its attempts succeed. -/
structure PassEffect (model : EdgeModel) (edges : List (Pass × EdgeEvent)) (store : Store τ)
    (server : Option (EdgeServer ρ)) (r : EvalResult τ ρ) : Prop where
  history : r.store.conn.view.eventHistory =
    store.conn.view.eventHistory ++ edges.map (edgeRow model)
  served : r.server.isSome = server.isSome
  emitted : (emittedBy r.server).map UaEvent.body = (emittedBy server).map UaEvent.body ++
    if server.isSome then edges.map (edgeNotification model) else []
  checked : r.stats.checkedCount = model.events.length
  fired : r.stats.firedCount = edges.length
  emittedCount : r.stats.emittedCount = if server.isSome then edges.length else 0

/-- **One pass in which nothing fails** records and emits the edges of that pass, and leaves the
latches as the conditions are. -/
theorem edgeEventsEvaluate_effect {model current : EdgeModel} {before : EdgeEvent → Bool}
    (h : LatchedAs model before current) {env : EventEnv τ ρ} {pass : Pass} {store : Store τ}
    {server : Option (EdgeServer ρ)}
    (hok : ∀ a ∈ (edgeEventsEvaluate env pass.nowMs (setValues pass.values current) store
      server).attempts, a.status = .ok) :
    PassEffect model
        ((model.events.filter fun e => conditionAt model pass e && !before e).map (pass, ·)) store
        server
        (edgeEventsEvaluate env pass.nowMs (setValues pass.values current) store server) ∧
      LatchedAs model (conditionAt model pass)
        (edgeEventsEvaluate env pass.nowMs (setValues pass.values current) store
          server).model := by
  have hpass := sweep_passResult env (setValues pass.values current) pass.nowMs current.events 0
    { store, server } hok
  -- the latches are the conditions of the pass before, so what rises are the edges
  have hrises := filter_rises h pass
  refine ⟨⟨?_, hpass.server, ?_, ?_, ?_, ?_⟩, ⟨fun values => ?_, ?_⟩⟩
  · refine hpass.history.trans (congrArg _ ?_)
    rw [hrises, List.map_map, List.map_map]
    exact List.map_congr_left fun e _ => historyRow_congr (h.nodes pass.values) _ e _
  · refine hpass.emitted.trans (congrArg _ ?_)
    rw [hrises, List.map_map, List.map_map]
    refine if_congr Iff.rfl (List.map_congr_left fun e _ => ?_) rfl
    exact congrArg UaEvent.body (uaEventOf_congr (h.nodes pass.values) e _ 0)
  · refine hpass.checked.trans ?_
    rw [h.events, List.length_map]
    exact Nat.zero_add _
  · refine hpass.fired.trans ?_
    rw [hrises, List.length_map, List.length_map]
    exact Nat.zero_add _
  · refine hpass.emittedCount.trans ?_
    rw [hrises, List.length_map, List.length_map]
    exact Nat.zero_add _
  · exact (setValues_setValues values pass.values current).trans (h.nodes values)
  · refine hpass.latched.trans ?_
    rw [h.events, List.map_map]
    refine List.map_congr_left fun e _ => ?_
    exact congrArg (EdgeEvent.setActive e) (eventConditionMet_congr (h.nodes pass.values) e _)

/-! ## Runs in which everything succeeds

The edges of the passes add up. The induction is on the passes, with the latches of the last one as
the state. -/

/-- After pass `t` of a run with the given edges: the history and the notifications of all edges
so far, the counters of this pass, and latches equal to the conditions. -/
structure AfterPass (model : EdgeModel) (edges : List (List (Pass × EdgeEvent))) (store : Store τ)
    (server : Option (EdgeServer ρ)) (t : Nat) (r : EvalResult τ ρ) : Prop where
  history : r.store.conn.view.eventHistory =
    store.conn.view.eventHistory ++ (edges.take (t + 1)).flatten.map (edgeRow model)
  emitted : (emittedBy r.server).map UaEvent.body = (emittedBy server).map UaEvent.body ++
    if server.isSome then (edges.take (t + 1)).flatten.map (edgeNotification model) else []
  checked : r.stats.checkedCount = model.events.length
  fired : r.stats.firedCount = (edges.getD t []).length
  emittedCount : r.stats.emittedCount = if server.isSome then (edges.getD t []).length else 0
  latched : r.model.events = model.events.map fun e => e.setActive (eventConditionMet r.model e)

/-- After a pass the latch of each event says whether its condition holds. -/
theorem LatchedAs.conditions {model current : EdgeModel} {pass : Pass}
    (h : LatchedAs model (conditionAt model pass) current)
    (hnodes : current.nodes = (setValues pass.values model).nodes) :
    current.events = model.events.map fun e => e.setActive (eventConditionMet current e) := by
  rw [h.events]
  refine List.map_congr_left fun e _ => congrArg (EdgeEvent.setActive e) ?_
  exact (eventConditionMet_congr hnodes e e.active).symm

/-- After each pass of a run the history and the notifications are those of all edges so far. -/
theorem runPasses_afterPass {env : EventEnv τ ρ} {model : EdgeModel} :
    ∀ (passes : List Pass) (before : EdgeEvent → Bool) (current : EdgeModel) (store : Store τ)
      (server : Option (EdgeServer ρ)), LatchedAs model before current →
      (∀ r ∈ runPasses env passes current store server, ∀ a ∈ r.attempts, a.status = .ok) →
      ∀ t r, (runPasses env passes current store server)[t]? = some r →
        AfterPass model (risingEdges model before passes) store server t r := by
  intro passes
  induction passes with
  | nil => intro before current store server _ _ t r hr; simp [runPasses] at hr
  | cons pass rest ih =>
    -- the passes are handled one by one, each from the model and the store that the one before
    -- left
    intro before current store server hlatched hok t r hr
    rw [runPasses] at hok hr
    obtain ⟨hfirst, hrest⟩ := List.forall_mem_cons.mp hok
    obtain ⟨heffect, hlatched'⟩ := edgeEventsEvaluate_effect hlatched hfirst
    cases t with
    | zero =>
      cases hr
      exact {
        history := by rw [heffect.history]; simp [risingEdges]
        emitted := by rw [heffect.emitted]; simp [risingEdges]
        checked := heffect.checked
        fired := heffect.fired
        emittedCount := heffect.emittedCount
        latched := hlatched'.conditions (hlatched.nodes pass.values) }
    | succ t =>
      -- the later passes start where the first one ended
      have hlater := ih _ _ _ _ hlatched' hrest t r hr
      exact {
        history := by
          rw [hlater.history, heffect.history]
          simp [risingEdges, List.append_assoc]
        emitted := by
          rw [hlater.emitted, heffect.emitted, heffect.served]
          split_ifs <;> simp [risingEdges, List.append_assoc]
        checked := hlater.checked
        fired := hlater.fired
        emittedCount := by rw [hlater.emittedCount, heffect.served]; rfl
        latched := hlater.latched }

theorem length_runPasses (env : EventEnv τ ρ) :
    ∀ (passes : List Pass) (model : EdgeModel) (store : Store τ) (server : Option (EdgeServer ρ)),
      (runPasses env passes model store server).length = passes.length := by
  intro passes
  induction passes with
  | nil => intro model store server; rfl
  | cons pass rest ih => intro model store server; simp [runPasses, ih]

theorem LoadedAndWired.latchedAs {file : Option Bytes} {model : EdgeModel}
    (h : LoadedAndWired file model) : LatchedAs model (fun _ => false) model where
  nodes _ := rfl
  events := by
    have hmap : model.events.map (fun e => e.setActive false) = model.events.map id := by
      refine List.map_congr_left fun e hmem => ?_
      have hactive := (h.wired.events e hmem).active
      rw [EdgeEvent.setActive, ← hactive]
      rfl
    rw [hmap, List.map_id]

/-- **The event history is exactly the sequence of rising edges.** In every run of passes on a
loaded and wired model in which all inserts and emissions succeed, after each pass `t`: the rows
appended to the history, and the notifications handed to the server if there is one, are those of
the edges of the passes up to `t`, in order; the counters of the pass match; and every latch
equals its condition. -/
theorem history_is_rising_edges (env : EventEnv τ ρ) (file : Option Bytes) (model : EdgeModel)
    (hmodel : LoadedAndWired file model) (store : Store τ) (server : Option (EdgeServer ρ))
    (passes : List Pass)
    (hok : ∀ r ∈ runPasses env passes model store server, ∀ a ∈ r.attempts, a.status = .ok) :
    (runPasses env passes model store server).length = passes.length ∧
      ∀ t r, (runPasses env passes model store server)[t]? = some r →
        AfterPass model (risingEdges model (fun _ => false) passes) store server t r :=
  ⟨length_runPasses env passes model store server,
    runPasses_afterPass passes _ model store server hmodel.latchedAs hok⟩

/-! The pump vibrates; SQLite records the alarm or fails every statement. -/

/-- An environment for examples: open62541 takes everything, SQLite takes no history row if
`records` is false. -/
def alarmEnv (records : Bool) : EventEnv Unit Unit where
  engine := { answer := fun op s => (if op = .step ∧ records = false then .fail false else .ok, s) }
  lib :=
    { getNamespaceByName := fun s => (some 1, s)
      setScalar := fun s => (true, s)
      createEvent := fun _ s => (true, s) }

/-- A pass in which every value is nine. -/
def vibrating : Pass where
  values := fun _ => { d := .fin 9 }
  nowMs := 1

/-- A store on a new file. -/
def emptyStore : Store Unit := { conn := { committed := {} }, env := () }

theorem pump_history_is_rising_edges :
    (risingEdges pumpModel (fun _ => false) [vibrating, vibrating]).map List.length = [1, 0] ∧
      ∀ t r, (runPasses (alarmEnv true) [vibrating, vibrating] pumpModel emptyStore
          (some { ua := some () }))[t]? = some r →
        AfterPass pumpModel (risingEdges pumpModel (fun _ => false) [vibrating, vibrating])
          emptyStore (some { ua := some () }) t r := by
  refine ⟨by decide +kernel, ?_⟩
  exact (history_is_rising_edges (alarmEnv true) (some pumpTemplate) pumpModel
    pumpModel_loadedAndWired emptyStore (some { ua := some () }) [vibrating, vibrating]
    (by decide +kernel)).2

end OpcuaEdge
