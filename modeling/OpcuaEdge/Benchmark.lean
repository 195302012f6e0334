import OpcuaEdge.AlarmText
import OpcuaEdge.Lib.CWhile
import OpcuaEdge.Lib.Scatter
import OpcuaEdge.SyntheticPlant

/-!
# OpcuaEdge — the benchmark's scenarios (`benchmark_scenarios.c`)

A scenario makes passes over the plant until the clock has reached a deadline. The events scenario
swings the source of every event to one side of its threshold and, in the next pass, to the other;
the writes scenario writes every writable node once in a pass. The clocks are a parameter
(`BenchClock`). What is measured of the process (latencies, memory, processor time) is left out: no
scenario depends on it. The pointers that a scenario is called with are never null here, and the
events scenario is given the memory it asks for: with either of them missing it returns before it
has made a pass.

The order of the module:

* **`TimedRun.keeps`** — the rule for a scenario: an invariant of its world that every pass keeps
  holds when it ends, and the passes have been counted;
* **`eventConditionMet_driven`** — after the assignments of a pass every event has the value meant
  for it, as no two events have one source (`Swings`);
* **`events_scenario_fires`** — so every second pass fires all the events, for a synthetic plant of
  any size.
-/

namespace OpcuaEdge

open CStr CLoop Txn Scatter

variable {κ α τ ρ : Type}

/-! ## Passes until a deadline

Both scenarios that loop do so until a clock has passed a deadline. They differ in what a pass
does, which is a parameter here. -/

/-- The two clocks of a scenario: microseconds for the deadline, milliseconds for the passes. -/
structure BenchClock (κ : Type) where
  nowUs : κ → UInt64 × κ
  nowMs : κ → Nat × κ

/-- The variables of a scenario's loop; `world` is what its passes work on. -/
structure BenchLoop (κ α : Type) where
  clock : κ
  world : α
  passCount : UInt64 := 0

/-- One turn of the loop. `more` is its condition, and a pass that fails leaves the scenario. -/
def benchTurn (clk : BenchClock κ) (deadlineUs : UInt64) (more : α → Bool)
    (pass : UInt64 → κ → α → EdgeStatus × κ × α) (s : BenchLoop κ α) :
    (EdgeStatus × BenchLoop κ α) ⊕ BenchLoop κ α :=
  if more s.world = false then .inl (.ok, s)
  else
    let now := clk.nowUs s.clock
    if deadlineUs ≤ now.1 then .inl (.ok, { s with clock := now.2 })
    else
      let r := pass s.passCount now.2 s.world
      if r.1 ≠ .ok then .inl (r.1, { s with clock := r.2.1, world := r.2.2 })
      else
        let passEnd := clk.nowUs r.2.1
        .inr { clock := passEnd.2, world := r.2.2, passCount := s.passCount + 1 }

/-- A run of `seconds` seconds: the states its passes started in, and how it ended. -/
def TimedRun (clk : BenchClock κ) (seconds : UInt32) (more : α → Bool)
    (pass : UInt64 → κ → α → EdgeStatus × κ × α) (clock : κ) (world : α)
    (visited : List (BenchLoop κ α)) (status : EdgeStatus) (last : BenchLoop κ α) : Prop :=
  While (benchTurn clk ((clk.nowUs clock).1 + seconds.toUInt64 * 1000000) more pass)
    { clock := (clk.nowUs clock).2, world } visited (status, last)

/-- Every reading below the deadline brings it nearer, and no reading takes the clock back. -/
def BenchClock.Reaches (clk : BenchClock κ) (deadlineUs : UInt64) : Prop :=
  ∃ left : κ → Nat,
    (∀ c, (clk.nowUs c).1 < deadlineUs → left (clk.nowUs c).2 < left c) ∧
      (∀ c, left (clk.nowUs c).2 ≤ left c) ∧ ∀ c, left (clk.nowMs c).2 ≤ left c

section Timed

variable {clk : BenchClock κ} {deadlineUs : UInt64} {more : α → Bool}
  {pass : UInt64 → κ → α → EdgeStatus × κ × α}

/-- A turn that goes on: the clock was before the deadline, and a pass was made. -/
theorem benchTurn_next {s s' : BenchLoop κ α} (h : benchTurn clk deadlineUs more pass s = .inr s') :
    (clk.nowUs s.clock).1 < deadlineUs ∧
      s' =
        { clock := (clk.nowUs (pass s.passCount (clk.nowUs s.clock).2 s.world).2.1).2
          world := (pass s.passCount (clk.nowUs s.clock).2 s.world).2.2
          passCount := s.passCount + 1 } := by
  unfold benchTurn at h
  dsimp only at h
  split_ifs at h with hmore hnow hfailed
  exact ⟨UInt64.not_le.mp hnow, (Sum.inr.inj h).symm⟩

/-- Where the pass that would come next succeeds, the loop is left well. -/
theorem benchTurn_leave {s last : BenchLoop κ α} {status : EdgeStatus}
    (hok : (pass s.passCount (clk.nowUs s.clock).2 s.world).1 = .ok)
    (h : benchTurn clk deadlineUs more pass s = .inl (status, last)) :
    status = .ok ∧ last.world = s.world ∧ last.passCount = s.passCount := by
  unfold benchTurn at h
  dsimp only at h
  split_ifs at h with hmore hnow
  · cases h
    exact ⟨rfl, rfl, rfl⟩
  · cases h
    exact ⟨rfl, rfl, rfl⟩
  · exact absurd hok ‹_›

/-- **The rule for scenarios**: passes that succeed and keep an invariant of their world, which may
mention the passes made so far, make a run that ends well with the invariant kept. -/
theorem TimedRun.keeps {seconds : UInt32} {clock : κ} {world : α} {visited : List (BenchLoop κ α)}
    {status : EdgeStatus} {last : BenchLoop κ α}
    (h : TimedRun clk seconds more pass clock world visited status last)
    (Inv : List (BenchLoop κ α) → α → Prop) (hstart : Inv [] world)
    (hpass : ∀ before (s : BenchLoop κ α), Inv before s.world → s.passCount = .ofNat before.length →
      (pass s.passCount (clk.nowUs s.clock).2 s.world).1 = .ok ∧
        Inv (before ++ [s]) (pass s.passCount (clk.nowUs s.clock).2 s.world).2.2) :
    status = .ok ∧ Inv visited last.world ∧ last.passCount = .ofNat visited.length := by
  obtain ⟨s, ⟨hinv, hcount⟩, hleave⟩ := While.traced h
    (fun before s => Inv before s.world ∧ s.passCount = .ofNat before.length)
    (fun before s s' hs hturn => by
      obtain ⟨-, rfl⟩ := benchTurn_next hturn
      refine ⟨(hpass before s hs.1 hs.2).2, ?_⟩
      show s.passCount + 1 = _
      rw [hs.2, List.length_append, List.length_singleton, UInt64.ofNat_add]
      rfl)
    -- the count of passes is part of the invariant, as a pass depends on it
    [] ⟨hstart, rfl⟩
  rw [List.nil_append] at hinv hcount
  obtain ⟨hstatus, hworld, hpasses⟩ := benchTurn_leave (hpass visited s hinv hcount).1 hleave
  refine ⟨hstatus, ?_, hpasses.trans hcount⟩
  rw [hworld]
  exact hinv

/-- A scenario ends if the clock reaches its deadline and no pass takes the clock back. -/
theorem exists_timedRun {seconds : UInt32} {clock : κ}
    (hclock : clk.Reaches ((clk.nowUs clock).1 + seconds.toUInt64 * 1000000))
    (hpass : ∀ left : κ → Nat, (∀ c, left (clk.nowUs c).2 ≤ left c) →
      (∀ c, left (clk.nowMs c).2 ≤ left c) → ∀ k c w, left (pass k c w).2.1 ≤ left c)
    (world : α) :
    ∃ visited status last, TimedRun clk seconds more pass clock world visited status last := by
  obtain ⟨left, hnearer, hus, hms⟩ := hclock
  -- the measure is the time left: a pass never adds to it, the reading at the head takes some
  obtain ⟨visited, ⟨status, last⟩, hrun, -⟩ := exists_while (fun _ => True)
    (fun s : BenchLoop κ α => left s.clock)
    (fun s s' _ hturn => by
      obtain ⟨hnow, rfl⟩ := benchTurn_next hturn
      refine ⟨trivial, ?_⟩
      calc left (clk.nowUs (pass s.passCount (clk.nowUs s.clock).2 s.world).2.1).2
          ≤ left (pass s.passCount (clk.nowUs s.clock).2 s.world).2.1 := hus _
        _ ≤ left (clk.nowUs s.clock).2 := hpass left hus hms _ _ _
        _ < left s.clock := hnearer _ hnow)
    { clock := (clk.nowUs clock).2, world } trivial
  exact ⟨visited, status, last, hrun⟩

end Timed

/-! ## The events scenario

Every pass drives the sources of all events above or below their thresholds, in turn, and evaluates
the events. Their alarms go to the store and to the server. -/

/-- The value given to the source of an event: ten beyond its threshold, on the side where it
fires or on the other. -/
def swing (fire : Bool) (event : EdgeEvent) : Double :=
  if fire then
    if event.condition = .greaterThan then event.threshold.add (.fin 10)
    else event.threshold.add (.fin (-10))
  else
    if event.condition = .greaterThan then event.threshold.add (.fin (-10))
    else event.threshold.add (.fin 10)

/-- One pass's assignments to the source nodes. -/
def driveSources (fire : Bool) (model : EdgeModel) : EdgeModel :=
  { model with
    nodes := scatter (·.sourceNode)
      (fun event node => edgeNodeSetFromDouble node (swing fire event)) model.events model.nodes }

/-- What the passes of the scenario carry along. -/
structure EventsWorld (τ ρ : Type) where
  model : EdgeModel
  store : Store τ
  server : Option (EdgeServer ρ)
  firedCount : UInt64 := 0

/-- `fire_phase`, the low bit of the count: even passes clear the events, odd ones fire them. -/
def firePhase (passCount : UInt64) : Bool := passCount &&& 1 ≠ 0

/-- The phase of a pass, told from the number of passes before it: a count that wraps keeps its low
bit. -/
theorem firePhase_ofNat (n : Nat) : firePhase (.ofNat n) = decide (n % 2 = 1) := by
  unfold firePhase
  refine decide_eq_decide.mpr ?_
  have hbit : (UInt64.ofNat n &&& 1).toNat = n % 2 := by
    rw [UInt64.toNat_and, UInt64.toNat_ofNat']
    show n % 2 ^ 64 &&& 1 = n % 2
    rw [Nat.and_one_is_mod]
    omega
  rw [ne_eq, ← UInt64.toNat_inj, hbit]
  show ¬ n % 2 = 0 ↔ n % 2 = 1
  omega

/-- One pass. Whatever `edge_events_evaluate` fails with, the scenario returns an error. -/
def eventsPass (env : EventEnv τ ρ) (clk : BenchClock κ) (passCount : UInt64) (clock : κ)
    (w : EventsWorld τ ρ) : EdgeStatus × κ × EventsWorld τ ρ :=
  let driven := driveSources (firePhase passCount) w.model
  let passStart := clk.nowUs clock
  let nowMs := clk.nowMs passStart.2
  let r := edgeEventsEvaluate env nowMs.1 driven w.store w.server
  (if r.status ≠ .ok then .error else .ok, nowMs.2,
    { model := r.model, store := r.store, server := r.server
      firedCount := w.firedCount + .ofNat r.stats.firedCount })

/-- `model->event_count > 0u`. -/
def hasEvents (w : EventsWorld τ ρ) : Bool := !w.model.events.isEmpty

/-- A row of results, as the reports print it. -/
structure EdgeBenchmarkResult where
  name : Bytes := []
  tagCount : Nat := 0
  assetCount : Nat := 0
  eventCount : Nat := 0
  durationUs : UInt64 := 0
  readsPerSecond : UInt64 := 0
  writesPerSecond : UInt64 := 0
  eventsPerSecond : UInt64 := 0
  errorCount : UInt64 := 0

/-- The size of a scenario's name. -/
def edgeBenchmarkNameLen : Nat := 64

/-- A rate. A run that took no time has none. -/
def perSecond (count : UInt64) (durationUs : UInt64) : UInt64 :=
  if durationUs ≠ 0 then count * 1000000 / durationUs else 0

/-- What `edge_benchmark_run_events` fills in after a loop that ended well. -/
def eventsResult (clk : BenchClock κ) (clock : κ) (model : EdgeModel)
    (last : BenchLoop κ (EventsWorld τ ρ)) : EdgeBenchmarkResult :=
  let duration := (clk.nowUs last.clock).1 - (clk.nowUs clock).1
  { name := (formatInto edgeBenchmarkNameLen (lit "events_" ++ decimal model.events.length)).2
    tagCount := model.nodes.length
    assetCount := model.assets.length
    eventCount := model.events.length
    durationUs := duration
    eventsPerSecond := perSecond last.world.firedCount duration }

/-- `edge_benchmark_run_events`, as the runs it can make. -/
def EdgeBenchmarkRunEvents (env : EventEnv τ ρ) (clk : BenchClock κ) (seconds : UInt32) (clock : κ)
    (model : EdgeModel) (store : Store τ) (server : EdgeServer ρ)
    (visited : List (BenchLoop κ (EventsWorld τ ρ))) (status : EdgeStatus)
    (last : BenchLoop κ (EventsWorld τ ρ)) (result : EdgeBenchmarkResult) : Prop :=
  TimedRun clk seconds hasEvents (eventsPass env clk) clock
      { model, store, server := some server } visited status last ∧
    (status = .ok → result = eventsResult clk clock model last)

/-! ### Swinging the sources

The scenario assigns node by node, so it drives every event only if no two events share a source
and each source can hold its values. -/

/-- Every event has a double of its own as its source, and a text of its alarm that fits. -/
structure Swings (model : EdgeModel) : Prop where
  source : ∀ event ∈ model.events, ∃ i node, event.sourceNode = some i ∧
    model.nodes[i]? = some node ∧ node.dataType = .double
  apart : (model.events.filterMap (·.sourceNode)).Nodup
  threshold : ∀ event ∈ model.events, ∃ q, event.threshold = .fin q ∧ event.condition ≠ .unset
  assetId : ∀ event ∈ model.events, event.assetId.length < edgeMaxIdLen
  short : ∀ event ∈ model.events,
    event.id.length + fixed3Width (swing true event) + fixed3Width event.threshold ≤ 173

variable {model : EdgeModel}

/-- An assignment keeps the node's type. -/
theorem edgeNodeSetFromDouble_dataType (node : EdgeNode) (d : Double) :
    (edgeNodeSetFromDouble node d).dataType = node.dataType := by
  unfold edgeNodeSetFromDouble
  split
  · split <;> rfl
  · split_ifs <;> rfl

theorem driveSources_types (fire : Bool) (model : EdgeModel) :
    (driveSources fire model).nodes.map (·.dataType) = model.nodes.map (·.dataType) :=
  map_scatter _ (fun _ node => edgeNodeSetFromDouble_dataType node _) _ _

/-- Drive a double, and it shows what it was given. -/
theorem edgeNodeAsDouble_driven {node : EdgeNode} (h : node.dataType = .double) (d : Double) :
    edgeNodeAsDouble (edgeNodeSetFromDouble node d) = d := by
  unfold edgeNodeAsDouble
  rw [edgeNodeSetFromDouble_dataType, h]
  unfold edgeNodeSetFromDouble
  rw [h]
  cases d <;> rfl

/-- After the assignments the source of each event has the event's own value. -/
theorem sourceOf_driven (h : Swings model) (fire : Bool) {event : EdgeEvent}
    (hmem : event ∈ model.events) :
    ∃ node, (driveSources fire model).sourceOf event = some node ∧
      edgeNodeAsDouble node = swing fire event := by
  obtain ⟨i, node, hsource, hnode, htype⟩ := h.source event hmem
  refine ⟨edgeNodeSetFromDouble node (swing fire event), ?_, edgeNodeAsDouble_driven htype _⟩
  unfold EdgeModel.sourceOf driveSources
  rw [hsource, Option.bind_some, scatter_target hsource _ _ h.apart hmem, hnode]
  rfl

theorem eventValue_driven (h : Swings model) (fire : Bool) {event : EdgeEvent}
    (hmem : event ∈ model.events) :
    eventValue (driveSources fire model) event = swing fire event := by
  obtain ⟨node, hsource, hvalue⟩ := sourceOf_driven h fire hmem
  unfold eventValue
  rw [hsource, Option.map_some, Option.getD_some, hvalue]

/-- **The phase decides every condition.** -/
theorem eventConditionMet_driven (h : Swings model) (fire : Bool) {event : EdgeEvent}
    (hmem : event ∈ model.events) :
    eventConditionMet (driveSources fire model) event = fire := by
  obtain ⟨node, hsource, hvalue⟩ := sourceOf_driven h fire hmem
  obtain ⟨q, hq, hcondition⟩ := h.threshold event hmem
  unfold eventConditionMet
  rw [hsource]
  dsimp only
  rw [hvalue]
  unfold swing
  rw [hq]
  cases hcase : event.condition with
  | unset => exact absurd hcase hcondition
  | greaterThan => cases fire <;> simp [Double.add, Double.lt]
  | lessThan => cases fire <;> simp [Double.add, Double.lt]

/-- Above the thresholds every event that is not latched rises, below them none does. -/
theorem filter_rises_driven (h : Swings model) {fire : Bool}
    (hlatch : fire = true → ∀ event ∈ model.events, event.active = false) :
    model.events.filter (rises (driveSources fire model)) = if fire then model.events else [] := by
  cases fire with
  | false =>
    refine List.filter_eq_nil_iff.mpr fun event hmem hrises => ?_
    have hmet := (conditionMet_of_rises hrises).1
    rw [eventConditionMet_driven h false hmem] at hmet
    cases hmet
  | true =>
    refine List.filter_eq_self.mpr fun event hmem => ?_
    rw [rises, eventConditionMet_driven h true hmem, hlatch rfl event hmem]
    rfl

/-! ### One pass

A pass above the thresholds fires all events and a pass below releases their latches. -/

/-- A pass that ran to its end had no attempt fail. -/
theorem attempts_ok_of_exit {env : EventEnv τ ρ} {model : EdgeModel} {nowMs : Nat}
    {events : List EdgeEvent} {s : EvalState τ ρ}
    (hs : ∀ a ∈ s.attempts, a.status = .ok)
    (hexit : (sweep (evaluateEvent env model nowMs) 0 events s).exit = none) :
    ∀ a ∈ (sweep (evaluateEvent env model nowMs) 0 events s).state.attempts, a.status = .ok := by
  refine sweep_state_complete (fun s : EvalState τ ρ => ∀ a ∈ s.attempts, a.status = .ok)
    (fun i event s hs hnext => ?_) events 0 s hs hexit
  obtain ⟨-, hturn⟩ | ⟨-, -, hturn⟩ | ⟨-, -, -, hturn⟩ | ⟨-, hok, hok', s', hs', hturn⟩ :=
    evaluateEvent_cases env model nowMs i event s
  · rw [hturn]
    exact hs
  · rw [hturn] at hnext
    cases hnext
  · rw [hturn] at hnext
    cases hnext
  · rw [hturn, hs']
    -- both attempts of the turn succeeded
    show ∀ a ∈ s.attempts ++ [.insert i (s.recorded env model nowMs i event).1] ++
      [.emit i ((s.recorded env model nowMs i event).2.emitted env model i event).1], a.status = .ok
    rw [hok, hok']
    simp only [List.mem_append, List.mem_singleton]
    rintro a ((ha | rfl) | rfl)
    · exact hs a ha
    · rfl
    · rfl

/-- The row of an event that fires in a pass. -/
def swungRow (nowMs : Nat) (event : EdgeEvent) : HistoryRow where
  eventId := event.id
  value := swing true event
  threshold := event.threshold
  severity := event.severity
  createdMs := nowMs

/-- What a pass over swung sources leaves. -/
structure Swung (fire : Bool) (model : EdgeModel) (nowMs : Nat) (store : Store τ)
    (emitted : List UaEvent) (r : EvalResult τ ρ) : Prop where
  status : r.status = .ok
  events : r.model.events = model.events.map fun event => event.setActive fire
  fired : r.stats.firedCount = if fire then model.events.length else 0
  history : r.store.conn.view.eventHistory = store.conn.view.eventHistory ++
    if fire then model.events.map (swungRow nowMs) else []
  server : ∃ ua emitted', r.server = some { ua := some ua, emitted := emitted' } ∧
    emitted'.length = emitted.length + if fire then model.events.length else 0

/-- A pass that succeeded was not left early. -/
theorem sweep_exit_of_ok {env : EventEnv τ ρ} {model : EdgeModel} {nowMs : Nat} {store : Store τ}
    {server : Option (EdgeServer ρ)}
    (h : (edgeEventsEvaluate env nowMs model store server).status = .ok) :
    (sweep (evaluateEvent env model nowMs) 0 model.events { store, server }).exit = none := by
  rcases Option.eq_none_or_eq_some (sweep (evaluateEvent env model nowMs) 0 model.events
    { store, server }).exit with hnone | ⟨r, hr⟩
  · exact hnone
  · have herror := sweep_exit (· = EdgeStatus.error)
      (fun i event s r => evaluateEvent_exit_error) model.events 0 _ r hr
    have hok : (some r).getD EdgeStatus.ok = .ok := by rw [← hr]; exact h
    rw [herror] at hok
    cases hok

theorem exists_sourceOf_driven (h : Swings model) (fire : Bool) :
    ∀ event ∈ (driveSources fire model).events,
      ∃ node, (driveSources fire model).sourceOf event = some node := by
  intro event hmem
  obtain ⟨node, hsource, -⟩ := sourceOf_driven h fire hmem
  exact ⟨node, hsource⟩

/-- The texts of a plant that swings fit, so its passes succeed. -/
theorem edgeEventsEvaluate_driven_ok {env : EventEnv τ ρ} (hengine : env.engine.NeverRefuses)
    (hlib : env.lib.Answers) (h : Swings model) (fire : Bool) (nowMs : Nat) (store : Store τ)
    (ua : ρ) (emitted : List UaEvent) :
    (edgeEventsEvaluate env nowMs (driveSources fire model) store
      (some { ua := some ua, emitted })).status = .ok := by
  have hids : ∀ event ∈ (driveSources fire model).events,
      event.assetId.length < edgeMaxIdLen := h.assetId
  refine (edgeEventsEvaluate_ok_iff hengine hlib hids (exists_sourceOf_driven h fire) nowMs store
    ua emitted).mpr fun event hmem hrises => ?_
  have hfire : true = fire := by
    rw [← eventConditionMet_driven h fire hmem]
    exact (conditionMet_of_rises hrises).1.symm
  subst hfire
  unfold MessageShort
  rw [eventValue_driven h true hmem]
  exact h.short event hmem

/-- The server is there after the pass as well. -/
theorem sweep_driven_serverUp {env : EventEnv τ ρ} (hengine : env.engine.NeverRefuses)
    (hlib : env.lib.Answers) (h : Swings model) (fire : Bool) (nowMs : Nat) {s : EvalState τ ρ}
    (hs : ServerUp s) :
    ServerUp
      (sweep (evaluateEvent env (driveSources fire model) nowMs) 0 model.events s).state := by
  apply sweep_state_mem ServerUp model.events
  · intro i event hmem s hs
    obtain ⟨node, hsource⟩ := exists_sourceOf_driven h fire event hmem
    exact (evaluateEvent_exit_iff hengine hlib (h.assetId event hmem) hsource nowMs i hs).2
  · exact hs

/-- The evaluation of one pass. Above the thresholds each event gets its row and its notification,
below them there is nothing to add. -/
theorem edgeEventsEvaluate_driven {env : EventEnv τ ρ} (hengine : env.engine.NeverRefuses)
    (hlib : env.lib.Answers) (h : Swings model) {fire : Bool}
    (hlatch : fire = true → ∀ event ∈ model.events, event.active = false) (nowMs : Nat)
    (store : Store τ) (ua : ρ) (emitted : List UaEvent) :
    Swung fire model nowMs store emitted
      (edgeEventsEvaluate env nowMs (driveSources fire model) store
        (some { ua := some ua, emitted })) := by
  have hstatus := edgeEventsEvaluate_driven_ok hengine hlib h fire nowMs store ua emitted
  have hresult := sweep_passResult env (driveSources fire model) nowMs model.events 0
    { store, server := some { ua := some ua, emitted } }
    (attempts_ok_of_exit (fun _ ha => absurd ha List.not_mem_nil) (sweep_exit_of_ok hstatus))
  have hfilter := filter_rises_driven h hlatch
  -- latches, count, history and notifications, each for the events that rise
  refine ⟨hstatus, ?_, ?_, ?_, ?_⟩
  · refine hresult.latched.trans (List.map_congr_left fun event hmem => ?_)
    rw [eventConditionMet_driven h fire hmem]
  · refine hresult.fired.trans ?_
    rw [hfilter, Nat.zero_add]
    split_ifs <;> rfl
  · refine hresult.history.trans (congrArg _ ?_)
    rw [hfilter]
    cases fire with
    | false => rfl
    | true =>
      refine List.map_congr_left fun event hmem => ?_
      rw [historyRow, eventValue_driven h true hmem]
      rfl
  · obtain ⟨ua', emitted', hserver⟩ := sweep_driven_serverUp hengine hlib h fire nowMs
      (s := { store, server := some { ua := some ua, emitted } }) ⟨ua, emitted, rfl⟩
    refine ⟨ua', emitted', hserver, ?_⟩
    have hbodies := congrArg List.length hresult.emitted
    rw [hserver, hfilter] at hbodies
    simp only [emittedBy, Option.isSome_some, if_true, List.length_append, List.length_map]
      at hbodies
    refine hbodies.trans ?_
    split_ifs <;> rfl

/-! ### All passes

So the passes alternate, and after any number of them the count is what the odd ones fired. -/

/-- The time of the pass that starts in `s`. -/
def passTime (clk : BenchClock κ) (s : BenchLoop κ α) : Nat :=
  (clk.nowMs (clk.nowUs (clk.nowUs s.clock).2).2).1

/-- The rows of the passes made: every event, in every second pass. -/
def firings (clk : BenchClock κ) (plant : EdgeModel) (passes : List (BenchLoop κ α)) :
    List HistoryRow :=
  passes.flatMap fun s =>
    if firePhase s.passCount then plant.events.map (swungRow (passTime clk s)) else []

/-- The plant with other values and latches swings as well. -/
theorem Swings.latched {plant current : EdgeModel} (h : Swings plant)
    (htypes : current.nodes.map (·.dataType) = plant.nodes.map (·.dataType)) {latch : Bool}
    (hevents : current.events = plant.events.map fun event => event.setActive latch) :
    Swings current := by
  have hmem : ∀ event ∈ current.events, ∃ e ∈ plant.events, e.setActive latch = event := by
    intro event hmem
    rw [hevents] at hmem
    exact List.mem_map.mp hmem
  -- what the scenario needs of an event does not depend on its latch
  constructor
  · intro event hevent
    obtain ⟨e, he, rfl⟩ := hmem event hevent
    obtain ⟨i, node, hsource, hnode, htype⟩ := h.source e he
    have hsame := congrArg (·[i]?) htypes
    simp only [List.getElem?_map, hnode, Option.map_some, htype] at hsame
    obtain ⟨node', hnode', htype'⟩ := Option.map_eq_some_iff.mp hsame
    exact ⟨i, node', hsource, hnode', htype'⟩
  · rw [hevents, List.filterMap_map]
    exact h.apart
  · intro event hevent
    obtain ⟨e, he, rfl⟩ := hmem event hevent
    exact h.threshold e he
  · intro event hevent
    obtain ⟨e, he, rfl⟩ := hmem event hevent
    exact h.assetId e he
  · intro event hevent
    obtain ⟨e, he, rfl⟩ := hmem event hevent
    exact h.short e he

/-- After the passes `before`: half of them fired every event. The latches are open before each
pass that fires. -/
structure Alternating (clk : BenchClock κ) (plant : EdgeModel) (store : Store τ)
    (emitted : List UaEvent) (before : List (BenchLoop κ (EventsWorld τ ρ)))
    (w : EventsWorld τ ρ) : Prop where
  types : w.model.nodes.map (·.dataType) = plant.nodes.map (·.dataType)
  latched : ∃ latch, (w.model.events = plant.events.map fun event => event.setActive latch) ∧
    (before.length % 2 = 1 → latch = false)
  fired : w.firedCount = .ofNat (plant.events.length * (before.length / 2))
  history : w.store.conn.view.eventHistory =
    store.conn.view.eventHistory ++ firings clk plant before
  server : ∃ ua emitted', w.server = some { ua := some ua, emitted := emitted' } ∧
    emitted'.length = emitted.length + plant.events.length * (before.length / 2)

/-- **One pass** keeps the alternation. -/
theorem Alternating.pass {env : EventEnv τ ρ} (hengine : env.engine.NeverRefuses)
    (hlib : env.lib.Answers) {clk : BenchClock κ} {plant : EdgeModel} (hplant : Swings plant)
    {store : Store τ} {emitted : List UaEvent} {before : List (BenchLoop κ (EventsWorld τ ρ))}
    {s : BenchLoop κ (EventsWorld τ ρ)} (h : Alternating clk plant store emitted before s.world)
    (hcount : s.passCount = .ofNat before.length) :
    (eventsPass env clk s.passCount (clk.nowUs s.clock).2 s.world).1 = .ok ∧
      Alternating clk plant store emitted (before ++ [s])
        (eventsPass env clk s.passCount (clk.nowUs s.clock).2 s.world).2.2 := by
  obtain ⟨latch, hevents, hopen⟩ := h.latched
  obtain ⟨ua, emitted', hserver, hemitted⟩ := h.server
  have hlength : s.world.model.events.length = plant.events.length := by
    rw [hevents, List.length_map]
  -- the pass before an odd one cleared the sources, so no event is latched
  have hphase : firePhase s.passCount = decide (before.length % 2 = 1) := by
    rw [hcount, firePhase_ofNat]
  have hlatch : firePhase s.passCount = true →
      ∀ event ∈ s.world.model.events, event.active = false := by
    intro hfire event hmem
    rw [hevents] at hmem
    obtain ⟨e, -, rfl⟩ := List.mem_map.mp hmem
    exact hopen (of_decide_eq_true (hphase.symm.trans hfire))
  have hpass := edgeEventsEvaluate_driven hengine hlib (hplant.latched h.types hevents) hlatch
    (passTime clk s) s.world.store ua emitted'
  rw [← hserver] at hpass
  -- an odd pass completes a half
  have hhalf : (before ++ [s]).length / 2 =
      before.length / 2 + if firePhase s.passCount = true then 1 else 0 := by
    rw [List.length_append, List.length_singleton, hphase]
    split_ifs with hodd <;> rw [decide_eq_true_eq] at hodd <;> omega
  refine ⟨if_neg fun hnot => hnot hpass.status, (driveSources_types _ _).trans h.types, ?_, ?_, ?_,
    ?_⟩
  · refine ⟨firePhase s.passCount, hpass.events.trans ?_, fun hnext => ?_⟩
    · rw [hevents, List.map_map]
      rfl
    · rw [List.length_append, List.length_singleton] at hnext
      rw [hphase]
      exact decide_eq_false (by omega)
  · refine (congrArg (s.world.firedCount + .ofNat ·) hpass.fired).trans ?_
    rw [h.fired, hhalf, hlength, ← UInt64.ofNat_add, Nat.mul_add]
    split_ifs
    · rw [Nat.mul_one]
    · rw [Nat.mul_zero]
  · refine hpass.history.trans ?_
    rw [h.history, firings, firings, List.flatMap_append, List.flatMap_singleton, hevents,
      List.map_map, List.append_assoc]
    rfl
  · obtain ⟨ua', emitted'', hserver', hemitted'⟩ := hpass.server
    refine ⟨ua', emitted'', hserver', ?_⟩
    rw [hemitted', hemitted, hhalf, hlength, Nat.mul_add, Nat.add_assoc]
    split_ifs
    · rw [Nat.mul_one]
    · rw [Nat.mul_zero]

theorem alternating_start {plant : EdgeModel} (clk : BenchClock κ)
    (hfresh : ∀ event ∈ plant.events, event.active = false) (store : Store τ) (ua : ρ)
    (emitted : List UaEvent) :
    Alternating clk plant store emitted []
      { model := plant, store, server := some { ua := some ua, emitted } } where
  types := rfl
  latched := by
    refine ⟨false, ?_, fun _ => rfl⟩
    show plant.events = _
    refine ((List.map_congr_left fun event hmem => ?_).trans (List.map_id _)).symm
    rw [EdgeEvent.setActive, ← hfresh event hmem]
    rfl
  fired := by simp
  history := (List.append_nil _).symm
  server := ⟨ua, emitted, rfl, by simp⟩

/-! ### The synthetic plant swings

Each event of a synthetic pump watches a tag of its own, and all these tags are doubles. -/

/-- The alarms of a pump watch different doubles, and the texts they are swung to are short. -/
theorem kPumpEvents_swing : ∀ alarm ∈ kPumpEvents,
    alarm.condition ≠ .unset ∧
      kPumpTags[kPumpTags.findIdx fun tag => tag.id = alarm.sourceId]?.map (·.dataType) =
        some .double ∧
      alarm.suffix.length + 6 + fixed3Width (swing true (pumpEvent 0 alarm)) +
        fixed3Width (.fin alarm.threshold) ≤ 173 := by
  decide +kernel

/-- No two events of a pump have one source. -/
theorem kPumpEvents_apart :
    (kPumpEvents.map fun alarm => kPumpTags.findIdx fun tag => tag.id = alarm.sourceId).Nodup := by
  decide +kernel

/-- Nor do two events of different pumps. -/
theorem sources_apart (n : Nat) :
    ((syntheticPlant true n).events.filterMap (·.sourceNode)).Nodup := by
  have hsources : (syntheticPlant true n).events.filterMap (·.sourceNode) =
      (List.range n).flatMap fun k => kPumpEvents.map (sourceIndex k) := by
    show ((List.range n).flatMap fun k => kPumpEvents.map (sourcedEvent k)).filterMap _ = _
    rw [List.filterMap_flatMap]
    refine List.flatMap_congr fun k _ => ?_
    rw [List.filterMap_map]
    exact congrFun List.filterMap_eq_map' kPumpEvents
  rw [hsources, List.nodup_flatMap]
  constructor
  · intro k _
    refine List.pairwise_map.mpr ((List.pairwise_map.mp kPumpEvents_apart).imp fun hne heq => ?_)
    exact hne (Nat.add_left_cancel heq)
  · -- the sources of two pumps lie in different blocks of eleven
    refine List.nodup_range.imp fun {k j} hne => ?_
    rw [Function.onFun, List.disjoint_left]
    intro i hk hj
    obtain ⟨a, ha, rfl⟩ := List.mem_map.mp hk
    obtain ⟨b, hb, heq⟩ := List.mem_map.mp hj
    obtain ⟨hlt, -⟩ := sources_found a ha
    obtain ⟨hlt', -⟩ := sources_found b hb
    unfold sourceIndex at heq
    exact hne (by omega)

theorem swings_syntheticPlant {n : Nat} (hn : n ≤ 1024) : Swings (syntheticPlant true n) := by
  -- source, apart, threshold, assetId, short: each for one alarm of one pump
  constructor
  · intro event hmem
    obtain ⟨k, alarm, hk, halarm, rfl⟩ := mem_plantWith_events hmem
    obtain ⟨-, htype, -⟩ := kPumpEvents_swing alarm halarm
    obtain ⟨tag, htag, hdouble⟩ := Option.map_eq_some_iff.mp htype
    refine ⟨sourceIndex k alarm,
      pumpNode k (kPumpTags.findIdx fun tag => tag.id = alarm.sourceId) tag, rfl, ?_, hdouble⟩
    unfold syntheticPlant sourceIndex
    rw [plantWith_nodes _ _ hk (sources_found alarm halarm).1, htag]
    rfl
  · exact sources_apart n
  · intro event hmem
    obtain ⟨k, alarm, -, halarm, rfl⟩ := mem_plantWith_events hmem
    exact ⟨alarm.threshold, rfl, (kPumpEvents_swing alarm halarm).1⟩
  · intro event hmem
    obtain ⟨k, alarm, hk, -, rfl⟩ := mem_plantWith_events hmem
    exact length_pumpId (by omega)
  · intro event hmem
    obtain ⟨k, alarm, hk, halarm, rfl⟩ := mem_plantWith_events hmem
    obtain ⟨-, -, hshort⟩ := kPumpEvents_swing alarm halarm
    -- 1024 pumps have numbers of at most four digits
    have hdigits : (decimal k).length ≤ 4 := length_decimal_le (by omega)
    have hid : (sourcedEvent k alarm).id.length = alarm.suffix.length + 2 + (decimal k).length := by
      show (alarm.suffix ++ lit "_p" ++ decimal k).length = _
      rw [List.length_append, List.length_append]
      rfl
    have hswing : swing true (sourcedEvent k alarm) = swing true (pumpEvent 0 alarm) := rfl
    have hthreshold : (sourcedEvent k alarm).threshold = .fin alarm.threshold := rfl
    rw [hid, hswing, hthreshold]
    omega

/-- **What the events scenario measures.** On a synthetic plant of any size, with a clock that
reaches the deadline, and where SQLite and open62541 answer, the scenario ends. It ends well, and
half of its passes, rounded down, have fired every event, each with a row for the value ten beyond
its threshold and with a notification. What the 64 bits of `fired_count` show is that number modulo
`2 ^ 64`. -/
theorem events_scenario_fires (env : EventEnv τ ρ) (hengine : env.engine.NeverRefuses)
    (hlib : env.lib.Answers) (clk : BenchClock κ) (seconds : UInt32) (clock : κ)
    (hclock : clk.Reaches ((clk.nowUs clock).1 + seconds.toUInt64 * 1000000)) {n : Nat}
    (hn : n ≤ 1024) (store : Store τ) (ua : ρ) (emitted : List UaEvent) :
    (∃ visited status last result, EdgeBenchmarkRunEvents env clk seconds clock
        (syntheticPlant true n) store { ua := some ua, emitted } visited status last result) ∧
      ∀ visited status last result, EdgeBenchmarkRunEvents env clk seconds clock
          (syntheticPlant true n) store { ua := some ua, emitted } visited status last result →
        status = .ok ∧
          last.world.firedCount = .ofNat (4 * n * (visited.length / 2)) ∧
          last.world.store.conn.view.eventHistory = store.conn.view.eventHistory ++
            firings clk (syntheticPlant true n) visited ∧
          (emittedBy last.world.server).length =
            emitted.length + 4 * n * (visited.length / 2) ∧
          result.eventsPerSecond =
            perSecond (.ofNat (4 * n * (visited.length / 2))) result.durationUs := by
  have hcount : (syntheticPlant true n).events.length = 4 * n :=
    (length_plantWith sourcedEvent true n).2.2
  -- no event of the plant is latched before the first pass
  have hfresh : ∀ event ∈ (syntheticPlant true n).events, event.active = false := by
    intro event hmem
    obtain ⟨k, alarm, -, -, rfl⟩ := mem_plantWith_events hmem
    rfl
  constructor
  · have hpass : ∀ left : κ → Nat, (∀ c, left (clk.nowUs c).2 ≤ left c) →
        (∀ c, left (clk.nowMs c).2 ≤ left c) → ∀ k c (w : EventsWorld τ ρ),
        left (eventsPass env clk k c w).2.1 ≤ left c :=
      fun left hus hms k c w => (hms _).trans (hus c)
    -- a pass only lets time go by, so the clock reaches the deadline
    obtain ⟨visited, status, last, hrun⟩ := exists_timedRun hclock hpass
      { model := syntheticPlant true n, store, server := some { ua := some ua, emitted } }
    exact ⟨visited, status, last, _, hrun, fun _ => rfl⟩
  · rintro visited status last result ⟨hrun, hresult⟩
    obtain ⟨hstatus, hend, -⟩ := TimedRun.keeps hrun
      (Alternating clk (syntheticPlant true n) store emitted)
      (alternating_start clk hfresh store ua emitted)
      (fun before s hs hpasses => hs.pass hengine hlib (swings_syntheticPlant hn) hpasses)
    obtain ⟨ua', emitted', hserver, hemitted⟩ := hend.server
    have hfired := hend.fired
    rw [hcount] at hfired hemitted
    refine ⟨hstatus, hfired, hend.history, ?_, ?_⟩
    · rw [hserver]
      exact hemitted
    · rw [hresult hstatus, ← hfired]
      rfl

/-- A clock that is read every 400 ms, and stops after three seconds. -/
def benchClock : BenchClock Nat where
  nowUs c := (UInt64.ofNat (min c 3000000), c + 400000)
  nowMs c := (c / 1000, c)

theorem benchClock_reaches : benchClock.Reaches ((benchClock.nowUs 0).1 + 2 * 1000000) := by
  refine ⟨fun c => 3000000 - c, fun c hbefore => ?_, fun c => ?_, fun c => Nat.le_refl _⟩
  · have hlt := UInt64.lt_iff_toNat_lt.mp hbefore
    have hreading : (benchClock.nowUs c).1.toNat = min c 3000000 :=
      Nat.mod_eq_of_lt (by omega)
    have hdeadline : ((benchClock.nowUs 0).1 + 2 * 1000000).toNat = 2000000 := by decide
    rw [hreading, hdeadline] at hlt
    show 3000000 - (c + 400000) < 3000000 - c
    omega
  · show 3000000 - (c + 400000) ≤ 3000000 - c
    omega

theorem ten_pumps_fire :
    (∃ visited status last result, EdgeBenchmarkRunEvents (alarmEnv true) benchClock 2 0
        (syntheticPlant true 10) emptyStore { ua := some (), emitted := [] } visited status last
        result) ∧
      ∀ visited status last result, EdgeBenchmarkRunEvents (alarmEnv true) benchClock 2 0
          (syntheticPlant true 10) emptyStore { ua := some (), emitted := [] } visited status last
          result →
        status = .ok ∧
          last.world.firedCount = .ofNat (4 * 10 * (visited.length / 2)) ∧
          last.world.store.conn.view.eventHistory = emptyStore.conn.view.eventHistory ++
            firings benchClock (syntheticPlant true 10) visited ∧
          (emittedBy last.world.server).length = 0 + 4 * 10 * (visited.length / 2) ∧
          result.eventsPerSecond =
            perSecond (.ofNat (4 * 10 * (visited.length / 2))) result.durationUs :=
  events_scenario_fires (alarmEnv true) alarmEnv_neverRefuses alarmEnv_answers benchClock 2 0
    benchClock_reaches (by decide) emptyStore () []

end OpcuaEdge
