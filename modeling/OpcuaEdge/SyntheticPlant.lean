import OpcuaEdge.Identifiers
import OpcuaEdge.NodePartition
import Mathlib.Data.List.Find

/-!
# OpcuaEdge — the synthetic plant of the benchmark (`benchmark_pump.c`)

`edgeBenchmarkSyntheticPumps` builds a plant of equal pumps without a template. It resolves and
wires while it builds: a node knows its asset at once, and the source of an event is looked for
among the nodes of its asset only, as they are contiguous. The plant of `n` pumps has a closed form
(`syntheticPlant`), which the generator reaches up to its limit of 1024 pumps and never beyond
(`edgeBenchmarkSyntheticPumps_eq`). The wiring of the loader finds nothing to change in it
(`synthetic_plant_wired`).

* **`addPump_builtPlant`** — the pump loop, one turn: no text is cut and no table is full before
  the 1024th pump;
* **`edgeBenchmarkSyntheticPumps_eq`** — the generator, as its closed form and its error cases;
* **`wiredModel_syntheticPlant`** — the closed form is a fixed point of the wiring.
-/

namespace OpcuaEdge

open CStr CLoop

/-! ## The specification of a pump

The two tables of the generator: what a pump has, and what raises an alarm on it. -/

/-- `BENCH_PUMP_TAG_COUNT`, the length of `k_pump_tags`. -/
def benchPumpTagCount : Nat := 11

/-- One node of a pump, but for its number and its registers. -/
structure BenchTagSpec where
  id : Bytes
  name : Bytes
  dataType : EdgeDataType
  writable : Bool := false
  deriving DecidableEq

/-- `k_pump_tags`: seven measurements, the speed and the status, and two commands, which clients
may write. -/
def kPumpTags : List BenchTagSpec :=
  [{ id := lit "flow_rate", name := lit "FlowRate", dataType := .double },
   { id := lit "suction_pressure", name := lit "SuctionPressure", dataType := .double },
   { id := lit "discharge_pressure", name := lit "DischargePressure", dataType := .double },
   { id := lit "motor_current", name := lit "MotorCurrent", dataType := .double },
   { id := lit "motor_voltage", name := lit "MotorVoltage", dataType := .double },
   { id := lit "vibration", name := lit "Vibration", dataType := .double },
   { id := lit "bearing_temperature", name := lit "BearingTemperature", dataType := .double },
   { id := lit "speed_rpm", name := lit "SpeedRPM", dataType := .int32 },
   { id := lit "status", name := lit "Status", dataType := .int16 },
   { id := lit "command_start", name := lit "CommandStart", dataType := .bool, writable := true },
   { id := lit "command_stop", name := lit "CommandStop", dataType := .bool, writable := true }]

/-- One alarm of a pump. The suffix is what its id starts with. -/
structure BenchEventSpec where
  sourceId : Bytes
  condition : EdgeEventCondition
  threshold : ℚ
  severity : UInt16
  suffix : Bytes
  deriving DecidableEq

/-- `k_pump_events`. -/
def kPumpEvents : List BenchEventSpec :=
  [{ sourceId := lit "vibration", condition := .greaterThan, threshold := 17 / 2, severity := 700
     suffix := lit "high_vibration" },
   { sourceId := lit "bearing_temperature", condition := .greaterThan, threshold := 85
     severity := 750, suffix := lit "high_bearing_temperature" },
   { sourceId := lit "suction_pressure", condition := .lessThan, threshold := 1, severity := 600
     suffix := lit "low_suction_pressure" },
   { sourceId := lit "motor_current", condition := .greaterThan, threshold := 850, severity := 800
     suffix := lit "overload_current" }]

/-! ## Building

One pump at a time: its nodes, its asset, and then its alarms. A text that does not fit ends the
generator with `EDGE_STATUS_LIMIT`, and so does an array that is full. -/

/-- `copy_str`. Other than the loader's `copy_value` it takes an empty text. -/
def copyStr (dst : Bytes) (dstSize : Nat) (src : Bytes) : EdgeStatus × Bytes :=
  if dstSize < src.length + 1 then (.limit, dst) else (.ok, src)

/-- The turn of the node loop of `add_pump` for one tag. The asset under construction stands
behind the counted ones. -/
def addTag (pumpIndex : UInt32) (assetId : Bytes) (i : Nat) (tag : BenchTagSpec)
    (model : EdgeModel) : EdgeModel × Option EdgeStatus :=
  let id := copyStr [] edgeMaxIdLen tag.id
  let name := copyStr [] edgeMaxNameLen tag.name
  let asset := copyStr [] edgeMaxIdLen assetId
  if id.1 ≠ .ok ∨ name.1 ≠ .ok ∨ asset.1 ≠ .ok then (model, some .limit)
  else
    ({ model with
        nodes := model.nodes ++
          [{ id := id.2, name := name.2, assetId := asset.2
             assetIndex := model.assets.length, asset := some model.assets.length
             dataType := tag.dataType, writable := tag.writable
             modbusUnit := (pumpIndex % 250 + 1).toUInt16
             modbusRegister := 40001 + pumpIndex * 11 + i.toUInt32
             scale := .fin 1 }] },
      none)

/-- The turn of the event loop of `add_pump`. The asset is counted by now. -/
def addAlarm (pumpIndex : UInt32) (assetId : Bytes) (_ : Nat) (alarm : BenchEventSpec)
    (model : EdgeModel) : EdgeModel × Option EdgeStatus :=
  if edgeMaxEvents ≤ model.events.length then (model, some .limit)
  else
    let eventId := formatInto edgeMaxIdLen (alarm.suffix ++ lit "_p" ++ decimal pumpIndex.toNat)
    let id := copyStr [] edgeMaxIdLen eventId.2
    let asset := copyStr [] edgeMaxIdLen assetId
    let source := copyStr [] edgeMaxIdLen alarm.sourceId
    if eventId.1 ≠ .ok then (model, some .limit)
    else if id.1 ≠ .ok ∨ asset.1 ≠ .ok ∨ source.1 ≠ .ok then (model, some .limit)
    else
      ({ model with
          events := model.events ++
            [{ id := id.2, assetId := asset.2, sourceNodeId := source.2
               assetIndex := model.assets.length - 1, asset := some (model.assets.length - 1)
               sourceNodeIndex := edgeInvalidIndex
               condition := alarm.condition, threshold := .fin alarm.threshold
               severity := alarm.severity }] },
        none)

/-- `add_pump`. The asset is counted after its nodes are built and before its alarms are. -/
def addPump (model : EdgeModel) (pumpIndex : UInt32) (withEvents : Bool) :
    EdgeStatus × EdgeModel :=
  if edgeMaxAssets ≤ model.assets.length then (.limit, model)
  else if edgeMaxNodes < model.nodes.length + benchPumpTagCount then (.limit, model)
  else
    let assetId := formatInto edgeMaxIdLen (lit "bench_pump_" ++ decimal pumpIndex.toNat)
    let assetName := formatInto edgeMaxNameLen (lit "Bench Pump " ++ decimal pumpIndex.toNat)
    let id := copyStr [] edgeMaxIdLen assetId.2
    let type := copyStr [] edgeMaxIdLen (lit "pump")
    let name := copyStr [] edgeMaxNameLen assetName.2
    let parent := copyStr [] edgeMaxIdLen model.id
    if assetId.1 ≠ .ok then (.limit, model)
    else if assetName.1 ≠ .ok then (.limit, model)
    else if id.1 ≠ .ok ∨ type.1 ≠ .ok ∨ name.1 ≠ .ok ∨ parent.1 ≠ .ok then (.limit, model)
    else
      let asset : EdgeAsset :=
        { id := id.2, type := type.2, name := name.2, parentId := parent.2
          parentIndex := edgeInvalidIndex
          firstNodeIndex := model.nodes.length, nodeCount := benchPumpTagCount }
      let tagged := visit (addTag pumpIndex assetId.2) 0 kPumpTags model
      match tagged.2 with
      | some status => (status, tagged.1)
      | none =>
        let counted := { tagged.1 with assets := tagged.1.assets ++ [asset] }
        if withEvents = false then (.ok, counted)
        else
          let alarmed := visit (addAlarm pumpIndex assetId.2) 0 kPumpEvents counted
          (alarmed.2.getD .ok, alarmed.1)

/-- The inner loop of `wire_event_sources`: the first node of the event's asset with the named
id. -/
def findBenchSource (model : EdgeModel) (event : EdgeEvent) : Option Nat :=
  match model.eventAssetOf event with
  | none => none
  | some asset =>
    ((List.range asset.nodeCount).map (asset.firstNodeIndex + ·)).find? fun i =>
      decide (model.nodes[i]?.map (·.id) = some event.sourceNodeId)

/-- The turn of `wire_event_sources` for one event. An event whose source is not found stays as it
was. -/
def wireEventSource (model : EdgeModel) (event : EdgeEvent) : EdgeEvent :=
  match findBenchSource model event with
  | none => event
  | some i => { event with sourceNodeIndex := i, sourceNode := some i }

/-- `wire_event_sources`, over the events of the whole plant. -/
def wireEventSources (model : EdgeModel) : EdgeModel :=
  { model with events := model.events.map (wireEventSource model) }

/-- The pump loop from index `i` on, with `n` turns to go. -/
def addPumps (withEvents : Bool) : Nat → UInt32 → EdgeModel → EdgeStatus × EdgeModel
  | 0, _, model => (.ok, model)
  | n + 1, i, model =>
    let r := addPump model i withEvents
    if r.1 ≠ .ok then r else addPumps withEvents n (i + 1) r.2

/-- `edge_benchmark_synthetic_pumps`. The model is cleared before the first pump. -/
def edgeBenchmarkSyntheticPumps (model : EdgeModel) (pumpCount : UInt32) (withEvents : Bool) :
    EdgeStatus × EdgeModel :=
  if pumpCount = 0 then (.invalid, model)
  else
    let id := copyStr [] edgeMaxIdLen (lit "bench_plant")
    let name := copyStr [] edgeMaxNameLen (lit "Synthetic Benchmark Plant")
    if id.1 ≠ .ok ∨ name.1 ≠ .ok then (.limit, {})
    else
      let pumps := addPumps withEvents pumpCount.toNat 0 { id := id.2, name := name.2 }
      if pumps.1 ≠ .ok then pumps else (.ok, wireEventSources pumps.2)

/-! ## The plant of `n` pumps

The closed form: the records of pump `k` depend on `k` only. Before the last step of the generator
the sources of the events are open (`builtPlant`). -/

/-- The id of pump `k`. -/
def pumpId (k : Nat) : Bytes := lit "bench_pump_" ++ decimal k

/-- The asset of pump `k`, right below the plant. Its nodes start at `11 * k`. -/
def pumpAsset (k : Nat) : EdgeAsset where
  id := pumpId k
  type := lit "pump"
  name := lit "Bench Pump " ++ decimal k
  parentId := lit "bench_plant"
  parentIndex := edgeInvalidIndex
  firstNodeIndex := 11 * k
  nodeCount := 11

/-- The `i`-th node of pump `k`. Units repeat after 250 pumps. -/
def pumpNode (k i : Nat) (tag : BenchTagSpec) : EdgeNode where
  id := tag.id
  name := tag.name
  assetId := pumpId k
  assetIndex := k
  asset := some k
  dataType := tag.dataType
  writable := tag.writable
  modbusUnit := (k.toUInt32 % 250 + 1).toUInt16
  modbusRegister := 40001 + k.toUInt32 * 11 + i.toUInt32
  scale := .fin 1

/-- The nodes of pump `k`, in the order of their tags. -/
def pumpNodes (k : Nat) : List EdgeNode := kPumpTags.mapIdx (pumpNode k)

/-- An alarm of pump `k` whose source has not been looked for. -/
def pumpEvent (k : Nat) (alarm : BenchEventSpec) : EdgeEvent where
  id := alarm.suffix ++ lit "_p" ++ decimal k
  assetId := pumpId k
  sourceNodeId := alarm.sourceId
  assetIndex := k
  asset := some k
  sourceNodeIndex := edgeInvalidIndex
  condition := alarm.condition
  threshold := .fin alarm.threshold
  severity := alarm.severity

/-- The index of its source among the nodes of all pumps. -/
def sourceIndex (k : Nat) (alarm : BenchEventSpec) : Nat :=
  11 * k + kPumpTags.findIdx fun tag => tag.id = alarm.sourceId

/-- An alarm of pump `k` with its source. -/
def sourcedEvent (k : Nat) (alarm : BenchEventSpec) : EdgeEvent :=
  { pumpEvent k alarm with
    sourceNodeIndex := sourceIndex k alarm, sourceNode := some (sourceIndex k alarm) }

/-- A plant of `n` pumps whose alarms are given. -/
def plantWith (event : Nat → BenchEventSpec → EdgeEvent) (withEvents : Bool) (n : Nat) :
    EdgeModel where
  id := lit "bench_plant"
  name := lit "Synthetic Benchmark Plant"
  assets := (List.range n).map pumpAsset
  nodes := (List.range n).flatMap pumpNodes
  events := if withEvents then (List.range n).flatMap fun k => kPumpEvents.map (event k) else []

/-- The plant as it is built, and as the generator returns it. -/
def builtPlant (withEvents : Bool) (n : Nat) : EdgeModel := plantWith pumpEvent withEvents n

/-- The plant as the generator returns it. -/
def syntheticPlant (withEvents : Bool) (n : Nat) : EdgeModel := plantWith sourcedEvent withEvents n

/-! ### Counting

All pumps have the same number of nodes, so the `i`-th node of pump `k` stands at `11 * k + i`. -/

theorem length_flatMap_range {α : Type} {m : Nat} {f : Nat → List α} (hf : ∀ k, (f k).length = m)
    (n : Nat) : ((List.range n).flatMap f).length = m * n := by
  induction n with
  | zero => rfl
  | succ n ih =>
    rw [List.range_succ, List.flatMap_append, List.length_append, ih, List.flatMap_singleton, hf,
      Nat.mul_succ]

/-- Blocks of equal length are laid out one behind the other. -/
theorem getElem?_flatMap_range {α : Type} {m : Nat} {f : Nat → List α}
    (hf : ∀ k, (f k).length = m) {n k i : Nat} (hk : k < n) (hi : i < m) :
    ((List.range n).flatMap f)[m * k + i]? = (f k)[i]? := by
  induction n with
  | zero => exact absurd hk (Nat.not_lt_zero k)
  | succ n ih =>
    rw [List.range_succ, List.flatMap_append, List.flatMap_singleton]
    -- the place lies in the blocks before, or in the one just added
    by_cases hlast : k < n
    · have hinside : m * k + i < ((List.range n).flatMap f).length := by
        rw [length_flatMap_range hf]
        calc m * k + i < m * k + m := Nat.add_lt_add_left hi _
          _ = m * (k + 1) := (Nat.mul_succ m k).symm
          _ ≤ m * n := Nat.mul_le_mul_left m hlast
      rw [List.getElem?_append_left hinside, ih hlast]
    · have heq : k = n := by omega
      subst heq
      rw [List.getElem?_append_right (by rw [length_flatMap_range hf]; omega),
        length_flatMap_range hf, Nat.add_sub_cancel_left]

theorem length_pumpNodes (k : Nat) : (pumpNodes k).length = 11 := List.length_mapIdx ..

theorem plantWith_nodes (event : Nat → BenchEventSpec → EdgeEvent) (withEvents : Bool)
    {n k i : Nat} (hk : k < n) (hi : i < 11) :
    (plantWith event withEvents n).nodes[11 * k + i]? = kPumpTags[i]?.map (pumpNode k i) := by
  show ((List.range n).flatMap pumpNodes)[11 * k + i]? = _
  rw [getElem?_flatMap_range length_pumpNodes hk hi]
  exact List.getElem?_mapIdx

theorem plantWith_assets {event : Nat → BenchEventSpec → EdgeEvent} {withEvents : Bool}
    {n k : Nat} (hk : k < n) :
    (plantWith event withEvents n).assets[k]? = some (pumpAsset k) := by
  show ((List.range n).map pumpAsset)[k]? = _
  rw [List.getElem?_map, List.getElem?_range hk]
  rfl

theorem length_plantWith (event : Nat → BenchEventSpec → EdgeEvent) (withEvents : Bool) (n : Nat) :
    (plantWith event withEvents n).assets.length = n ∧
      (plantWith event withEvents n).nodes.length = 11 * n ∧
      (plantWith event withEvents n).events.length = if withEvents then 4 * n else 0 := by
  refine ⟨?_, length_flatMap_range length_pumpNodes n, ?_⟩
  · exact (List.length_map _).trans List.length_range
  · cases withEvents with
    | false => rfl
    | true =>
      show ((List.range n).flatMap fun k => kPumpEvents.map (event k)).length = 4 * n
      exact length_flatMap_range (fun k => List.length_map _) n

/-! ### One pump

`add_pump` on the plant of `k` pumps gives that of `k + 1`. The bound of 1024 is on the length of
the number: with at most four digits every text fits. -/

theorem copyStr_ok {src : Bytes} {size : Nat} (h : src.length < size) (dst : Bytes) :
    copyStr dst size src = (.ok, src) := if_neg (by omega)

theorem length_decimal_le {k : Nat} (hk : k < 1024) : (decimal k).length ≤ 4 := by
  unfold decimal
  rw [List.length_map, Nat.length_toDigits_le_iff (by decide) (by decide)]
  omega

theorem length_pumpId {k : Nat} (hk : k < 1024) : (pumpId k).length < edgeMaxIdLen := by
  have hdigits := length_decimal_le hk
  have hprefix : (lit "bench_pump_").length = 11 := rfl
  rw [pumpId, List.length_append, hprefix]
  unfold edgeMaxIdLen
  omega

theorem length_pumpName {k : Nat} (hk : k < 1024) :
    (lit "Bench Pump " ++ decimal k).length < edgeMaxNameLen := by
  have hdigits := length_decimal_le hk
  have hprefix : (lit "Bench Pump ").length = 11 := rfl
  rw [List.length_append, hprefix]
  unfold edgeMaxNameLen
  omega

/-- The texts of the tags fit into their buffers. -/
theorem kPumpTags_fit : ∀ tag ∈ kPumpTags,
    tag.id.length < edgeMaxIdLen ∧ tag.name.length < edgeMaxNameLen := by decide

/-- The texts of the alarms fit into their buffers, with room for the number. -/
theorem kPumpEvents_fit : ∀ alarm ∈ kPumpEvents,
    alarm.suffix.length ≤ 24 ∧ alarm.sourceId.length < edgeMaxIdLen := by decide

/-- The node loop appends the nodes of the pump. Induction on the tags, with the index of the next
one. -/
theorem visit_addTag {k : Nat} (hk : k < 1024) :
    ∀ (tags : List BenchTagSpec) (i : Nat) (model : EdgeModel),
      (∀ tag ∈ tags, tag.id.length < edgeMaxIdLen ∧ tag.name.length < edgeMaxNameLen) →
      model.assets.length = k →
      visit (addTag k.toUInt32 (pumpId k)) i tags model =
        ({ model with nodes := model.nodes ++ tags.mapIdx fun j => pumpNode k (i + j) },
          none) := by
  intro tags
  induction tags with
  | nil => intro i model _ _; exact congrArg (·, none) (by rw [List.mapIdx_nil, List.append_nil])
  | cons tag rest ih =>
    intro i model hfit hcount
    obtain ⟨⟨hid, hname⟩, hrest⟩ := List.forall_mem_cons.mp hfit
    -- the asset is stored after its tags, so the number of assets is the index of this pump
    have hturn : addTag k.toUInt32 (pumpId k) i tag model =
        ({ model with nodes := model.nodes ++ [pumpNode k i tag] }, none) := by
      unfold addTag
      simp only [copyStr_ok hid, copyStr_ok hname, copyStr_ok (length_pumpId hk), ne_eq,
        not_true_eq_false, or_self, if_false, hcount]
      rfl
    have hnext : (addTag k.toUInt32 (pumpId k) i tag model).2 = none := by rw [hturn]
    have hnodes : model.nodes ++ [pumpNode k i tag] ++
          rest.mapIdx (fun j => pumpNode k (i + 1 + j)) =
        model.nodes ++ (tag :: rest).mapIdx fun j => pumpNode k (i + j) := by
      rw [List.mapIdx_cons, List.append_assoc, List.singleton_append]
      simp only [Nat.add_zero, Nat.add_assoc, Nat.add_comm 1]
    rw [visit_cons_next hnext, hturn, ← hnodes]
    exact ih (i + 1) _ hrest hcount

/-- The event loop appends the alarms of the pump, where there is room for all of them. -/
theorem visit_addAlarm {k : Nat} (hk : k < 1024) :
    ∀ (alarms : List BenchEventSpec) (i : Nat) (model : EdgeModel),
      (∀ alarm ∈ alarms, alarm.suffix.length ≤ 24 ∧ alarm.sourceId.length < edgeMaxIdLen) →
      model.assets.length = k + 1 → model.events.length + alarms.length ≤ edgeMaxEvents →
      visit (addAlarm k.toUInt32 (pumpId k)) i alarms model =
        ({ model with events := model.events ++ alarms.map (pumpEvent k) }, none) := by
  intro alarms
  induction alarms with
  | nil => intro i model _ _ _; exact congrArg (·, none) (by rw [List.map_nil, List.append_nil])
  | cons alarm rest ih =>
    intro i model hfit hcount hroom
    obtain ⟨⟨hsuffix, hsource⟩, hrest⟩ := List.forall_mem_cons.mp hfit
    rw [List.length_cons] at hroom
    have hindex : k.toUInt32.toNat = k := Nat.mod_eq_of_lt (by omega)
    -- a suffix of 24, the mark and at most four digits still fit an id
    have hid : (alarm.suffix ++ lit "_p" ++ decimal k).length < edgeMaxIdLen := by
      have hdigits := length_decimal_le hk
      have hmark : (lit "_p").length = 2 := rfl
      rw [List.length_append, List.length_append, hmark]
      unfold edgeMaxIdLen
      omega
    have hturn : addAlarm k.toUInt32 (pumpId k) i alarm model =
        ({ model with events := model.events ++ [pumpEvent k alarm] }, none) := by
      unfold addAlarm
      rw [if_neg (by omega), hindex]
      simp only [formatInto_of_lt hid, copyStr_ok hid, copyStr_ok (length_pumpId hk),
        copyStr_ok hsource, ne_eq, not_true_eq_false, or_self, if_false, hcount,
        Nat.add_sub_cancel]
      rfl
    have hnext : (addAlarm k.toUInt32 (pumpId k) i alarm model).2 = none := by rw [hturn]
    have hevents : model.events ++ [pumpEvent k alarm] ++ rest.map (pumpEvent k) =
        model.events ++ (alarm :: rest).map (pumpEvent k) := by
      rw [List.map_cons, List.append_assoc, List.singleton_append]
    rw [visit_cons_next hnext, hturn, ← hevents]
    exact ih (i + 1) _ hrest hcount (by rw [List.length_append, List.length_singleton]; omega)

/-- There is room for one more pump. -/
theorem builtPlant_room {k : Nat} (hk : k < 1024) (withEvents : Bool) :
    ¬ edgeMaxAssets ≤ (builtPlant withEvents k).assets.length ∧
      ¬ edgeMaxNodes < (builtPlant withEvents k).nodes.length + benchPumpTagCount ∧
      (builtPlant withEvents k).events.length + kPumpEvents.length ≤ edgeMaxEvents := by
  obtain ⟨hassets, hnodes, hevents⟩ := length_plantWith pumpEvent withEvents k
  have hfour : kPumpEvents.length = 4 := rfl
  have hle : (builtPlant withEvents k).events.length ≤ 4 * k := by
    rw [builtPlant, hevents]
    split_ifs <;> omega
  rw [builtPlant, hassets, hnodes, hfour]
  unfold edgeMaxAssets edgeMaxNodes edgeMaxEvents benchPumpTagCount
  rw [builtPlant] at hle
  omega

/-- The plant with one more pump, whose events are still missing. -/
def grownPlant (withEvents : Bool) (k : Nat) : EdgeModel :=
  { builtPlant withEvents k with
    assets := (builtPlant withEvents k).assets ++
      [{ pumpAsset k with firstNodeIndex := (builtPlant withEvents k).nodes.length }]
    nodes := (builtPlant withEvents k).nodes ++ pumpNodes k }

/-- With its alarms the plant with one more asset is the plant of one more pump. -/
theorem grownPlant_events {withEvents : Bool} {k : Nat} {events : List EdgeEvent}
    (h : events = (builtPlant withEvents (k + 1)).events) :
    { grownPlant withEvents k with events } = builtPlant withEvents (k + 1) := by
  subst h
  unfold grownPlant
  rw [show (builtPlant withEvents k).nodes.length = 11 * k from
    (length_plantWith pumpEvent withEvents k).2.1]
  unfold builtPlant plantWith
  simp only [List.range_succ, List.map_append, List.flatMap_append, List.flatMap_singleton,
    List.map_singleton]
  rfl

/-- The event loop on the plant that has got the nodes and the asset of pump `k`. -/
theorem visit_addAlarm_grownPlant {k : Nat} (hk : k < 1024) :
    visit (addAlarm k.toUInt32 (pumpId k)) 0 kPumpEvents (grownPlant true k) =
      (builtPlant true (k + 1), none) := by
  have hassets := (length_plantWith pumpEvent true k).1
  have hcount : (grownPlant true k).assets.length = k + 1 := by
    show ((builtPlant true k).assets ++ [_]).length = k + 1
    rw [List.length_append, List.length_singleton]
    exact congrArg (· + 1) hassets
  rw [visit_addAlarm hk kPumpEvents 0 _ kPumpEvents_fit hcount (builtPlant_room hk true).2.2]
  refine congrArg (·, none) (grownPlant_events ?_)
  show (List.range k).flatMap (fun k => kPumpEvents.map (pumpEvent k)) ++
      kPumpEvents.map (pumpEvent k) =
    (List.range (k + 1)).flatMap fun k => kPumpEvents.map (pumpEvent k)
  rw [List.range_succ, List.flatMap_append, List.flatMap_singleton]

/-- **One turn of the pump loop** adds one pump. -/
theorem addPump_builtPlant {k : Nat} (hk : k < 1024) (withEvents : Bool) :
    addPump (builtPlant withEvents k) k.toUInt32 withEvents =
      (.ok, builtPlant withEvents (k + 1)) := by
  obtain ⟨hroom, hroom', -⟩ := builtPlant_room hk withEvents
  have hindex : k.toUInt32.toNat = k := Nat.mod_eq_of_lt (by omega)
  have hparent : (builtPlant withEvents k).id.length < edgeMaxIdLen :=
    (by decide : (lit "bench_plant").length < edgeMaxIdLen)
  have htype : (lit "pump").length < edgeMaxIdLen := by decide
  have hid : (lit "bench_pump_" ++ decimal k).length < edgeMaxIdLen := length_pumpId hk
  have hname := length_pumpName hk
  have htags := visit_addTag hk kPumpTags 0 (builtPlant withEvents k) kPumpTags_fit
    (length_plantWith pumpEvent withEvents k).1
  simp only [Nat.zero_add] at htags
  -- no buffer is too small and no table full, so each check of the source is passed
  unfold addPump
  rw [if_neg hroom, if_neg hroom', hindex]
  simp only [formatInto_of_lt hid, formatInto_of_lt hname, copyStr_ok hid, copyStr_ok htype,
    copyStr_ok hname, copyStr_ok hparent, ne_eq, not_true_eq_false, or_self, if_false]
  rw [show visit (addTag k.toUInt32 (lit "bench_pump_" ++ decimal k)) 0 kPumpTags
    (builtPlant withEvents k) = _ from htags]
  dsimp only
  cases withEvents with
  | false =>
    rw [if_pos rfl]
    exact congrArg (Prod.mk EdgeStatus.ok) (grownPlant_events rfl)
  | true =>
    rw [if_neg (by decide)]
    exact congrArg (fun r : EdgeModel × Option EdgeStatus => (r.2.getD .ok, r.1))
      (visit_addAlarm_grownPlant hk)

/-! ### All pumps

The loop over the pumps, and then the search for the sources. -/

/-- The loop builds the plant as far as there is room for assets. -/
theorem addPumps_builtPlant (withEvents : Bool) (n : Nat) :
    ∀ k, k ≤ 1024 → addPumps withEvents n k.toUInt32 (builtPlant withEvents k) =
      if k + n ≤ 1024 then (.ok, builtPlant withEvents (k + n))
      else (.limit, builtPlant withEvents 1024) := by
  induction n with
  | zero => intro k hk; exact (if_pos hk).symm
  | succ n ih =>
    intro k hk
    rw [addPumps]
    rcases Nat.lt_or_eq_of_le hk with hlt | rfl
    · have hnext : k.toUInt32 + 1 = (k + 1).toUInt32 := (UInt32.ofNat_add k 1).symm
      simp only [addPump_builtPlant hlt, ne_eq, not_true_eq_false, if_false, hnext,
        ih (k + 1) hlt, Nat.add_right_comm k 1 n, Nat.add_assoc]
    · -- the asset array is full
      have hassets := (length_plantWith pumpEvent withEvents 1024).1
      have hfull : addPump (builtPlant withEvents 1024) (Nat.toUInt32 1024) withEvents =
          (.limit, builtPlant withEvents 1024) := if_pos hassets.ge
      rw [hfull, if_pos nofun, if_neg (by omega)]

/-- The nodes of a pump hold the source of each of its alarms, at the same place in every pump. -/
theorem sources_found : ∀ alarm ∈ kPumpEvents,
    (kPumpTags.findIdx fun tag => tag.id = alarm.sourceId) < 11 ∧
      (List.range 11).find? (fun j => decide (kPumpTags[j]?.map (·.id) = some alarm.sourceId)) =
        some (kPumpTags.findIdx fun tag => tag.id = alarm.sourceId) := by
  decide +kernel

/-- The search finds the source of an alarm among the nodes of its own pump. -/
theorem wireEventSource_pumpEvent {n k : Nat} (hk : k < n) {alarm : BenchEventSpec}
    (hmem : alarm ∈ kPumpEvents) (withEvents : Bool) :
    wireEventSource (builtPlant withEvents n) (pumpEvent k alarm) = sourcedEvent k alarm := by
  obtain ⟨-, hfound⟩ := sources_found alarm hmem
  have hasset : (builtPlant withEvents n).eventAssetOf (pumpEvent k alarm) =
      some (pumpAsset k) := plantWith_assets hk
  have hsource : findBenchSource (builtPlant withEvents n) (pumpEvent k alarm) =
      some (sourceIndex k alarm) := by
    unfold findBenchSource
    rw [hasset]
    show ((List.range 11).map (11 * k + ·)).find? _ = _
    rw [List.find?_map]
    -- in the range of the asset a node of the plant is a tag of the pump
    have hcongr : ∀ j ∈ List.range 11,
        (((builtPlant withEvents n).nodes[11 * k + j]?.map (·.id)) =
            some (pumpEvent k alarm).sourceNodeId ↔
          kPumpTags[j]?.map (·.id) = some alarm.sourceId) := by
      intro j hj
      unfold builtPlant
      rw [plantWith_nodes _ _ hk (List.mem_range.mp hj), Option.map_map]
      exact Iff.rfl
    refine congrArg (Option.map (11 * k + ·)) ((List.find?_congr fun j hj => ?_).trans hfound)
    exact decide_eq_decide.mpr (hcongr j hj)
  unfold wireEventSource
  rw [hsource]
  rfl

theorem wireEventSources_builtPlant (withEvents : Bool) (n : Nat) :
    wireEventSources (builtPlant withEvents n) = syntheticPlant withEvents n := by
  have hevents : (builtPlant withEvents n).events.map (wireEventSource (builtPlant withEvents n)) =
      (syntheticPlant withEvents n).events := by
    cases withEvents with
    | false => rfl
    | true =>
      show ((List.range n).flatMap fun k => kPumpEvents.map (pumpEvent k)).map _ =
        (List.range n).flatMap fun k => kPumpEvents.map (sourcedEvent k)
      rw [List.map_flatMap]
      -- pump by pump, and alarm by alarm within it
      refine List.flatMap_congr fun k hk => ?_
      rw [List.map_map]
      exact List.map_congr_left fun alarm hmem =>
        wireEventSource_pumpEvent (List.mem_range.mp hk) hmem true
  unfold wireEventSources
  rw [hevents]
  rfl

/-- **What the generator returns**: the plant of as many pumps as it was asked for, unless these are
none or more than there is room for. -/
theorem edgeBenchmarkSyntheticPumps_eq (model : EdgeModel) (n : UInt32) (withEvents : Bool) :
    edgeBenchmarkSyntheticPumps model n withEvents =
      if n = 0 then (.invalid, model)
      else if n.toNat ≤ 1024 then (.ok, syntheticPlant withEvents n.toNat)
      else (.limit, builtPlant withEvents 1024) := by
  have hid : (lit "bench_plant").length < edgeMaxIdLen := by decide
  have hname : (lit "Synthetic Benchmark Plant").length < edgeMaxNameLen := by decide
  have hstart : ({ id := lit "bench_plant", name := lit "Synthetic Benchmark Plant" } : EdgeModel) =
      builtPlant withEvents 0 := by cases withEvents <;> rfl
  have hpumps := addPumps_builtPlant withEvents n.toNat 0 (Nat.zero_le _)
  rw [Nat.zero_add] at hpumps
  unfold edgeBenchmarkSyntheticPumps
  by_cases hzero : n = 0
  · rw [if_pos hzero, if_pos hzero]
  · rw [if_neg hzero, if_neg hzero]
    simp only [copyStr_ok hid, copyStr_ok hname, ne_eq, not_true_eq_false, or_self, if_false,
      hstart]
    rw [show addPumps withEvents n.toNat 0 (builtPlant withEvents 0) = _ from hpumps]
    -- the first pump without room answers with the limit, before anything is wired
    by_cases hroom : n.toNat ≤ 1024
    · rw [if_pos hroom, if_pos hroom]
      simp only [not_true_eq_false, if_false, wireEventSources_builtPlant]
    · rw [if_neg hroom, if_neg hroom]
      rfl

/-! ## Wiring

What the generator filled in is what the loader's wiring would compute: pointers from the indexes,
and the count and the first node of each asset. -/

theorem mem_plantWith_nodes {event : Nat → BenchEventSpec → EdgeEvent} {withEvents : Bool} {n : Nat}
    {node : EdgeNode} (h : node ∈ (plantWith event withEvents n).nodes) :
    ∃ k i tag, k < n ∧ kPumpTags[i]? = some tag ∧ node = pumpNode k i tag := by
  obtain ⟨k, hk, hnode⟩ := List.mem_flatMap.mp h
  obtain ⟨i, hi, rfl⟩ := List.mem_mapIdx.mp hnode
  exact ⟨k, i, _, List.mem_range.mp hk, List.getElem?_eq_getElem hi, rfl⟩

/-- An event of the plant is an alarm of one of its pumps. -/
theorem mem_plantWith_events {event : Nat → BenchEventSpec → EdgeEvent} {withEvents : Bool}
    {n : Nat} {e : EdgeEvent} (h : e ∈ (plantWith event withEvents n).events) :
    ∃ k alarm, k < n ∧ alarm ∈ kPumpEvents ∧ e = event k alarm := by
  cases withEvents with
  | false => cases h
  | true =>
    obtain ⟨k, hk, hevent⟩ := List.mem_flatMap.mp h
    obtain ⟨alarm, halarm, rfl⟩ := List.mem_map.mp hevent
    exact ⟨k, alarm, List.mem_range.mp hk, halarm, rfl⟩

theorem sourceIndex_lt {n k : Nat} (hk : k < n) {alarm : BenchEventSpec}
    (hmem : alarm ∈ kPumpEvents) : sourceIndex k alarm < 11 * n := by
  have hlt := (sources_found alarm hmem).1
  unfold sourceIndex
  omega

theorem indexed_syntheticPlant {n : Nat} (hn : n ≤ 1024) (withEvents : Bool) :
    Indexed (syntheticPlant withEvents n) := by
  obtain ⟨hassets, hnodes, -⟩ := length_plantWith sourcedEvent withEvents n
  -- 1024 pumps of 11 nodes stay below the limits, and every index names its pump
  constructor
  · exact hassets.trans_le hn
  · refine hnodes.trans_le ?_
    unfold edgeMaxNodes
    omega
  · intro node hmem
    obtain ⟨k, i, tag, hk, -, rfl⟩ := mem_plantWith_nodes hmem
    exact hk.trans_eq hassets.symm
  · intro event hmem
    obtain ⟨k, alarm, hk, -, rfl⟩ := mem_plantWith_events hmem
    exact hk.trans_eq hassets.symm
  · intro event hmem
    obtain ⟨k, alarm, hk, halarm, rfl⟩ := mem_plantWith_events hmem
    exact (sourceIndex_lt hk halarm).trans_eq hnodes.symm

/-- The nodes of one asset, counted. -/
theorem countP_pumps (k n : Nat) :
    (((List.range n).flatMap pumpNodes).countP fun node => node.assetIndex = k) =
      if k < n then 11 else 0 := by
  have hpump : ∀ j, ((pumpNodes j).countP fun node => node.assetIndex = k) =
      if j = k then 11 else 0 := by
    intro j
    -- a pump's eleven nodes are all its own
    have howner : ∀ node ∈ pumpNodes j, node.assetIndex = j := by
      intro node hmem
      obtain ⟨i, hi, rfl⟩ := List.mem_mapIdx.mp hmem
      rfl
    split_ifs with hown
    · rw [← length_pumpNodes j]
      exact List.countP_eq_length.mpr fun node hmem =>
        decide_eq_true ((howner node hmem).trans hown)
    · refine List.countP_eq_zero.mpr fun node hmem hmatch => hown ?_
      exact (howner node hmem).symm.trans (of_decide_eq_true hmatch)
  induction n with
  | zero => rfl
  | succ n ih =>
    rw [List.range_succ, List.flatMap_append, List.flatMap_singleton, List.countP_append, ih, hpump]
    split_ifs <;> omega

theorem pumpOf_node {n j : Nat} {node : EdgeNode}
    (hget : ((List.range n).flatMap pumpNodes)[j]? = some node) : node.assetIndex = j / 11 := by
  have hlength := length_flatMap_range length_pumpNodes n
  have hj := (List.getElem?_eq_some_iff.mp hget).1
  have hsplit : 11 * (j / 11) + j % 11 = j := Nat.div_add_mod j 11
  rw [← hsplit, getElem?_flatMap_range length_pumpNodes (by omega) (Nat.mod_lt j (by decide)),
    pumpNodes, List.getElem?_mapIdx, Option.map_eq_some_iff] at hget
  obtain ⟨tag, -, rfl⟩ := hget
  rfl

/-- The first node of an asset. -/
theorem findIdx_pumps {k n : Nat} (hk : k < n) :
    (((List.range n).flatMap pumpNodes).findIdx? fun node => node.assetIndex = k) =
      some (11 * k) := by
  have hlength := length_flatMap_range length_pumpNodes n
  have hfirst : 11 * k < ((List.range n).flatMap pumpNodes).length := by omega
  refine List.findIdx?_eq_some_iff_getElem.mpr ⟨hfirst, ?_, fun j hj hmatch => ?_⟩
  · rw [pumpOf_node (List.getElem?_eq_getElem hfirst)]
    exact decide_eq_true (by omega)
  · rw [pumpOf_node (List.getElem?_eq_getElem (hj.trans hfirst))] at hmatch
    have heq := of_decide_eq_true hmatch
    omega

/-- The wiring changes nothing, in none of the three arrays. -/
theorem wiredModel_syntheticPlant (withEvents : Bool) (n : Nat) :
    wiredModel (syntheticPlant withEvents n) = syntheticPlant withEvents n := by
  have hassets : (syntheticPlant withEvents n).assets.mapIdx
      (fun k asset => counted (syntheticPlant withEvents n).nodes 0 k (wireAsset asset)) =
      (syntheticPlant withEvents n).assets := by
    refine List.ext_getElem? fun k => ?_
    rw [List.getElem?_mapIdx]
    by_cases hk : k < n
    · unfold syntheticPlant
      rw [plantWith_assets hk, Option.map_some]
      show some (counted ((List.range n).flatMap pumpNodes) 0 k (wireAsset (pumpAsset k))) = _
      unfold counted
      -- the plant comes with the counts and the first nodes that the wiring computes
      rw [countP_pumps, if_pos hk, findIdx_pumps hk]
      refine congrArg some ?_
      simp only [wireAsset, pumpAsset, if_true, Option.map_some, Option.getD_some, Nat.zero_add,
        ne_eq, not_true_eq_false, if_false]
    · have hout := (length_plantWith sourcedEvent withEvents n).1
      rw [show (syntheticPlant withEvents n).assets[k]? = none from
        List.getElem?_eq_none (by unfold syntheticPlant; omega)]
      rfl
  have hnodes : (syntheticPlant withEvents n).nodes.map wiredNode =
      (syntheticPlant withEvents n).nodes := by
    refine (List.map_congr_left fun node hmem => ?_).trans (List.map_id _)
    obtain ⟨k, i, tag, -, -, rfl⟩ := mem_plantWith_nodes hmem
    rfl
  have hevents : (syntheticPlant withEvents n).events.map wiredEvent =
      (syntheticPlant withEvents n).events := by
    refine (List.map_congr_left fun event hmem => ?_).trans (List.map_id _)
    obtain ⟨k, alarm, -, -, rfl⟩ := mem_plantWith_events hmem
    rfl
  unfold wiredModel
  rw [hassets, hnodes, hevents]

/-- **The generator wires as the loader does.** It succeeds for one pump to 1024 and for no other
number; what it returns has as many assets, 11 nodes for each, 4 events for each if it was asked for
events, and `edge_config_wire_runtime` finds nothing to change in it. -/
theorem synthetic_plant_wired (model : EdgeModel) (n : UInt32) (withEvents : Bool) :
    ((edgeBenchmarkSyntheticPumps model n withEvents).1 = .ok ↔ 0 < n.toNat ∧ n.toNat ≤ 1024) ∧
      ((edgeBenchmarkSyntheticPumps model n withEvents).1 = .ok →
        (edgeBenchmarkSyntheticPumps model n withEvents).2.assets.length = n.toNat ∧
          (edgeBenchmarkSyntheticPumps model n withEvents).2.nodes.length = 11 * n.toNat ∧
          (edgeBenchmarkSyntheticPumps model n withEvents).2.events.length =
            (if withEvents then 4 * n.toNat else 0) ∧
          edgeConfigWireRuntime (edgeBenchmarkSyntheticPumps model n withEvents).2 =
            (.ok, (edgeBenchmarkSyntheticPumps model n withEvents).2)) := by
  have hpos : n = 0 ↔ ¬ 0 < n.toNat := by
    rw [← UInt32.toNat_inj, UInt32.toNat_zero]
    omega
  rw [edgeBenchmarkSyntheticPumps_eq]
  by_cases hzero : n = 0
  · rw [if_pos hzero]
    exact ⟨iff_of_false nofun fun h => hpos.mp hzero h.1, nofun⟩
  rw [if_neg hzero]
  -- each pump is an asset, and the table takes 1024
  by_cases hroom : n.toNat ≤ 1024
  · rw [if_pos hroom]
    refine ⟨iff_of_true rfl ⟨Nat.pos_of_ne_zero fun h => hzero (hpos.mpr (by omega)), hroom⟩,
      fun _ => ?_⟩
    obtain ⟨hassets, hnodes, hevents⟩ := length_plantWith sourcedEvent withEvents n.toNat
    refine ⟨hassets, hnodes, hevents, ?_⟩
    rw [(indexed_syntheticPlant hroom withEvents).wire_eq, wiredModel_syntheticPlant]
  · rw [if_neg hroom]
    exact ⟨iff_of_false nofun fun h => hroom h.2, nofun⟩

end OpcuaEdge
