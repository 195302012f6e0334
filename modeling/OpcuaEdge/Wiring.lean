import OpcuaEdge.WellFormed

/-!
# OpcuaEdge — wired models

`edge_config_wire_runtime` turns the indexes of a loaded model into pointers. On an accepted
template it never fails (`edgeConfigWireRuntime_ok`), and what it leaves behind is a model whose
pointers can be followed (`Wired`). This is the state the address space, the store, the events
and the tick start from.
-/

namespace OpcuaEdge

open CStr CLoop

/-- The first two steps of startup, both successful. -/
def LoadedAndWired (file : Option Bytes) (model : EdgeModel) : Prop :=
  ∃ loaded, edgeConfigLoad file {} = (.ok, loaded) ∧ edgeConfigWireRuntime loaded = (.ok, model)

/-- What the wiring leaves behind: the tables fit and their ids are distinct, every node points at
the asset that it names, every event at the node of its own asset that it names, and every asset
counts its nodes. -/
structure Wired (model : EdgeModel) : Prop where
  nodeCount : model.nodes.length ≤ edgeMaxNodes
  eventCount : model.events.length ≤ edgeMaxEvents
  nodes : ∀ node ∈ model.nodes, NodeFields node
  events : ∀ event ∈ model.events, EventFields event
  nodesDistinct : (model.nodes.map fun node => (node.assetId, node.id)).Nodup
  eventsDistinct : (model.events.map (·.id)).Nodup
  nodeAssets : ∀ node ∈ model.nodes, ∃ asset,
    model.assetOf node = some asset ∧ asset.id = node.assetId
  eventSources : ∀ event ∈ model.events, ∃ node, model.sourceOf event = some node ∧
    node.assetId = event.assetId ∧ node.id = event.sourceNodeId

/-! ## The two loops

The first loop of the wiring fills the nodes' asset pointers and counts the nodes of each asset,
the second fills the pointers of the events. -/

/-- A node after its turn of the first loop. -/
def wiredNode (node : EdgeNode) : EdgeNode := { node with asset := some node.assetIndex }

/-- An event after its turn of the second loop. -/
def wiredEvent (event : EdgeEvent) : EdgeEvent :=
  { event with asset := some event.assetIndex, sourceNode := some event.sourceNodeIndex }

/-- Modifying one element leaves alone what the modification leaves alone. -/
theorem map_modify_of_eq {α β : Type} (f : α → β) (g : α → α) (h : ∀ a, f (g a) = f a) (l : List α)
    (i : Nat) : (l.modify i g).map f = l.map f := by
  refine List.ext_getElem? fun j => ?_
  rw [List.getElem?_map, List.getElem?_map, List.getElem?_modify]
  cases l[j]? with
  | none => rfl
  | some a => by_cases hij : i = j <;> simp [hij, h]

/-- The asset without the two fields that counting its nodes writes. -/
def EdgeAsset.uncounted (asset : EdgeAsset) : EdgeAsset :=
  { asset with firstNodeIndex := 0, nodeCount := 0 }

/-- Counting nodes leaves everything else of the assets alone. -/
theorem modify_countNode_uncounted (assets : List EdgeAsset) (i k : Nat) :
    (assets.modify k (countNode i)).map EdgeAsset.uncounted = assets.map EdgeAsset.uncounted :=
  map_modify_of_eq EdgeAsset.uncounted (countNode i) (fun _ => rfl) assets k

/-- With every index resolved the first loop ends without an error. It wires each node, and all it
changes of the assets is their counts. -/
theorem sweep_wireNode (nodes : List EdgeNode) (assets : List EdgeAsset)
    (h : ∀ node ∈ nodes, node.assetIndex ≠ edgeInvalidIndex) :
    (sweep wireNode 0 nodes assets).exit = none
      ∧ (sweep wireNode 0 nodes assets).elem = nodes.map wiredNode
      ∧ (sweep wireNode 0 nodes assets).state.map EdgeAsset.uncounted
        = assets.map EdgeAsset.uncounted := by
  refine sweep_eq_map wireNode wiredNode
    (fun s => s.map EdgeAsset.uncounted = assets.map EdgeAsset.uncounted) nodes 0 assets rfl
    fun node hmem i s hs => ?_
  unfold wireNode
  rw [if_neg (h node hmem)]
  exact ⟨rfl, rfl, (modify_countNode_uncounted s i _).trans hs⟩

/-- With every index resolved the second loop ends without an error and wires each event. -/
theorem sweep_wireEvent (events : List EdgeEvent)
    (h : ∀ event ∈ events,
      event.assetIndex ≠ edgeInvalidIndex ∧ event.sourceNodeIndex ≠ edgeInvalidIndex) :
    (sweep wireEvent 0 events ()).exit = none
      ∧ (sweep wireEvent 0 events ()).elem = events.map wiredEvent := by
  obtain ⟨hexit, helem, _⟩ := sweep_eq_map wireEvent wiredEvent (fun _ => True) events 0 ()
    trivial fun event hmem i _ _ => by
      unfold wireEvent
      rw [if_neg (not_or.mpr (h event hmem))]
      exact ⟨rfl, rfl, trivial⟩
  exact ⟨hexit, helem⟩

/-! ## Wiring a well-formed model

The loader resolves every index, and no index of a full table is the invalid one. So neither loop
can stop. -/

/-- The tables are too small for an index of theirs to be the invalid one. -/
theorem lt_edgeInvalidIndex {i n : Nat} (h : i < n) (hn : n ≤ edgeMaxNodes) :
    i ≠ edgeInvalidIndex := by
  unfold edgeInvalidIndex edgeMaxNodes at *
  omega

/-- Every index that wiring follows is in range. -/
structure Indexed (model : EdgeModel) : Prop where
  assetCount : model.assets.length ≤ edgeMaxAssets
  nodeCount : model.nodes.length ≤ edgeMaxNodes
  nodeAssets : ∀ node ∈ model.nodes, node.assetIndex < model.assets.length
  eventAssets : ∀ event ∈ model.events, event.assetIndex < model.assets.length
  eventSources : ∀ event ∈ model.events, event.sourceNodeIndex < model.nodes.length

theorem AssetResolved.lt {model : EdgeModel} {i : Nat} {id : Bytes}
    (h : AssetResolved model i id) : i < model.assets.length := by
  obtain ⟨asset, hget, -⟩ := h
  exact (List.getElem?_eq_some_iff.mp hget).1

/-- The loader resolves the index of every node and of every event. -/
theorem WellFormed.indexed {model : EdgeModel} (h : WellFormed model) : Indexed model where
  assetCount := h.assetCount
  nodeCount := h.nodeCount
  nodeAssets node hmem := (h.nodeAssets node hmem).lt
  eventAssets event hmem := (h.eventAssets event hmem).lt
  eventSources event hmem := by
    obtain ⟨⟨node, hget, -⟩, -⟩ := h.eventSources event hmem
    exact (List.getElem?_eq_some_iff.mp hget).1

theorem Indexed.asset_ne {model : EdgeModel} (h : Indexed model) {i : Nat}
    (hi : i < model.assets.length) : i ≠ edgeInvalidIndex := by
  have hcount := h.assetCount
  exact lt_edgeInvalidIndex hi (by unfold edgeMaxAssets at hcount; unfold edgeMaxNodes; omega)

/-- Both loops of wiring run to their end. -/
theorem Indexed.wire {model : EdgeModel} (h : Indexed model) :
    edgeConfigWireRuntime model =
      (.ok, { model with
        assets := (sweep wireNode 0 model.nodes (model.assets.map wireAsset)).state
        nodes := model.nodes.map wiredNode
        events := model.events.map wiredEvent }) := by
  obtain ⟨hexit, helem, -⟩ := sweep_wireNode model.nodes (model.assets.map wireAsset)
    fun node hmem => h.asset_ne (h.nodeAssets node hmem)
  obtain ⟨hexitE, helemE⟩ := sweep_wireEvent model.events fun event hmem =>
    ⟨h.asset_ne (h.eventAssets event hmem),
      lt_edgeInvalidIndex (h.eventSources event hmem) h.nodeCount⟩
  unfold edgeConfigWireRuntime
  simp only [hexit, helem, hexitE, helemE, Option.getD_none]

/-- Wiring a well-formed model writes nothing of the assets but the counts and the parent. -/
theorem edgeConfigWireRuntime_ok {model : EdgeModel} (h : WellFormed model) :
    ∃ assets, edgeConfigWireRuntime model =
        (.ok, { model with
          assets := assets
          nodes := model.nodes.map wiredNode
          events := model.events.map wiredEvent })
      ∧ assets.map EdgeAsset.uncounted
        = model.assets.map fun asset => (wireAsset asset).uncounted := by
  obtain ⟨-, -, hassets⟩ := sweep_wireNode model.nodes (model.assets.map wireAsset)
    fun node hmem => h.indexed.asset_ne (h.indexed.nodeAssets node hmem)
  exact ⟨_, h.indexed.wire, hassets.trans (by rw [List.map_map]; rfl)⟩

theorem map_id_of_uncounted {assets loaded : List EdgeAsset}
    (h : assets.map EdgeAsset.uncounted = loaded.map fun asset => (wireAsset asset).uncounted) :
    assets.map (·.id) = loaded.map (·.id) := by
  have hids := congrArg (List.map EdgeAsset.id) h
  rw [List.map_map, List.map_map] at hids
  exact hids

/-- What startup makes of a file. -/
def startupModel (file : Option Bytes) : EdgeModel :=
  (edgeConfigWireRuntime (edgeConfigLoad file {}).2).2

/-- An accepted file is all that startup needs. -/
theorem loadedAndWired_of_ok {file : Option Bytes} (h : (edgeConfigLoad file {}).1 = .ok) :
    LoadedAndWired file (startupModel file) := by
  have hload := edgeConfigLoad_of_ok h
  obtain ⟨_, hwired, _⟩ := edgeConfigWireRuntime_ok (edgeConfigLoad_wellFormed _ _ hload)
  refine ⟨_, hload, Prod.ext ?_ rfl⟩
  rw [hwired]

/-- **A loaded and wired model can be served**: its records are as the loader checked them, and
every pointer leads to the record the template names. -/
theorem LoadedAndWired.wired {file : Option Bytes} {model : EdgeModel}
    (h : LoadedAndWired file model) : Wired model := by
  obtain ⟨loaded, hload, hwire⟩ := h
  have hwf := edgeConfigLoad_wellFormed file loaded hload
  obtain ⟨assets, hwired, hassets⟩ := edgeConfigWireRuntime_ok hwf
  have hids := map_id_of_uncounted hassets
  cases (Prod.mk.inj (hwire.symm.trans hwired)).2
  exact {
    nodeCount := by simpa using hwf.nodeCount
    eventCount := by simpa using hwf.eventCount
    nodes := by
      intro node hmem
      obtain ⟨node, hnode, rfl⟩ := List.mem_map.mp hmem
      exact { hwf.nodes node hnode with }
    events := by
      intro event hmem
      obtain ⟨event, hevent, rfl⟩ := List.mem_map.mp hmem
      exact { hwf.events event hevent with }
    nodesDistinct := by rw [List.map_map]; exact hwf.nodesDistinct
    eventsDistinct := by rw [List.map_map]; exact hwf.eventsDistinct
    nodeAssets := by
      intro node hmem
      obtain ⟨node, hnode, rfl⟩ := List.mem_map.mp hmem
      exact (hwf.nodeAssets node hnode).congr hids
    eventSources := by
      intro event hmem
      obtain ⟨event, hevent, rfl⟩ := List.mem_map.mp hmem
      obtain ⟨⟨node, hnode, hassetId, hid⟩, _⟩ := hwf.eventSources event hevent
      -- the pointer goes to the wired copy of the node the index names
      refine ⟨wiredNode node, ?_, hassetId, hid⟩
      show (loaded.nodes.map wiredNode)[event.sourceNodeIndex]? = _
      rw [List.getElem?_map, hnode]
      rfl }

/-- The model of `pumpTemplate`, ready to be served. -/
def pumpModel : EdgeModel where
  id := lit "xyz_desalination"
  name := lit "XYZ Desalination Plant"
  assets :=
    [{ id := lit "hp_pump_1"
       type := lit "hp_pump"
       name := lit "HP Pump 1 (RO Train 1 duty)"
       parentId := lit "xyz_desalination"
       parentIndex := edgeInvalidIndex
       nodeCount := 2 }]
  nodes :=
    [{ id := lit "vibration"
       name := lit "Vibration"
       assetId := lit "hp_pump_1"
       asset := some 0
       dataType := .double
       modbusUnit := 3
       modbusRegister := 40006
       scale := .fin (1 / 100) },
     { id := lit "command_start"
       name := lit "CommandStart"
       assetId := lit "hp_pump_1"
       asset := some 0
       dataType := .bool
       writable := true
       modbusUnit := 3
       modbusRegister := 40010
       scale := .fin 1 }]
  events :=
    [{ id := lit "high_vibration_hp1"
       assetId := lit "hp_pump_1"
       sourceNodeId := lit "vibration"
       asset := some 0
       sourceNode := some 0
       condition := .greaterThan
       threshold := .fin (17 / 2)
       severity := 700 }]

theorem pumpModel_loadedAndWired : LoadedAndWired (some pumpTemplate) pumpModel := by
  have hmodel : startupModel (some pumpTemplate) = pumpModel := by decide +kernel
  rw [← hmodel]
  exact loadedAndWired_of_ok pumpTemplate_accepted

end OpcuaEdge
