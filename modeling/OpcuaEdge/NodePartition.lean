import OpcuaEdge.Wiring
import Mathlib.Algebra.BigOperators.Group.Finset.Basic

/-!
# OpcuaEdge — the nodes of each asset

The node loop of `edge_config_wire_runtime` counts the nodes of every asset and keeps the first of
them, whatever the order of the `[node]` blocks. The loop is described by what it makes of one
asset (`counted`); from this follow the partition of the nodes (`Partitioned`) and that a second
call changes nothing (`wiring_partitions_nodes`).

Three facts about `counted` carry this:

* **`wireNode_state`** — the loop leaves of each asset what `counted` makes of it;
* **`counted_reset_nodeCount`** and **`counted_reset_firstNodeIndex`** — after the reset that
  precedes the loop, the count is the number of nodes with the index of the asset, and the first
  node is the first of these;
* **`Indexed.total`** — every node has one index, so the counts add up to all nodes.
-/

namespace OpcuaEdge

open CStr CLoop

/-! ## The node loop, seen from one asset

The loop adds to the count of the asset that a node points at, and keeps the first such node. An
asset therefore ends with what the nodes of its own index make of it. -/

/-- Asset `k` after the loop went over `nodes`, the first of which has index `i`. -/
def counted (nodes : List EdgeNode) (i k : Nat) (asset : EdgeAsset) : EdgeAsset :=
  { asset with
    firstNodeIndex :=
      if asset.firstNodeIndex = edgeInvalidIndex then
        ((nodes.findIdx? fun node => node.assetIndex = k).map (i + ·)).getD edgeInvalidIndex
      else asset.firstNodeIndex
    nodeCount := asset.nodeCount + nodes.countP fun node => node.assetIndex = k }

theorem counted_nil (i k : Nat) (asset : EdgeAsset) : counted [] i k asset = asset := by
  have hfirst : (if asset.firstNodeIndex = edgeInvalidIndex then edgeInvalidIndex
      else asset.firstNodeIndex) = asset.firstNodeIndex := by
    split_ifs with h
    · exact h.symm
    · rfl
  exact congrArg (fun first => { asset with firstNodeIndex := first }) hfirst

/-- One turn: the first node is counted, then the others. -/
theorem counted_cons {i : Nat} (hi : i ≠ edgeInvalidIndex) (node : EdgeNode)
    (nodes : List EdgeNode) (k : Nat) (asset : EdgeAsset) :
    counted (node :: nodes) i k asset =
      counted nodes (i + 1) k (if node.assetIndex = k then countNode i asset else asset) := by
  unfold counted
  rw [List.findIdx?_cons]
  -- the node is the asset's own, and its first one if none was counted; or all the rest is shifted
  by_cases hown : node.assetIndex = k
  · rw [List.countP_cons_of_pos (by simpa using hown)]
    simp only [hown, decide_true, if_true, Option.map_some, Nat.add_zero, Option.getD_some]
    unfold countNode
    congr 1
    · split_ifs with hfirst
      · rfl
      · rfl
    · dsimp only
      omega
  · have hshift : ∀ found : Option Nat,
        (found.map (· + 1)).map (i + ·) = found.map (i + 1 + ·) := by
      intro found
      rw [Option.map_map]
      exact congrArg (Option.map · found) (funext fun j => by dsimp only [Function.comp]; omega)
    rw [List.countP_cons_of_neg (by simpa using hown)]
    simp only [hown, decide_false, Bool.false_eq_true, if_false, hshift]

/-- The run of the loop: every asset is counted on its own. -/
theorem wireNode_state (nodes : List EdgeNode) (i : Nat) (assets : List EdgeAsset)
    (hvalid : ∀ node ∈ nodes, node.assetIndex ≠ edgeInvalidIndex)
    (hcount : i + nodes.length ≤ edgeInvalidIndex) (k : Nat) :
    (sweep wireNode i nodes assets).state[k]? = assets[k]?.map (counted nodes i k) := by
  induction nodes generalizing i assets with
  | nil =>
    rw [sweep_nil, funext (counted_nil i k)]
    exact Option.map_id'.symm
  | cons node rest ih =>
    rw [List.length_cons] at hcount
    have hturn : wireNode i node assets =
        { elem := wiredNode node, state := assets.modify node.assetIndex (countNode i) } := by
      unfold wireNode
      rw [if_neg (hvalid node (List.mem_cons_self ..))]
      rfl
    have hnext : (wireNode i node assets).exit = none := by rw [hturn]
    rw [sweep_cons_next hnext, hturn]
    dsimp only
    rw [ih (i + 1) _ (fun n hn => hvalid n (List.mem_cons_of_mem _ hn)) (by omega),
      List.getElem?_modify]
    -- the first turn counts for the asset of the node, and the rest for what it leaves
    cases assets[k]? with
    | none => rfl
    | some asset => exact congrArg some (counted_cons (by omega) node rest k asset).symm

/-! ## The wired model

In a model whose indices are all resolved the wiring does exactly this for every asset at once. -/

/-- What wiring makes of a model whose indexes are valid. -/
def wiredModel (model : EdgeModel) : EdgeModel :=
  { model with
    assets := model.assets.mapIdx fun k asset => counted model.nodes 0 k (wireAsset asset)
    nodes := model.nodes.map wiredNode
    events := model.events.map wiredEvent }

/-- The assets after the node loop. -/
theorem wireNode_counted {model : EdgeModel} (h : Indexed model) :
    (sweep wireNode 0 model.nodes (model.assets.map wireAsset)).state =
      model.assets.mapIdx fun k asset => counted model.nodes 0 k (wireAsset asset) := by
  have hcount := h.nodeCount
  refine List.ext_getElem? fun k => ?_
  rw [wireNode_state _ _ _ (fun node hmem => h.asset_ne (h.nodeAssets node hmem))
      (by unfold edgeMaxNodes at hcount; unfold edgeInvalidIndex; omega),
    List.getElem?_map, List.getElem?_mapIdx, Option.map_map]
  rfl

/-- So the wiring succeeds, with a model that can be written down. -/
theorem Indexed.wire_eq {model : EdgeModel} (h : Indexed model) :
    edgeConfigWireRuntime model = (.ok, wiredModel model) := by
  rw [h.wire, wireNode_counted h]
  rfl

theorem Indexed.wired {model : EdgeModel} (h : Indexed model) : Indexed (wiredModel model) where
  assetCount := by
    -- wiring keeps the lists' lengths and every index in them
    unfold wiredModel
    rw [List.length_mapIdx]
    exact h.assetCount
  nodeCount := by
    unfold wiredModel
    rw [List.length_map]
    exact h.nodeCount
  nodeAssets := by
    intro node hmem
    obtain ⟨node, hnode, rfl⟩ := List.mem_map.mp hmem
    exact (h.nodeAssets node hnode).trans_eq (List.length_mapIdx ..).symm
  eventAssets := by
    intro event hmem
    obtain ⟨event, hevent, rfl⟩ := List.mem_map.mp hmem
    exact (h.eventAssets event hevent).trans_eq (List.length_mapIdx ..).symm
  eventSources := by
    intro event hmem
    obtain ⟨event, hevent, rfl⟩ := List.mem_map.mp hmem
    exact (h.eventSources event hevent).trans_eq (List.length_map ..).symm

/-- Wiring starts from reset counters and follows only what it does not write. -/
theorem wiredModel_idem (model : EdgeModel) : wiredModel (wiredModel model) = wiredModel model := by
  have hcounted : ∀ (k : Nat) (asset : EdgeAsset),
      counted (model.nodes.map wiredNode) 0 k
          (wireAsset (counted model.nodes 0 k (wireAsset asset)))
        = counted model.nodes 0 k (wireAsset asset) := by
    intro k asset
    unfold counted
    rw [List.countP_map, List.findIdx?_map]
    rfl
  unfold wiredModel
  simp only [List.map_map]
  congr 1
  refine List.ext_getElem? fun k => ?_
  rw [List.getElem?_mapIdx, List.getElem?_mapIdx, Option.map_map]
  exact congrArg (Option.map · _) (funext fun asset => hcounted k asset)

/-! ## The partition

Each node belongs to one asset, so the counts add up to the number of nodes, and wiring again
changes nothing. -/

/-- `first` is the smallest index of a node of the asset with this id, and invalid when there is
none. -/
def IsFirstNode (nodes : List EdgeNode) (id : Bytes) (first : Nat) : Prop :=
  (first = edgeInvalidIndex ∧ ∀ node ∈ nodes, node.assetId ≠ id) ∨
    (∃ node, nodes[first]? = some node ∧ node.assetId = id) ∧
      ∀ (j : Nat) (node : EdgeNode), nodes[j]? = some node → node.assetId = id → first ≤ j

/-- The pointers of a model are its indexes, and every asset knows how many of the nodes are its
own and which of them is the first. -/
structure Partitioned (model : EdgeModel) : Prop where
  parents : ∀ asset ∈ model.assets,
    (asset.parentIndex = edgeInvalidIndex ∧ asset.parent = none) ∨
      (asset.parent = some asset.parentIndex ∧ asset.parentIndex < model.assets.length)
  nodeAssets : ∀ node ∈ model.nodes,
    node.asset = some node.assetIndex ∧ node.assetIndex < model.assets.length
  eventAssets : ∀ event ∈ model.events,
    event.asset = some event.assetIndex ∧ event.assetIndex < model.assets.length
  eventSources : ∀ event ∈ model.events,
    event.sourceNode = some event.sourceNodeIndex ∧ event.sourceNodeIndex < model.nodes.length
  nodeCounts : ∀ asset ∈ model.assets,
    asset.nodeCount = model.nodes.countP fun node => node.assetId = asset.id
  firstNodes : ∀ asset ∈ model.assets, IsFirstNode model.nodes asset.id asset.firstNodeIndex
  total : (model.assets.map (·.nodeCount)).sum = model.nodes.length

/-- The first node that is an asset's own is its first node. -/
theorem isFirstNode_findIdx {nodes : List EdgeNode} {own : EdgeNode → Bool} {id : Bytes}
    (h : ∀ node ∈ nodes, own node = true ↔ node.assetId = id) :
    IsFirstNode nodes id ((nodes.findIdx? own).getD edgeInvalidIndex) := by
  cases hfind : nodes.findIdx? own with
  | none =>
    refine .inl ⟨rfl, fun node hmem hid => ?_⟩
    have hnot := List.findIdx?_eq_none_iff.mp hfind node hmem
    rw [(h node hmem).mpr hid] at hnot
    cases hnot
  | some first =>
    obtain ⟨hlt, hown, hbefore⟩ := List.findIdx?_eq_some_iff_getElem.mp hfind
    refine .inr ⟨⟨nodes[first], List.getElem?_eq_getElem hlt, ?_⟩, fun j node hget hid => ?_⟩
    · exact (h _ (List.getElem_mem hlt)).mp hown
    · -- a node before the first one is not one of the asset
      obtain ⟨hj, rfl⟩ := List.getElem?_eq_some_iff.mp hget
      refine Nat.le_of_not_lt fun hbelow => ?_
      exact hbefore j hbelow ((h _ (List.getElem_mem hj)).mpr hid)

/-- Index and id of a node's asset say the same. -/
theorem WellFormed.assetIndex_eq_iff {model : EdgeModel} (h : WellFormed model) {node : EdgeNode}
    (hnode : node ∈ model.nodes) {k : Nat} {asset : EdgeAsset}
    (hasset : model.assets[k]? = some asset) :
    node.assetIndex = k ↔ node.assetId = asset.id := by
  have hresolved := h.nodeAssets node hnode
  constructor
  · rintro rfl
    obtain ⟨asset', hget, hid⟩ := hresolved
    cases Option.some.inj (hget.symm.trans hasset)
    exact hid.symm
  · intro hid
    rw [hid] at hresolved
    exact asset_index_unique h.assetsDistinct hresolved ⟨asset, hasset, rfl⟩

/-- An asset of the wired model is a counted one. -/
theorem mem_wiredModel_assets {model : EdgeModel} {asset : EdgeAsset}
    (h : asset ∈ (wiredModel model).assets) :
    ∃ k loaded, model.assets[k]? = some loaded ∧
      asset = counted model.nodes 0 k (wireAsset loaded) := by
  obtain ⟨k, hk, hget⟩ := List.mem_mapIdx.mp h
  exact ⟨k, _, List.getElem?_eq_getElem hk, hget.symm⟩

/-- Wiring counts from zero. -/
theorem counted_reset_nodeCount (nodes : List EdgeNode) (k : Nat) (asset : EdgeAsset) :
    (counted nodes 0 k (wireAsset asset)).nodeCount = (nodes.map (·.assetIndex)).count k := by
  unfold counted wireAsset
  rw [List.count_eq_countP, List.countP_map]
  exact Nat.zero_add _

/-- Wiring looks for the first node from an invalid index. -/
theorem counted_reset_firstNodeIndex (nodes : List EdgeNode) (k : Nat) (asset : EdgeAsset) :
    (counted nodes 0 k (wireAsset asset)).firstNodeIndex =
      (nodes.findIdx? fun node => node.assetIndex = k).getD edgeInvalidIndex := by
  unfold counted wireAsset
  simp only [if_true, Nat.zero_add, Option.map_id']

/-- Counting every number below `n` in a list of them counts the whole list. -/
theorem sum_count_range {l : List Nat} {n : Nat} (h : ∀ k ∈ l, k < n) :
    ((List.range n).map fun k => l.count k).sum = l.length := by
  have hcard := Multiset.sum_count_eq_card (s := Finset.range n) (m := (l : Multiset Nat))
    fun k hk => Finset.mem_range.mpr (h k hk)
  simp only [Multiset.coe_count, Multiset.coe_card] at hcard
  exact hcard

theorem Indexed.total {model : EdgeModel} (h : Indexed model) :
    ((wiredModel model).assets.map (·.nodeCount)).sum = (wiredModel model).nodes.length := by
  have hcounts : (wiredModel model).assets.map (·.nodeCount) =
      (List.range model.assets.length).map fun k =>
        (model.nodes.map (·.assetIndex)).count k := by
    refine List.ext_getElem? fun k => ?_
    unfold wiredModel
    rw [List.getElem?_map, List.getElem?_map, List.getElem?_mapIdx]
    by_cases hk : k < model.assets.length
    · rw [List.getElem?_eq_getElem hk, List.getElem?_range hk]
      exact congrArg some (counted_reset_nodeCount ..)
    · have hrange : (List.range model.assets.length).length ≤ k := by
        rw [List.length_range]
        omega
      rw [List.getElem?_eq_none (by omega), List.getElem?_eq_none hrange]
      rfl
  have hlt : ∀ k ∈ model.nodes.map (·.assetIndex), k < model.assets.length := by
    intro k hk
    obtain ⟨node, hnode, rfl⟩ := List.mem_map.mp hk
    exact h.nodeAssets node hnode
  -- every node has one index, so it is counted once
  rw [hcounts, sum_count_range hlt]
  unfold wiredModel
  rw [List.length_map, List.length_map]

/-- Each asset has counted its own nodes and points at the first of them. -/
theorem WellFormed.partitioned {model : EdgeModel} (h : WellFormed model) :
    Partitioned (wiredModel model) where
  parents := by
    intro asset hmem
    obtain ⟨k, loaded, hget, rfl⟩ := mem_wiredModel_assets hmem
    show (loaded.parentIndex = edgeInvalidIndex ∧ (wireAsset loaded).parent = none) ∨
      ((wireAsset loaded).parent = some loaded.parentIndex ∧
        loaded.parentIndex < (wiredModel model).assets.length)
    have hlength : (wiredModel model).assets.length = model.assets.length := List.length_mapIdx ..
    unfold wireAsset
    by_cases hroot : loaded.parentIndex = edgeInvalidIndex
    · exact .inl ⟨hroot, if_neg (not_not.mpr hroot)⟩
    · obtain ⟨hnone, hparent⟩ := h.parents k loaded hget
      have hk := (List.getElem?_eq_some_iff.mp hget).1
      have hlt := (hparent (mt hnone.mpr hroot)).1
      exact .inr ⟨if_pos hroot, by omega⟩
  nodeAssets := by
    intro node hmem
    refine ⟨?_, h.indexed.wired.nodeAssets node hmem⟩
    obtain ⟨node, -, rfl⟩ := List.mem_map.mp hmem
    rfl
  eventAssets := by
    intro event hmem
    refine ⟨?_, h.indexed.wired.eventAssets event hmem⟩
    obtain ⟨event, -, rfl⟩ := List.mem_map.mp hmem
    rfl
  eventSources := by
    intro event hmem
    refine ⟨?_, h.indexed.wired.eventSources event hmem⟩
    obtain ⟨event, -, rfl⟩ := List.mem_map.mp hmem
    rfl
  nodeCounts := by
    intro asset hmem
    obtain ⟨k, loaded, hget, rfl⟩ := mem_wiredModel_assets hmem
    rw [counted_reset_nodeCount, List.count_eq_countP, List.countP_map]
    show _ = (model.nodes.map wiredNode).countP fun node => node.assetId = loaded.id
    -- ids are distinct, so belonging to the index and belonging to the id are the same
    rw [List.countP_map]
    refine List.countP_congr fun node hnode => ?_
    simp only [Function.comp_apply, beq_iff_eq, decide_eq_true_eq]
    exact h.assetIndex_eq_iff hnode hget
  firstNodes := by
    intro asset hmem
    obtain ⟨k, loaded, hget, rfl⟩ := mem_wiredModel_assets hmem
    have hown : ∀ node ∈ model.nodes.map wiredNode,
        decide (node.assetIndex = k) = true ↔ node.assetId = loaded.id := by
      intro node hmem
      obtain ⟨node, hnode, rfl⟩ := List.mem_map.mp hmem
      rw [decide_eq_true_iff]
      exact h.assetIndex_eq_iff hnode hget
    have hfirst := isFirstNode_findIdx hown
    rw [List.findIdx?_map] at hfirst
    rw [counted_reset_firstNodeIndex]
    exact hfirst
  total := h.indexed.total

/-- **Wiring an accepted template succeeds and partitions its nodes**, and wiring again changes
nothing. -/
theorem wiring_partitions_nodes (file : Option Bytes) (loaded : EdgeModel)
    (h : edgeConfigLoad file {} = (.ok, loaded)) :
    ∃ model, edgeConfigWireRuntime loaded = (.ok, model) ∧ Partitioned model ∧
      edgeConfigWireRuntime model = (.ok, model) := by
  have hwf := edgeConfigLoad_wellFormed file loaded h
  refine ⟨_, hwf.indexed.wire_eq, hwf.partitioned, ?_⟩
  rw [hwf.indexed.wired.wire_eq, wiredModel_idem]

/-- A train and its pump, with the node of the train between two nodes of the pump. -/
def mixedTemplate : Bytes :=
  templateOf [
    "[plant]", "id=p", "name=P",
    "[asset]", "id=t1", "type=train", "name=T",
    "[asset]", "id=p1", "type=pump", "name=U", "parent=t1",
    "[node]", "asset=p1", "id=v", "name=V", "data_type=double", "access=read", "source=modbus",
      "modbus_unit=1", "modbus_register=40001", "scale=1",
    "[node]", "asset=t1", "id=f", "name=F", "data_type=double", "access=read", "source=modbus",
      "modbus_unit=1", "modbus_register=40003", "scale=1",
    "[node]", "asset=p1", "id=s", "name=S", "data_type=bool", "access=read", "source=modbus",
      "modbus_unit=1", "modbus_register=40005", "scale=1"]

theorem mixedTemplate_partitioned :
    ∃ model, edgeConfigWireRuntime (edgeConfigLoad (some mixedTemplate) {}).2 = (.ok, model) ∧
      Partitioned model ∧ edgeConfigWireRuntime model = (.ok, model) :=
  wiring_partitions_nodes (some mixedTemplate) _ (edgeConfigLoad_of_ok (by decide +kernel))

end OpcuaEdge
