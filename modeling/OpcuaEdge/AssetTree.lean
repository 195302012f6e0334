import OpcuaEdge.AddressSpace
import OpcuaEdge.Keys

/-!
# OpcuaEdge — the address space mirrors the asset tree

`edge_address_space_load` walks the assets and then the nodes in array order and computes every
parent NodeId from a pointer. That each parent is already there rests on the loader: a parent is
declared before its children, so its index is smaller.

* `AssetTree` is what load and wiring guarantee about the assets, pointers included;
* `load_calls` says which calls the load makes when the server accepts each;
* the properties of the tree are then properties of that list (`MirrorsAssetTree`).
-/

namespace OpcuaEdge

open CStr CLoop

/-! ## The wired assets

What the load of the address space needs of a model: each asset knows its parent by index and by
pointer, and the parent comes first. -/

/-- The assets of a loaded and wired model. -/
structure AssetTree (model : EdgeModel) : Prop where
  id : model.id.length < edgeMaxIdLen
  assets : ∀ asset ∈ model.assets, AssetFields asset
  distinct : (model.assets.map (·.id)).Nodup
  pointers : ∀ asset ∈ model.assets, asset.parent =
    if asset.parentIndex ≠ edgeInvalidIndex then some asset.parentIndex else none
  earlier : ∀ (i : Nat) (asset : EdgeAsset), model.assets[i]? = some asset →
    asset.parentIndex ≠ edgeInvalidIndex → asset.parentIndex < i

/-- Up to the counts, the wired assets are the loaded ones with their pointers set. -/
theorem exists_of_uncounted {assets loaded : List EdgeAsset}
    (h : assets.map EdgeAsset.uncounted = loaded.map fun asset => (wireAsset asset).uncounted)
    {i : Nat} {asset : EdgeAsset} (hget : assets[i]? = some asset) :
    ∃ origin first count, loaded[i]? = some origin
      ∧ asset = { wireAsset origin with firstNodeIndex := first, nodeCount := count } := by
  have hi := congrArg (fun l : List EdgeAsset => l[i]?) h
  simp only [List.getElem?_map, hget, Option.map_some] at hi
  obtain ⟨origin, horigin, heq⟩ := Option.map_eq_some_iff.mp hi.symm
  refine ⟨origin, asset.firstNodeIndex, asset.nodeCount, horigin, ?_⟩
  have hback := congrArg (fun uncounted : EdgeAsset =>
    { uncounted with firstNodeIndex := asset.firstNodeIndex, nodeCount := asset.nodeCount }) heq
  exact hback.symm

/-- The loader and the wiring give such a model: parents come first because the template has to say
so. -/
theorem LoadedAndWired.assetTree {file : Option Bytes} {model : EdgeModel}
    (h : LoadedAndWired file model) : AssetTree model := by
  obtain ⟨loaded, hload, hwire⟩ := h
  have hwf := edgeConfigLoad_wellFormed file loaded hload
  obtain ⟨assets, hwired, hassets⟩ := edgeConfigWireRuntime_ok hwf
  cases (Prod.mk.inj (hwire.symm.trans hwired)).2
  -- the wiring changes counts only, so each field is that of an asset as it was loaded
  exact {
    id := hwf.id.2
    assets := by
      intro asset hmem
      obtain ⟨i, hget⟩ := List.mem_iff_getElem?.mp hmem
      obtain ⟨origin, _, _, horigin, rfl⟩ := exists_of_uncounted hassets hget
      exact { hwf.assets origin (List.mem_of_getElem? horigin) with }
    distinct := by
      show (assets.map (·.id)).Nodup
      rw [map_id_of_uncounted hassets]
      exact hwf.assetsDistinct
    pointers := by
      intro asset hmem
      obtain ⟨i, hget⟩ := List.mem_iff_getElem?.mp hmem
      obtain ⟨origin, _, _, _, rfl⟩ := exists_of_uncounted hassets hget
      rfl
    earlier := by
      intro i asset hget hne
      obtain ⟨origin, _, _, horigin, rfl⟩ := exists_of_uncounted hassets hget
      obtain ⟨hroot, hparent⟩ := hwf.parents i origin horigin
      exact (hparent fun hnone => hne (hroot.mpr hnone)).1 }

/-! ## The texts of the objects

Prefix and id of an asset fit in the buffer, so the text of an object is never cut. -/

theorem makePlantNodeid_eq {model : EdgeModel} (h : AssetTree model) :
    makePlantNodeid model = (.ok, lit "plant:" ++ model.id) := by
  refine formatInto_of_lt ?_
  have hid := h.id
  have hprefix : (lit "plant:").length = 6 := by decide
  unfold edgeMaxIdLen at hid
  rw [List.length_append, hprefix]
  unfold edgeNodeidLen
  omega

/-- A text `asset:<id>` with the id of an asset or of a reference to one. -/
theorem formatInto_asset {id : Bytes} (h : id.length < edgeMaxIdLen) :
    formatInto 160 (lit "asset:" ++ id) = (.ok, lit "asset:" ++ id) := by
  refine formatInto_of_lt ?_
  have hprefix : (lit "asset:").length = 6 := by decide
  unfold edgeMaxIdLen at h
  rw [List.length_append, hprefix]
  omega

theorem makeAssetNodeid_eq {model : EdgeModel} (h : AssetTree model) {asset : EdgeAsset}
    (hmem : asset ∈ model.assets) : makeAssetNodeid asset = (.ok, lit "asset:" ++ asset.id) :=
  formatInto_asset (h.assets asset hmem).id

/-! ## The calls of a load

All calls are known in advance: one for the plant, one for each asset and one for each node, in the
order of the model. A load makes them one by one and stops at the first that the library refuses. -/

/-- The NodeId text of the object an asset is placed under. -/
def parentText (model : EdgeModel) (asset : EdgeAsset) : Bytes :=
  match asset.parent.bind (model.assets[·]?) with
  | some parent => lit "asset:" ++ parent.id
  | none => lit "plant:" ++ model.id

/-- The call for the plant. -/
def plannedPlant (ns : UInt16) (model : EdgeModel) : UaAddNode :=
  plantObject ns model (lit "plant:" ++ model.id)

/-- The call for an asset. -/
def plannedObject (ns : UInt16) (model : EdgeModel) (asset : EdgeAsset) : UaAddNode :=
  assetObject ns asset (lit "asset:" ++ asset.id) (parentText model asset)

/-- The call for a node; its index is its context. -/
def plannedVariable (ns : UInt16) (i : Nat) (node : EdgeNode) : UaAddNode :=
  variableNode ns i node (keyText node.assetId node.id) (lit "asset:" ++ node.assetId)

/-- The calls for all assets. -/
def plannedObjects (ns : UInt16) (model : EdgeModel) : List UaAddNode :=
  model.assets.map (plannedObject ns model)

/-- The calls for all nodes. -/
def plannedVariables (ns : UInt16) (model : EdgeModel) : List UaAddNode :=
  model.nodes.zipIdx.map fun p => plannedVariable ns p.2 p.1

theorem AssetTree.parentIndex_lt {model : EdgeModel} (h : AssetTree model) {i : Nat}
    {asset : EdgeAsset} (hget : model.assets[i]? = some asset)
    (hne : asset.parentIndex ≠ edgeInvalidIndex) : asset.parentIndex < model.assets.length :=
  (h.earlier i asset hget hne).trans (List.getElem?_eq_some_iff.mp hget).1

/-- The NodeId text of the parent, which is the plant or another asset. -/
theorem makeParentNodeid_eq {model : EdgeModel} (h : AssetTree model) {asset : EdgeAsset}
    (hmem : asset ∈ model.assets) :
    makeParentNodeid model asset = some (.ok, parentText model asset) := by
  obtain ⟨i, hget⟩ := List.mem_iff_getElem?.mp hmem
  have hpointer := h.pointers asset hmem
  unfold makeParentNodeid parentText
  split_ifs at hpointer with hne
  · -- the pointer of a child leads into the array
    have hparent := List.getElem?_eq_getElem (h.parentIndex_lt hget hne)
    simp only [hpointer, Option.bind_some, hparent, Option.map_some]
    rw [makeAssetNodeid_eq h (List.getElem_mem _)]
  · simp only [hpointer, Option.bind_none]
    rw [makePlantNodeid_eq h]

section Calls

variable {ρ : Type} {lib : UaBuilder ρ} {model : EdgeModel}

/-- Adding an asset makes one call. -/
theorem addAssetObject_eq (h : AssetTree model) {asset : EdgeAsset} (hmem : asset ∈ model.assets)
    (ns : UInt16) (space : AddressSpace ρ) :
    addAssetObject lib ns model asset space =
      (some (space.add lib (plannedObject ns model asset)).1,
        (space.add lib (plannedObject ns model asset)).2) := by
  unfold addAssetObject
  simp only [makeAssetNodeid_eq h hmem, makeParentNodeid_eq h hmem, ne_eq, not_true_eq_false,
    if_false]
  rfl

/-- Adding a node makes one call. -/
theorem addVariableNode_eq (h : AssetTree model) (hwired : Wired model) {node : EdgeNode}
    (hmem : node ∈ model.nodes) (ns : UInt16) (i : Nat) (space : AddressSpace ρ) :
    addVariableNode lib ns model i node space =
      (some (space.add lib (plannedVariable ns i node)).1,
        (space.add lib (plannedVariable ns i node)).2) := by
  obtain ⟨asset, hasset, hid⟩ := hwired.nodeAssets node hmem
  obtain ⟨k, _, hk⟩ := Option.bind_eq_some_iff.mp hasset
  have hparent := makeAssetNodeid_eq h (List.mem_of_getElem? hk)
  rw [hid] at hparent
  unfold addVariableNode
  simp only [makeVariableNodeid_eq hwired hmem, hasset, hparent, ne_eq, not_true_eq_false, or_self,
    if_false]
  rfl

theorem AddressSpace.add_calls (lib : UaBuilder ρ) (node : UaAddNode) (space : AddressSpace ρ) :
    ∃ answer, (space.add lib node).2.calls = space.calls ++ [(node, answer)]
      ∧ (answer = true → (space.add lib node).1 = .ok) := by
  refine ⟨(lib.addNode node space.ua).1, rfl, fun hyes => ?_⟩
  unfold AddressSpace.add
  simp only [hyes, if_true]

/-- One call that the loop goes on from when it is accepted. -/
theorem loadTurnOf_add (node : UaAddNode) (space : AddressSpace ρ) :
    ∃ answer, (loadTurnOf (some (space.add lib node).1, (space.add lib node).2)).1.calls
        = space.calls ++ [(node, answer)]
      ∧ (answer = true →
        (loadTurnOf (some (space.add lib node).1, (space.add lib node).2)).2 = none) := by
  obtain ⟨answer, hcalls, hok⟩ := space.add_calls lib node
  refine ⟨answer, hcalls, fun hyes => ?_⟩
  unfold loadTurnOf
  simp only [hok hyes]

/-- The loop over the assets makes calls, all of them if the library takes every one, and the call
for each asset then is the planned one. -/
theorem objects_loop (lib : UaBuilder ρ) (h : AssetTree model) (ns : UInt16)
    (space : AddressSpace ρ) :
    ∃ made, (visit (fun _ asset space => loadTurnOf (addAssetObject lib ns model asset space))
        0 model.assets space).1.calls = space.calls ++ made
      ∧ ((∀ call ∈ made, call.2 = true) →
        (visit (fun _ asset space => loadTurnOf (addAssetObject lib ns model asset space))
          0 model.assets space).2 = none ∧ made.map Prod.fst = plannedObjects ns model) := by
  have hplan : plannedObjects ns model
      = model.assets.zipIdx.map fun p => plannedObject ns model p.1 := by
    unfold plannedObjects
    nth_rewrite 1 [← List.zipIdx_map_fst 0 model.assets]
    rw [List.map_map]
    rfl
  -- with the plan read along the same list, each turn adds the call of its own asset
  rw [hplan]
  refine visit_log AddressSpace.calls (fun _ asset => plannedObject ns model asset) model.assets 0
    space fun asset hmem i space => ?_
  rw [addAssetObject_eq h hmem]
  exact loadTurnOf_add _ _

theorem variables_loop (lib : UaBuilder ρ) (h : AssetTree model) (hwired : Wired model)
    (ns : UInt16) (space : AddressSpace ρ) :
    ∃ made, (visit (fun i node space => loadTurnOf (addVariableNode lib ns model i node space))
        0 model.nodes space).1.calls = space.calls ++ made
      ∧ ((∀ call ∈ made, call.2 = true) →
        (visit (fun i node space => loadTurnOf (addVariableNode lib ns model i node space))
          0 model.nodes space).2 = none ∧ made.map Prod.fst = plannedVariables ns model) :=
  visit_log AddressSpace.calls (plannedVariable ns) model.nodes 0 space fun node hmem i space => by
    rw [addVariableNode_eq h hwired hmem]
    exact loadTurnOf_add _ _

/-- **The calls of a load whose nodes are all accepted**: the plant, the assets and the variables,
each in array order. -/
theorem load_calls (h : AssetTree model) (hwired : Wired model) (ua : ρ)
    (haccepted : ∀ call ∈ (edgeAddressSpaceLoad lib model ua).2.calls, call.2 = true) :
    (edgeAddressSpaceLoad lib model ua).1 = some .ok
      ∧ (edgeAddressSpaceLoad lib model ua).2.calls.map Prod.fst
        = plannedPlant (lib.addNamespace edgeNamespaceUri ua).1 model
          :: (plannedObjects (lib.addNamespace edgeNamespaceUri ua).1 model
            ++ plannedVariables (lib.addNamespace edgeNamespaceUri ua).1 model) := by
  unfold edgeAddressSpaceLoad at haccepted ⊢
  generalize lib.addNamespace edgeNamespaceUri ua = named at haccepted ⊢
  obtain ⟨ns, ua⟩ := named
  have hplant : addPlantObject lib ns model { ua := ua }
      = AddressSpace.add lib (plannedPlant ns model) { ua := ua } := by
    unfold addPlantObject
    simp only [makePlantNodeid_eq h, ne_eq, not_true_eq_false, if_false]
    rfl
  obtain ⟨answer, hcalls, hok⟩ := AddressSpace.add_calls lib (plannedPlant ns model) { ua := ua }
  rw [← hplant] at hcalls hok
  simp only at haccepted ⊢
  generalize addPlantObject lib ns model { ua := ua } = plant at hcalls hok haccepted ⊢
  by_cases hstatus : plant.1 = .ok
  · rw [if_neg (not_not.mpr hstatus)] at haccepted ⊢
    obtain ⟨made, hmade, hmadeDone⟩ := objects_loop lib h ns plant.2
    generalize visit (fun _ asset space => loadTurnOf (addAssetObject lib ns model asset space))
      0 model.assets plant.2 = assets at hmade hmadeDone haccepted ⊢
    obtain ⟨made', hmade', hmadeDone'⟩ := variables_loop lib h hwired ns assets.1
    cases hexit : assets.2 with
    | some status =>
      -- the loop over the assets stopped, so one of its calls was refused
      simp only [hexit, hmade, hcalls] at haccepted
      have hnone := (hmadeDone fun call hmem =>
        haccepted call (List.mem_append_right _ hmem)).1
      rw [hnone] at hexit
      cases hexit
    | none =>
      simp only [hexit, hmade', hmade, hcalls] at haccepted ⊢
      obtain ⟨-, hobjects⟩ := hmadeDone fun call hmem =>
        haccepted call (List.mem_append_left _ (List.mem_append_right _ hmem))
      obtain ⟨hdone, hvariables⟩ := hmadeDone' fun call hmem =>
        haccepted call (List.mem_append_right _ hmem)
      refine ⟨by rw [hdone]; rfl, ?_⟩
      rw [List.map_append, List.map_append, hobjects, hvariables]
      rfl
  · -- a refused plant is the last call
    rw [if_pos hstatus, hcalls] at haccepted
    have hlast : (plannedPlant ns model, answer) ∈ [(plannedPlant ns model, answer)] :=
      List.mem_singleton_self _
    have hyes : answer = true := haccepted _ (List.mem_append_right _ hlast)
    exact absurd (hok hyes) hstatus

end Calls

/-! ## The tree

What the calls describe is the tree of assets: each object stands below its parent, each variable
below its asset, and the plant is at the root. -/

/-- The parent of the node with the given NodeId. -/
def placeOf (calls : List UaAddNode) (id : UaNodeId) : UaNodeId :=
  ((calls.find? (·.nodeId = id)).map (·.parent)).getD .objectsFolder

/-- The plant, one object per asset and one variable per node, added in this order, form the tree
that the model describes. -/
structure MirrorsAssetTree (model : EdgeModel) (ns : UInt16) (plant : UaAddNode)
    (objects vars : List UaAddNode) : Prop where
  plant_eq : plant = plantObject ns model (makePlantNodeid model).2
  object_count : objects.length = model.assets.length
  object_of : ∀ (i : Nat) (asset : EdgeAsset), model.assets[i]? = some asset →
    ∃ parentId, objects[i]? = some (assetObject ns asset (makeAssetNodeid asset).2 parentId)
  variable_count : vars.length = model.nodes.length
  variable_of : ∀ (k : Nat) (node : EdgeNode), model.nodes[k]? = some node →
    ∃ nodeId parentId, makeVariableNodeid model node = some (.ok, nodeId) ∧
      vars[k]? = some (variableNode ns k node nodeId parentId)
  parents_first : ∀ (k : Nat) (call : UaAddNode), (objects ++ vars)[k]? = some call →
    ∃ earlier ∈ plant :: (objects ++ vars).take k, earlier.nodeId = call.parent
  distinct : ((plant :: objects).map (·.nodeId)).Nodup
  apart : ∀ object ∈ plant :: objects, ∀ call ∈ vars, object.nodeId ≠ call.nodeId
  under_parent : ∀ (i : Nat) (asset : EdgeAsset) (object : UaAddNode),
    model.assets[i]? = some asset → objects[i]? = some object →
      asset.parentIndex ≠ edgeInvalidIndex →
      ∃ parent, objects[asset.parentIndex]? = some parent ∧ object.parent = parent.nodeId
  under_plant : ∀ (i : Nat) (asset : EdgeAsset) (object : UaAddNode),
    model.assets[i]? = some asset → objects[i]? = some object →
      asset.parentIndex = edgeInvalidIndex → object.parent = plant.nodeId
  under_asset : ∀ (k : Nat) (node : EdgeNode) (call : UaAddNode),
    model.nodes[k]? = some node → vars[k]? = some call →
      ∃ (i : Nat) (asset : EdgeAsset) (object : UaAddNode), model.assets[i]? = some asset ∧
        asset.id = node.assetId ∧ objects[i]? = some object ∧ call.parent = object.nodeId
  reaches_plant : ∀ call ∈ objects ++ vars, ∃ steps,
    (placeOf (plant :: (objects ++ vars)))^[steps] call.parent = plant.nodeId

section Plan

variable {model : EdgeModel} {ns : UInt16}

/-- The `i`-th object is that of the `i`-th asset .. -/
theorem getElem?_plannedObjects (ns : UInt16) {i : Nat} {asset : EdgeAsset}
    (h : model.assets[i]? = some asset) :
    (plannedObjects ns model)[i]? = some (plannedObject ns model asset) := by
  unfold plannedObjects
  rw [List.getElem?_map, h]
  rfl

/-- .. and there are no other objects. -/
theorem exists_of_plannedObjects {i : Nat} {object : UaAddNode}
    (h : (plannedObjects ns model)[i]? = some object) :
    ∃ asset, model.assets[i]? = some asset ∧ object = plannedObject ns model asset := by
  unfold plannedObjects at h
  rw [List.getElem?_map] at h
  obtain ⟨asset, hget, rfl⟩ := Option.map_eq_some_iff.mp h
  exact ⟨asset, hget, rfl⟩

/-- The `k`-th variable is that of the `k`-th node .. -/
theorem getElem?_plannedVariables {k : Nat} {node : EdgeNode} (h : model.nodes[k]? = some node) :
    (plannedVariables ns model)[k]? = some (plannedVariable ns k node) := by
  unfold plannedVariables
  rw [List.getElem?_map, List.getElem?_zipIdx, h]
  simp only [Option.map_some, Nat.zero_add]

/-- .. and there are no other variables. -/
theorem exists_of_plannedVariables {k : Nat} {call : UaAddNode}
    (h : (plannedVariables ns model)[k]? = some call) :
    ∃ node, model.nodes[k]? = some node ∧ call = plannedVariable ns k node := by
  unfold plannedVariables at h
  rw [List.getElem?_map, List.getElem?_zipIdx] at h
  obtain ⟨p, hp, rfl⟩ := Option.map_eq_some_iff.mp h
  obtain ⟨node, hget, rfl⟩ := Option.map_eq_some_iff.mp hp
  exact ⟨node, hget, by simp only [Nat.zero_add]⟩

/-- A child's parent NodeId is that of the object of its parent. -/
theorem plannedObject_parent (ns : UInt16) (h : AssetTree model) {i : Nat} {asset : EdgeAsset}
    (hget : model.assets[i]? = some asset) (hne : asset.parentIndex ≠ edgeInvalidIndex) :
    ∃ parent, model.assets[asset.parentIndex]? = some parent
      ∧ (plannedObject ns model asset).parent = (plannedObject ns model parent).nodeId := by
  have hpointer := h.pointers asset (List.mem_of_getElem? hget)
  rw [if_pos hne] at hpointer
  have hparent := List.getElem?_eq_getElem (h.parentIndex_lt hget hne)
  refine ⟨_, hparent, ?_⟩
  show UaNodeId.string ns (parentText model asset) = _
  unfold parentText
  simp only [hpointer, Option.bind_some, hparent]
  rfl

theorem plannedObject_root (h : AssetTree model) {asset : EdgeAsset} (hmem : asset ∈ model.assets)
    (heq : asset.parentIndex = edgeInvalidIndex) :
    (plannedObject ns model asset).parent = (plannedPlant ns model).nodeId := by
  have hpointer := h.pointers asset hmem
  rw [if_neg (not_not.mpr heq)] at hpointer
  show UaNodeId.string ns (parentText model asset) = _
  unfold parentText
  simp only [hpointer, Option.bind_none]
  rfl

/-- A variable's parent NodeId is that of the object of the asset it names. -/
theorem plannedVariable_parent (ns : UInt16) (hwired : Wired model) {node : EdgeNode}
    (hmem : node ∈ model.nodes) (k : Nat) :
    ∃ (i : Nat) (asset : EdgeAsset), model.assets[i]? = some asset ∧ asset.id = node.assetId
      ∧ (plannedVariable ns k node).parent = (plannedObject ns model asset).nodeId := by
  obtain ⟨asset, hasset, hid⟩ := hwired.nodeAssets node hmem
  obtain ⟨i, _, hget⟩ := Option.bind_eq_some_iff.mp hasset
  refine ⟨i, asset, hget, hid, ?_⟩
  show UaNodeId.string ns (lit "asset:" ++ node.assetId) = .string ns (lit "asset:" ++ asset.id)
  rw [hid]

/-! The three kinds of NodeId differ in their first bytes. -/

/-- The prefix tells the plant from the assets .. -/
theorem plant_text_ne_asset (a b : Bytes) : lit "plant:" ++ a ≠ lit "asset:" ++ b := by
  have hplant : lit "plant:" = [112, 108, 97, 110, 116, 58] := by decide
  have hasset : lit "asset:" = [97, 115, 115, 101, 116, 58] := by decide
  rw [hplant, hasset]
  exact fun h => absurd (List.cons.inj h).1 (by decide)

/-- .. the plant from the nodes .. -/
theorem plant_text_ne_node (a b id : Bytes) : lit "plant:" ++ a ≠ keyText b id := by
  have hplant : lit "plant:" = [112, 108, 97, 110, 116, 58] := by decide
  have hnode : lit "node:" = [110, 111, 100, 101, 58] := by decide
  unfold keyText
  rw [hplant, hnode]
  exact fun h => absurd (List.cons.inj h).1 (by decide)

/-- .. and the assets from the nodes. -/
theorem asset_text_ne_node (a b id : Bytes) : lit "asset:" ++ a ≠ keyText b id := by
  have hasset : lit "asset:" = [97, 115, 115, 101, 116, 58] := by decide
  have hnode : lit "node:" = [110, 111, 100, 101, 58] := by decide
  unfold keyText
  rw [hasset, hnode]
  exact fun h => absurd (List.cons.inj h).1 (by decide)

theorem planned_distinct (h : AssetTree model) :
    ((plannedPlant ns model :: plannedObjects ns model).map (·.nodeId)).Nodup := by
  rw [List.map_cons]
  refine List.nodup_cons.mpr ⟨fun hmem => ?_, ?_⟩
  · obtain ⟨object, hobject, heq⟩ := List.mem_map.mp hmem
    obtain ⟨asset, _, rfl⟩ := List.mem_map.mp hobject
    exact plant_text_ne_asset _ _ (UaNodeId.string.inj heq).2.symm
  · -- the asset ids are distinct, and the text is injective in them
    have hids := h.distinct
    unfold plannedObjects
    rw [List.map_map]
    refine List.pairwise_map.mpr ((List.pairwise_map.mp hids).imp fun {a b} hne heq => hne ?_)
    exact List.append_cancel_left (UaNodeId.string.inj heq).2

theorem planned_apart {object call : UaAddNode}
    (hobject : object ∈ plannedPlant ns model :: plannedObjects ns model)
    (hcall : call ∈ plannedVariables ns model) : object.nodeId ≠ call.nodeId := by
  obtain ⟨p, _, rfl⟩ := List.mem_map.mp hcall
  intro heq
  rcases List.mem_cons.mp hobject with rfl | hobject
  · exact plant_text_ne_node _ _ _ (UaNodeId.string.inj heq).2
  · obtain ⟨asset, _, rfl⟩ := List.mem_map.mp hobject
    exact asset_text_ne_node _ _ _ (UaNodeId.string.inj heq).2

end Plan

/-- Among calls with distinct NodeIds, and before any others, the place of a NodeId is the parent
of its call. -/
theorem placeOf_mem {calls rest : List UaAddNode} (h : (calls.map (·.nodeId)).Nodup)
    {call : UaAddNode} (hmem : call ∈ calls) :
    placeOf (calls ++ rest) call.nodeId = call.parent := by
  induction calls with
  | nil => cases hmem
  | cons first calls ih =>
    rw [List.map_cons, List.nodup_cons] at h
    unfold placeOf
    rw [List.cons_append, List.find?_cons]
    rcases List.mem_cons.mp hmem with rfl | hmem
    · simp only [decide_true, Option.map_some, Option.getD_some]
    · have hne : first.nodeId ≠ call.nodeId := fun heq =>
        h.1 (heq ▸ List.mem_map_of_mem hmem)
      simp only [hne, decide_false]
      exact ih h.2 hmem

theorem placeOf_planned {model : EdgeModel} {ns : UInt16} (h : AssetTree model) {asset : EdgeAsset}
    (hmem : asset ∈ model.assets) :
    placeOf (plannedPlant ns model :: (plannedObjects ns model ++ plannedVariables ns model))
      (plannedObject ns model asset).nodeId = (plannedObject ns model asset).parent := by
  rw [← List.cons_append]
  exact placeOf_mem (planned_distinct h) (List.mem_cons_of_mem _ (List.mem_map_of_mem hmem))

/-- From every asset the plant is reached, by induction along the array: a parent has a smaller
index. -/
theorem object_reaches_plant (ns : UInt16) {model : EdgeModel} (h : AssetTree model) :
    ∀ (i : Nat) (asset : EdgeAsset), model.assets[i]? = some asset → ∃ steps,
      (placeOf
        (plannedPlant ns model :: (plannedObjects ns model ++ plannedVariables ns model)))^[steps]
        (plannedObject ns model asset).parent = (plannedPlant ns model).nodeId := by
  intro i
  induction i using Nat.strong_induction_on with
  | _ i ih =>
    intro asset hget
    by_cases hroot : asset.parentIndex = edgeInvalidIndex
    · exact ⟨0, plannedObject_root h (List.mem_of_getElem? hget) hroot⟩
    · obtain ⟨parent, hparent, hplace⟩ := plannedObject_parent ns h hget hroot
      obtain ⟨steps, hsteps⟩ := ih _ (h.earlier i asset hget hroot) parent hparent
      refine ⟨steps + 1, ?_⟩
      rw [Function.iterate_succ_apply, hplace, placeOf_planned h (List.mem_of_getElem? hparent)]
      exact hsteps

/-- A planned call is the object of an asset or, after all of them, the variable of a node. -/
theorem getElem?_planned {model : EdgeModel} {ns : UInt16} {k : Nat} {call : UaAddNode}
    (h : (plannedObjects ns model ++ plannedVariables ns model)[k]? = some call) :
    (∃ asset, model.assets[k]? = some asset ∧ call = plannedObject ns model asset)
      ∨ ∃ node ∈ model.nodes, model.assets.length ≤ k ∧ ∃ j, call = plannedVariable ns j node := by
  have hlength : (plannedObjects ns model).length = model.assets.length := List.length_map _
  by_cases hk : k < (plannedObjects ns model).length
  · rw [List.getElem?_append_left hk] at h
    exact .inl (exists_of_plannedObjects h)
  · rw [List.getElem?_append_right (by omega)] at h
    obtain ⟨node, hnode, hcall⟩ := exists_of_plannedVariables h
    exact .inr ⟨node, List.mem_of_getElem? hnode, by omega, _, hcall⟩

/-- An object whose index is below `k` is added before call `k`. -/
theorem plannedObject_mem_take (ns : UInt16) {model : EdgeModel} {i k : Nat} {asset : EdgeAsset}
    (hget : model.assets[i]? = some asset) (hlt : i < k) :
    plannedObject ns model asset
      ∈ (plannedObjects ns model ++ plannedVariables ns model).take k := by
  have hobject := getElem?_plannedObjects ns hget
  have hlength : i < (plannedObjects ns model).length := (List.getElem?_eq_some_iff.mp hobject).1
  refine List.mem_of_getElem? (i := i) ?_
  rw [List.getElem?_take_of_lt hlt, List.getElem?_append_left hlength]
  exact hobject

/-- **Parents first**: a parent asset has a smaller index, and all objects come before the
variables. -/
theorem planned_parents_first {model : EdgeModel} {ns : UInt16} (h : AssetTree model)
    (hwired : Wired model) {k : Nat} {call : UaAddNode}
    (hget : (plannedObjects ns model ++ plannedVariables ns model)[k]? = some call) :
    ∃ earlier ∈ plannedPlant ns model ::
        (plannedObjects ns model ++ plannedVariables ns model).take k,
      earlier.nodeId = call.parent := by
  rcases getElem?_planned hget with ⟨asset, hasset, rfl⟩ | ⟨node, hnode, hcount, j, rfl⟩
  · -- a root hangs below the plant, any other asset below one of a lower index
    by_cases hroot : asset.parentIndex = edgeInvalidIndex
    · have hplace : (plannedObject ns model asset).parent = (plannedPlant ns model).nodeId :=
        plannedObject_root h (List.mem_of_getElem? hasset) hroot
      exact ⟨_, List.mem_cons_self, hplace.symm⟩
    · obtain ⟨parent, hparent, hplace⟩ := plannedObject_parent ns h hasset hroot
      have hlt : asset.parentIndex < k := h.earlier k asset hasset hroot
      exact ⟨_, List.mem_cons_of_mem _ (plannedObject_mem_take ns hparent hlt), hplace.symm⟩
  · -- a variable comes behind all the objects, its owner among them
    obtain ⟨i, asset, hi, _, hplace⟩ := plannedVariable_parent ns hwired hnode j
    have hlt : i < k := (List.getElem?_eq_some_iff.mp hi).1.trans_le hcount
    exact ⟨_, List.mem_cons_of_mem _ (plannedObject_mem_take ns hi hlt), hplace.symm⟩

/-- From every node of the tree the way up ends at the plant. -/
theorem planned_reaches_plant {model : EdgeModel} {ns : UInt16} (h : AssetTree model)
    (hwired : Wired model) {call : UaAddNode}
    (hmem : call ∈ plannedObjects ns model ++ plannedVariables ns model) :
    ∃ steps, (placeOf
        (plannedPlant ns model :: (plannedObjects ns model ++ plannedVariables ns model)))^[steps]
      call.parent = (plannedPlant ns model).nodeId := by
  obtain ⟨k, hget⟩ := List.mem_iff_getElem?.mp hmem
  rcases getElem?_planned hget with ⟨asset, hasset, rfl⟩ | ⟨node, hnode, _, j, rfl⟩
  · exact object_reaches_plant ns h k asset hasset
  · -- one step up from a variable is its asset
    obtain ⟨i, asset, hi, _, hplace⟩ := plannedVariable_parent ns hwired hnode j
    obtain ⟨steps, hsteps⟩ := object_reaches_plant ns h i asset hi
    refine ⟨steps + 1, ?_⟩
    rw [Function.iterate_succ_apply, hplace, placeOf_planned h (List.mem_of_getElem? hi)]
    exact hsteps

theorem mirrorsAssetTree_planned {model : EdgeModel} {ns : UInt16} (h : AssetTree model)
    (hwired : Wired model) :
    MirrorsAssetTree model ns (plannedPlant ns model) (plannedObjects ns model)
      (plannedVariables ns model) where
  -- every NodeId fits its buffer, so the texts in the calls are those of the model
  plant_eq := by rw [makePlantNodeid_eq h]; rfl
  object_count := List.length_map _
  object_of i asset hget := by
    rw [makeAssetNodeid_eq h (List.mem_of_getElem? hget)]
    exact ⟨_, getElem?_plannedObjects ns hget⟩
  variable_count := (List.length_map _).trans List.length_zipIdx
  variable_of k node hget :=
    ⟨_, _, makeVariableNodeid_eq hwired (List.mem_of_getElem? hget), getElem?_plannedVariables hget⟩
  parents_first k call hget := planned_parents_first h hwired hget
  distinct := planned_distinct h
  apart object hobject call hcall := planned_apart hobject hcall
  under_parent i asset object hget hobject hne := by
    obtain ⟨parent, hparent, hplace⟩ := plannedObject_parent ns h hget hne
    cases Option.some.inj (hobject.symm.trans (getElem?_plannedObjects ns hget))
    exact ⟨_, getElem?_plannedObjects ns hparent, hplace⟩
  under_plant i asset object hget hobject heq := by
    cases Option.some.inj (hobject.symm.trans (getElem?_plannedObjects ns hget))
    exact plannedObject_root h (List.mem_of_getElem? hget) heq
  under_asset k node call hget hcall := by
    obtain ⟨i, asset, hi, hid, hplace⟩ :=
      plannedVariable_parent ns hwired (List.mem_of_getElem? hget) k
    cases Option.some.inj (hcall.symm.trans (getElem?_plannedVariables hget))
    exact ⟨i, asset, _, hi, hid, getElem?_plannedObjects ns hi, hplace⟩
  reaches_plant call hmem := planned_reaches_plant h hwired hmem

/-- **The address space mirrors the asset tree, parents first.** -/
theorem address_space_mirrors_asset_tree {ρ : Type} (lib : UaBuilder ρ) (ua : ρ)
    (file : Option Bytes) (model : EdgeModel) (h : LoadedAndWired file model)
    (haccepted : ∀ call ∈ (edgeAddressSpaceLoad lib model ua).2.calls, call.2 = true) :
    (edgeAddressSpaceLoad lib model ua).1 = some .ok ∧
      ∃ plant objects vars,
        (edgeAddressSpaceLoad lib model ua).2.calls.map Prod.fst = plant :: (objects ++ vars) ∧
          MirrorsAssetTree model (lib.addNamespace edgeNamespaceUri ua).1 plant objects vars := by
  obtain ⟨hstatus, hcalls⟩ := load_calls h.assetTree h.wired ua haccepted
  exact ⟨hstatus, _, _, _, hcalls, mirrorsAssetTree_planned h.assetTree h.wired⟩

/-- A server that knows some NodeIds: it accepts a new node under a known parent. -/
def treeServer : UaBuilder (List UaNodeId) where
  addNamespace _ known := (2, known)
  addNode node known :=
    if node.parent ∈ known ∧ node.nodeId ∉ known then (true, node.nodeId :: known)
    else (false, known)

/-- A pump in a train of the plant. -/
def trainTemplate : Bytes :=
  templateOf [
    "[plant]", "id=p", "name=P",
    "[asset]", "id=t1", "type=train", "name=T",
    "[asset]", "id=p1", "type=pump", "name=U", "parent=t1",
    "[node]", "asset=p1", "id=v", "name=V", "data_type=double", "access=read", "source=modbus",
      "modbus_unit=1", "modbus_register=40001", "scale=1"]

/-- The model of this template, wired. -/
def trainModel : EdgeModel where
  id := lit "p"
  name := lit "P"
  assets :=
    [{ id := lit "t1"
       type := lit "train"
       name := lit "T"
       parentIndex := edgeInvalidIndex
       firstNodeIndex := edgeInvalidIndex },
     { id := lit "p1"
       type := lit "pump"
       name := lit "U"
       parentId := lit "t1"
       parent := some 0
       nodeCount := 1 }]
  nodes :=
    [{ id := lit "v"
       name := lit "V"
       assetId := lit "p1"
       assetIndex := 1
       asset := some 1
       dataType := .double
       modbusUnit := 1
       modbusRegister := 40001
       scale := .fin 1 }]

theorem trainModel_loadedAndWired : LoadedAndWired (some trainTemplate) trainModel := by
  have haccepted : (edgeConfigLoad (some trainTemplate) {}).1 = .ok := by decide +kernel
  have hmodel : startupModel (some trainTemplate) = trainModel := by decide +kernel
  rw [← hmodel]
  exact loadedAndWired_of_ok haccepted

/-- Its address space, in front of a server that takes every node. -/
theorem train_address_space :
    (edgeAddressSpaceLoad treeServer trainModel [.objectsFolder]).1 = some .ok ∧
      ∃ plant objects vars,
        (edgeAddressSpaceLoad treeServer trainModel [.objectsFolder]).2.calls.map Prod.fst
            = plant :: (objects ++ vars) ∧
          MirrorsAssetTree trainModel 2 plant objects vars :=
  address_space_mirrors_asset_tree treeServer [.objectsFolder] (some trainTemplate) trainModel
    trainModel_loadedAndWired (by decide +kernel)

end OpcuaEdge
