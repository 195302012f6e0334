import OpcuaEdge.Parsed

/-!
# OpcuaEdge — accepted templates give well-formed models

`WellFormed` is what the rest of the program takes for granted when it follows an index without
a check. `edgeConfigLoad_wellFormed` derives it for every file the loader accepts:

* the buffer bounds come from the line state machine (`loadLines_parsed`);
* `validate_required_fields` and `validate_duplicates` contribute non-emptiness and uniqueness
  (`requiredFields_of_ok`, `distinct_of_ok`);
* the resolver contributes the indexes. Its three loops only write index fields, so identity,
  bounds and uniqueness carry over (`resolve_spec`).
-/

namespace OpcuaEdge

open CStr CLoop

/-! ## The target

What an accepted model is like. The three record structures add to the buffer bounds that the
required fields are there; the references are stated on the indexes that the resolver stored. -/

/-- An asset with its required fields. -/
structure AssetFields (asset : EdgeAsset) : Prop extends AssetBounded asset where
  id_ne : asset.id ≠ []
  type_ne : asset.type ≠ []
  name_ne : asset.name ≠ []

/-- A node with its required fields: a unit from 1 to 247 and a register other than zero. -/
structure NodeFields (node : EdgeNode) : Prop extends NodeBounded node where
  id_ne : node.id ≠ []
  name_ne : node.name ≠ []
  assetId_ne : node.assetId ≠ []
  dataType_set : node.dataType ≠ .unset
  unit_pos : 1 ≤ node.modbusUnit
  register_ne : node.modbusRegister ≠ 0

/-- An event with its required fields. -/
structure EventFields (event : EdgeEvent) : Prop extends EventBounded event where
  id_ne : event.id ≠ []
  assetId_ne : event.assetId ≠ []
  sourceNodeId_ne : event.sourceNodeId ≠ []
  condition_set : event.condition ≠ .unset
  severity_ne : event.severity ≠ 0

/-- The parent of asset `i` is missing exactly when the template names none or the plant, and
otherwise it is an earlier asset with the named id. -/
def ParentResolved (model : EdgeModel) (i : Nat) (asset : EdgeAsset) : Prop :=
  (asset.parentIndex = edgeInvalidIndex ↔ asset.parentId = [] ∨ asset.parentId = model.id)
    ∧ (¬ (asset.parentId = [] ∨ asset.parentId = model.id) →
      asset.parentIndex < i
        ∧ ∃ parent, model.assets[asset.parentIndex]? = some parent ∧ parent.id = asset.parentId)

/-- The record's asset index is in range and names the asset the template names. -/
def AssetResolved (model : EdgeModel) (assetIndex : Nat) (assetId : Bytes) : Prop :=
  ∃ asset, model.assets[assetIndex]? = some asset ∧ asset.id = assetId

/-- The event's source index is in range and denotes the only node of the event's asset with the
named id. -/
def SourceResolved (model : EdgeModel) (event : EdgeEvent) : Prop :=
  (∃ node, model.nodes[event.sourceNodeIndex]? = some node
      ∧ node.assetId = event.assetId ∧ node.id = event.sourceNodeId)
    ∧ ∀ j node, model.nodes[j]? = some node →
      node.assetId = event.assetId → node.id = event.sourceNodeId → j = event.sourceNodeIndex

/-- A model that passes all validation. -/
structure WellFormed (model : EdgeModel) : Prop where
  assetCount : model.assets.length ≤ edgeMaxAssets
  nodeCount : model.nodes.length ≤ edgeMaxNodes
  eventCount : model.events.length ≤ edgeMaxEvents
  id : model.id ≠ [] ∧ model.id.length < edgeMaxIdLen
  name : model.name ≠ [] ∧ model.name.length < edgeMaxNameLen
  assets : ∀ asset ∈ model.assets, AssetFields asset
  nodes : ∀ node ∈ model.nodes, NodeFields node
  events : ∀ event ∈ model.events, EventFields event
  assetsDistinct : (model.assets.map (·.id)).Nodup
  nodesDistinct : (model.nodes.map fun node => (node.assetId, node.id)).Nodup
  eventsDistinct : (model.events.map (·.id)).Nodup
  parents : ∀ i asset, model.assets[i]? = some asset → ParentResolved model i asset
  nodeAssets : ∀ node ∈ model.nodes, AssetResolved model node.assetIndex node.assetId
  eventAssets : ∀ event ∈ model.events, AssetResolved model event.assetIndex event.assetId
  eventSources : ∀ event ∈ model.events, SourceResolved model event

/-! ## Required fields and duplicates

The first two passes of the validation change nothing, so what they test holds of the model they
are given. -/

/-- A model that passes the first pass has all required fields. -/
theorem requiredFields_of_ok {model : EdgeModel} (hp : Parsed model)
    (hok : validateRequiredFields model = .ok) :
    (model.id ≠ [] ∧ model.name ≠ []) ∧ (∀ asset ∈ model.assets, AssetFields asset)
      ∧ (∀ node ∈ model.nodes, NodeFields node) ∧ (∀ event ∈ model.events, EventFields event) := by
  unfold validateRequiredFields at hok
  -- what the three loops have let pass, on top of what the parser bounds
  split_ifs at hok with hplant hassets hnodes hevents
  simp only [not_or] at hplant
  refine ⟨hplant, fun asset hmem => ?_, fun node hmem => ?_, fun event hmem => ?_⟩
  · have hc := List.all_eq_true.mp hassets asset hmem
    simp only [assetComplete, Bool.not_eq_true', Bool.or_eq_false_iff,
      decide_eq_false_iff_not] at hc
    exact { hp.assets asset hmem with id_ne := hc.1.1, type_ne := hc.1.2, name_ne := hc.2 }
  · have hc := List.all_eq_true.mp hnodes node hmem
    simp only [nodeComplete, Bool.not_eq_true', Bool.or_eq_false_iff, decide_eq_false_iff_not] at hc
    obtain ⟨⟨⟨⟨⟨hasset, hid⟩, hname⟩, htype⟩, hunit⟩, hreg⟩ := hc
    exact { hp.nodes node hmem with
      id_ne := hid, name_ne := hname, assetId_ne := hasset, dataType_set := htype
      unit_pos := by
        have : node.modbusUnit.toNat ≠ 0 := fun h => hunit (UInt16.toNat_inj.mp h)
        exact UInt16.le_iff_toNat_le.mpr (Nat.one_le_iff_ne_zero.mpr this)
      register_ne := hreg }
  · have hc := List.all_eq_true.mp hevents event hmem
    simp only [eventComplete, Bool.not_eq_true', Bool.or_eq_false_iff,
      decide_eq_false_iff_not] at hc
    obtain ⟨⟨⟨⟨hasset, hid⟩, hsource⟩, hcond⟩, hsev⟩ := hc
    exact { hp.events event hmem with
      id_ne := hid, assetId_ne := hasset, sourceNodeId_ne := hsource, condition_set := hcond
      severity_ne := hsev }

/-- The nested loops find no pair exactly when no two elements, taken in order, satisfy `p`. -/
theorem anyPair_eq_false {α : Type} {p : α → α → Bool} {l : List α} (h : anyPair p l = false) :
    l.Pairwise fun a b => p a b = false := by
  induction l with
  | nil => exact List.Pairwise.nil
  | cons a rest ih =>
    rw [anyPair, Bool.or_eq_false_iff] at h
    refine List.Pairwise.cons (fun b hb => ?_) (ih h.2)
    have hany := List.any_eq_false.mp h.1 b hb
    simpa using hany

/-- `find_event(id of events[i]) == i` for all `i` means that the ids are pairwise distinct. -/
theorem eventIds_nodup {model : EdgeModel}
    (h : model.events.zipIdx.any (fun e => findEvent model e.1.id ≠ e.2) = false) :
    (model.events.map (·.id)).Nodup := by
  have hfirst : ∀ i (event : EdgeEvent), model.events[i]? = some event →
      findEvent model event.id = i := by
    intro i event hget
    have hmem : (event, i) ∈ model.events.zipIdx := List.mem_zipIdx_iff_getElem?.mpr hget
    simpa using List.any_eq_false.mp h _ hmem
  -- two events with one id would both be the first with it
  refine List.pairwise_iff_getElem.mpr fun i j hi hj hij heq => ?_
  simp only [List.length_map] at hi hj
  simp only [List.getElem_map] at heq
  have hfi := hfirst i _ (List.getElem?_eq_getElem hi)
  have hfj := hfirst j _ (List.getElem?_eq_getElem hj)
  rw [heq] at hfi
  omega

/-- A model that passes the second pass has no id twice. Events are compared by looking up each id,
assets and nodes pair by pair. -/
theorem distinct_of_ok {model : EdgeModel} (hok : validateDuplicates model = .ok) :
    (model.assets.map (·.id)).Nodup
      ∧ (model.nodes.map fun node => (node.assetId, node.id)).Nodup
      ∧ (model.events.map (·.id)).Nodup := by
  unfold validateDuplicates at hok
  -- all three scans found no equal pair
  split_ifs at hok with hassets hnodes hevents
  simp only [Bool.not_eq_true] at hassets hnodes hevents
  refine ⟨?_, ?_, eventIds_nodup hevents⟩
  · refine List.pairwise_map.mpr ((anyPair_eq_false hassets).imp ?_)
    intro a b hab
    simpa using hab
  · refine List.pairwise_map.mpr ((anyPair_eq_false hnodes).imp ?_)
    intro a b hab heq
    simp only [Bool.and_eq_false_iff, decide_eq_false_iff_not] at hab
    rcases hab with hab | hab
    · exact hab (congrArg Prod.fst heq)
    · exact hab (congrArg Prod.snd heq)

/-! ## The resolver

The lookups give an index whose record has the id that was asked for, or `edge_invalid_index`, and
that is an error. Each loop of the resolver ends at its first error, which is always
`EDGE_STATUS_INVALID`. -/

/-- A valid answer of `find_asset` is the index of an asset with the id. -/
theorem findAsset_spec {model : EdgeModel} {id : Bytes}
    (h : findAsset model id ≠ edgeInvalidIndex) :
    AssetResolved model (findAsset model id) id := by
  unfold findAsset at h ⊢
  cases hfind : model.assets.findIdx? fun asset => asset.id = id with
  | none => rw [hfind] at h; exact absurd rfl h
  | some i =>
    obtain ⟨hi, hp, _⟩ := List.findIdx?_eq_some_iff_getElem.mp hfind
    exact ⟨model.assets[i], List.getElem?_eq_getElem hi, of_decide_eq_true hp⟩

/-- A valid answer of `find_node_for_asset` is the index of a node with the id, in that asset. -/
theorem findNodeForAsset_spec {model : EdgeModel} {assetIndex : Nat} {id : Bytes}
    (h : findNodeForAsset model assetIndex id ≠ edgeInvalidIndex) :
    ∃ node, model.nodes[findNodeForAsset model assetIndex id]? = some node
      ∧ node.assetIndex = assetIndex ∧ node.id = id := by
  unfold findNodeForAsset at h ⊢
  cases hfind : model.nodes.findIdx? fun node => node.assetIndex = assetIndex && node.id = id with
  | none => rw [hfind] at h; exact absurd rfl h
  | some i =>
    obtain ⟨hi, hp, _⟩ := List.findIdx?_eq_some_iff_getElem.mp hfind
    simp only [Bool.and_eq_true, decide_eq_true_eq] at hp
    exact ⟨model.nodes[i], List.getElem?_eq_getElem hi, hp.1, hp.2⟩

/-- Whether an index names an asset depends on the ids of the assets only. -/
theorem assetResolved_iff {model : EdgeModel} {i : Nat} {id : Bytes} :
    AssetResolved model i id ↔ (model.assets.map (·.id))[i]? = some id := by
  rw [List.getElem?_map, Option.map_eq_some_iff]
  rfl

/-- Which index an id resolves to depends on the ids of the assets only. -/
theorem AssetResolved.congr {model model' : EdgeModel} {i : Nat} {id : Bytes}
    (hids : model'.assets.map (·.id) = model.assets.map (·.id)) (h : AssetResolved model i id) :
    AssetResolved model' i id := by
  rw [assetResolved_iff] at h ⊢
  rw [hids]
  exact h

/-- Distinct ids name distinct assets. -/
theorem asset_index_unique {model : EdgeModel} (hnodup : (model.assets.map (·.id)).Nodup)
    {i j : Nat} {id : Bytes} (hi : AssetResolved model i id) (hj : AssetResolved model j id) :
    i = j := by
  rw [assetResolved_iff] at hi hj
  exact (List.getElem?_inj (List.getElem?_eq_some_iff.mp hi).1 hnodup).mp (hi.trans hj.symm)

/-! No loop of the resolver leaves with `EDGE_STATUS_OK`, so a successful call ran all of them to
their end. -/

/-- The first loop fails with `EDGE_STATUS_INVALID` .. -/
theorem resolveAssets_exit {model : EdgeModel} {status : EdgeStatus}
    (h : (resolveAssets model).exit = some status) : status = .invalid := by
  refine sweep_exit (· = .invalid) (fun i asset _ r hr => ?_) _ _ _ _ h
  unfold resolveParent at hr
  simp only at hr
  split_ifs at hr with hroot hbad
  exact (Option.some.inj hr).symm

/-- .. and so does the second .. -/
theorem checkParentChain_exit {assets : List EdgeAsset} {status : EdgeStatus}
    (h : (visit (checkParentChain assets) 0 assets ()).2 = some status) : status = .invalid := by
  refine visit_exit (· = .invalid) (fun i asset _ r hr => ?_) _ _ _ _ h
  unfold checkParentChain at hr
  simp only at hr
  split_ifs at hr
  exact (Option.some.inj hr).symm

/-- .. and the third .. -/
theorem resolveNodes_exit {model : EdgeModel} {status : EdgeStatus}
    (h : (resolveNodes model).exit = some status) : status = .invalid := by
  refine sweep_exit (· = .invalid) (fun i node _ r hr => ?_) _ _ _ _ h
  unfold resolveNode at hr
  simp only at hr
  split_ifs at hr
  exact (Option.some.inj hr).symm

/-- .. and the last. -/
theorem resolveEvents_exit {model : EdgeModel} {status : EdgeStatus}
    (h : (resolveEvents model).exit = some status) : status = .invalid := by
  refine sweep_exit (· = .invalid) (fun i event _ r hr => ?_) _ _ _ _ h
  unfold resolveEvent at hr
  simp only at hr
  split_ifs at hr
  · exact (Option.some.inj hr).symm
  · exact (Option.some.inj hr).symm

/-- What a successful `validate_and_resolve_references` did: all loops ran to their end, and the
model is the old one with the index fields they wrote. -/
theorem resolve_spec {model model' : EdgeModel}
    (h : validateAndResolveReferences model = (.ok, model')) :
    ∃ model₁ model₂, model₁ = { model with assets := (resolveAssets model).elem }
      ∧ model₂ = { model₁ with nodes := (resolveNodes model₁).elem }
      ∧ model' = { model₂ with events := (resolveEvents model₂).elem }
      ∧ (resolveAssets model).exit = none ∧ (resolveNodes model₁).exit = none
      ∧ (resolveEvents model₂).exit = none := by
  refine ⟨_, _, rfl, rfl, ?_⟩
  unfold validateAndResolveReferences at h
  simp only at h
  -- every early return has an error, so a success has gone through all the loops
  split at h
  · next status hexit =>
    cases (Prod.mk.inj h).1
    cases resolveAssets_exit hexit
  · next hassets =>
    split at h
    · next status hexit =>
      cases (Prod.mk.inj h).1
      cases checkParentChain_exit hexit
    · split at h
      · next status hexit =>
        cases (Prod.mk.inj h).1
        cases resolveNodes_exit hexit
      · next hnodes =>
        obtain ⟨hstatus, hmodel⟩ := Prod.mk.inj h
        refine ⟨hmodel.symm, hassets, hnodes, ?_⟩
        cases hevents : (resolveEvents _).exit with
        | none => rfl
        | some status =>
          rw [hevents] at hstatus
          cases hstatus
          cases resolveEvents_exit hevents

/-! ### What each loop of the resolver leaves behind

A loop writes index fields and leaves all texts alone. So the records keep their required fields,
and the ids that a later loop looks up are those of the template. -/

theorem resolveAssets_ids (model : EdgeModel) :
    (resolveAssets model).elem.map (·.id) = model.assets.map (·.id) := by
  refine sweep_map EdgeAsset.id (fun i asset _ => ?_) _ _ _
  unfold resolveParent
  simp only
  split_ifs <;> rfl

theorem resolveNodes_ids (model : EdgeModel) :
    (resolveNodes model).elem.map (fun node => (node.assetId, node.id))
      = model.nodes.map fun node => (node.assetId, node.id) :=
  sweep_map (fun node : EdgeNode => (node.assetId, node.id)) (fun _ _ _ => rfl) _ _ _

theorem resolveEvents_ids (model : EdgeModel) :
    (resolveEvents model).elem.map (·.id) = model.events.map (·.id) := by
  refine sweep_map EdgeEvent.id (fun i event _ => ?_) _ _ _
  unfold resolveEvent
  simp only
  split_ifs <;> rfl

theorem resolveAssets_fields {model : EdgeModel} (h : ∀ asset ∈ model.assets, AssetFields asset) :
    ∀ asset ∈ (resolveAssets model).elem, AssetFields asset := by
  refine sweep_forall AssetFields (fun i asset _ ha => ?_) _ _ _ h
  unfold resolveParent
  simp only
  split_ifs <;> exact { ha with }

theorem resolveNodes_fields {model : EdgeModel} (h : ∀ node ∈ model.nodes, NodeFields node) :
    ∀ node ∈ (resolveNodes model).elem, NodeFields node :=
  sweep_forall NodeFields (fun _ _ _ hn => { hn with }) _ _ _ h

theorem resolveEvents_fields {model : EdgeModel} (h : ∀ event ∈ model.events, EventFields event) :
    ∀ event ∈ (resolveEvents model).elem, EventFields event := by
  refine sweep_forall EventFields (fun i event _ he => ?_) _ _ _ h
  unfold resolveEvent
  simp only
  split_ifs <;> exact { he with }

/-- Every asset of a completed first loop has its parent resolved among the unresolved assets,
whose ids are the same. -/
theorem resolveAssets_parents {model : EdgeModel} (hdone : (resolveAssets model).exit = none)
    {i : Nat} {asset : EdgeAsset} (hget : (resolveAssets model).elem[i]? = some asset) :
    (asset.parentIndex = edgeInvalidIndex ↔ asset.parentId = [] ∨ asset.parentId = model.id)
      ∧ (¬ (asset.parentId = [] ∨ asset.parentId = model.id) →
        asset.parentIndex < i ∧ AssetResolved model asset.parentIndex asset.parentId) := by
  obtain ⟨_, _, _, hexit, rfl⟩ := exists_of_sweep_complete hdone hget
  unfold resolveParent at hexit ⊢
  simp only [Nat.zero_add] at hexit ⊢
  split_ifs at hexit ⊢ with hroot hbad
  · exact ⟨⟨fun _ => hroot, fun _ => rfl⟩, fun h => absurd hroot h⟩
  · simp only [not_or] at hbad
    refine ⟨⟨fun h => absurd h hbad.1, fun h => absurd h hroot⟩, fun _ => ⟨?_, ?_⟩⟩
    · show findAsset model _ < i
      omega
    · exact findAsset_spec hbad.1

/-- After a complete third loop every node knows its asset. -/
theorem resolveNodes_assets {model : EdgeModel} (hdone : (resolveNodes model).exit = none) :
    ∀ node ∈ (resolveNodes model).elem, AssetResolved model node.assetIndex node.assetId := by
  intro node hmem
  obtain ⟨i, hget⟩ := List.mem_iff_getElem?.mp hmem
  obtain ⟨_, _, _, hexit, rfl⟩ := exists_of_sweep_complete hdone hget
  refine findAsset_spec fun h => ?_
  unfold resolveNode at hexit
  simp only [if_pos h] at hexit
  cases hexit

/-- After a complete last loop every event knows its asset and the node it watches, which belongs
to that asset. -/
theorem resolveEvents_refs {model : EdgeModel} (hdone : (resolveEvents model).exit = none) :
    ∀ event ∈ (resolveEvents model).elem, AssetResolved model event.assetIndex event.assetId
      ∧ ∃ node, model.nodes[event.sourceNodeIndex]? = some node
        ∧ node.assetIndex = event.assetIndex ∧ node.id = event.sourceNodeId := by
  intro event hmem
  obtain ⟨i, hget⟩ := List.mem_iff_getElem?.mp hmem
  obtain ⟨_, _, _, hexit, rfl⟩ := exists_of_sweep_complete hdone hget
  unfold resolveEvent at hexit ⊢
  simp only at hexit ⊢
  split_ifs at hexit ⊢ with hasset hnode
  exact ⟨findAsset_spec hasset, findNodeForAsset_spec hnode⟩

/-! ## Accepted templates

The three passes in a row, on the model that the line loop delivers. -/

/-- A line that stops the loop never carries `EDGE_STATUS_OK`. -/
theorem loadLines_exit {lines : List Chunk} {st : LoadState} {status : EdgeStatus}
    (h : (visit loadTurn 0 lines st).2 = some status) : status ≠ .ok := by
  refine visit_exit (· ≠ .ok) (fun i chunk st r hr => ?_) _ _ _ _ h
  unfold loadTurn at hr
  simp only at hr
  split_ifs at hr with hok
  exact Option.some.inj hr ▸ hok

/-- What an accepted file went through. -/
theorem edgeConfigLoad_spec {file : Option Bytes} {model : EdgeModel}
    (h : edgeConfigLoad file {} = (.ok, model)) :
    ∃ parsed, Parsed parsed ∧ validateRequiredFields parsed = .ok
      ∧ validateDuplicates parsed = .ok
      ∧ validateAndResolveReferences parsed = (.ok, model) := by
  unfold edgeConfigLoad at h
  cases file with
  | none => cases (Prod.mk.inj h).1
  | some bytes =>
    simp only at h
    split at h
    · next status hexit =>
      cases (Prod.mk.inj h).1
      exact absurd rfl (loadLines_exit hexit)
    · next hdone =>
      -- of the three validations only the last one changes the model
      split_ifs at h with hvalid hresolve
      · cases (Prod.mk.inj h).1
      · cases (Prod.mk.inj h).1
      · simp only [not_or, not_not] at hvalid
        refine ⟨_, loadLines_parsed _ hdone, hvalid.1, hvalid.2, ?_⟩
        exact Prod.ext (not_not.mp hresolve) (Prod.mk.inj h).2

theorem edgeConfigLoad_of_ok {file : Option Bytes} (h : (edgeConfigLoad file {}).1 = .ok) :
    edgeConfigLoad file {} = (.ok, (edgeConfigLoad file {}).2) := Prod.ext h rfl

/-- Two nodes with the same asset id and id are the same array element. -/
theorem node_index_unique {model : EdgeModel}
    (hnodup : (model.nodes.map fun node => (node.assetId, node.id)).Nodup)
    {i j : Nat} {a b : EdgeNode} (ha : model.nodes[i]? = some a) (hb : model.nodes[j]? = some b)
    (hasset : a.assetId = b.assetId) (hid : a.id = b.id) : i = j := by
  have hi := (List.getElem?_eq_some_iff.mp ha).1
  refine (List.getElem?_inj (by simpa using hi) hnodup).mp ?_
  rw [List.getElem?_map, List.getElem?_map, ha, hb]
  simp only [Option.map_some, hasset, hid]

/-- **Accepted templates give well-formed models.** -/
theorem edgeConfigLoad_wellFormed (file : Option Bytes) (model : EdgeModel)
    (h : edgeConfigLoad file {} = (.ok, model)) : WellFormed model := by
  obtain ⟨parsed, hp, hrequired, hduplicates, hresolved⟩ := edgeConfigLoad_spec h
  obtain ⟨hplant, hassets, hnodes, hevents⟩ := requiredFields_of_ok hp hrequired
  obtain ⟨hda, hdn, hde⟩ := distinct_of_ok hduplicates
  obtain ⟨model₁, model₂, h₁, h₂, h₃, hexitA, hexitN, hexitE⟩ := resolve_spec hresolved
  subst h₁ h₂ h₃
  -- resolving writes index fields only, so the texts are those of the parsed model
  have hdn' : ((resolveNodes { parsed with assets := (resolveAssets parsed).elem }).elem.map
      fun node => (node.assetId, node.id)).Nodup := by
    rw [resolveNodes_ids]; exact hdn
  exact {
    assetCount := (length_sweep _ _ _ _).trans_le hp.assetCount
    nodeCount := (length_sweep _ _ _ _).trans_le hp.nodeCount
    eventCount := (length_sweep _ _ _ _).trans_le hp.eventCount
    id := ⟨hplant.1, hp.id⟩
    name := ⟨hplant.2, hp.name⟩
    assets := resolveAssets_fields hassets
    nodes := resolveNodes_fields hnodes
    events := resolveEvents_fields hevents
    assetsDistinct := by rw [resolveAssets_ids]; exact hda
    nodesDistinct := hdn'
    eventsDistinct := by rw [resolveEvents_ids]; exact hde
    parents := by
      intro i asset hget
      obtain ⟨hroot, hparent⟩ := resolveAssets_parents hexitA hget
      refine ⟨hroot, fun hnot => ⟨(hparent hnot).1, ?_⟩⟩
      exact (hparent hnot).2.congr (resolveAssets_ids parsed)
    nodeAssets := resolveNodes_assets hexitN
    eventAssets := fun event hmem => (resolveEvents_refs hexitE event hmem).1
    eventSources := by
      intro event hmem
      obtain ⟨⟨asset, hasset, hassetId⟩, node, hnode, hindex, hid⟩ :=
        resolveEvents_refs hexitE event hmem
      -- node and event carry the same asset index, which names one asset id
      obtain ⟨asset', hasset', hassetId'⟩ :=
        resolveNodes_assets hexitN node (List.mem_of_getElem? hnode)
      rw [hindex] at hasset'
      cases Option.some.inj (hasset.symm.trans hasset')
      refine ⟨⟨node, hnode, hassetId'.symm.trans hassetId, hid⟩, fun j node' hj ha hi => ?_⟩
      exact node_index_unique hdn' hj hnode (ha.trans (hassetId.symm.trans hassetId'))
        (hi.trans hid.symm) }

/-- The guarantees spelled out: counts and strings within their buffers, required fields present,
identifiers distinct, and every index in range and at the record the template names. -/
theorem accepted_template_guarantees (file : Option Bytes) (model : EdgeModel)
    (h : edgeConfigLoad file {} = (.ok, model)) :
    (model.assets.length ≤ edgeMaxAssets ∧ model.nodes.length ≤ edgeMaxNodes ∧
        model.events.length ≤ edgeMaxEvents) ∧
      (model.id ≠ [] ∧ model.id.length < edgeMaxIdLen ∧ model.name ≠ [] ∧
        model.name.length < edgeMaxNameLen) ∧
      (∀ asset ∈ model.assets,
        (asset.id ≠ [] ∧ asset.type ≠ [] ∧ asset.name ≠ []) ∧
          asset.id.length < edgeMaxIdLen ∧ asset.type.length < edgeMaxIdLen ∧
          asset.name.length < edgeMaxNameLen ∧ asset.parentId.length < edgeMaxIdLen) ∧
      (∀ node ∈ model.nodes,
        (node.assetId ≠ [] ∧ node.id ≠ [] ∧ node.name ≠ [] ∧ node.dataType ≠ .unset ∧
            node.modbusRegister ≠ 0 ∧ 1 ≤ node.modbusUnit ∧ node.modbusUnit ≤ 247) ∧
          node.assetId.length < edgeMaxIdLen ∧ node.id.length < edgeMaxIdLen ∧
          node.name.length < edgeMaxNameLen) ∧
      (∀ event ∈ model.events,
        (event.assetId ≠ [] ∧ event.id ≠ [] ∧ event.sourceNodeId ≠ [] ∧
            event.condition ≠ .unset ∧ event.severity ≠ 0) ∧
          event.assetId.length < edgeMaxIdLen ∧ event.id.length < edgeMaxIdLen ∧
          event.sourceNodeId.length < edgeMaxIdLen) ∧
      (model.assets.map (·.id)).Nodup ∧
      (model.nodes.map fun node => (node.assetId, node.id)).Nodup ∧
      (model.events.map (·.id)).Nodup ∧
      (∀ (i : Nat) (asset : EdgeAsset), model.assets[i]? = some asset →
        (asset.parentIndex = edgeInvalidIndex ↔
            asset.parentId = [] ∨ asset.parentId = model.id) ∧
          (¬ (asset.parentId = [] ∨ asset.parentId = model.id) →
            asset.parentIndex < i ∧
              model.assets[asset.parentIndex]?.map EdgeAsset.id = some asset.parentId)) ∧
      (∀ node ∈ model.nodes,
        node.assetIndex < model.assets.length ∧
          model.assets[node.assetIndex]?.map EdgeAsset.id = some node.assetId) ∧
      ∀ event ∈ model.events,
        event.assetIndex < model.assets.length ∧ event.sourceNodeIndex < model.nodes.length ∧
          model.assets[event.assetIndex]?.map EdgeAsset.id = some event.assetId ∧
          ∀ (j : Nat) (node : EdgeNode), model.nodes[j]? = some node →
            (j = event.sourceNodeIndex ↔
              node.assetId = event.assetId ∧ node.id = event.sourceNodeId) := by
  have hwf := edgeConfigLoad_wellFormed file model h
  -- an index that was resolved is in range and leads to the id
  have hasset : ∀ i id, AssetResolved model i id →
      i < model.assets.length ∧ model.assets[i]?.map EdgeAsset.id = some id := by
    rintro i id ⟨asset, hget, rfl⟩
    exact ⟨(List.getElem?_eq_some_iff.mp hget).1, by rw [hget]; rfl⟩
  refine ⟨⟨hwf.assetCount, hwf.nodeCount, hwf.eventCount⟩,
    ⟨hwf.id.1, hwf.id.2, hwf.name.1, hwf.name.2⟩, fun asset hmem => ?_, fun node hmem => ?_,
    fun event hmem => ?_, hwf.assetsDistinct, hwf.nodesDistinct, hwf.eventsDistinct,
    fun i asset hget => ?_, fun node hmem => hasset _ _ (hwf.nodeAssets node hmem),
    fun event hmem => ?_⟩
  · have ha := hwf.assets asset hmem
    exact ⟨⟨ha.id_ne, ha.type_ne, ha.name_ne⟩, ha.id, ha.type, ha.name, ha.parentId⟩
  · have hn := hwf.nodes node hmem
    exact ⟨⟨hn.assetId_ne, hn.id_ne, hn.name_ne, hn.dataType_set, hn.register_ne, hn.unit_pos,
      hn.unit⟩, hn.assetId, hn.id, hn.name⟩
  · have he := hwf.events event hmem
    exact ⟨⟨he.assetId_ne, he.id_ne, he.sourceNodeId_ne, he.condition_set, he.severity_ne⟩,
      he.assetId, he.id, he.sourceNodeId⟩
  · obtain ⟨hroot, hparent⟩ := hwf.parents i asset hget
    refine ⟨hroot, fun hnot => ⟨(hparent hnot).1, ?_⟩⟩
    exact (hasset _ _ (hparent hnot).2).2
  · obtain ⟨hlt, hid⟩ := hasset _ _ (hwf.eventAssets event hmem)
    obtain ⟨⟨source, hsource, hassetId, hsourceId⟩, honly⟩ := hwf.eventSources event hmem
    refine ⟨hlt, (List.getElem?_eq_some_iff.mp hsource).1, hid, fun j node hj => ⟨?_, ?_⟩⟩
    · rintro rfl
      cases Option.some.inj (hsource.symm.trans hj)
      exact ⟨hassetId, hsourceId⟩
    · rintro ⟨hnodeAsset, hnodeId⟩
      exact honly j node hj hnodeAsset hnodeId

/-! One high-pressure pump of the shipped template, with a measurement, its alarm and a
command. -/

/-- A file with these lines. -/
def templateOf (lines : List String) : Bytes := lines.flatMap fun line => lit line ++ [newline]

/-- A template with one of each: an asset, two nodes and an event. -/
def pumpTemplate : Bytes :=
  templateOf [
    "[plant]", "id=xyz_desalination", "name=XYZ Desalination Plant",
    "[asset]", "id=hp_pump_1", "type=hp_pump", "name=HP Pump 1 (RO Train 1 duty)",
      "parent=xyz_desalination",
    "[node]", "asset=hp_pump_1", "id=vibration", "name=Vibration", "data_type=double",
      "access=read", "source=modbus", "modbus_unit=3", "modbus_register=40006", "scale=0.01",
    "[node]", "asset=hp_pump_1", "id=command_start", "name=CommandStart", "data_type=bool",
      "access=read_write", "source=modbus", "modbus_unit=3", "modbus_register=40010", "scale=1.0",
    "[event]", "asset=hp_pump_1", "id=high_vibration_hp1", "source_node=vibration",
      "condition=greater_than", "threshold=8.5", "severity=700"]

/-- The loader accepts it .. -/
theorem pumpTemplate_accepted : (edgeConfigLoad (some pumpTemplate) {}).1 = .ok := by
  decide +kernel

/-- .. and so no two of its nodes have one name. -/
theorem pumpTemplate_guarantees :
    ((edgeConfigLoad (some pumpTemplate) {}).2.nodes.map fun node =>
      (node.assetId, node.id)).Nodup :=
  (accepted_template_guarantees (some pumpTemplate) _
    (edgeConfigLoad_of_ok pumpTemplate_accepted)).2.2.2.2.2.2.1

end OpcuaEdge
