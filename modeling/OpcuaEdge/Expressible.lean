import OpcuaEdge.TemplateText
import OpcuaEdge.ParentChain
import OpcuaEdge.NodePartition

/-!
# OpcuaEdge — the models that templates express

What a template can say, without its syntax: `Expressible` lists the conditions on a model. The
template that is written for such a model gives it back (`edgeConfigLoad_templateLines`), and no
template gives a model that is not expressible (`expressible_iff`), so the loader loses and invents
nothing.

Both directions go field by field:

* **`finishLoad_unresolved`** — the checks and the resolver of the loader, run on a model without
  its indexes, give the indexes back;
* **`BuiltFrom.writable`** — the texts and numbers of an accepted file are ones that a line can
  carry, so every model that was loaded can be written;
* **`rewritten_template_loads`** — a template that is written anew for its own model loads as that
  model, whatever the order of its blocks was.
-/

namespace OpcuaEdge

open CStr CLoop

/-! ## Resolving

The way back: a model whose references are resolved, stripped of its indexes, passes the validation
and gets the same indexes again. -/

/-- The ids are distinct, and every index stands for the id that the template names. -/
structure Resolved (model : EdgeModel) : Prop where
  assetsDistinct : (model.assets.map (·.id)).Nodup
  nodesDistinct : (model.nodes.map fun node => (node.assetId, node.id)).Nodup
  eventsDistinct : (model.events.map (·.id)).Nodup
  parents : ∀ i asset, model.assets[i]? = some asset → ParentResolved model i asset
  nodeAssets : ∀ node ∈ model.nodes, AssetResolved model node.assetIndex node.assetId
  eventAssets : ∀ event ∈ model.events, AssetResolved model event.assetIndex event.assetId
  eventSources : ∀ event ∈ model.events, SourceResolved model event

theorem WellFormed.resolved {model : EdgeModel} (h : WellFormed model) : Resolved model :=
  ⟨h.assetsDistinct, h.nodesDistinct, h.eventsDistinct, h.parents, h.nodeAssets, h.eventAssets,
    h.eventSources⟩

theorem anyPair_of_pairwise {α : Type} {p : α → α → Bool} {l : List α}
    (h : l.Pairwise fun a b => p a b = false) : anyPair p l = false := by
  induction h with
  | nil => rfl
  | cons ha _ ih =>
    rw [anyPair, ih, Bool.or_false]
    exact List.any_eq_false.mpr fun b hb => by rw [ha b hb]; decide

section Resolving

variable {model : EdgeModel}

theorem unresolved_assetIds (model : EdgeModel) :
    model.unresolved.assets.map (·.id) = model.assets.map (·.id) := List.map_map

theorem validateRequiredFields_unresolved (h : Writable model) :
    validateRequiredFields model.unresolved = .ok := by
  -- each required field is one that a writable model has
  have hassets : model.unresolved.assets.all assetComplete = true := by
    refine List.all_eq_true.mpr (List.forall_mem_map.mpr fun asset hmem => ?_)
    have ha := h.assets asset hmem
    simp [assetComplete, EdgeAsset.unresolved, ha.id_ne, ha.type_ne, ha.name_ne]
  have hnodes : model.unresolved.nodes.all nodeComplete = true := by
    refine List.all_eq_true.mpr (List.forall_mem_map.mpr fun node hmem => ?_)
    have hn := h.nodes node hmem
    have hunit : node.modbusUnit ≠ 0 := by
      intro hzero
      have hpos := hn.unit_pos
      rw [hzero] at hpos
      exact absurd hpos (by decide)
    simp [nodeComplete, EdgeNode.unresolved, hn.assetId_ne, hn.id_ne, hn.name_ne, hn.dataType_set,
      hunit, hn.register_ne]
  have hevents : model.unresolved.events.all eventComplete = true := by
    refine List.all_eq_true.mpr (List.forall_mem_map.mpr fun event hmem => ?_)
    have he := h.events event hmem
    simp [eventComplete, EdgeEvent.unresolved, he.assetId_ne, he.id_ne, he.sourceNodeId_ne,
      he.condition_set, he.severity_ne]
  unfold validateRequiredFields
  rw [EdgeModel.unresolved_id, EdgeModel.unresolved_name, if_neg (not_or.mpr ⟨h.id.1, h.name.1⟩),
    if_neg (not_not.mpr hassets), if_neg (not_not.mpr hnodes), if_neg (not_not.mpr hevents)]

/-- An event with an id of its own is found where it stands. -/
theorem findEvent_self (hnodup : (model.events.map (·.id)).Nodup) {i : Nat} {event : EdgeEvent}
    (hget : model.events[i]? = some event) : findEvent model event.id = i := by
  unfold findEvent
  cases hfind : model.events.findIdx? fun e => e.id = event.id with
  | none =>
    have hnot := List.findIdx?_eq_none_iff.mp hfind event (List.mem_of_getElem? hget)
    exact absurd rfl (of_decide_eq_false hnot)
  | some j =>
    obtain ⟨hj, hid, -⟩ := List.findIdx?_eq_some_iff_getElem.mp hfind
    have hboth : (model.events.map (·.id))[j]? = (model.events.map (·.id))[i]? := by
      rw [List.getElem?_map, List.getElem?_map, List.getElem?_eq_getElem hj, hget]
      exact congrArg some (of_decide_eq_true hid)
    exact (List.getElem?_inj (by simpa using hj) hnodup).mp hboth

/-- The second pass accepts names that are all different. -/
theorem validateDuplicates_unresolved (h : Resolved model) :
    validateDuplicates model.unresolved = .ok := by
  -- assets and nodes are compared in pairs, events by the first of their id
  have hassets : anyPair (fun a b : EdgeAsset => a.id = b.id) model.unresolved.assets = false := by
    refine anyPair_of_pairwise (List.pairwise_map.mpr ?_)
    exact (List.pairwise_map.mp h.assetsDistinct).imp decide_eq_false
  have hnodes : anyPair (fun a b : EdgeNode => a.assetId = b.assetId && a.id = b.id)
      model.unresolved.nodes = false := by
    refine anyPair_of_pairwise (List.pairwise_map.mpr ?_)
    refine (List.pairwise_map.mp h.nodesDistinct).imp fun {a b} hne => ?_
    rw [← Bool.not_eq_true]
    simp only [Bool.and_eq_true, decide_eq_true_eq]
    rintro ⟨hasset, hid⟩
    exact hne (Prod.ext hasset hid)
  have hevents : model.unresolved.events.zipIdx.any
      (fun e => findEvent model.unresolved e.1.id ≠ e.2) = false := by
    refine List.any_eq_false.mpr fun e hmem => ?_
    have hget := List.mem_zipIdx_iff_getElem?.mp hmem
    have hnodup : (model.unresolved.events.map (·.id)).Nodup := by
      rw [show model.unresolved.events.map (·.id) = model.events.map (·.id) from List.map_map]
      exact h.eventsDistinct
    simpa using findEvent_self hnodup hget
  unfold validateDuplicates
  rw [if_neg (by rw [hassets]; decide), if_neg (by rw [hnodes]; decide),
    if_neg (by rw [hevents]; decide)]

/-- An id that is resolved is found where it was resolved. -/
theorem AssetResolved.find {other : EdgeModel} (hnodup : (model.assets.map (·.id)).Nodup)
    (hids : other.assets.map (·.id) = model.assets.map (·.id)) {i : Nat} {id : Bytes}
    (h : AssetResolved model i id) : findAsset other id = i := by
  obtain ⟨asset, hget, rfl⟩ := h.congr hids
  exact findAsset_self (hids ▸ hnodup) hget

/-- The first loop of the resolver finds the parent of each asset again .. -/
theorem resolveAssets_unresolved (h : Resolved model) :
    (resolveAssets model.unresolved).exit = none ∧
      (resolveAssets model.unresolved).elem = model.assets := by
  refine sweep_map_inverse EdgeAsset.unresolved model.assets 0 () fun i asset hget _ => ?_
  obtain ⟨hroot, hparent⟩ := h.parents i asset hget
  unfold resolveParent
  simp only [Nat.zero_add, EdgeModel.unresolved_id, EdgeAsset.unresolved]
  by_cases hnone : asset.parentId = [] ∨ asset.parentId = model.id
  · simp only [if_pos hnone]
    exact ⟨trivial, by rw [← hroot.mpr hnone]⟩
  · obtain ⟨hbefore, hresolved⟩ := hparent hnone
    have hi := (List.getElem?_eq_some_iff.mp hget).1
    have hfind := AssetResolved.find h.assetsDistinct (unresolved_assetIds model) hresolved
    have hvalid : asset.parentIndex ≠ edgeInvalidIndex := fun heq => hnone (hroot.mp heq)
    simp only [if_neg hnone, hfind]
    exact ⟨if_neg (by omega), trivial⟩

/-- .. the third one the asset of each node .. -/
theorem resolveNodes_unresolved (h : Resolved model) (hcount : model.assets.length ≤ edgeMaxAssets)
    (other : EdgeModel) (hids : other.assets.map (·.id) = model.assets.map (·.id))
    (hnodes : other.nodes = model.nodes.map EdgeNode.unresolved) :
    (resolveNodes other).exit = none ∧ (resolveNodes other).elem = model.nodes := by
  unfold resolveNodes
  rw [hnodes]
  refine sweep_map_inverse EdgeNode.unresolved model.nodes 0 () fun i node hget _ => ?_
  have hresolved := h.nodeAssets node (List.mem_of_getElem? hget)
  have hfind := AssetResolved.find h.assetsDistinct hids hresolved
  -- a found index is below the limit and so never the invalid one
  have hvalid : node.assetIndex ≠ edgeInvalidIndex := by
    have hlt := hresolved.lt
    unfold edgeMaxAssets at hcount
    unfold edgeInvalidIndex
    omega
  unfold resolveNode
  dsimp only [EdgeNode.unresolved]
  rw [hfind, if_neg hvalid]
  exact ⟨rfl, rfl⟩

/-- The node that an event names is found by the index of its asset. -/
theorem SourceResolved.find (h : Resolved model) {event : EdgeEvent} (hmem : event ∈ model.events) :
    findNodeForAsset model event.assetIndex event.sourceNodeId = event.sourceNodeIndex := by
  obtain ⟨⟨source, hsource, hasset, hid⟩, honly⟩ := h.eventSources event hmem
  have hindex : source.assetIndex = event.assetIndex := by
    have hresolved := h.nodeAssets source (List.mem_of_getElem? hsource)
    rw [hasset] at hresolved
    exact asset_index_unique h.assetsDistinct hresolved (h.eventAssets event hmem)
  unfold findNodeForAsset
  cases hfind : model.nodes.findIdx? fun node =>
      node.assetIndex = event.assetIndex && node.id = event.sourceNodeId with
  | none =>
    have hnot := List.findIdx?_eq_none_iff.mp hfind source (List.mem_of_getElem? hsource)
    simp [hindex, hid] at hnot
  | some j =>
    obtain ⟨hj, hmatch, -⟩ := List.findIdx?_eq_some_iff_getElem.mp hfind
    simp only [Bool.and_eq_true, decide_eq_true_eq] at hmatch
    -- the index that matches stands for the same asset id
    obtain ⟨asset, hget, hassetId⟩ := h.nodeAssets _ (List.getElem_mem hj)
    obtain ⟨asset', hget', hassetId'⟩ := h.eventAssets event hmem
    rw [hmatch.1] at hget
    cases Option.some.inj (hget.symm.trans hget')
    exact honly j _ (List.getElem?_eq_getElem hj) (hassetId.symm.trans hassetId') hmatch.2

/-- .. and the last one the asset and the node of each event. -/
theorem resolveEvents_unresolved (h : Resolved model)
    (hcount : model.assets.length ≤ edgeMaxAssets) (hnodeCount : model.nodes.length ≤ edgeMaxNodes)
    (other : EdgeModel) (hids : other.assets.map (·.id) = model.assets.map (·.id))
    (hnodes : other.nodes = model.nodes)
    (hevents : other.events = model.events.map EdgeEvent.unresolved) :
    (resolveEvents other).exit = none ∧ (resolveEvents other).elem = model.events := by
  unfold resolveEvents
  rw [hevents]
  refine sweep_map_inverse EdgeEvent.unresolved model.events 0 () fun i event hget _ => ?_
  have hmem := List.mem_of_getElem? hget
  have hresolved := h.eventAssets event hmem
  have hasset := AssetResolved.find h.assetsDistinct hids hresolved
  have hsource : findNodeForAsset other event.assetIndex event.sourceNodeId =
      event.sourceNodeIndex := by
    unfold findNodeForAsset
    rw [hnodes]
    exact SourceResolved.find h hmem
  -- full tables are smaller than the invalid index
  have hvalid : event.assetIndex ≠ edgeInvalidIndex := by
    have hlt := hresolved.lt
    unfold edgeMaxAssets at hcount
    unfold edgeInvalidIndex
    omega
  have hvalid' : event.sourceNodeIndex ≠ edgeInvalidIndex := by
    obtain ⟨⟨source, hget, -⟩, -⟩ := h.eventSources event hmem
    exact lt_edgeInvalidIndex (List.getElem?_eq_some_iff.mp hget).1 hnodeCount
  unfold resolveEvent
  dsimp only [EdgeEvent.unresolved]
  rw [hasset, if_neg hvalid]
  dsimp only
  rw [hsource, if_neg hvalid']
  exact ⟨rfl, rfl⟩

/-- **The resolver gives back the indexes of a resolved model.** -/
theorem validateAndResolveReferences_unresolved (h : Resolved model)
    (hcount : model.assets.length ≤ edgeMaxAssets)
    (hnodeCount : model.nodes.length ≤ edgeMaxNodes) :
    validateAndResolveReferences model.unresolved = (.ok, model) := by
  obtain ⟨hexitA, hassets⟩ := resolveAssets_unresolved h
  obtain ⟨hexitN, hnodes⟩ := resolveNodes_unresolved h hcount
    { model.unresolved with assets := model.assets } rfl rfl
  obtain ⟨hexitE, hevents⟩ := resolveEvents_unresolved h hcount hnodeCount
    { model.unresolved with assets := model.assets, nodes := model.nodes } rfl rfl rfl
  rw [validateAndResolveReferences_eq]
  unfold resolveUnchecked
  simp only [hexitA, hassets, hexitN, hnodes, hexitE, hevents, Option.getD_none]
  rfl

theorem finishLoad_unresolved (h : Writable model) (hresolved : Resolved model) :
    finishLoad model.unresolved = (.ok, model) := by
  unfold finishLoad
  dsimp only
  rw [validateRequiredFields_unresolved h, validateDuplicates_unresolved hresolved,
    validateAndResolveReferences_unresolved hresolved h.assetCount h.nodeCount, if_neg (by decide),
    if_neg (not_not.mpr rfl)]

end Resolving

/-! ## Values of an accepted file

The other direction: what an accepted file says about its records can be written again. A text that
the loader has seen has lost its line break and its trimmed end, and fits on a line. -/

/-- What the loader sees of a line: nothing that would end it, and no more than fits. -/
structure SeenText (text : Bytes) : Prop where
  noNewline : newline ∉ text
  noNul : 0 ∉ text
  noReturn : text.getLast? ≠ some carriageReturn
  length : text.length ≤ edgeMaxLineLen - 2

theorem trimNewline_last {text : Bytes} {c : UInt8} (h : (trimNewline text).getLast? = some c) :
    c ≠ newline ∧ c ≠ carriageReturn := by
  have hne : trimNewline text ≠ [] := by
    intro hnil
    rw [hnil] at h
    cases h
  have hlast := List.rdropWhile_last_not _ text hne
  rw [List.getLast?_eq_some_getLast hne, Option.some.injEq] at h
  unfold trimNewline at h
  rw [h] at hlast
  simpa using hlast

/-- A text whose newlines can only stand at its end has none once its end is trimmed. -/
theorem newline_not_mem_of_prefix {text bytes : Bytes} (hcut : text <+: bytes)
    (hlast : text.getLast? ≠ some newline) (hbytes : newline ∉ bytes.dropLast) :
    newline ∉ text := by
  intro hmem
  have hne : text ≠ [] := List.ne_nil_of_mem hmem
  obtain ⟨rest, rfl⟩ := hcut
  rw [← List.dropLast_append_getLast hne, List.mem_append, List.mem_singleton] at hmem
  rcases hmem with hmem | heq
  · refine hbytes ?_
    cases rest with
    | nil => rwa [List.append_nil]
    | cons c rest =>
      rw [List.dropLast_append_of_ne_nil (List.cons_ne_nil c rest)]
      exact List.mem_append_left _ (List.mem_of_mem_dropLast hmem)
  · exact hlast (by rw [List.getLast?_eq_some_getLast hne, heq])

theorem lineText_seen {bytes : Bytes} {chunk : Chunk} (hmem : chunk ∈ buffersOf bytes)
    (hlong : ¬ RefusedAsLong chunk) : SeenText (lineText chunk.bytes) := by
  obtain ⟨rest, rfl⟩ := exists_fgets_of_mem _ _ _ _ hmem
  obtain ⟨hline, hlength, heof⟩ := fgets_spec (edgeMaxLineLen - 1) rest
  have hcut : terminated (fgets (edgeMaxLineLen - 1) rest).1 <+:
      (fgets (edgeMaxLineLen - 1) rest).1 := List.takeWhile_prefix _
  have htrim : lineText (fgets (edgeMaxLineLen - 1) rest).1 <+:
      terminated (fgets (edgeMaxLineLen - 1) rest).1 := List.rdropWhile_prefix _ _
  constructor
  · exact newline_not_mem_of_prefix (htrim.trans hcut) (fun h => (trimNewline_last h).1 rfl) hline
  · intro hnul
    have hzero := List.mem_takeWhile_imp (htrim.subset hnul)
    exact of_decide_eq_true hzero rfl
  · exact fun h => (trimNewline_last h).2 rfl
  · -- a full buffer that is not refused ends with a newline, which is trimmed
    by_contra hfull
    dsimp only at hfull
    have hle := htrim.length_le
    have hle' := hcut.length_le
    have hsize : edgeMaxLineLen = 512 := rfl
    have hwhole : lineText (fgets (edgeMaxLineLen - 1) rest).1 =
        terminated (fgets (edgeMaxLineLen - 1) rest).1 := htrim.eq_of_length (by omega)
    refine hlong ⟨by dsimp only; omega, ?_, ?_⟩
    · dsimp only
      rw [← hwhole]
      exact fun h => (trimNewline_last h).1 rfl
    · rw [← Bool.not_eq_true]
      intro hend
      have hlt := heof hend
      omega

theorem mem_of_mem_splitBlocks {lines : List Bytes} {block : Block} {text : Bytes} :
    (block ∈ (splitBlocks lines).2 → text ∈ block.texts → text ∈ lines) ∧
      (text ∈ (splitBlocks lines).1 → text ∈ lines) := by
  -- along the lines: a header opens a block with the texts collected behind it
  induction lines with
  | nil => exact ⟨nofun, nofun⟩
  | cons line rest ih =>
    obtain ⟨hblock, hpreamble⟩ := ih
    rcases Option.eq_none_or_eq_some (headerOf line) with hnone | ⟨kind, hsome⟩
    · rw [splitBlocks_text hnone]
      refine ⟨fun hmem htext => List.mem_cons_of_mem _ (hblock hmem htext), fun hmem => ?_⟩
      rcases List.mem_cons.mp hmem with rfl | hmem
      · exact List.mem_cons_self
      · exact List.mem_cons_of_mem _ (hpreamble hmem)
    · rw [splitBlocks_header hsome]
      refine ⟨fun hmem htext => List.mem_cons_of_mem _ ?_, nofun⟩
      rcases List.mem_cons.mp hmem with rfl | hmem
      · exact hpreamble htext
      · exact hblock hmem htext

/-- A text that is split is its key, an equals sign and its value. -/
theorem keyValueOf_some {text key value : Bytes} (h : keyValueOf text = some (key, value)) :
    text = entryLine (key, value) := by
  unfold keyValueOf at h
  split_ifs at h
  have hsplit : splitAtFirst equalsSign text = some (key, value) := by
    unfold splitKeyValue at h
    split at h
    · cases h
    · exact h
  unfold splitAtFirst at hsplit
  -- the first equals sign is where the text is cut
  have hjoin : text.takeWhile (· ≠ equalsSign) ++ text.dropWhile (· ≠ equalsSign) = text :=
    List.takeWhile_append_dropWhile
  cases hrest : text.dropWhile (· ≠ equalsSign) with
  | nil =>
    rw [hrest] at hsplit
    cases hsplit
  | cons c rest =>
    rw [hrest] at hsplit hjoin
    have hne : text.dropWhile (· ≠ equalsSign) ≠ [] := by
      rw [hrest]
      exact List.cons_ne_nil c rest
    have hc := List.head_dropWhile_not (fun c => decide (c ≠ equalsSign)) hne
    simp only [hrest, List.head_cons, decide_eq_false_iff_not, not_not] at hc
    cases hsplit
    rw [hc] at hjoin
    exact hjoin.symm

/-- The key and the value of a line that the loader accepted. -/
theorem seen_of_entry {bytes : Bytes} (hok : (edgeConfigLoad (some bytes) {}).1 = .ok)
    {block : Block} (hblock : block ∈ (blocksOf (stringsOf bytes)).2) {key value : Bytes}
    (hentry : (key, value) ∈ block.entries) :
    ValueText value ∧ (entryLine (key, value)).length ≤ edgeMaxLineLen - 2 := by
  obtain ⟨st, hloop, -⟩ := visit_of_ok hok
  have hnone := ((visit_loadTurn_iff _ _ _ _).mp hloop).1
  obtain ⟨text, htext, hkv⟩ := List.mem_filterMap.mp hentry
  -- the entry comes from a significant line, and that from one chunk of the file
  have hsignificant := mem_of_mem_splitBlocks.1 hblock htext
  obtain ⟨string, hstring, rfl⟩ := List.mem_map.mp (List.mem_filter.mp hsignificant).1
  obtain ⟨chunk, hchunk, rfl⟩ := List.mem_map.mp hstring
  have hseen : SeenText (trimNewline (terminated chunk.bytes)) :=
    lineText_seen hchunk (hnone chunk hchunk)
  rw [keyValueOf_some hkv] at hseen
  have hsuffix : ∀ c ∈ value, c ∈ entryLine (key, value) := fun c hc =>
    List.mem_append_right _ (List.mem_cons_of_mem _ hc)
  refine ⟨⟨fun hc => hseen.noNewline (hsuffix _ hc), fun hc => hseen.noNul (hsuffix _ hc),
    fun hlast => hseen.noReturn ?_⟩, hseen.length⟩
  rw [entryLine, List.getLast?_append_cons, List.getLast?_cons, hlast]
  rfl

theorem lastValue_mem {key value : Bytes} {entries : List (Bytes × Bytes)}
    (h : lastValue key entries = some value) : (key, value) ∈ entries := by
  obtain ⟨entry, hlast, rfl⟩ := Option.map_eq_some_iff.mp h
  obtain ⟨hmem, hkey⟩ := List.mem_filter.mp (List.mem_of_getLast? hlast)
  rw [← of_decide_eq_true hkey]
  exact hmem

/-- Every value behind this key is one that a line can carry. -/
def CarriedValues (entries : List (Bytes × Bytes)) : Prop :=
  ∀ key value, (key, value) ∈ entries →
    ValueText value ∧ (entryLine (key, value)).length ≤ edgeMaxLineLen - 2

section Carried

variable {entries : List (Bytes × Bytes)}

/-- A field that holds a text holds one that was seen, or nothing. -/
theorem CarriedValues.text (h : CarriedValues entries) (key : Bytes) :
    ValueText (fieldOf key id [] entries) := by
  unfold fieldOf
  cases hlast : lastValue key entries with
  | none => exact (by decide : ValueText [])
  | some value => exact (h key value (lastValue_mem hlast)).1

/-- The number of a field is spelled by its last line, or by the spelling of its default. -/
theorem CarriedValues.spells (h : CarriedValues entries) {key : Bytes} (hkey : KeyText key)
    {text₀ : Bytes} {d₀ : Double} (hdefault : Spells key text₀ d₀) :
    ∃ text, Spells key text (fieldOf key (fun value => (parseDouble value d₀).2) d₀ entries) := by
  unfold fieldOf
  cases hlast : lastValue key entries with
  | none => exact ⟨text₀, hdefault⟩
  | some value =>
    obtain ⟨hvalue, hfits⟩ := h key value (lastValue_mem hlast)
    dsimp only [Option.map_some, Option.getD_some]
    -- an accepted text spells the number, a refused one leaves the default
    by_cases hok : (parseDouble value d₀).1 = .ok
    · refine ⟨value, ⟨hkey, hvalue, hfits⟩, fun old => ?_⟩
      unfold parseDouble at hok ⊢
      dsimp only at hok ⊢
      split_ifs at hok ⊢
      rfl
    · refine ⟨text₀, ?_⟩
      have hkept : (parseDouble value d₀).2 = d₀ := by
        unfold parseDouble at hok ⊢
        dsimp only at hok ⊢
        split_ifs at hok ⊢
        · rfl
        · exact absurd rfl hok
      rw [hkept]
      exact hdefault

end Carried

/-- A text that `strtod` reads to its end is parsed as its value. -/
theorem parseDouble_whole {text : Bytes} {d : Double}
    (h : (strtod text).erange = false ∧ (strtod text).converted = true ∧ (strtod text).rest = [] ∧
      (strtod text).value = d) (old : Double) : parseDouble text old = (.ok, d) := by
  obtain ⟨hrange, hconverted, hrest, hvalue⟩ := h
  unfold parseDouble
  dsimp only
  rw [hrange, hconverted, hrest, hvalue, if_neg (by simp)]

theorem spells_one : Spells (lit "scale") (lit "1") (.fin 1) :=
  ⟨by decide, parseDouble_whole (by decide +kernel)⟩

theorem spells_zero : Spells (lit "threshold") (lit "0") (.fin 0) :=
  ⟨by decide, parseDouble_whole (by decide +kernel)⟩

/-! ## The models of templates

A model is expressible if it can be written. Then it is what loading the written file gives; and
what any accepted file gives is expressible. -/

/-- What a template can say of a model. -/
structure Expressible (model : EdgeModel) : Prop where
  writable : Writable model
  resolved : Resolved model
  spelled : ∃ spelling : Spelling, spelling.Covers model

theorem edgeConfigLoad_templateLines {model : EdgeModel} (h : Writable model)
    (hresolved : Resolved model) {spelling : Spelling} (hspelling : spelling.Covers model) :
    edgeConfigLoad (some (joinLines (templateLines spelling model))) {} = (.ok, model) := by
  obtain ⟨hlines, hread⟩ := readTemplate_templateLines h hspelling
  rw [edgeConfigLoad_lines hlines hread, finishLoad_unresolved h hresolved]

/-- A spelling needs a text for one number at a time. -/
theorem exists_covers {model : EdgeModel}
    (hscales : ∀ node ∈ model.nodes, ∃ text, Spells (lit "scale") text node.scale)
    (hthresholds : ∀ event ∈ model.events, ∃ text,
      Spells (lit "threshold") text event.threshold) :
    ∃ spelling : Spelling, spelling.Covers model := by
  classical
  let spell (key : Bytes) (d : Double) : Bytes :=
    if h : ∃ text, Spells key text d then h.choose else []
  have hspell : ∀ key d, (∃ text, Spells key text d) → Spells key (spell key d) d := by
    intro key d h
    dsimp only [spell]
    rw [dif_pos h]
    exact h.choose_spec
  exact ⟨⟨spell (lit "scale"), spell (lit "threshold")⟩,
    fun node hmem => hspell _ _ (hscales node hmem),
    fun event hmem => hspell _ _ (hthresholds event hmem)⟩

/-- Where two lists agree after they were mapped, each element has a partner. -/
theorem exists_of_map_eq {α β γ : Type} {f : α → γ} {g : β → γ} {l : List α} {l' : List β}
    (h : l.map f = l'.map g) {a : α} (hmem : a ∈ l) : ∃ b ∈ l', f a = g b := by
  have himage : f a ∈ l'.map g := h ▸ List.mem_map.mpr ⟨a, hmem, rfl⟩
  obtain ⟨b, hb, heq⟩ := List.mem_map.mp himage
  exact ⟨b, hb, heq.symm⟩

section Built

variable {blocks : List Block} {model : EdgeModel}

/-- What an accepted file says can be written, record by record. -/
theorem BuiltFrom.writable (h : BuiltFrom blocks model) (hwf : WellFormed model)
    (hcarried : ∀ block ∈ blocks, CarriedValues block.entries) : Writable model := by
  have hplant : CarriedValues (plantEntries blocks) := by
    intro key value hentry
    obtain ⟨block, hblock, hentry⟩ := List.mem_flatMap.mp hentry
    exact hcarried block (List.mem_filter.mp hblock).1 key value hentry
  -- what the loader has validated, and texts that were read from lines of the file
  refine ⟨⟨hwf.id.1, hwf.id.2, h.plantId ▸ hplant.text _⟩,
    ⟨hwf.name.1, hwf.name.2, h.plantName ▸ hplant.text _⟩, hwf.assetCount, hwf.nodeCount,
    hwf.eventCount, fun asset hmem => ?_, fun node hmem => ?_, fun event hmem => ?_⟩
  · obtain ⟨block, hblock, heq⟩ := exists_of_map_eq h.assets hmem
    have hvalues := hcarried block (List.mem_filter.mp hblock).1
    exact { hwf.assets asset hmem with
      idText := congrArg EdgeAsset.id heq ▸ hvalues.text _
      typeText := congrArg EdgeAsset.type heq ▸ hvalues.text _
      nameText := congrArg EdgeAsset.name heq ▸ hvalues.text _
      parentText := congrArg EdgeAsset.parentId heq ▸ hvalues.text _
      unwired := ⟨congrArg EdgeAsset.parent heq, congrArg EdgeAsset.firstNodeIndex heq,
        congrArg EdgeAsset.nodeCount heq⟩ }
  · obtain ⟨block, hblock, heq⟩ := exists_of_map_eq h.nodes hmem
    have hvalues := hcarried block (List.mem_filter.mp hblock).1
    exact { hwf.nodes node hmem with
      idText := congrArg EdgeNode.id heq ▸ hvalues.text _
      nameText := congrArg EdgeNode.name heq ▸ hvalues.text _
      assetText := congrArg EdgeNode.assetId heq ▸ hvalues.text _
      unwired := congrArg EdgeNode.asset heq }
  · obtain ⟨block, hblock, heq⟩ := exists_of_map_eq h.events hmem
    have hvalues := hcarried block (List.mem_filter.mp hblock).1
    exact { hwf.events event hmem with
      idText := congrArg EdgeEvent.id heq ▸ hvalues.text _
      assetText := congrArg EdgeEvent.assetId heq ▸ hvalues.text _
      sourceText := congrArg EdgeEvent.sourceNodeId heq ▸ hvalues.text _
      unwired := ⟨congrArg EdgeEvent.asset heq, congrArg EdgeEvent.sourceNode heq⟩ }

theorem BuiltFrom.spelled (h : BuiltFrom blocks model)
    (hcarried : ∀ block ∈ blocks, CarriedValues block.entries) :
    ∃ spelling : Spelling, spelling.Covers model := by
  refine exists_covers (fun node hmem => ?_) fun event hmem => ?_
  · obtain ⟨block, hblock, heq⟩ := exists_of_map_eq h.nodes hmem
    show ∃ text, Spells (lit "scale") text node.unresolved.scale
    rw [heq]
    exact (hcarried block (List.mem_filter.mp hblock).1).spells (by decide) spells_one
  · obtain ⟨block, hblock, heq⟩ := exists_of_map_eq h.events hmem
    show ∃ text, Spells (lit "threshold") text event.unresolved.threshold
    rw [heq]
    exact (hcarried block (List.mem_filter.mp hblock).1).spells (by decide) spells_zero

end Built

/-- What an accepted file gives can be written. -/
theorem expressible_of_ok {bytes : Bytes} {model : EdgeModel}
    (h : edgeConfigLoad (some bytes) {} = (.ok, model)) : Expressible model := by
  have hok := congrArg Prod.fst h
  have hwf := edgeConfigLoad_wellFormed _ _ h
  have hbuilt := builtFrom_of_ok hok
  rw [h] at hbuilt
  have hcarried : ∀ block ∈ (blocksOf (stringsOf bytes)).2, CarriedValues block.entries :=
    fun block hmem key value hentry => seen_of_entry hok hmem hentry
  exact ⟨hbuilt.writable hwf hcarried, hwf.resolved, hbuilt.spelled hcarried⟩

/-- **What templates can say.** A model comes from some accepted file exactly if it is
expressible. -/
theorem expressible_iff (model : EdgeModel) :
    (∃ bytes, edgeConfigLoad (some bytes) {} = (.ok, model)) ↔ Expressible model := by
  constructor
  · rintro ⟨bytes, h⟩
    exact expressible_of_ok h
  · intro h
    obtain ⟨spelling, hspelling⟩ := h.spelled
    exact ⟨_, edgeConfigLoad_templateLines h.writable h.resolved hspelling⟩

/-- **A template that is written anew gives the same model.** The file may have comments, keys in
any order and more than once, and any layout the loader accepts; of all this the model keeps what
matters. -/
theorem rewritten_template_loads (bytes : Bytes) (spelling : Spelling)
    (hok : (edgeConfigLoad (some bytes) {}).1 = .ok)
    (hspelling : spelling.Covers (edgeConfigLoad (some bytes) {}).2) :
    edgeConfigLoad
        (some (joinLines (templateLines spelling (edgeConfigLoad (some bytes) {}).2))) {} =
      edgeConfigLoad (some bytes) {} := by
  have hload := edgeConfigLoad_of_ok hok
  have hexpressible := expressible_of_ok hload
  rw [edgeConfigLoad_templateLines hexpressible.writable hexpressible.resolved hspelling]
  exact hload.symm

/-- The depot, whose file begins with a comment and ends with the plant. -/
theorem rewritten_depot_loads :
    joinLines (templateLines ⟨fun _ => lit "1", fun _ => []⟩
        (edgeConfigLoad (some (joinLines depotLines)) {}).2) ≠ joinLines depotLines ∧
      edgeConfigLoad (some (joinLines (templateLines ⟨fun _ => lit "1", fun _ => []⟩
          (edgeConfigLoad (some (joinLines depotLines)) {}).2))) {} =
        edgeConfigLoad (some (joinLines depotLines)) {} := by
  obtain ⟨hok, hscales, hevents, hother⟩ :
      (edgeConfigLoad (some (joinLines depotLines)) {}).1 = .ok ∧
        (∀ node ∈ (edgeConfigLoad (some (joinLines depotLines)) {}).2.nodes,
          node.scale = .fin 1) ∧
        (edgeConfigLoad (some (joinLines depotLines)) {}).2.events = [] ∧
        joinLines (templateLines ⟨fun _ => lit "1", fun _ => []⟩
          (edgeConfigLoad (some (joinLines depotLines)) {}).2) ≠ joinLines depotLines := by
    decide +kernel
  -- the scale is spelled 1, and there is no threshold to spell
  refine ⟨hother, rewritten_template_loads (joinLines depotLines) _ hok ⟨fun node hmem => ?_, ?_⟩⟩
  · rw [hscales node hmem]
    exact spells_one
  · rw [hevents]
    exact List.forall_mem_nil _

end OpcuaEdge
