import OpcuaEdge.Expressible
import OpcuaEdge.SyntheticPlant

/-!
# OpcuaEdge — which synthetic plants a template gives

A wired model comes from a template exactly if it is what wiring makes of an expressible one
(`loadedAndWired_iff`). The generator of the benchmark takes its Modbus units modulo 250, the loader
takes none above 247: plants of up to 247 pumps could have been loaded, and larger ones could not
(`synthetic_plant_from_template`).

What is to be shown of the plant of `n` pumps:

* its texts and numbers can be written in lines (`writable_syntheticPlant`), its ids are distinct
  (`nodup_eventIds` and its likes), and its numbers have spellings;
* behind the 247th pump there is a node whose unit no template can have.
-/

namespace OpcuaEdge

open CStr CLoop

/-! ## Undoing the wiring

Wiring fills pointers and counts from indexes that the loader has resolved. Taking these fields
back loses nothing: wiring again gives the same model. So a wired model is judged by what it was
before. -/

/-- An asset without its parent pointer and without its count of nodes. -/
def EdgeAsset.unwired (asset : EdgeAsset) : EdgeAsset :=
  { asset with parent := none, firstNodeIndex := 0, nodeCount := 0 }

/-- A node without its pointer to the asset. -/
def EdgeNode.unwired (node : EdgeNode) : EdgeNode := { node with asset := none }

/-- An event without its two pointers. -/
def EdgeEvent.unwired (event : EdgeEvent) : EdgeEvent :=
  { event with asset := none, sourceNode := none }

/-- The model without what `edge_config_wire_runtime` writes. -/
def EdgeModel.unwired (model : EdgeModel) : EdgeModel :=
  { model with
    assets := model.assets.map EdgeAsset.unwired
    nodes := model.nodes.map EdgeNode.unwired
    events := model.events.map EdgeEvent.unwired }

/-- Wiring and taking it back is taking it back .. -/
theorem unwired_wiredModel (model : EdgeModel) : (wiredModel model).unwired = model.unwired := by
  have hassets : (model.assets.mapIdx fun k asset =>
      counted model.nodes 0 k (wireAsset asset)).map EdgeAsset.unwired =
      model.assets.map EdgeAsset.unwired := by
    apply List.ext_getElem?
    intro k
    rw [List.getElem?_map, List.getElem?_mapIdx, List.getElem?_map, Option.map_map]
    rfl
  have hnodes : (model.nodes.map wiredNode).map EdgeNode.unwired =
      model.nodes.map EdgeNode.unwired := List.map_map
  have hevents : (model.events.map wiredEvent).map EdgeEvent.unwired =
      model.events.map EdgeEvent.unwired := List.map_map
  unfold wiredModel EdgeModel.unwired
  dsimp only
  rw [hassets, hnodes, hevents]

/-- .. and taking it back and wiring again is wiring. -/
theorem wiredModel_unwired (model : EdgeModel) : wiredModel model.unwired = wiredModel model := by
  -- counting reads only the asset indexes of the nodes
  have hcounted : ∀ (k : Nat) (asset : EdgeAsset),
      counted (model.nodes.map EdgeNode.unwired) 0 k (wireAsset asset.unwired) =
        counted model.nodes 0 k (wireAsset asset) := by
    intro k asset
    unfold counted
    rw [List.countP_map, List.findIdx?_map]
    rfl
  have hassets : ((model.assets.map EdgeAsset.unwired).mapIdx fun k asset =>
      counted (model.nodes.map EdgeNode.unwired) 0 k (wireAsset asset)) =
      model.assets.mapIdx fun k asset => counted model.nodes 0 k (wireAsset asset) := by
    apply List.ext_getElem?
    intro k
    rw [List.getElem?_mapIdx, List.getElem?_map, List.getElem?_mapIdx, Option.map_map]
    exact congrArg (fun f => Option.map f model.assets[k]?) (funext (hcounted k))
  have hnodes : (model.nodes.map EdgeNode.unwired).map wiredNode = model.nodes.map wiredNode :=
    List.map_map
  have hevents : (model.events.map EdgeEvent.unwired).map wiredEvent =
      model.events.map wiredEvent := List.map_map
  unfold wiredModel EdgeModel.unwired
  dsimp only
  rw [hassets, hnodes, hevents]

/-- An expressible model is as the loader leaves it, before the wiring. -/
theorem Expressible.unwired {model : EdgeModel} (h : Expressible model) :
    model.unwired = model := by
  -- a model that a template gives has no pointers before it is wired
  have hassets : model.assets.map EdgeAsset.unwired = model.assets := by
    refine (List.map_congr_left fun asset hmem => ?_).trans (List.map_id _)
    obtain ⟨hparent, hfirst, hcount⟩ := (h.writable.assets asset hmem).unwired
    cases asset
    cases hparent
    cases hfirst
    cases hcount
    rfl
  have hnodes : model.nodes.map EdgeNode.unwired = model.nodes := by
    refine (List.map_congr_left fun node hmem => ?_).trans (List.map_id _)
    have hasset := (h.writable.nodes node hmem).unwired
    cases node
    cases hasset
    rfl
  have hevents : model.events.map EdgeEvent.unwired = model.events := by
    refine (List.map_congr_left fun event hmem => ?_).trans (List.map_id _)
    obtain ⟨hasset, hsource⟩ := (h.writable.events event hmem).unwired
    cases event
    cases hasset
    cases hsource
    rfl
  unfold EdgeModel.unwired
  rw [hassets, hnodes, hevents]

/-- The models that the first two steps of startup give. -/
theorem loadedAndWired_iff (model : EdgeModel) :
    (∃ file, LoadedAndWired file model) ↔
      Expressible model.unwired ∧ wiredModel model = model := by
  constructor
  · rintro ⟨file, loaded, hload, hwire⟩
    have hindexed := (edgeConfigLoad_wellFormed _ _ hload).indexed
    rw [hindexed.wire_eq] at hwire
    obtain rfl : wiredModel loaded = model := congrArg Prod.snd hwire
    cases file with
    | none => cases hload
    | some bytes =>
      have hexpressible := expressible_of_ok hload
      rw [unwired_wiredModel, hexpressible.unwired]
      exact ⟨hexpressible, wiredModel_idem loaded⟩
  -- the file is the one that expresses the unwired model
  · rintro ⟨hexpressible, hwired⟩
    obtain ⟨bytes, hload⟩ := (expressible_iff _).mpr hexpressible
    refine ⟨some bytes, model.unwired, hload, ?_⟩
    rw [(edgeConfigLoad_wellFormed _ _ hload).indexed.wire_eq, wiredModel_unwired, hwired]

/-! ## The texts of a pump

The generator makes its texts by numbering: a fixed part and the number of the pump. They fit a
template, and the number can be read off them. -/

/-- A numbered text can stand behind a key if its fixed part can: what it ends in is a digit. -/
theorem valueText_numbered {text : Bytes} (hnewline : newline ∉ text) (hnul : 0 ∉ text) (k : Nat) :
    ValueText (text ++ decimal k) := by
  have hdigits := valueText_decimal k
  constructor
  · rw [List.mem_append, not_or]
    exact ⟨hnewline, hdigits.noNewline⟩
  · rw [List.mem_append, not_or]
    exact ⟨hnul, hdigits.noNul⟩
  · rw [List.getLast?_append_of_ne_nil _ (decimal_ne_nil k)]
    exact hdigits.noReturn

theorem valueText_pumpId (k : Nat) : ValueText (pumpId k) :=
  valueText_numbered (by decide) (by decide) k

/-- A numbered text is not empty, whatever its fixed part is. -/
theorem numbered_ne_nil (text : Bytes) (k : Nat) : text ++ decimal k ≠ [] :=
  fun h => decimal_ne_nil k (List.append_eq_nil_iff.mp h).2

theorem pumpId_injective : Function.Injective pumpId :=
  fun _ _ h => decimal_injective (List.append_cancel_left h)

/-- The number of a pump stands behind the last byte that is no digit. -/
theorem alarmId_number (text : Bytes) {c : UInt8} (hc : isDigit c = false) (k : Nat) :
    ((text ++ [c] ++ decimal k).reverse.takeWhile isDigit).reverse = decimal k := by
  have hdigits : ∀ d ∈ (decimal k).reverse, isDigit d = true :=
    fun d hd => isDigit_of_mem_decimal (List.mem_reverse.mp hd)
  rw [List.reverse_append, List.reverse_append, List.takeWhile_append_of_pos hdigits,
    List.reverse_singleton, List.singleton_append, List.takeWhile_cons_of_neg (by simp [hc]),
    List.append_nil, List.reverse_reverse]

/-- Two alarms with one id are the same alarm of the same pump. The number is told first, by the
bytes at the end; what stands before it is then the same. -/
theorem alarmId_injective {a b : BenchEventSpec} {k j : Nat}
    (h : (pumpEvent k a).id = (pumpEvent j b).id) : a.suffix = b.suffix ∧ k = j := by
  have hsplit : ∀ (alarm : BenchEventSpec) (i : Nat),
      (pumpEvent i alarm).id = alarm.suffix ++ lit "_" ++ [112] ++ decimal i := by
    intro alarm i
    show alarm.suffix ++ lit "_p" ++ decimal i = _
    rw [List.append_assoc alarm.suffix (lit "_")]
    rfl
  have hnumber : decimal k = decimal j := by
    rw [← alarmId_number (a.suffix ++ lit "_") (c := 112) rfl k, ← hsplit, h, hsplit,
      alarmId_number _ rfl]
  obtain rfl := decimal_injective hnumber
  refine ⟨?_, rfl⟩
  exact List.append_cancel_right (List.append_cancel_right h)

/-- The numbers of the plant, as a template writes them. -/
theorem thresholds_spelled : ∀ alarm ∈ kPumpEvents, ∃ text,
    Spells (lit "threshold") text (.fin alarm.threshold) := by
  have hspells : Spells (lit "threshold") (lit "8.5") (.fin (17 / 2)) ∧
      Spells (lit "threshold") (lit "85") (.fin 85) ∧
      Spells (lit "threshold") (lit "1") (.fin 1) ∧
      Spells (lit "threshold") (lit "850") (.fin 850) := by
    refine ⟨⟨by decide, parseDouble_whole ?_⟩, ⟨by decide, parseDouble_whole ?_⟩,
      ⟨by decide, parseDouble_whole ?_⟩, ⟨by decide, parseDouble_whole ?_⟩⟩ <;> decide +kernel
  obtain ⟨hvibration, htemperature, hsuction, hcurrent⟩ := hspells
  simp only [kPumpEvents, List.forall_mem_cons]
  exact ⟨⟨_, hvibration⟩, ⟨_, htemperature⟩, ⟨_, hsuction⟩, ⟨_, hcurrent⟩, List.forall_mem_nil _⟩

/-! ## The plant as the loader leaves it

Each record of the plant, without its wiring, meets the conditions of a record that a template can
give. Only the unit has an upper bound that the generator does not keep. -/

/-- The texts of the specification can stand in a template, and no name occurs twice in it. -/
theorem kPumpTags_written : ∀ tag ∈ kPumpTags,
    tag.id ≠ [] ∧ tag.name ≠ [] ∧ tag.dataType ≠ .unset ∧ ValueText tag.id ∧
      ValueText tag.name := by decide

/-- The same of the alarms: their ids are numbered, so it is their fixed part that counts. -/
theorem kPumpEvents_written : ∀ alarm ∈ kPumpEvents,
    alarm.sourceId ≠ [] ∧ alarm.condition ≠ .unset ∧ alarm.severity ≠ 0 ∧
      ValueText alarm.sourceId ∧ newline ∉ alarm.suffix ++ lit "_p" ∧
      0 ∉ alarm.suffix ++ lit "_p" := by decide

theorem kPumpTags_distinct : (kPumpTags.map (·.id)).Nodup := by decide

theorem kPumpEvents_distinct : (kPumpEvents.map (·.suffix)).Nodup := by decide

/-- The texts that all pumps share. -/
theorem plantTexts_written :
    ∀ text ∈ [lit "pump", lit "bench_plant", lit "Synthetic Benchmark Plant"],
      text ≠ [] ∧ text.length < edgeMaxIdLen ∧ ValueText text := by decide

theorem assetWritable_pump {k : Nat} (hk : k < 1024) : AssetWritable (pumpAsset k).unwired := by
  obtain ⟨htypeNe, htype, htypeText⟩ := plantTexts_written (lit "pump") (by decide)
  obtain ⟨-, hparent, hparentText⟩ := plantTexts_written (lit "bench_plant") (by decide)
  constructor
  · constructor
    · exact ⟨length_pumpId hk, htype, length_pumpName hk, hparent⟩
    · exact numbered_ne_nil _ k
    · exact htypeNe
    · exact numbered_ne_nil _ k
  · exact valueText_pumpId k
  · exact htypeText
  · exact valueText_numbered (by decide) (by decide) k
  · exact hparentText
  · exact ⟨rfl, rfl, rfl⟩

/-- The Modbus unit of pump `k`. -/
theorem pumpUnit_toNat {k : Nat} (hk : k < 1024) (i : Nat) (tag : BenchTagSpec) :
    (pumpNode k i tag).modbusUnit.toNat = k % 250 + 1 := by
  show ((k.toUInt32 % 250 + 1).toUInt16).toNat = _
  have hmod : (k.toUInt32 % 250 + 1).toNat = k % 250 + 1 := by
    rw [UInt32.toNat_add, UInt32.toNat_mod, UInt32.toNat_ofNat_of_lt' (by
      show k < 4294967296
      omega)]
    show (k % 250 + 1) % 4294967296 = _
    omega
  rw [UInt32.toNat_toUInt16, hmod]
  omega

/-- The register of the `i`-th tag of pump `k`: eleven registers for each pump, from 40001 on. -/
theorem pumpRegister_toNat {k i : Nat} (hk : k < 1024) (hi : i < 11) (tag : BenchTagSpec) :
    (pumpNode k i tag).modbusRegister.toNat = 40001 + k * 11 + i := by
  show (40001 + k.toUInt32 * 11 + i.toUInt32).toNat = _
  rw [UInt32.toNat_add, UInt32.toNat_add, UInt32.toNat_mul, UInt32.toNat_ofNat_of_lt' (by
      show k < 4294967296
      omega), UInt32.toNat_ofNat_of_lt' (by
      show i < 4294967296
      omega)]
  show ((40001 + k * 11 % 4294967296) % 4294967296 + i) % 4294967296 = _
  omega

/-- The nodes of a pump can stand in a template, up to the 247th pump. -/
theorem nodeWritable_pump {k i : Nat} (hk : k < 247) (hi : i < 11) {tag : BenchTagSpec}
    (hmem : tag ∈ kPumpTags) : NodeWritable (pumpNode k i tag).unwired := by
  have hroom : k < 1024 := by omega
  obtain ⟨hid, hname⟩ := kPumpTags_fit tag hmem
  obtain ⟨hidNe, hnameNe, htype, hidText, hnameText⟩ := kPumpTags_written tag hmem
  have hunit : (pumpNode k i tag).modbusUnit.toNat = k + 1 := by
    rw [pumpUnit_toNat hroom]
    omega
  constructor
  · constructor
    · exact ⟨hid, hname, length_pumpId hroom, UInt16.le_iff_toNat_le.mpr (by
        show (pumpNode k i tag).modbusUnit.toNat ≤ 247
        omega), rfl, rfl⟩
    · exact hidNe
    · exact hnameNe
    · exact numbered_ne_nil _ k
    · exact htype
    · apply UInt16.le_iff_toNat_le.mpr
      show 1 ≤ (pumpNode k i tag).modbusUnit.toNat
      omega
    -- the registers start far above zero
    · intro hzero
      have hregister := pumpRegister_toNat hroom hi tag
      rw [show (pumpNode k i tag).modbusRegister = 0 from hzero, UInt32.toNat_zero] at hregister
      omega
  · exact hidText
  · exact hnameText
  · exact valueText_pumpId k
  · rfl

theorem eventWritable_pump {k : Nat} (hk : k < 1024) {alarm : BenchEventSpec}
    (hmem : alarm ∈ kPumpEvents) : EventWritable (sourcedEvent k alarm).unwired := by
  obtain ⟨hsuffix, hsource⟩ := kPumpEvents_fit alarm hmem
  obtain ⟨hsourceNe, hcondition, hseverity, hsourceText, hnewline, hnul⟩ :=
    kPumpEvents_written alarm hmem
  have hdigits := length_decimal_le hk
  constructor
  · constructor
    · refine ⟨?_, length_pumpId hk, hsource, rfl⟩
      show (alarm.suffix ++ lit "_p" ++ decimal k).length < 64
      -- a suffix of at most 24 bytes, the mark and four digits
      have hmark : (lit "_p").length = 2 := rfl
      rw [List.length_append, List.length_append, hmark]
      omega
    · exact numbered_ne_nil _ k
    · exact numbered_ne_nil _ k
    · exact hsourceNe
    · exact hcondition
    · exact hseverity
  · exact valueText_numbered hnewline hnul k
  · exact valueText_pumpId k
  · exact hsourceText
  · exact ⟨rfl, rfl⟩

/-- The plant of up to 247 pumps meets all conditions on its single records, and is far from every
capacity. -/
theorem writable_syntheticPlant {n : Nat} (hn : n ≤ 247) (withEvents : Bool) :
    Writable (syntheticPlant withEvents n).unwired := by
  obtain ⟨hassets, hnodes, hevents⟩ := length_plantWith sourcedEvent withEvents n
  constructor
  · exact plantTexts_written (lit "bench_plant") (by decide)
  · obtain ⟨hne, hlength, htext⟩ := plantTexts_written (lit "Synthetic Benchmark Plant") (by decide)
    exact ⟨hne, lt_nameLen hlength, htext⟩
  · refine (List.length_map _).trans_le (hassets.trans_le ?_)
    unfold edgeMaxAssets
    omega
  · refine (List.length_map _).trans_le (hnodes.trans_le ?_)
    unfold edgeMaxNodes
    omega
  · refine (List.length_map _).trans_le (hevents.trans_le ?_)
    unfold edgeMaxEvents
    split_ifs <;> omega
  · refine List.forall_mem_map.mpr fun asset hmem => ?_
    obtain ⟨k, hk, rfl⟩ := List.mem_map.mp hmem
    have hlt := List.mem_range.mp hk
    exact assetWritable_pump (by omega)
  · -- 247 pumps have the units 1 to 247, as the generator counts modulo 250
    refine List.forall_mem_map.mpr fun node hmem => ?_
    obtain ⟨k, i, tag, hk, htag, rfl⟩ := mem_plantWith_nodes hmem
    have hi : i < 11 := (List.getElem?_eq_some_iff.mp htag).1
    exact nodeWritable_pump (by omega) hi (List.mem_of_getElem? htag)
  · refine List.forall_mem_map.mpr fun event hmem => ?_
    obtain ⟨k, alarm, hk, halarm, rfl⟩ := mem_plantWith_events hmem
    exact eventWritable_pump (by omega) halarm

/-! ### Names

Assets and events are named by their pump, nodes by their pump and their tag. A name that occurs
once is found where it stands, which settles the references. -/

variable {n : Nat} {withEvents : Bool}

/-- The ids of the assets are those of the pumps, in order. -/
theorem assetIds_syntheticPlant :
    (syntheticPlant withEvents n).unwired.assets.map (·.id) = (List.range n).map pumpId := by
  show (((List.range n).map pumpAsset).map EdgeAsset.unwired).map (·.id) = _
  rw [List.map_map, List.map_map]
  rfl

theorem nodeNames_syntheticPlant :
    ((syntheticPlant withEvents n).unwired.nodes.map fun node => (node.assetId, node.id)) =
      (List.range n).flatMap fun k => kPumpTags.map fun tag => (pumpId k, tag.id) := by
  show ((((List.range n).flatMap pumpNodes).map EdgeNode.unwired).map fun node =>
    (node.assetId, node.id)) = _
  rw [List.map_map, List.map_flatMap]
  refine List.flatMap_congr fun k _ => ?_
  apply List.ext_getElem?
  intro i
  rw [List.getElem?_map, pumpNodes, List.getElem?_mapIdx, List.getElem?_map, Option.map_map]
  rfl

theorem nodup_nodeNames :
    ((syntheticPlant withEvents n).unwired.nodes.map fun node =>
      (node.assetId, node.id)).Nodup := by
  rw [nodeNames_syntheticPlant, List.nodup_flatMap]
  constructor
  · intro k _
    refine (List.pairwise_map.mpr ?_)
    refine (List.pairwise_map.mp kPumpTags_distinct).imp fun hne heq => ?_
    exact hne (congrArg Prod.snd heq)
  · -- two pumps have different ids
    refine List.nodup_range.imp fun {k j} hne => ?_
    rw [Function.onFun, List.disjoint_left]
    intro name hk hj
    obtain ⟨a, -, rfl⟩ := List.mem_map.mp hk
    obtain ⟨b, -, heq⟩ := List.mem_map.mp hj
    exact hne (pumpId_injective (congrArg Prod.fst heq)).symm

theorem nodup_eventIds : ((syntheticPlant withEvents n).unwired.events.map (·.id)).Nodup := by
  cases withEvents with
  | false => exact List.nodup_nil
  | true =>
    have hids : (syntheticPlant true n).unwired.events.map (·.id) =
        (List.range n).flatMap fun k => kPumpEvents.map fun alarm => (pumpEvent k alarm).id := by
      show ((((List.range n).flatMap fun k => kPumpEvents.map (sourcedEvent k)).map
        EdgeEvent.unwired).map (·.id)) = _
      rw [List.map_map, List.map_flatMap]
      refine List.flatMap_congr fun k _ => ?_
      rw [List.map_map]
      rfl
    rw [hids, List.nodup_flatMap]
    constructor
    · intro k _
      refine List.pairwise_map.mpr ?_
      -- the events of one pump differ in their suffix
      refine (List.pairwise_map.mp kPumpEvents_distinct).imp fun hne heq => ?_
      exact hne (alarmId_injective heq).1
    · refine List.nodup_range.imp fun {k j} hne => ?_
      -- those of two pumps in the number
      rw [Function.onFun, List.disjoint_left]
      intro id hk hj
      obtain ⟨a, -, rfl⟩ := List.mem_map.mp hk
      obtain ⟨b, -, heq⟩ := List.mem_map.mp hj
      exact hne (alarmId_injective heq).2.symm

/-- The loader would find each pump where the generator put it .. -/
theorem assetResolved_syntheticPlant {k : Nat} (hk : k < n) :
    AssetResolved (syntheticPlant withEvents n).unwired k (pumpId k) := by
  refine ⟨(pumpAsset k).unwired, ?_, rfl⟩
  show ((syntheticPlant withEvents n).assets.map EdgeAsset.unwired)[k]? = _
  rw [List.getElem?_map]
  unfold syntheticPlant
  rw [plantWith_assets hk]
  rfl

/-- .. and the node that an alarm watches as well. -/
theorem sourceResolved_syntheticPlant {k : Nat} (hk : k < n) {alarm : BenchEventSpec}
    (hmem : alarm ∈ kPumpEvents) :
    SourceResolved (syntheticPlant withEvents n).unwired (sourcedEvent k alarm).unwired := by
  obtain ⟨hlt, -⟩ := sources_found alarm hmem
  have hsource : kPumpTags[kPumpTags.findIdx fun tag => tag.id = alarm.sourceId]?.map (·.id) =
      some alarm.sourceId := by
    rw [List.getElem?_eq_getElem hlt]
    exact congrArg some (of_decide_eq_true (List.findIdx_getElem (w := hlt)))
  obtain ⟨tag, htag, hid⟩ := Option.map_eq_some_iff.mp hsource
  have hget : (syntheticPlant withEvents n).unwired.nodes[sourceIndex k alarm]? =
      some (pumpNode k (kPumpTags.findIdx fun tag => tag.id = alarm.sourceId) tag).unwired := by
    show ((syntheticPlant withEvents n).nodes.map EdgeNode.unwired)[sourceIndex k alarm]? = _
    rw [List.getElem?_map]
    unfold syntheticPlant sourceIndex
    rw [plantWith_nodes _ _ hk hlt, htag]
    rfl
  refine ⟨⟨_, hget, rfl, hid⟩, fun j node hnode hasset hnodeId => ?_⟩
  -- the name of a node is the name of one node only
  have hnames : ((syntheticPlant withEvents n).unwired.nodes.map fun node =>
        (node.assetId, node.id))[j]? =
      ((syntheticPlant withEvents n).unwired.nodes.map fun node =>
        (node.assetId, node.id))[sourceIndex k alarm]? := by
    rw [List.getElem?_map, List.getElem?_map, hnode, hget]
    exact congrArg some (Prod.ext hasset (hnodeId.trans hid.symm))
  have hj : j < ((syntheticPlant withEvents n).unwired.nodes.map fun node =>
      (node.assetId, node.id)).length := by
    rw [List.length_map]
    exact (List.getElem?_eq_some_iff.mp hnode).1
  exact (List.getElem?_inj hj nodup_nodeNames).mp hnames

/-- All references of the plant are resolved as the loader resolves them. -/
theorem resolved_syntheticPlant (withEvents : Bool) (n : Nat) :
    Resolved (syntheticPlant withEvents n).unwired := by
  -- the ids differ with the pump's number, and every reference is to the own pump
  constructor
  · rw [assetIds_syntheticPlant]
    exact List.nodup_range.map pumpId_injective
  · exact nodup_nodeNames
  · exact nodup_eventIds
  · intro i asset hget
    obtain ⟨pump, hpump, rfl⟩ := List.mem_map.mp (List.mem_of_getElem? hget)
    obtain ⟨k, -, rfl⟩ := List.mem_map.mp hpump
    exact ⟨iff_of_true rfl (.inr rfl), fun hnone => absurd (.inr rfl) hnone⟩
  · refine List.forall_mem_map.mpr fun node hmem => ?_
    obtain ⟨k, i, tag, hk, -, rfl⟩ := mem_plantWith_nodes hmem
    exact assetResolved_syntheticPlant hk
  · refine List.forall_mem_map.mpr fun event hmem => ?_
    obtain ⟨k, alarm, hk, -, rfl⟩ := mem_plantWith_events hmem
    exact assetResolved_syntheticPlant hk
  · refine List.forall_mem_map.mpr fun event hmem => ?_
    obtain ⟨k, alarm, hk, halarm, rfl⟩ := mem_plantWith_events hmem
    exact sourceResolved_syntheticPlant hk halarm

/-! ## Templates for synthetic plants

Both directions: up to 247 pumps the conditions are met, and beyond that a unit is out of the
loader's range. -/

theorem expressible_syntheticPlant (hn : n ≤ 247) (withEvents : Bool) :
    Expressible (syntheticPlant withEvents n).unwired := by
  refine ⟨writable_syntheticPlant hn withEvents, resolved_syntheticPlant withEvents n,
    exists_covers ?_ ?_⟩
  · refine List.forall_mem_map.mpr fun node hmem => ?_
    obtain ⟨k, i, tag, -, -, rfl⟩ := mem_plantWith_nodes hmem
    exact ⟨_, spells_one⟩
  · refine List.forall_mem_map.mpr fun event hmem => ?_
    obtain ⟨k, alarm, -, halarm, rfl⟩ := mem_plantWith_events hmem
    exact thresholds_spelled alarm halarm

/-- The loader takes no Modbus unit of the pump with index 247. -/
theorem not_expressible_syntheticPlant (hn : 247 < n) (withEvents : Bool) :
    ¬ Expressible (syntheticPlant withEvents n).unwired := by
  intro h
  obtain ⟨tag, htag⟩ : ∃ tag, kPumpTags[0]? = some tag := ⟨_, rfl⟩
  have hget := plantWith_nodes sourcedEvent withEvents hn
    (show 0 < 11 by decide)
  rw [htag] at hget
  have hmem : (pumpNode 247 0 tag).unwired ∈ (syntheticPlant withEvents n).unwired.nodes :=
    List.mem_map_of_mem (List.mem_of_getElem? hget)
  have hunit := UInt16.le_iff_toNat_le.mp (h.writable.nodes _ hmem).unit
  rw [show (pumpNode 247 0 tag).unwired.modbusUnit.toNat = 248 from
    pumpUnit_toNat (by decide) 0 tag] at hunit
  exact absurd hunit (by decide)

/-- **Which synthetic plants could have been loaded.** The generator succeeds, and some template
gives the same wired model, for 1 to 247 pumps and for no other number. -/
theorem synthetic_plant_from_template (model : EdgeModel) (n : UInt32) (withEvents : Bool) :
    (edgeBenchmarkSyntheticPumps model n withEvents).1 = .ok ∧
        (∃ file, LoadedAndWired file (edgeBenchmarkSyntheticPumps model n withEvents).2) ↔
      0 < n.toNat ∧ n.toNat ≤ 247 := by
  have hpos : n = 0 ↔ ¬ 0 < n.toNat := by
    rw [← UInt32.toNat_inj, UInt32.toNat_zero]
    omega
  rw [edgeBenchmarkSyntheticPumps_eq]
  by_cases hzero : n = 0
  · rw [if_pos hzero]
    exact iff_of_false (fun h => nomatch h.1) fun h => hpos.mp hzero h.1
  rw [if_neg hzero]
  have hsome : 0 < n.toNat := by
    by_contra hnone
    exact hzero (hpos.mpr hnone)
  by_cases hroom : n.toNat ≤ 1024
  · rw [if_pos hroom]
    simp only [loadedAndWired_iff, wiredModel_syntheticPlant, and_true, true_and, hsome]
    constructor
    · intro hexpressible
      -- a pump beyond the 247th would have a unit that no template can have
      by_contra hmany
      exact not_expressible_syntheticPlant (by omega) withEvents hexpressible
    · intro hfew
      exact expressible_syntheticPlant hfew withEvents
  · rw [if_neg hroom]
    exact iff_of_false (fun h => nomatch h.1) (by omega)

end OpcuaEdge
