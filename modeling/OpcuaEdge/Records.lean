import OpcuaEdge.Blocks

/-!
# OpcuaEdge — records depend only on their own block

Each record of an accepted template is a function of the keys and values of its block
(`assetOf`, `nodeOf`, `eventOf`): a field holds the parsed value of the last line with its key. The
whole model is a function of the blocks (`modelOf`) that looks at each kind separately, so it does
not matter how blocks of different kinds are interleaved.

From the text up:

* a field of a record is the value of the last line with its key (`fieldOf`), whatever other lines
  say;
* a block makes one record, by its own lines only (`runBlocks_modelOf`);
* the checks behind the loop do not change records, and the resolver adds only indexes.
-/

namespace OpcuaEdge

open CStr CLoop

/-! ## Fields

A key may be repeated in a block, and its last line counts. A field is therefore a function of the
entries of the block: their keys and values, in order. -/

/-- The value of the last line with this key. -/
def lastValue (key : Bytes) (entries : List (Bytes × Bytes)) : Option Bytes :=
  (entries.filter (·.1 = key)).getLast?.map (·.2)

/-- The parsed value of the last line with this key, or a default. -/
def fieldOf {β : Type} (key : Bytes) (parse : Bytes → β) (default : β)
    (entries : List (Bytes × Bytes)) : β :=
  ((lastValue key entries).map parse).getD default

/-- The last value of two lists is that of the second, or else that of the first. -/
theorem lastValue_append (key : Bytes) (first second : List (Bytes × Bytes)) :
    lastValue key (first ++ second) = (lastValue key second).or (lastValue key first) := by
  unfold lastValue
  rw [List.filter_append, List.getLast?_append, Option.map_or]

/-- A field after two lists: what the first one gives is the default of the second. -/
theorem fieldOf_append {β : Type} (key : Bytes) (parse : Bytes → β) (default : β)
    (first second : List (Bytes × Bytes)) :
    fieldOf key parse default (first ++ second) =
      fieldOf key parse (fieldOf key parse default first) second := by
  unfold fieldOf
  rw [lastValue_append]
  cases lastValue key second <;> rfl

/-- One more line gives the field of its key, and leaves the others. -/
theorem fieldOf_snoc {β : Type} (field : Bytes) (parse : Bytes → β) (default : β)
    (entries : List (Bytes × Bytes)) (key value : Bytes) :
    fieldOf field parse default (entries ++ [(key, value)]) =
      if key = field then parse value else fieldOf field parse default entries := by
  unfold fieldOf lastValue
  rw [List.filter_append, List.getLast?_append]
  by_cases hkey : key = field
  · simp [hkey]
  · simp [hkey]

/-- The asset that a block describes. Its index is resolved after the last line, here as in the
next two. -/
def assetOf (entries : List (Bytes × Bytes)) : EdgeAsset where
  id := fieldOf (lit "id") id [] entries
  type := fieldOf (lit "type") id [] entries
  name := fieldOf (lit "name") id [] entries
  parentId := fieldOf (lit "parent") id [] entries
  parentIndex := edgeInvalidIndex

/-- The node that a block describes, with the defaults of `begin_node`. -/
def nodeOf (entries : List (Bytes × Bytes)) : EdgeNode where
  assetId := fieldOf (lit "asset") id [] entries
  id := fieldOf (lit "id") id [] entries
  name := fieldOf (lit "name") id [] entries
  dataType := fieldOf (lit "data_type") (fun value => (parseDataType value .unset).2) .unset entries
  writable := fieldOf (lit "access") (fun value => (parseAccess value false).2) false entries
  modbusUnit := fieldOf (lit "modbus_unit") (fun value => (parseU16 value 0).2) 0 entries
  modbusRegister := fieldOf (lit "modbus_register") (fun value => (parseU32 value 0).2) 0 entries
  scale := fieldOf (lit "scale") (fun value => (parseDouble value (.fin 1)).2) (.fin 1) entries
  assetIndex := edgeInvalidIndex

/-- The event that a block describes. -/
def eventOf (entries : List (Bytes × Bytes)) : EdgeEvent where
  assetId := fieldOf (lit "asset") id [] entries
  id := fieldOf (lit "id") id [] entries
  sourceNodeId := fieldOf (lit "source_node") id [] entries
  condition :=
    fieldOf (lit "condition") (fun value => (parseCondition value .unset).2) .unset entries
  threshold :=
    fieldOf (lit "threshold") (fun value => (parseDouble value (.fin 0)).2) (.fin 0) entries
  severity := fieldOf (lit "severity") (fun value => (parseU16 value 0).2) 0 entries
  assetIndex := edgeInvalidIndex
  sourceNodeIndex := edgeInvalidIndex

/-- The plant has no record of its own: its blocks write into the model. -/
def plantOf (model : EdgeModel) (entries : List (Bytes × Bytes)) : EdgeModel :=
  { model with
    id := fieldOf (lit "id") id model.id entries
    name := fieldOf (lit "name") id model.name entries }

/-! ## One key

An accepted value does not depend on what the field held before. -/

theorem copyValue_ok {dst value : Bytes} {size : Nat} (h : (copyValue dst size value).1 = .ok) :
    (copyValue dst size value).2 = value := by
  unfold copyValue at h ⊢
  split_ifs at h ⊢
  rfl

/-- An accepted number does not depend on the number it replaces; the next lemmas say the same of
the other parsers. -/
theorem parseU16_ok {value : Bytes} {old : UInt16} (h : (parseU16 value old).1 = .ok)
    (other : UInt16) :
    (parseU16 value old).2 = (parseU16 value other).2 := by
  unfold parseU16 at h ⊢
  dsimp only at h ⊢
  split_ifs at h ⊢
  rfl

/-- As `parseU16_ok`, for 32 bits. -/
theorem parseU32_ok {value : Bytes} {old : UInt32} (h : (parseU32 value old).1 = .ok)
    (other : UInt32) :
    (parseU32 value old).2 = (parseU32 value other).2 := by
  unfold parseU32 at h ⊢
  dsimp only at h ⊢
  split_ifs at h ⊢
  rfl

/-- As `parseU16_ok`, for a double. -/
theorem parseDouble_ok {value : Bytes} {old : Double} (h : (parseDouble value old).1 = .ok)
    (other : Double) : (parseDouble value old).2 = (parseDouble value other).2 := by
  unfold parseDouble at h ⊢
  dsimp only at h ⊢
  split_ifs at h ⊢
  rfl

/-- As `parseU16_ok`, for a type. -/
theorem parseDataType_ok {value : Bytes} {old : EdgeDataType}
    (h : (parseDataType value old).1 = .ok) (other : EdgeDataType) :
    (parseDataType value old).2 = (parseDataType value other).2 := by
  unfold parseDataType at h ⊢
  split_ifs at h ⊢ <;> rfl

/-- As `parseU16_ok`, for an access. -/
theorem parseAccess_ok {value : Bytes} {old : Bool} (h : (parseAccess value old).1 = .ok)
    (other : Bool) : (parseAccess value old).2 = (parseAccess value other).2 := by
  unfold parseAccess at h ⊢
  split_ifs at h ⊢ <;> rfl

theorem parseCondition_ok {value : Bytes} {old : EdgeEventCondition}
    (h : (parseCondition value old).1 = .ok) (other : EdgeEventCondition) :
    (parseCondition value old).2 = (parseCondition value other).2 := by
  unfold parseCondition at h ⊢
  split_ifs at h ⊢ <;> rfl

/-- An accepted key of the plant writes its own field and no other. -/
theorem parsePlantKey_ok {model : EdgeModel} {key value : Bytes}
    (h : (parsePlantKey model key value).1 = .ok) :
    (parsePlantKey model key value).2 =
      { model with
        id := if key = lit "id" then value else model.id
        name := if key = lit "name" then value else model.name } := by
  generalize hr : parsePlantKey model key value = r at h ⊢
  unfold parsePlantKey at hr
  split_ifs at hr with hid hname <;> subst hr
  · subst hid
    simp +decide only [Prod.map_snd, copyValue_ok h, if_true, if_false]
  · subst hname
    simp +decide only [Prod.map_snd, copyValue_ok h, if_true, if_false]
  · cases h

/-- An accepted key of an asset writes its own field and no other. The cases are the comparisons of
the source, in order; `hkeys` tells the keys apart. -/
theorem parseAssetKey_ok {asset : EdgeAsset} {key value : Bytes}
    (h : (parseAssetKey asset key value).1 = .ok) :
    (parseAssetKey asset key value).2 =
      { asset with
        id := if key = lit "id" then value else asset.id
        type := if key = lit "type" then value else asset.type
        name := if key = lit "name" then value else asset.name
        parentId := if key = lit "parent" then value else asset.parentId } := by
  have hkeys : [lit "id", lit "type", lit "name", lit "parent"].Nodup := by decide +kernel
  simp only [List.nodup_cons, List.mem_cons, List.not_mem_nil, or_false, not_or] at hkeys
  generalize hr : parseAssetKey asset key value = r at h ⊢
  unfold parseAssetKey at hr
  by_cases hid : key = lit "id"
  · rw [if_pos hid] at hr
    subst hr hid
    simp only [Prod.map_snd, copyValue_ok h, hkeys, if_true, if_false]
  rw [if_neg hid] at hr
  by_cases htype : key = lit "type"
  · rw [if_pos htype] at hr
    subst hr htype
    simp only [Prod.map_snd, copyValue_ok h, hid, hkeys, if_true, if_false]
  rw [if_neg htype] at hr
  by_cases hname : key = lit "name"
  · rw [if_pos hname] at hr
    subst hr hname
    simp only [Prod.map_snd, copyValue_ok h, hid, htype, hkeys, if_true, if_false]
  rw [if_neg hname] at hr
  by_cases hparent : key = lit "parent"
  · rw [if_pos hparent] at hr
    subst hparent
    simp only [hid, htype, hname, if_true, if_false]
    split at hr <;> subst hr
    -- the branch for an empty value stores the empty text as well
    · rename_i hempty
      rw [hempty]
    · rw [Prod.map_snd, copyValue_ok h]
  · rw [if_neg hparent] at hr
    subst hr
    cases h

theorem parseModbusUnit_ok {node : EdgeNode} {value : Bytes}
    (h : (parseModbusUnit node value).1 = .ok) :
    (parseModbusUnit node value).2 = { node with modbusUnit := (parseU16 value 0).2 } := by
  unfold parseModbusUnit at h ⊢
  dsimp only at h ⊢
  split_ifs at h ⊢ with hrc
  · exact absurd h hrc
  · rw [parseU16_ok (not_not.mp hrc) 0]

/-- An accepted key of a node writes its own field and no other; `source` writes none. -/
theorem parseNodeKey_ok {node : EdgeNode} {key value : Bytes}
    (h : (parseNodeKey node key value).1 = .ok) :
    (parseNodeKey node key value).2 =
      { node with
        assetId := if key = lit "asset" then value else node.assetId
        id := if key = lit "id" then value else node.id
        name := if key = lit "name" then value else node.name
        dataType :=
          if key = lit "data_type" then (parseDataType value .unset).2 else node.dataType
        writable := if key = lit "access" then (parseAccess value false).2 else node.writable
        modbusUnit := if key = lit "modbus_unit" then (parseU16 value 0).2 else node.modbusUnit
        modbusRegister :=
          if key = lit "modbus_register" then (parseU32 value 0).2 else node.modbusRegister
        scale := if key = lit "scale" then (parseDouble value (.fin 1)).2 else node.scale } := by
  -- a key differs from those tested before it, and from those that would come after
  have hkeys : [lit "asset", lit "id", lit "name", lit "data_type", lit "access", lit "source",
      lit "modbus_unit", lit "modbus_register", lit "scale"].Nodup := by decide +kernel
  simp only [List.nodup_cons, List.mem_cons, List.not_mem_nil, or_false, not_or] at hkeys
  generalize hr : parseNodeKey node key value = r at h ⊢
  unfold parseNodeKey at hr
  by_cases hasset : key = lit "asset"
  · rw [if_pos hasset] at hr
    subst hr hasset
    simp only [Prod.map_snd, copyValue_ok h, hkeys, if_true, if_false]
  rw [if_neg hasset] at hr
  by_cases hid : key = lit "id"
  · rw [if_pos hid] at hr
    subst hr hid
    simp only [Prod.map_snd, copyValue_ok h, hasset, hkeys, if_true, if_false]
  rw [if_neg hid] at hr
  by_cases hname : key = lit "name"
  · rw [if_pos hname] at hr
    subst hr hname
    simp only [Prod.map_snd, copyValue_ok h, hasset, hid, hkeys, if_true, if_false]
  rw [if_neg hname] at hr
  by_cases htype : key = lit "data_type"
  · rw [if_pos htype] at hr
    subst hr htype
    simp only [Prod.map_snd, parseDataType_ok h .unset, hasset, hid, hname, hkeys, if_true,
      if_false]
  rw [if_neg htype] at hr
  by_cases haccess : key = lit "access"
  · rw [if_pos haccess] at hr
    subst hr haccess
    simp only [Prod.map_snd, parseAccess_ok h false, hasset, hid, hname, htype, hkeys, if_true,
      if_false]
  rw [if_neg haccess] at hr
  by_cases hsource : key = lit "source"
  · -- the source has no field
    rw [if_pos hsource] at hr
    subst hsource
    simp only [hasset, hid, hname, htype, haccess, hkeys, if_false]
    split at hr <;> subst hr
    · rfl
    · cases h
  rw [if_neg hsource] at hr
  by_cases hunit : key = lit "modbus_unit"
  · rw [if_pos hunit] at hr
    subst hr hunit
    simp only [parseModbusUnit_ok h, hasset, hid, hname, htype, haccess, hkeys, if_true, if_false]
  rw [if_neg hunit] at hr
  by_cases hregister : key = lit "modbus_register"
  · rw [if_pos hregister] at hr
    subst hr hregister
    simp only [Prod.map_snd, parseU32_ok h 0, hasset, hid, hname, htype, haccess, hunit, hkeys,
      if_true, if_false]
  rw [if_neg hregister] at hr
  by_cases hscale : key = lit "scale"
  · rw [if_pos hscale] at hr
    subst hr hscale
    simp only [Prod.map_snd, parseDouble_ok h (.fin 1), hasset, hid, hname, htype, haccess, hunit,
      hregister, if_true, if_false]
  · rw [if_neg hscale] at hr
    subst hr
    cases h

/-- An accepted key of an event writes its own field and no other. -/
theorem parseEventKey_ok {event : EdgeEvent} {key value : Bytes}
    (h : (parseEventKey event key value).1 = .ok) :
    (parseEventKey event key value).2 =
      { event with
        assetId := if key = lit "asset" then value else event.assetId
        id := if key = lit "id" then value else event.id
        sourceNodeId := if key = lit "source_node" then value else event.sourceNodeId
        condition :=
          if key = lit "condition" then (parseCondition value .unset).2 else event.condition
        threshold :=
          if key = lit "threshold" then (parseDouble value (.fin 0)).2 else event.threshold
        severity := if key = lit "severity" then (parseU16 value 0).2 else event.severity } := by
  -- as for a node
  have hkeys : [lit "asset", lit "id", lit "source_node", lit "condition", lit "threshold",
      lit "severity"].Nodup := by decide +kernel
  simp only [List.nodup_cons, List.mem_cons, List.not_mem_nil, or_false, not_or] at hkeys
  generalize hr : parseEventKey event key value = r at h ⊢
  unfold parseEventKey at hr
  by_cases hasset : key = lit "asset"
  · rw [if_pos hasset] at hr
    subst hr hasset
    simp only [Prod.map_snd, copyValue_ok h, hkeys, if_true, if_false]
  rw [if_neg hasset] at hr
  by_cases hid : key = lit "id"
  · rw [if_pos hid] at hr
    subst hr hid
    simp only [Prod.map_snd, copyValue_ok h, hasset, hkeys, if_true, if_false]
  rw [if_neg hid] at hr
  by_cases hsource : key = lit "source_node"
  · rw [if_pos hsource] at hr
    subst hr hsource
    simp only [Prod.map_snd, copyValue_ok h, hasset, hid, hkeys, if_true, if_false]
  rw [if_neg hsource] at hr
  by_cases hcondition : key = lit "condition"
  · rw [if_pos hcondition] at hr
    subst hr hcondition
    simp only [Prod.map_snd, parseCondition_ok h .unset, hasset, hid, hsource, hkeys, if_true,
      if_false]
  rw [if_neg hcondition] at hr
  by_cases hthreshold : key = lit "threshold"
  · rw [if_pos hthreshold] at hr
    subst hr hthreshold
    simp only [Prod.map_snd, parseDouble_ok h (.fin 0), hasset, hid, hsource, hcondition, hkeys,
      if_true, if_false]
  rw [if_neg hthreshold] at hr
  by_cases hseverity : key = lit "severity"
  · rw [if_pos hseverity] at hr
    subst hr hseverity
    simp only [Prod.map_snd, parseU16_ok h 0, hasset, hid, hsource, hcondition, hthreshold, if_true,
      if_false]
  · rw [if_neg hseverity] at hr
    subst hr
    cases h

/-! ## One block

The lemmas about one key, folded over the lines of a block. The record that a header begins is the
one of no entries. -/

/-- The keys and values of a block. -/
def Block.entries (block : Block) : List (Bytes × Bytes) := block.texts.filterMap keyValueOf

/-- A record that each key brings up to date is, after a block, what its entries say. -/
theorem foldTexts_entries {α : Type} {parse : α → Bytes → Bytes → EdgeStatus × α}
    (recordOf : List (Bytes × Bytes) → α)
    (hstep : ∀ entries key value, (parse (recordOf entries) key value).1 = .ok →
      (parse (recordOf entries) key value).2 = recordOf (entries ++ [(key, value)]))
    (texts : List Bytes) :
    ∀ entries a, foldTexts parse texts (recordOf entries) = some a →
      a = recordOf (entries ++ texts.filterMap keyValueOf) := by
  induction texts with
  | nil =>
    intro entries a h
    rw [List.filterMap_nil, List.append_nil]
    exact (Option.some.inj h).symm
  -- the entries before the line are part of the induction: the record they give is the state
  | cons text rest ih =>
    intro entries a h
    rw [foldTexts] at h
    cases hkv : keyValueOf text with
    | none => rw [hkv] at h; cases h
    | some kv =>
      obtain ⟨key, value⟩ := kv
      rw [hkv] at h
      dsimp only at h
      split_ifs at h with hok
      rw [hstep entries key value hok] at h
      rw [List.filterMap_cons_some hkv, ih _ a h, List.append_assoc]
      rfl

/-- An accepted block of an asset is read as `assetOf` says. -/
theorem foldTexts_asset {block : Block} {asset : EdgeAsset}
    (h : foldTexts parseAssetKey block.texts newAsset = some asset) :
    asset = assetOf block.entries := by
  refine foldTexts_entries assetOf (fun entries key value hok => ?_) block.texts [] asset h
  rw [parseAssetKey_ok hok]
  simp only [assetOf, fieldOf_snoc, id]

/-- An accepted block of a node is read as `nodeOf` says. -/
theorem foldTexts_node {block : Block} {node : EdgeNode}
    (h : foldTexts parseNodeKey block.texts newNode = some node) : node = nodeOf block.entries := by
  refine foldTexts_entries nodeOf (fun entries key value hok => ?_) block.texts [] node h
  rw [parseNodeKey_ok hok]
  simp only [nodeOf, fieldOf_snoc, id]

/-- An accepted block of an event is read as `eventOf` says. -/
theorem foldTexts_event {block : Block} {event : EdgeEvent}
    (h : foldTexts parseEventKey block.texts newEvent = some event) :
    event = eventOf block.entries := by
  refine foldTexts_entries eventOf (fun entries key value hok => ?_) block.texts [] event h
  rw [parseEventKey_ok hok]
  simp only [eventOf, fieldOf_snoc, id]

/-- An accepted block of the plant changes its two texts as `plantOf` says. -/
theorem foldTexts_plant {block : Block} {model model' : EdgeModel}
    (h : foldTexts parsePlantKey block.texts model = some model') :
    model' = plantOf model block.entries := by
  refine foldTexts_entries (plantOf model) (fun entries key value hok => ?_) block.texts [] model' h
  rw [parsePlantKey_ok hok]
  simp only [plantOf, fieldOf_snoc, id]

/-! ## All blocks

The model is built up block by block, and each block touches the array of its own kind only. -/

/-- The blocks of one kind, in the order of the file. -/
def blocksOfKind (kind : EdgeConfigSection) (blocks : List Block) : List Block :=
  blocks.filter (·.kind = kind)

/-- The kinds of two pieces of a file are looked up piece by piece. -/
theorem blocksOfKind_append (kind : EdgeConfigSection) (first second : List Block) :
    blocksOfKind kind (first ++ second) = blocksOfKind kind first ++ blocksOfKind kind second :=
  List.filter_append ..

/-- A block is of its own kind .. -/
theorem blocksOfKind_self (block : Block) : blocksOfKind block.kind [block] = [block] :=
  List.filter_eq_self.mpr (by simp)

/-- .. and of no other. -/
theorem blocksOfKind_ne {kind : EdgeConfigSection} {block : Block} (h : block.kind ≠ kind) :
    blocksOfKind kind [block] = [] :=
  List.filter_eq_nil_iff.mpr (by simpa using h)

/-- The entries of all blocks of the plant, which may be several. -/
def plantEntries (blocks : List Block) : List (Bytes × Bytes) :=
  (blocksOfKind .plant blocks).flatMap Block.entries

/-- The model that the blocks of a template describe. -/
def modelOf (blocks : List Block) : EdgeModel where
  id := fieldOf (lit "id") id [] (plantEntries blocks)
  name := fieldOf (lit "name") id [] (plantEntries blocks)
  assets := (blocksOfKind .asset blocks).map fun block => assetOf block.entries
  nodes := (blocksOfKind .node blocks).map fun block => nodeOf block.entries
  events := (blocksOfKind .event blocks).map fun block => eventOf block.entries

/-- One more block adds its record to the model, at the end of its own array. -/
theorem modelOf_snoc (blocks : List Block) (block : Block) :
    modelOf (blocks ++ [block]) =
      match block.kind with
      | .none => modelOf blocks
      | .plant => plantOf (modelOf blocks) block.entries
      | .asset =>
        { modelOf blocks with assets := (modelOf blocks).assets ++ [assetOf block.entries] }
      | .node => { modelOf blocks with nodes := (modelOf blocks).nodes ++ [nodeOf block.entries] }
      | .event =>
        { modelOf blocks with events := (modelOf blocks).events ++ [eventOf block.entries] } := by
  have hself := blocksOfKind_self block
  have hne := fun kind => @blocksOfKind_ne kind block
  unfold modelOf plantEntries
  -- a block of another kind is not among those of this one
  cases hkind : block.kind <;> rw [hkind] at hself <;>
    simp +decide [hkind, hself, hne, blocksOfKind_append, plantOf, fieldOf_append]

/-- A block that is read brings the model up to date. -/
theorem addBlock_modelOf {blocks : List Block} {block : Block} {model : EdgeModel}
    (h : addBlock block (modelOf blocks) = some model) : model = modelOf (blocks ++ [block]) := by
  rw [modelOf_snoc]
  unfold addBlock at h
  cases hkind : block.kind with
  -- no block has the kind of a key before the first header
  | none => rw [hkind] at h; cases h
  | plant =>
    rw [hkind] at h
    exact foldTexts_plant h
  | asset =>
    rw [hkind] at h
    dsimp only at h
    split_ifs at h
    obtain ⟨asset, hasset, rfl⟩ := Option.map_eq_some_iff.mp h
    rw [foldTexts_asset hasset]
  | node =>
    rw [hkind] at h
    dsimp only at h
    split_ifs at h
    obtain ⟨node, hnode, rfl⟩ := Option.map_eq_some_iff.mp h
    rw [foldTexts_node hnode]
  | event =>
    rw [hkind] at h
    dsimp only at h
    split_ifs at h
    obtain ⟨event, hevent, rfl⟩ := Option.map_eq_some_iff.mp h
    rw [foldTexts_event hevent]

/-- **What is read is what the blocks say.** Induction on the blocks, with those already read as
the model so far. -/
theorem runBlocks_modelOf (blocks : List Block) :
    ∀ (done : List Block) (model : EdgeModel), runBlocks blocks (modelOf done) = some model →
      model = modelOf (done ++ blocks) := by
  induction blocks with
  | nil =>
    intro done model h
    rw [List.append_nil]
    exact (Option.some.inj h).symm
  | cons block rest ih =>
    intro done model h
    obtain ⟨next, hnext, hrest⟩ := Option.bind_eq_some_iff.mp h
    rw [addBlock_modelOf hnext] at hrest
    rw [ih _ model hrest, List.append_assoc]
    rfl

/-! ### Which blocks are accepted

A block is accepted or not whatever stands around it, apart from the capacities, which count the
blocks of its kind. -/

/-- Whether the texts of a block are accepted, which does not depend on the blocks before it. -/
def Block.accepted (block : Block) : Bool :=
  match block.kind with
  | .none => false
  | .plant => (foldTexts parsePlantKey block.texts {}).isSome
  | .asset => (foldTexts parseAssetKey block.texts newAsset).isSome
  | .node => (foldTexts parseNodeKey block.texts newNode).isSome
  | .event => (foldTexts parseEventKey block.texts newEvent).isSome

/-- No kind has more blocks than its array has room. -/
structure WithinLimits (blocks : List Block) : Prop where
  assets : (blocksOfKind .asset blocks).length ≤ edgeMaxAssets
  nodes : (blocksOfKind .node blocks).length ≤ edgeMaxNodes
  events : (blocksOfKind .event blocks).length ≤ edgeMaxEvents

theorem WithinLimits.of_append {first second : List Block} (h : WithinLimits (first ++ second)) :
    WithinLimits first := by
  have hle : ∀ kind,
      (blocksOfKind kind first).length ≤ (blocksOfKind kind (first ++ second)).length := by
    intro kind
    rw [blocksOfKind_append, List.length_append]
    omega
  exact {
    assets := (hle .asset).trans h.assets
    nodes := (hle .node).trans h.nodes
    events := (hle .event).trans h.events }

/-- Whether a key of the plant is accepted does not depend on the plant so far. -/
theorem parsePlantKey_status (model model' : EdgeModel) (key value : Bytes) :
    (parsePlantKey model key value).1 = (parsePlantKey model' key value).1 := by
  have hcopy : ∀ (dst dst' : Bytes) (size : Nat),
      (copyValue dst size value).1 = (copyValue dst' size value).1 := by
    intro dst dst' size
    unfold copyValue
    split_ifs <;> rfl
  unfold parsePlantKey
  split_ifs
  · exact hcopy ..
  · exact hcopy ..
  · rfl

theorem foldTexts_plant_isSome (texts : List Bytes) :
    ∀ model model' : EdgeModel, (foldTexts parsePlantKey texts model).isSome =
      (foldTexts parsePlantKey texts model').isSome := by
  induction texts with
  | nil => intro model model'; rfl
  | cons text rest ih =>
    intro model model'
    unfold foldTexts
    cases keyValueOf text with
    | none => rfl
    | some kv =>
      dsimp only
      simp only [parsePlantKey_status model model']
      split_ifs
      · exact ih _ _
      · rfl

theorem length_blocksOfKind_snoc (kind : EdgeConfigSection) (blocks : List Block) (block : Block) :
    (blocksOfKind kind (blocks ++ [block])).length =
      (blocksOfKind kind blocks).length + if block.kind = kind then 1 else 0 := by
  rw [blocksOfKind_append, List.length_append]
  split_ifs with hkind
  · rw [← hkind, blocksOfKind_self]
    rfl
  · rw [blocksOfKind_ne hkind]
    rfl

/-- One more block keeps the limits if there is room for a record of its kind. -/
theorem withinLimits_snoc {blocks : List Block} (h : WithinLimits blocks) (block : Block) :
    WithinLimits (blocks ++ [block]) ↔
      (block.kind = .asset → (blocksOfKind .asset blocks).length < edgeMaxAssets) ∧
      (block.kind = .node → (blocksOfKind .node blocks).length < edgeMaxNodes) ∧
      (block.kind = .event → (blocksOfKind .event blocks).length < edgeMaxEvents) := by
  have hassets := h.assets
  have hnodes := h.nodes
  have hevents := h.events
  constructor
  -- the count of the block's own kind has grown by one, and still fits
  · rintro ⟨hassets', hnodes', hevents'⟩
    rw [length_blocksOfKind_snoc] at hassets' hnodes' hevents'
    refine ⟨fun hkind => ?_, fun hkind => ?_, fun hkind => ?_⟩
    · rw [if_pos hkind] at hassets'
      omega
    · rw [if_pos hkind] at hnodes'
      omega
    · rw [if_pos hkind] at hevents'
      omega
  · rintro ⟨hasset, hnode, hevent⟩
    constructor <;> rw [length_blocksOfKind_snoc] <;> split_ifs with hkind
    · exact hasset hkind
    · exact hassets
    · exact hnode hkind
    · exact hnodes
    · exact hevent hkind
    · exact hevents

/-- A record is added if there is room for it and its block is accepted. -/
theorem isSome_addRecord {α β : Type} {limit count : Nat} (record : Option α) (f : α → β) :
    (if limit ≤ count then none else record.map f).isSome = true ↔
      record.isSome = true ∧ count < limit := by
  split_ifs with hfull
  · simp [hfull]
  · simp [not_le.mp hfull]

/-- A block is read exactly if it is accepted by itself and its kind has room. -/
theorem addBlock_isSome {blocks : List Block} (h : WithinLimits blocks) (block : Block) :
    (addBlock block (modelOf blocks)).isSome = true ↔
      block.accepted = true ∧ WithinLimits (blocks ++ [block]) := by
  have hassets : (modelOf blocks).assets.length = (blocksOfKind .asset blocks).length :=
    List.length_map _
  have hnodes : (modelOf blocks).nodes.length = (blocksOfKind .node blocks).length :=
    List.length_map _
  have hevents : (modelOf blocks).events.length = (blocksOfKind .event blocks).length :=
    List.length_map _
  rw [withinLimits_snoc h]
  unfold addBlock Block.accepted
  -- a record counts against its own limit, the plant against none
  cases hkind : block.kind with
  | none => simp
  | plant => simp [foldTexts_plant_isSome block.texts (modelOf blocks) {}]
  | asset => simp [isSome_addRecord, hassets]
  | node => simp [isSome_addRecord, hnodes]
  | event => simp [isSome_addRecord, hevents]

/-- **Which templates are read**: every block is accepted by itself, and no kind has too many. -/
theorem runBlocks_isSome (blocks : List Block) :
    ∀ done : List Block, WithinLimits done →
      ((runBlocks blocks (modelOf done)).isSome = true ↔
        (∀ block ∈ blocks, block.accepted = true) ∧ WithinLimits (done ++ blocks)) := by
  induction blocks with
  | nil =>
    intro done h
    rw [List.append_nil]
    exact iff_of_true rfl ⟨List.forall_mem_nil _, h⟩
  | cons block rest ih =>
    intro done h
    have hassoc : done ++ block :: rest = done ++ [block] ++ rest := by simp
    rw [List.forall_mem_cons, hassoc]
    cases hadd : addBlock block (modelOf done) with
    -- the first block that is not read ends it, whatever follows
    | none =>
      have hnot := (addBlock_isSome h block).not.mp (by rw [hadd]; decide)
      rw [runBlocks, hadd, Option.bind_none]
      exact iff_of_false (by decide) fun hall => hnot ⟨hall.1.1, hall.2.of_append⟩
    | some model =>
      obtain ⟨haccepted, hlimits⟩ := (addBlock_isSome h block).mp (by rw [hadd]; rfl)
      rw [runBlocks, hadd, Option.bind_some, addBlock_modelOf hadd, ih _ hlimits]
      simp [haccepted]

/-! ## Interleavings

What the loader makes of a file depends on the blocks of each kind and on their order within the
kind, and on nothing else. -/

/-- The same blocks of each kind, in the same order; blocks of different kinds may be interleaved
in another way. -/
def SameBlocks (template template' : List Bytes × List Block) : Prop :=
  template'.1 = template.1 ∧
    ∀ kind, blocksOfKind kind template'.2 = blocksOfKind kind template.2

theorem modelOf_sameBlocks {blocks blocks' : List Block}
    (h : ∀ kind, blocksOfKind kind blocks' = blocksOfKind kind blocks) :
    modelOf blocks' = modelOf blocks := by
  unfold modelOf plantEntries
  rw [h, h, h, h]

theorem withinLimits_nil : WithinLimits [] where
  assets := Nat.zero_le _
  nodes := Nat.zero_le _
  events := Nat.zero_le _

/-- A file that is read stays so, with the same model, however its kinds are interleaved. -/
theorem readTemplate_sameBlocks {template template' : List Bytes × List Block}
    (h : SameBlocks template template') {model : EdgeModel}
    (hread : readTemplate template = some model) : readTemplate template' = some model := by
  obtain ⟨hpreamble, hkinds⟩ := h
  unfold readTemplate at hread ⊢
  rw [hpreamble]
  split_ifs at hread ⊢ with hempty
  have hmodel := runBlocks_modelOf template.2 [] model hread
  obtain ⟨haccepted, hlimits⟩ := (runBlocks_isSome template.2 [] withinLimits_nil).mp
    (Option.isSome_iff_exists.mpr ⟨model, hread⟩)
  have hsome : (runBlocks template'.2 (modelOf [])).isSome = true := by
    refine (runBlocks_isSome template'.2 [] withinLimits_nil).mpr ⟨fun block hmem => ?_, ?_⟩
    · -- the block stands among those of its kind in the other template
      have hkind : block ∈ blocksOfKind block.kind template'.2 :=
        List.mem_filter.mpr ⟨hmem, decide_eq_true rfl⟩
      rw [hkinds] at hkind
      exact haccepted block (List.mem_filter.mp hkind).1
    · rw [List.nil_append] at hlimits ⊢
      exact {
        assets := by rw [hkinds]; exact hlimits.assets
        nodes := by rw [hkinds]; exact hlimits.nodes
        events := by rw [hkinds]; exact hlimits.events }
  obtain ⟨model', hread'⟩ := Option.isSome_iff_exists.mp hsome
  have hmodel' := runBlocks_modelOf template'.2 [] model' hread'
  have hsame : model' = model := by
    rw [hmodel', hmodel, List.nil_append, List.nil_append, modelOf_sameBlocks hkinds]
  rw [← hsame]
  exact hread'

/-! ## Loaded templates

After the last line the loader resolves references, which fills index fields and touches no text.
So a loaded record is still what its block says. -/

/-- An asset without the index that is resolved after the last line. -/
def EdgeAsset.unresolved (asset : EdgeAsset) : EdgeAsset :=
  { asset with parentIndex := edgeInvalidIndex }

/-- A node without the index of its asset. -/
def EdgeNode.unresolved (node : EdgeNode) : EdgeNode := { node with assetIndex := edgeInvalidIndex }

/-- An event without the indexes of its asset and its node. -/
def EdgeEvent.unresolved (event : EdgeEvent) : EdgeEvent :=
  { event with assetIndex := edgeInvalidIndex, sourceNodeIndex := edgeInvalidIndex }

/-- Every record is what its own block says. -/
structure BuiltFrom (blocks : List Block) (model : EdgeModel) : Prop where
  plantId : model.id = fieldOf (lit "id") id [] (plantEntries blocks)
  plantName : model.name = fieldOf (lit "name") id [] (plantEntries blocks)
  assets : model.assets.map EdgeAsset.unresolved =
    (blocksOfKind .asset blocks).map fun block => assetOf block.entries
  nodes : model.nodes.map EdgeNode.unresolved =
    (blocksOfKind .node blocks).map fun block => nodeOf block.entries
  events : model.events.map EdgeEvent.unresolved =
    (blocksOfKind .event blocks).map fun block => eventOf block.entries

theorem builtFrom_modelOf (blocks : List Block) : BuiltFrom blocks (modelOf blocks) where
  plantId := rfl
  plantName := rfl
  assets := List.map_map
  nodes := List.map_map
  events := List.map_map

/-- Resolving writes index fields only. -/
theorem BuiltFrom.resolved {blocks : List Block} {model model' : EdgeModel}
    (h : BuiltFrom blocks model) (hok : validateAndResolveReferences model = (.ok, model')) :
    BuiltFrom blocks model' := by
  obtain ⟨model₁, model₂, h₁, h₂, h₃, -⟩ := resolve_spec hok
  subst h₁ h₂ h₃
  -- the passes set indices only, which unresolved takes out again
  exact {
    plantId := h.plantId
    plantName := h.plantName
    assets := by
      refine (sweep_map EdgeAsset.unresolved (fun i asset _ => ?_) _ _ _).trans h.assets
      unfold resolveParent
      dsimp only
      split_ifs <;> rfl
    nodes := (sweep_map EdgeNode.unresolved (fun _ _ _ => rfl) _ _ _).trans h.nodes
    events := by
      refine (sweep_map EdgeEvent.unresolved (fun i event _ => ?_) _ _ _).trans h.events
      unfold resolveEvent
      dsimp only
      split_ifs <;> rfl }

/-- A model that passes the validation has its references resolved. -/
theorem finishLoad_ok {model : EdgeModel} (h : (finishLoad model).1 = .ok) :
    validateAndResolveReferences model = (.ok, (finishLoad model).2) := by
  unfold finishLoad at h ⊢
  dsimp only at h ⊢
  split_ifs at h ⊢ with hvalid hresolved
  exact Prod.ext (not_not.mp hresolved) rfl

/-- What is read from the blocks and then accepted is built from them. -/
theorem BuiltFrom.of_readTemplate {lines : List Bytes} {model : EdgeModel}
    (hread : readTemplate (blocksOf lines) = some model) (hok : (finishLoad model).1 = .ok) :
    BuiltFrom (blocksOf lines).2 (finishLoad model).2 := by
  have hpreamble : (blocksOf lines).1 = [] := by
    by_contra hne
    rw [readTemplate, if_neg hne] at hread
    cases hread
  rw [readTemplate, if_pos hpreamble] at hread
  have hmodel := runBlocks_modelOf (blocksOf lines).2 [] model hread
  have hbuilt := builtFrom_modelOf (blocksOf lines).2
  rw [List.nil_append] at hmodel
  rw [← hmodel] at hbuilt
  exact hbuilt.resolved (finishLoad_ok hok)

/-- **Records depend only on their own block.** In an accepted template every record is what its
block says, and another template with the same blocks of each kind gives the same model. -/
theorem records_depend_on_own_block (lines : List Bytes) (hlines : ∀ line ∈ lines, IsLine line)
    (hok : (edgeConfigLoad (some (joinLines lines)) {}).1 = .ok) :
    BuiltFrom (blocksOf lines).2 (edgeConfigLoad (some (joinLines lines)) {}).2 ∧
      ∀ lines' : List Bytes, (∀ line ∈ lines', IsLine line) →
        SameBlocks (blocksOf lines) (blocksOf lines') →
        edgeConfigLoad (some (joinLines lines')) {} =
          edgeConfigLoad (some (joinLines lines)) {} := by
  obtain ⟨model, hread⟩ := readTemplate_of_ok hlines hok
  have hload := edgeConfigLoad_lines hlines hread
  constructor
  · rw [hload] at hok ⊢
    exact BuiltFrom.of_readTemplate hread hok
  · intro lines' hlines' hsame
    rw [hload, edgeConfigLoad_lines hlines' (readTemplate_sameBlocks hsame hread)]

/-! A template with the plant last, and one with it first. -/

/-- A template with the plant last, comments and a blank line. -/
def depotLines : List Bytes :=
  ["# the depot", "[asset]", "id=depot", "type=yard", "name=Depot", "", "[node]", "asset=depot",
    "id=gate", "name=Gate", "data_type=bool", "modbus_unit=1", "modbus_register=40001", "[asset]",
    "id=dock", "type=bay", "name=Dock", "parent=depot", "[plant]", "id=north", "name=North"].map lit

/-- The same blocks, with the kinds one after the other. -/
def depotLinesPlantFirst : List Bytes :=
  ["[plant]", "id=north", "name=North", "[asset]", "id=depot", "type=yard", "name=Depot", "[asset]",
    "id=dock", "type=bay", "name=Dock", "parent=depot", "[node]", "asset=depot", "id=gate",
    "name=Gate", "data_type=bool", "modbus_unit=1", "modbus_register=40001", ""].map lit

theorem depot_same_model :
    BuiltFrom (blocksOf depotLines).2 (edgeConfigLoad (some (joinLines depotLines)) {}).2 ∧
      edgeConfigLoad (some (joinLines depotLinesPlantFirst)) {} =
        edgeConfigLoad (some (joinLines depotLines)) {} := by
  obtain ⟨hbuilt, hsame⟩ := records_depend_on_own_block depotLines (by decide +kernel)
    (by decide +kernel)
  refine ⟨hbuilt, hsame depotLinesPlantFirst (by decide +kernel) ⟨by decide +kernel, ?_⟩⟩
  intro kind
  cases kind <;> decide +kernel

end OpcuaEdge
