import OpcuaEdge.Types
import OpcuaEdge.Lib.CLoop
import Mathlib.Data.List.DropRight

/-!
# OpcuaEdge — the template loader (`edge_config.c`)

`edgeConfigLoad` turns the bytes of an `.edge` file into an `EdgeModel`: a line state machine
that fills the last record begun by a section header, then the three validation passes.
`edgeConfigWireRuntime` turns the resolved indexes into pointers.

A function with an out parameter returns it next to its status; on an error path the parameter
comes back as the source leaves it. Diagnostics on `stderr` are not represented.
-/

namespace OpcuaEdge

open CStr CLoop

/-! ## Parsing values

A text is parsed whole or refused: what strtoul and strtod leave over makes the value invalid. They
skip blanks in front and take a sign. -/

/-- `trim_newline`: carriage returns and line feeds at the end go, however many there are. -/
def trimNewline (text : Bytes) : Bytes :=
  text.rdropWhile fun c => c = newline || c = carriageReturn

/-- `copy_value`. An empty text is refused like one that is too long. -/
def copyValue (dst : Bytes) (dstSize : Nat) (src : Bytes) : EdgeStatus × Bytes :=
  if src.length = 0 ∨ dstSize ≤ src.length then (.limit, dst) else (.ok, src)

/-- `split_key_value`: the key is what stands before the first `=` and is not empty. -/
def splitKeyValue (line : Bytes) : Option (Bytes × Bytes) :=
  match splitAtFirst equalsSign line with
  | some ([], _) => none
  | other => other

/-- `parse_u16`. `strtoul` negates a number with a minus sign modulo 2^64, and only then the bound
is tested. -/
def parseU16 (text : Bytes) (value : UInt16) : EdgeStatus × UInt16 :=
  let parsed := strtoul text
  if parsed.erange ∨ ¬ parsed.converted ∨ parsed.rest ≠ [] ∨ 65535 < parsed.value then
    (.invalid, value)
  else (.ok, parsed.value.toUInt16)

/-- `parse_u32`, with the same `strtoul`. -/
def parseU32 (text : Bytes) (value : UInt32) : EdgeStatus × UInt32 :=
  let parsed := strtoul text
  if parsed.erange ∨ ¬ parsed.converted ∨ parsed.rest ≠ [] ∨ 4294967295 < parsed.value then
    (.invalid, value)
  else (.ok, parsed.value.toUInt32)

/-- `parse_double`. Infinities and NaN are numbers to `strtod`, and are not refused. -/
def parseDouble (text : Bytes) (value : Double) : EdgeStatus × Double :=
  let parsed := strtod text
  if parsed.erange ∨ ¬ parsed.converted ∨ parsed.rest ≠ [] then (.invalid, value)
  else (.ok, parsed.value)

/-- `parse_data_type`: the five names of types. -/
def parseDataType (value : Bytes) (dataType : EdgeDataType) : EdgeStatus × EdgeDataType :=
  if value = lit "bool" then (.ok, .bool)
  else if value = lit "int16" then (.ok, .int16)
  else if value = lit "int32" then (.ok, .int32)
  else if value = lit "uint32" then (.ok, .uint32)
  else if value = lit "double" then (.ok, .double)
  else (.invalid, dataType)

/-- `parse_access`: whether clients may write. -/
def parseAccess (value : Bytes) (writable : Bool) : EdgeStatus × Bool :=
  if value = lit "read" then (.ok, false)
  else if value = lit "read_write" then (.ok, true)
  else (.invalid, writable)

/-- `parse_condition`: the two names of conditions. -/
def parseCondition (value : Bytes) (condition : EdgeEventCondition) :
    EdgeStatus × EdgeEventCondition :=
  if value = lit "greater_than" then (.ok, .greaterThan)
  else if value = lit "less_than" then (.ok, .lessThan)
  else (.invalid, condition)

/-! ## Looking up records

Each of the three returns the first match, or `edge_invalid_index`, which no array is long enough
to hold. -/

/-- `find_asset`. -/
def findAsset (model : EdgeModel) (id : Bytes) : Nat :=
  (model.assets.findIdx? fun asset => asset.id = id).getD edgeInvalidIndex

/-- `find_event`. -/
def findEvent (model : EdgeModel) (id : Bytes) : Nat :=
  (model.events.findIdx? fun event => event.id = id).getD edgeInvalidIndex

/-- `find_node_for_asset`: the node ids of different assets may agree, so the resolved asset is
compared too. -/
def findNodeForAsset (model : EdgeModel) (assetIndex : Nat) (id : Bytes) : Nat :=
  (model.nodes.findIdx? fun node => node.assetIndex = assetIndex && node.id = id).getD
    edgeInvalidIndex

/-! ## Keys of the four sections

One function for each section: the key selects the field, and an unknown key is refused. A key may
be repeated; the last value stays. -/

/-- `parse_plant_key`. -/
def parsePlantKey (model : EdgeModel) (key value : Bytes) : EdgeStatus × EdgeModel :=
  if key = lit "id" then
    (copyValue model.id edgeMaxIdLen value).map id fun s => { model with id := s }
  else if key = lit "name" then
    (copyValue model.name edgeMaxNameLen value).map id fun s => { model with name := s }
  else (.invalid, model)

/-- `parse_asset_key`. Only `parent` may be empty, which puts the asset right below the plant. -/
def parseAssetKey (asset : EdgeAsset) (key value : Bytes) : EdgeStatus × EdgeAsset :=
  if key = lit "id" then
    (copyValue asset.id edgeMaxIdLen value).map id fun s => { asset with id := s }
  else if key = lit "type" then
    (copyValue asset.type edgeMaxIdLen value).map id fun s => { asset with type := s }
  else if key = lit "name" then
    (copyValue asset.name edgeMaxNameLen value).map id fun s => { asset with name := s }
  else if key = lit "parent" then
    if value = [] then (.ok, { asset with parentId := [] })
    else (copyValue asset.parentId edgeMaxIdLen value).map id fun s => { asset with parentId := s }
  else (.invalid, asset)

/-- The branch `modbus_unit` of `parse_node_key`. -/
def parseModbusUnit (node : EdgeNode) (value : Bytes) : EdgeStatus × EdgeNode :=
  let rc := parseU16 value node.modbusUnit
  -- the field is stored before its range is checked
  let node' := { node with modbusUnit := rc.2 }
  if rc.1 ≠ .ok then (rc.1, node')
  else if rc.2 = 0 ∨ 247 < rc.2 then (.invalid, node')
  else (.ok, node')

/-- `parse_node_key`. A `source` other than `modbus` is refused, and nothing is stored for it. -/
def parseNodeKey (node : EdgeNode) (key value : Bytes) : EdgeStatus × EdgeNode :=
  if key = lit "asset" then
    (copyValue node.assetId edgeMaxIdLen value).map id fun s => { node with assetId := s }
  else if key = lit "id" then
    (copyValue node.id edgeMaxIdLen value).map id fun s => { node with id := s }
  else if key = lit "name" then
    (copyValue node.name edgeMaxNameLen value).map id fun s => { node with name := s }
  else if key = lit "data_type" then
    (parseDataType value node.dataType).map id fun t => { node with dataType := t }
  else if key = lit "access" then
    (parseAccess value node.writable).map id fun w => { node with writable := w }
  else if key = lit "source" then
    if value = lit "modbus" then (.ok, node) else (.invalid, node)
  else if key = lit "modbus_unit" then parseModbusUnit node value
  else if key = lit "modbus_register" then
    (parseU32 value node.modbusRegister).map id fun r => { node with modbusRegister := r }
  else if key = lit "scale" then
    (parseDouble value node.scale).map id fun d => { node with scale := d }
  else (.invalid, node)

/-- `parse_event_key`. -/
def parseEventKey (event : EdgeEvent) (key value : Bytes) : EdgeStatus × EdgeEvent :=
  if key = lit "asset" then
    (copyValue event.assetId edgeMaxIdLen value).map id fun s => { event with assetId := s }
  else if key = lit "id" then
    (copyValue event.id edgeMaxIdLen value).map id fun s => { event with id := s }
  else if key = lit "source_node" then
    (copyValue event.sourceNodeId edgeMaxIdLen value).map id fun s =>
      { event with sourceNodeId := s }
  else if key = lit "condition" then
    (parseCondition value event.condition).map id fun c => { event with condition := c }
  else if key = lit "threshold" then
    (parseDouble value event.threshold).map id fun d => { event with threshold := d }
  else if key = lit "severity" then
    (parseU16 value event.severity).map id fun s => { event with severity := s }
  else (.invalid, event)

/-! ## The line state machine

A section header begins a record and makes it the current one, and each `key=value` line fills a
field of it. The record pointers are null outside their own section. -/

/-- The section that the last header began. -/
inductive EdgeConfigSection where
  | none
  | plant
  | asset
  | node
  | event
  deriving DecidableEq, Repr

/-- The local variables of `edge_config_load`: the current section and the record pointers. -/
structure LoadState where
  model : EdgeModel
  sect : EdgeConfigSection := .none
  asset : Option Nat := none
  node : Option Nat := none
  event : Option Nat := none

/-- `begin_asset`: a zeroed record at the end of the array, with no parent resolved. -/
def beginAsset (st : LoadState) : EdgeStatus × LoadState :=
  if edgeMaxAssets ≤ st.model.assets.length then (.limit, st)
  else
    (.ok, { st with
      model.assets := st.model.assets ++ [{ parentIndex := edgeInvalidIndex }]
      asset := some st.model.assets.length
      node := none
      event := none })

/-- `begin_node`. A node that is given no scale has scale 1. -/
def beginNode (st : LoadState) : EdgeStatus × LoadState :=
  if edgeMaxNodes ≤ st.model.nodes.length then (.limit, st)
  else
    (.ok, { st with
      model.nodes := st.model.nodes ++ [{ assetIndex := edgeInvalidIndex, scale := .fin 1 }]
      node := some st.model.nodes.length
      asset := none
      event := none })

/-- `begin_event`. -/
def beginEvent (st : LoadState) : EdgeStatus × LoadState :=
  if edgeMaxEvents ≤ st.model.events.length then (.limit, st)
  else
    (.ok, { st with
      model.events := st.model.events ++
        [{ assetIndex := edgeInvalidIndex, sourceNodeIndex := edgeInvalidIndex }]
      event := some st.model.events.length
      asset := none
      node := none })

/-- Runs `f` on the record a live pointer denotes, in place. -/
def updateRecord {α : Type} (records : List α) (i : Nat) (f : α → EdgeStatus × α) :
    EdgeStatus × List α :=
  match records[i]? with
  | some r => ((f r).1, records.set i (f r).2)
  | none => (.invalid, records)

/-- A `key=value` line, dispatched on the section and its record pointer. -/
def parseKey (st : LoadState) (key value : Bytes) : EdgeStatus × LoadState :=
  match st.sect, st.asset, st.node, st.event with
  | .plant, _, _, _ =>
    (parsePlantKey st.model key value).map id fun m => { st with model := m }
  | .asset, some i, _, _ =>
    (updateRecord st.model.assets i (parseAssetKey · key value)).map id fun l =>
      { st with model.assets := l }
  | .node, _, some i, _ =>
    (updateRecord st.model.nodes i (parseNodeKey · key value)).map id fun l =>
      { st with model.nodes := l }
  | .event, _, _, some i =>
    (updateRecord st.model.events i (parseEventKey · key value)).map id fun l =>
      { st with model.events := l }
  -- a key before the first section header
  | _, _, _, _ => (.invalid, st)

/-- A line after trimming. -/
def loadText (line : Bytes) (st : LoadState) : EdgeStatus × LoadState :=
  -- blank lines and those that start with `#` are skipped
  if line = [] ∨ line.head? = some 35 then (.ok, st)
  else if line = lit "[plant]" then
    (.ok, { st with sect := .plant, asset := none, node := none, event := none })
  else if line = lit "[asset]" then
    let r := beginAsset st
    if r.1 ≠ .ok then r else (.ok, { r.2 with sect := .asset })
  else if line = lit "[node]" then
    let r := beginNode st
    if r.1 ≠ .ok then r else (.ok, { r.2 with sect := .node })
  else if line = lit "[event]" then
    let r := beginEvent st
    if r.1 ≠ .ok then r else (.ok, { r.2 with sect := .event })
  -- any other line that starts with `[` is an unknown section
  else if line.head? = some 91 then (.invalid, st)
  else
    match splitKeyValue line with
    | none => (.invalid, st)
    | some (key, value) => parseKey st key value

/-- One turn of the `fgets` loop. -/
def loadLine (chunk : Chunk) (st : LoadState) : EdgeStatus × LoadState :=
  let text := terminated chunk.bytes
  -- the buffer is full, its last byte is no newline and more of the file follows
  if text.length = edgeMaxLineLen - 1 ∧ text.getLast? ≠ some newline ∧ chunk.eof = false then
    (.limit, st)
  else loadText (trimNewline text) st

/-- A turn as the line loop sees it: any status but `EDGE_STATUS_OK` ends the loop. -/
def loadTurn (_ : Nat) (chunk : Chunk) (st : LoadState) : LoadState × Option EdgeStatus :=
  let r := loadLine chunk st
  (r.2, if r.1 = .ok then none else some r.1)

/-! ## Validation

Three passes over the finished model: each record has its required fields, no id is taken twice,
and every reference names a record. The last one writes the index of what it found next to the
text. -/

/-- The test of `validate_required_fields` on an asset. -/
def assetComplete (asset : EdgeAsset) : Bool :=
  !(asset.id = [] || asset.type = [] || asset.name = [])

/-- The test on a node. Unit and register are required because their zero is not a value of theirs;
the scale is not. -/
def nodeComplete (node : EdgeNode) : Bool :=
  !(node.assetId = [] || node.id = [] || node.name = [] || node.dataType = .unset
    || node.modbusUnit = 0 || node.modbusRegister = 0)

/-- The test on an event. The threshold is not required: zero is a threshold. -/
def eventComplete (event : EdgeEvent) : Bool :=
  !(event.assetId = [] || event.id = [] || event.sourceNodeId = [] || event.condition = .unset
    || event.severity = 0)

/-- `validate_required_fields`: the plant first, then the three arrays. -/
def validateRequiredFields (model : EdgeModel) : EdgeStatus :=
  if model.id = [] ∨ model.name = [] then .invalid
  else if ¬ model.assets.all assetComplete then .invalid
  else if ¬ model.nodes.all nodeComplete then .invalid
  else if ¬ model.events.all eventComplete then .invalid
  else .ok

/-- The two nested loops `i`, `j = i + 1 ..`: whether some pair satisfies `p`. -/
def anyPair {α : Type} (p : α → α → Bool) : List α → Bool
  | [] => false
  | a :: rest => rest.any (p a) || anyPair p rest

/-- `validate_duplicates`. Node ids are compared within their asset, as the template names it. -/
def validateDuplicates (model : EdgeModel) : EdgeStatus :=
  if anyPair (fun a b => a.id = b.id) model.assets then .invalid
  else if anyPair (fun a b => a.assetId = b.assetId && a.id = b.id) model.nodes then .invalid
  -- an event is a duplicate when the first event with its id is another one
  else if model.events.zipIdx.any (fun e => findEvent model e.1.id ≠ e.2) then .invalid
  else .ok

/-- First loop of `validate_and_resolve_references`. Only `id` fields are looked up, which the
loop does not write. -/
def resolveParent (model : EdgeModel) (i : Nat) (asset : EdgeAsset) (_ : Unit) :
    Turn EdgeStatus EdgeAsset Unit :=
  if asset.parentId = [] ∨ asset.parentId = model.id then
    { elem := { asset with parentIndex := edgeInvalidIndex }, state := () }
  else
    let p := findAsset model asset.parentId
    -- a parent has to come before its children in the file
    { elem := { asset with parentIndex := p }
      state := ()
      exit := if p = edgeInvalidIndex ∨ p = i ∨ i < p then some .invalid else none }

/-- The `while` of the cycle check. `hops` grows by one per turn and is tested against the asset
count, so `asset_count + 2` turns always suffice. -/
def parentChain (assets : List EdgeAsset) (i : Nat) : Nat → Nat → Nat → EdgeStatus
  | 0, _, _ => .invalid
  | fuel + 1, cursor, hops =>
    if cursor = edgeInvalidIndex then .ok
    else if cursor = i ∨ assets.length < hops then .invalid
    else parentChain assets i fuel ((assets[cursor]?.map (·.parentIndex)).getD edgeInvalidIndex)
      (hops + 1)

/-- The second loop of `validate_and_resolve_references`: no asset is above itself. -/
def checkParentChain (assets : List EdgeAsset) (i : Nat) (asset : EdgeAsset) (_ : Unit) :
    Unit × Option EdgeStatus :=
  ((), if parentChain assets i (assets.length + 2) asset.parentIndex 0 = .ok then none
       else some .invalid)

/-- The third loop: the asset of a node. -/
def resolveNode (model : EdgeModel) (_ : Nat) (node : EdgeNode) (_ : Unit) :
    Turn EdgeStatus EdgeNode Unit :=
  let a := findAsset model node.assetId
  { elem := { node with assetIndex := a }
    state := ()
    exit := if a = edgeInvalidIndex then some .invalid else none }

/-- The last loop: the asset of an event, and the node it watches among the nodes of that asset. -/
def resolveEvent (model : EdgeModel) (_ : Nat) (event : EdgeEvent) (_ : Unit) :
    Turn EdgeStatus EdgeEvent Unit :=
  let a := findAsset model event.assetId
  if a = edgeInvalidIndex then
    { elem := { event with assetIndex := a }, state := (), exit := some .invalid }
  else
    let n := findNodeForAsset model a event.sourceNodeId
    { elem := { event with assetIndex := a, sourceNodeIndex := n }
      state := ()
      exit := if n = edgeInvalidIndex then some .invalid else none }

/-- All turns of the first loop. -/
def resolveAssets (model : EdgeModel) : Turn EdgeStatus (List EdgeAsset) Unit :=
  sweep (resolveParent model) 0 model.assets ()

/-- All turns of the third loop. -/
def resolveNodes (model : EdgeModel) : Turn EdgeStatus (List EdgeNode) Unit :=
  sweep (resolveNode model) 0 model.nodes ()

/-- All turns of the last loop. -/
def resolveEvents (model : EdgeModel) : Turn EdgeStatus (List EdgeEvent) Unit :=
  sweep (resolveEvent model) 0 model.events ()

/-- `validate_and_resolve_references`. A loop that fails leaves what it resolved so far in the
model. -/
def validateAndResolveReferences (model : EdgeModel) : EdgeStatus × EdgeModel :=
  let model₁ := { model with assets := (resolveAssets model).elem }
  match (resolveAssets model).exit with
  | some status => (status, model₁)
  | none =>
    match (visit (checkParentChain model₁.assets) 0 model₁.assets ()).2 with
    | some status => (status, model₁)
    | none =>
      let model₂ := { model₁ with nodes := (resolveNodes model₁).elem }
      match (resolveNodes model₁).exit with
      | some status => (status, model₂)
      | none =>
        ((resolveEvents model₂).exit.getD .ok,
          { model₂ with events := (resolveEvents model₂).elem })

/-- `edge_config_load` on a model; `file` is the content of the file, `none` when it cannot be
opened. -/
def edgeConfigLoad (file : Option Bytes) (model : EdgeModel) : EdgeStatus × EdgeModel :=
  match file with
  | none => (.error, model)
  | some bytes =>
    let r := visit loadTurn 0 (chunks (edgeMaxLineLen - 1) bytes) { model := model }
    match r.2 with
    | some status => (status, r.1.model)
    | none =>
      -- whatever fails from here on is reported as INVALID
      if validateRequiredFields r.1.model ≠ .ok ∨ validateDuplicates r.1.model ≠ .ok then
        (.invalid, r.1.model)
      else
        let v := validateAndResolveReferences r.1.model
        if v.1 ≠ .ok then (.invalid, v.2) else (.ok, v.2)

/-! ## Wiring

The second function of the loader turns indexes into pointers, once the model is where it will
stay. It also counts the nodes of each asset. -/

/-- The first loop of `edge_config_wire_runtime`. -/
def wireAsset (asset : EdgeAsset) : EdgeAsset :=
  { asset with
    parent := if asset.parentIndex ≠ edgeInvalidIndex then some asset.parentIndex else none
    firstNodeIndex := edgeInvalidIndex
    nodeCount := 0 }

/-- `asset->first_node_index` and `asset->node_count` for one more node. -/
def countNode (i : Nat) (asset : EdgeAsset) : EdgeAsset :=
  { asset with
    firstNodeIndex := if asset.firstNodeIndex = edgeInvalidIndex then i else asset.firstNodeIndex
    nodeCount := asset.nodeCount + 1 }

/-- The second loop: a node points to its asset, which counts it. -/
def wireNode (i : Nat) (node : EdgeNode) (assets : List EdgeAsset) :
    Turn EdgeStatus EdgeNode (List EdgeAsset) :=
  if node.assetIndex = edgeInvalidIndex then
    { elem := node, state := assets, exit := some .invalid }
  else
    { elem := { node with asset := some node.assetIndex }
      state := assets.modify node.assetIndex (countNode i) }

/-- The last loop: an event points to its asset and to the node it watches. -/
def wireEvent (_ : Nat) (event : EdgeEvent) (_ : Unit) : Turn EdgeStatus EdgeEvent Unit :=
  if event.assetIndex = edgeInvalidIndex ∨ event.sourceNodeIndex = edgeInvalidIndex then
    { elem := event, state := (), exit := some .invalid }
  else
    { elem := { event with
        asset := some event.assetIndex
        sourceNode := some event.sourceNodeIndex }
      state := () }

/-- `edge_config_wire_runtime`, on a model whose references may be unresolved. -/
def edgeConfigWireRuntime (model : EdgeModel) : EdgeStatus × EdgeModel :=
  let nodes := sweep wireNode 0 model.nodes (model.assets.map wireAsset)
  let model₁ := { model with assets := nodes.state, nodes := nodes.elem }
  match nodes.exit with
  | some status => (status, model₁)
  | none =>
    let events := sweep wireEvent 0 model.events ()
    (events.exit.getD .ok, { model₁ with events := events.elem })

end OpcuaEdge
