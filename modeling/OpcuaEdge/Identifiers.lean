import OpcuaEdge.Types

/-!
# OpcuaEdge — textual identifiers

The NodeIds of the address space (`edge_address_space.c`), the source NodeId of an event
(`edge_events.c`) and the row keys of the store (`edge_store.c`). All of them are one `snprintf`
into a buffer of 160 bytes.
-/

namespace OpcuaEdge

open CStr

/-- `EDGE_NODEID_LEN`. -/
def edgeNodeidLen : Nat := 160
/-- `EDGE_EVENT_NODEID_LEN`. -/
def edgeEventNodeidLen : Nat := 160
/-- `EDGE_STORE_KEY_LEN`. -/
def edgeStoreKeyLen : Nat := 160

/-- `snprintf` into a buffer of `size` bytes, with the status the callers make of its result. -/
def formatInto (size : Nat) (text : Bytes) : EdgeStatus × Bytes :=
  let r := snprintf size text
  if size ≤ r.1 then (.limit, r.2) else (.ok, r.2)

/-- `make_plant_nodeid`. -/
def makePlantNodeid (model : EdgeModel) : EdgeStatus × Bytes :=
  formatInto edgeNodeidLen (lit "plant:" ++ model.id)

/-- `make_asset_nodeid`. -/
def makeAssetNodeid (asset : EdgeAsset) : EdgeStatus × Bytes :=
  formatInto edgeNodeidLen (lit "asset:" ++ asset.id)

/-- `none` stands for the crash on a null `node->asset`. -/
def makeVariableNodeid (model : EdgeModel) (node : EdgeNode) : Option (EdgeStatus × Bytes) :=
  (model.assetOf node).map fun asset =>
    formatInto edgeNodeidLen (lit "node:" ++ asset.id ++ lit "." ++ node.id)

/-- `make_event_source_nodeid`: the NodeId of the asset, not that of the node watched. -/
def makeEventSourceNodeid (event : EdgeEvent) : EdgeStatus × Bytes :=
  formatInto edgeEventNodeidLen (lit "asset:" ++ event.assetId)

/-- `make_node_key`. The key does not name the plant. -/
def makeNodeKey (node : EdgeNode) : EdgeStatus × Bytes :=
  formatInto edgeStoreKeyLen (lit "node:" ++ node.assetId ++ lit "." ++ node.id)

/-- `make_event_source_node_key`: the key of the node watched, from the texts of the event. -/
def makeEventSourceNodeKey (event : EdgeEvent) : EdgeStatus × Bytes :=
  formatInto edgeStoreKeyLen (lit "node:" ++ event.assetId ++ lit "." ++ event.sourceNodeId)

/-- A text is refused exactly if it does not fit its buffer. -/
theorem formatInto_ok_iff {size : Nat} {text : Bytes} :
    (formatInto size text).1 = .ok ↔ text.length < size := by
  unfold formatInto snprintf
  dsimp only
  split_ifs with h
  · exact iff_of_false nofun (by omega)
  · exact iff_of_true rfl (by omega)

/-- A text that fits its buffer arrives whole. -/
theorem formatInto_of_lt {size : Nat} {text : Bytes} (h : text.length < size) :
    formatInto size text = (.ok, text) := by
  unfold formatInto snprintf
  rw [if_neg (by simpa using h), List.take_of_length_le (by omega)]

end OpcuaEdge
