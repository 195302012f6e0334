import OpcuaEdge.Config

/-!
# OpcuaEdge — what the line state machine guarantees

Every record the loader builds stays inside its buffers, whatever the file says: `copy_value`
refuses a text that does not fit and leaves the old one. `Parsed` collects these facts over a
whole model. It holds of a zeroed model, and every line the loader accepts keeps it
(`loadLine_parsed`), so it holds of every model the line loop delivers (`loadLines_parsed`).

The unit range is the one field that an intermediate state can violate: `parse_node_key` stores
the number before it tests it. A line with a unit out of range ends the load, so the invariant
is only claimed for lines answered with `EDGE_STATUS_OK`.
-/

namespace OpcuaEdge

open CStr CLoop

/-! ## Record invariants

One structure for each kind of record, and `Parsed` for the model that holds them. A text shorter
than its buffer leaves room for the terminating zero. -/

/-- The texts of an asset fit in their buffers. -/
structure AssetBounded (asset : EdgeAsset) : Prop where
  id : asset.id.length < edgeMaxIdLen
  type : asset.type.length < edgeMaxIdLen
  name : asset.name.length < edgeMaxNameLen
  parentId : asset.parentId.length < edgeMaxIdLen

/-- Besides the buffer bounds: a record under construction has no value and no pending write. -/
structure NodeBounded (node : EdgeNode) : Prop where
  id : node.id.length < edgeMaxIdLen
  name : node.name.length < edgeMaxNameLen
  assetId : node.assetId.length < edgeMaxIdLen
  unit : node.modbusUnit ≤ 247
  value : node.value = {}
  pendingWrite : node.pendingWrite = false

/-- The texts of an event fit in their buffers, and its latch is open. -/
structure EventBounded (event : EdgeEvent) : Prop where
  id : event.id.length < edgeMaxIdLen
  assetId : event.assetId.length < edgeMaxIdLen
  sourceNodeId : event.sourceNodeId.length < edgeMaxIdLen
  active : event.active = false

/-- The invariant of the line loop: the texts of the plant and of all records fit, and no array is
longer than its capacity. -/
structure Parsed (model : EdgeModel) : Prop where
  id : model.id.length < edgeMaxIdLen
  name : model.name.length < edgeMaxNameLen
  assetCount : model.assets.length ≤ edgeMaxAssets
  nodeCount : model.nodes.length ≤ edgeMaxNodes
  eventCount : model.events.length ≤ edgeMaxEvents
  assets : ∀ asset ∈ model.assets, AssetBounded asset
  nodes : ∀ node ∈ model.nodes, NodeBounded node
  events : ∀ event ∈ model.events, EventBounded event

/-! ## One key

`copy_value` is the only function that writes a text, so every key of every section is bounded by
one lemma about it. The chains below follow the order in which the source compares the key. -/

/-- A buffer that held a text that fits holds one that fits afterwards, whether or not the new text
was taken. -/
theorem copyValue_length_lt {dst src : Bytes} {size : Nat} (h : dst.length < size) :
    (copyValue dst size src).2.length < size := by
  unfold copyValue
  split
  · exact h
  · show src.length < size
    omega

/-- No key of an asset can break a bound, even one that is refused. -/
theorem parseAssetKey_bounded {asset : EdgeAsset} (h : AssetBounded asset) (key value : Bytes) :
    AssetBounded (parseAssetKey asset key value).2 := by
  unfold parseAssetKey
  split_ifs
  · exact { h with id := copyValue_length_lt h.id }
  · exact { h with type := copyValue_length_lt h.type }
  · exact { h with name := copyValue_length_lt h.name }
  · exact { h with parentId := show ([] : Bytes).length < edgeMaxIdLen by decide }
  · exact { h with parentId := copyValue_length_lt h.parentId }
  · exact h

/-- An accepted unit is in range; a refused one may be stored nevertheless. -/
theorem parseModbusUnit_le {node : EdgeNode} {value : Bytes}
    (hok : (parseModbusUnit node value).1 = .ok) :
    (parseModbusUnit node value).2.modbusUnit ≤ 247 := by
  unfold parseModbusUnit at hok ⊢
  simp only at hok ⊢
  split_ifs at hok ⊢ with hrc hrange
  · exact absurd hok hrc
  · exact UInt16.not_lt.mp fun h => hrange (Or.inr h)

/-- Where the unit is accepted, the other fields are as they were and the new one is in range. -/
theorem parseModbusUnit_bounded {node : EdgeNode} (h : NodeBounded node) {value : Bytes}
    (hok : (parseModbusUnit node value).1 = .ok) :
    NodeBounded (parseModbusUnit node value).2 := by
  have hunit := parseModbusUnit_le hok
  unfold parseModbusUnit at hok hunit ⊢
  simp only at hok hunit ⊢
  split_ifs at hok hunit ⊢
  exacts [{ h with unit := hunit }, { h with unit := hunit }]

/-- An accepted key of a node keeps its bounds. Here the status matters: a refused `modbus_unit`
does not. -/
theorem parseNodeKey_bounded {node : EdgeNode} (h : NodeBounded node) {key value : Bytes}
    (hok : (parseNodeKey node key value).1 = .ok) :
    NodeBounded (parseNodeKey node key value).2 := by
  -- split the one call, not its two components
  generalize hr : parseNodeKey node key value = r at hok ⊢
  unfold parseNodeKey at hr
  by_cases hasset : key = lit "asset"
  · rw [if_pos hasset] at hr
    subst hr
    exact { h with assetId := copyValue_length_lt h.assetId }
  rw [if_neg hasset] at hr
  by_cases hid : key = lit "id"
  · rw [if_pos hid] at hr
    subst hr
    exact { h with id := copyValue_length_lt h.id }
  rw [if_neg hid] at hr
  by_cases hname : key = lit "name"
  · rw [if_pos hname] at hr
    subst hr
    exact { h with name := copyValue_length_lt h.name }
  rw [if_neg hname] at hr
  by_cases htype : key = lit "data_type"
  · rw [if_pos htype] at hr
    subst hr
    exact { h with }
  rw [if_neg htype] at hr
  by_cases haccess : key = lit "access"
  · rw [if_pos haccess] at hr
    subst hr
    exact { h with }
  rw [if_neg haccess] at hr
  by_cases hsource : key = lit "source"
  · -- the source has no field
    rw [if_pos hsource] at hr
    split at hr <;> subst hr <;> exact h
  rw [if_neg hsource] at hr
  by_cases hunit : key = lit "modbus_unit"
  · rw [if_pos hunit] at hr
    subst hr
    exact parseModbusUnit_bounded h hok
  rw [if_neg hunit] at hr
  by_cases hregister : key = lit "modbus_register"
  · rw [if_pos hregister] at hr
    subst hr
    exact { h with }
  rw [if_neg hregister] at hr
  by_cases hscale : key = lit "scale"
  · rw [if_pos hscale] at hr
    subst hr
    exact { h with }
  · rw [if_neg hscale] at hr
    subst hr
    exact h

/-- No key of an event can break a bound, even one that is refused. -/
theorem parseEventKey_bounded {event : EdgeEvent} (h : EventBounded event) (key value : Bytes) :
    EventBounded (parseEventKey event key value).2 := by
  unfold parseEventKey
  split
  · exact { h with assetId := copyValue_length_lt h.assetId }
  split
  · exact { h with id := copyValue_length_lt h.id }
  split
  · exact { h with sourceNodeId := copyValue_length_lt h.sourceNodeId }
  split
  · exact { h with }
  split
  · exact { h with }
  split
  · exact { h with }
  · exact h

/-! ## One line

A key updates the last record of its section, a header appends a fresh one, and every other line
changes no record. -/

/-- An accepted update of one record keeps a property of all of them. -/
theorem updateRecord_forall {α : Type} {P : α → Prop} {records : List α} {i : Nat}
    {f : α → EdgeStatus × α} (hall : ∀ r ∈ records, P r)
    (hf : ∀ r, P r → (f r).1 = .ok → P (f r).2)
    (hok : (updateRecord records i f).1 = .ok) :
    ∀ r ∈ (updateRecord records i f).2, P r := by
  unfold updateRecord at hok ⊢
  cases hget : records[i]? with
  | none => rw [hget] at hok; cases hok
  | some r =>
    rw [hget] at hok
    intro r' hr'
    rcases List.mem_or_eq_of_mem_set hr' with hmem | rfl
    · exact hall r' hmem
    · exact hf r (hall r (List.mem_of_getElem? hget)) hok

/-- An update in place appends nothing, so the capacities are not touched. -/
theorem length_updateRecord {α : Type} (records : List α) (i : Nat) (f : α → EdgeStatus × α) :
    (updateRecord records i f).2.length = records.length := by
  unfold updateRecord
  cases records[i]? <;> simp

/-- A key of the plant writes one of its two texts. -/
theorem parsePlantKey_parsed {model : EdgeModel} (h : Parsed model) (key value : Bytes) :
    Parsed (parsePlantKey model key value).2 := by
  unfold parsePlantKey
  split_ifs
  · exact { h with id := copyValue_length_lt h.id }
  · exact { h with name := copyValue_length_lt h.name }
  · exact h

/-- An accepted `key=value` line keeps the invariant, in whichever section it stands. -/
theorem parseKey_parsed {st : LoadState} (h : Parsed st.model) {key value : Bytes}
    (hok : (parseKey st key value).1 = .ok) : Parsed (parseKey st key value).2.model := by
  unfold parseKey at hok ⊢
  split at hok
  -- one case for each section, then a key outside of all of them
  · exact parsePlantKey_parsed h key value
  · exact { h with
      assetCount := by
        show (updateRecord st.model.assets _ _).2.length ≤ _
        rw [length_updateRecord]; exact h.assetCount
      assets :=
        updateRecord_forall h.assets (fun r hr _ => parseAssetKey_bounded hr key value) hok }
  · exact { h with
      nodeCount := by
        show (updateRecord st.model.nodes _ _).2.length ≤ _
        rw [length_updateRecord]; exact h.nodeCount
      nodes := updateRecord_forall h.nodes (fun r hr => parseNodeKey_bounded hr) hok }
  · exact { h with
      eventCount := by
        show (updateRecord st.model.events _ _).2.length ≤ _
        rw [length_updateRecord]; exact h.eventCount
      events :=
        updateRecord_forall h.events (fun r hr _ => parseEventKey_bounded hr key value) hok }
  -- a key before the first header is refused
  · cases hok

/-- A header appends one record, fresh and within bounds. -/
theorem forall_mem_append_singleton {α : Type} {P : α → Prop} {l : List α} {a : α}
    (hl : ∀ x ∈ l, P x) (ha : P a) : ∀ x ∈ l ++ [a], P x := by
  intro x hx
  rcases List.mem_append.mp hx with hx | hx
  · exact hl x hx
  · rw [List.mem_singleton.mp hx]; exact ha

/-- A header `[asset]` appends an asset with empty texts, or is refused at the capacity. -/
theorem beginAsset_parsed {st : LoadState} (h : Parsed st.model) :
    Parsed (beginAsset st).2.model := by
  unfold beginAsset
  split
  · exact h
  · exact { h with
      assetCount := by simp only [List.length_append, List.length_singleton]; omega
      assets := forall_mem_append_singleton h.assets (by constructor <;> decide) }

/-- A header `[node]` appends a node with empty texts and unit 0, or is refused at the capacity. -/
theorem beginNode_parsed {st : LoadState} (h : Parsed st.model) :
    Parsed (beginNode st).2.model := by
  unfold beginNode
  split
  · exact h
  · exact { h with
      nodeCount := by simp only [List.length_append, List.length_singleton]; omega
      nodes := forall_mem_append_singleton h.nodes (by constructor <;> decide) }

/-- A header `[event]` appends an event with empty texts, or is refused at the capacity. -/
theorem beginEvent_parsed {st : LoadState} (h : Parsed st.model) :
    Parsed (beginEvent st).2.model := by
  unfold beginEvent
  split
  · exact h
  · exact { h with
      eventCount := by simp only [List.length_append, List.length_singleton]; omega
      events := forall_mem_append_singleton h.events (by constructor <;> decide) }

/-- An accepted line, trimmed, keeps the invariant. The cases are the branches of `loadText` in
order. -/
theorem loadText_parsed {st : LoadState} (h : Parsed st.model) {line : Bytes}
    (hok : (loadText line st).1 = .ok) : Parsed (loadText line st).2.model := by
  unfold loadText at hok ⊢
  simp only at hok ⊢
  -- a header keeps the bounds whether or not its record still fits
  split_ifs at hok ⊢
  · exact h
  · exact h
  · exact beginAsset_parsed h
  · exact beginAsset_parsed h
  · exact beginNode_parsed h
  · exact beginNode_parsed h
  · exact beginEvent_parsed h
  · exact beginEvent_parsed h
  · cases hsplit : splitKeyValue line with
    | none => rw [hsplit] at hok; cases hok
    | some kv => rw [hsplit] at hok; exact parseKey_parsed h hok

/-- An accepted turn of the `fgets` loop keeps the invariant: a line that fills the buffer is
refused before it is read. -/
theorem loadLine_parsed {st : LoadState} (h : Parsed st.model) {chunk : Chunk}
    (hok : (loadLine chunk st).1 = .ok) : Parsed (loadLine chunk st).2.model := by
  unfold loadLine at hok ⊢
  simp only at hok ⊢
  split_ifs at hok ⊢
  exact loadText_parsed h hok

/-! ## The whole file

The invariant holds of the zeroed model that the loader starts from, and each accepted turn keeps
it. -/

/-- A zeroed model is within all bounds. -/
theorem parsed_zero : Parsed {} where
  id := by decide
  name := by decide
  assetCount := by decide
  nodeCount := by decide
  eventCount := by decide
  assets := by simp
  nodes := by simp
  events := by simp

/-- **Every model the line loop delivers is within its buffers.** -/
theorem loadLines_parsed (lines : List Chunk)
    (hdone : (visit loadTurn 0 lines { model := {} }).2 = none) :
    Parsed (visit loadTurn 0 lines { model := {} }).1.model := by
  -- a rejected line may leave a unit out of range, so only accepted turns keep the bounds
  refine visit_complete (fun st => Parsed st.model) ?_ lines 0 _ parsed_zero hdone
  intro i chunk st h hexit
  unfold loadTurn at hexit ⊢
  simp only at hexit ⊢
  split_ifs at hexit with hok
  exact loadLine_parsed h hok

end OpcuaEdge
