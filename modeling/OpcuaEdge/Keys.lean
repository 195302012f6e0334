import OpcuaEdge.Identifiers
import OpcuaEdge.Wiring

/-!
# OpcuaEdge — when node keys are injective

The row key and the NodeId of a node are both `node:<asset id>.<node id>`. The loader checks that
the pairs (asset id, node id) are distinct, but lets the separator into both parts, so two
different pairs can give one text. `keys_injective_iff` says which pairs do.
-/

namespace OpcuaEdge

open CStr

/-- `node:<asset id>.<node id>`. -/
def keyText (assetId id : Bytes) : Bytes := lit "node:" ++ assetId ++ lit "." ++ id

/-- The two nodes cut one dotted text at different dots: `a`'s id goes on where `b`'s asset id
does. -/
def CutApart (a b : EdgeNode) : Prop :=
  ∃ x, b.assetId = a.assetId ++ lit "." ++ x ∧ a.id = x ++ lit "." ++ b.id

/-- Two nodes have one key if they are named the same, or if the dot between the two parts can be
taken for one inside them. -/
theorem keyText_eq_iff (a b : EdgeNode) :
    keyText a.assetId a.id = keyText b.assetId b.id ↔
      (a.assetId = b.assetId ∧ a.id = b.id) ∨ CutApart a b ∨ CutApart b a := by
  have hdot : lit "." = [46] := by decide
  unfold keyText CutApart
  simp only [hdot, List.append_assoc, List.singleton_append]
  rw [List.append_cancel_left_eq, append_cons_eq_iff]

/-! ## Keys and NodeIds of a wired model

Both are the same text: prefix, asset, a dot and the id. It always fits, as both parts are
bounded. -/

/-- Ids are short enough for the text to fit its buffer. -/
theorem keyText_length {node : EdgeNode} (h : NodeFields node) :
    (keyText node.assetId node.id).length < edgeStoreKeyLen := by
  have hasset := h.assetId
  have hid := h.id
  have hprefix : (lit "node:").length = 5 := by decide
  have hdot : (lit ".").length = 1 := by decide
  unfold keyText
  rw [List.length_append, List.length_append, List.length_append, hprefix, hdot]
  unfold edgeMaxIdLen at hasset hid
  unfold edgeStoreKeyLen
  omega

/-- The key of a node is its text. -/
theorem makeNodeKey_eq {node : EdgeNode} (h : NodeFields node) :
    makeNodeKey node = (.ok, keyText node.assetId node.id) :=
  formatInto_of_lt (keyText_length h)

theorem makeVariableNodeid_eq {model : EdgeModel} (h : Wired model) {node : EdgeNode}
    (hmem : node ∈ model.nodes) :
    makeVariableNodeid model node = some (.ok, keyText node.assetId node.id) := by
  obtain ⟨asset, hasset, hid⟩ := h.nodeAssets node hmem
  unfold makeVariableNodeid
  rw [hasset, Option.map_some, hid]
  exact congrArg some (formatInto_of_lt (keyText_length (h.nodes node hmem)))

/-- Distinct nodes have distinct row keys and distinct NodeIds. -/
def KeysInjective (model : EdgeModel) : Prop :=
  ∀ (i j : Nat) (a b : EdgeNode), i ≠ j → model.nodes[i]? = some a → model.nodes[j]? = some b →
    (makeNodeKey a).2 ≠ (makeNodeKey b).2 ∧
      makeVariableNodeid model a ≠ makeVariableNodeid model b

/-- **Node keys and NodeIds are injective exactly when no two nodes cut one dotted text at
different dots.** -/
theorem keys_injective_iff (file : Option Bytes) (model : EdgeModel)
    (h : LoadedAndWired file model) :
    KeysInjective model ↔
      ∀ (i j : Nat) (a b : EdgeNode), i ≠ j → model.nodes[i]? = some a →
        model.nodes[j]? = some b → ¬ CutApart a b := by
  have hwired := h.wired
  -- both texts of a node are its key text
  have hkeys : ∀ a ∈ model.nodes, ∀ b ∈ model.nodes,
      ((makeNodeKey a).2 ≠ (makeNodeKey b).2 ∧
          makeVariableNodeid model a ≠ makeVariableNodeid model b) ↔
        keyText a.assetId a.id ≠ keyText b.assetId b.id := by
    intro a ha b hb
    rw [makeNodeKey_eq (hwired.nodes a ha), makeNodeKey_eq (hwired.nodes b hb),
      makeVariableNodeid_eq hwired ha, makeVariableNodeid_eq hwired hb]
    simp
  constructor
  · intro hinj i j a b hij ha hb hcut
    refine (hkeys a (List.mem_of_getElem? ha) b (List.mem_of_getElem? hb)).mp
      (hinj i j a b hij ha hb) ?_
    exact (keyText_eq_iff a b).mpr (.inr (.inl hcut))
  · intro hcut i j a b hij ha hb
    refine (hkeys a (List.mem_of_getElem? ha) b (List.mem_of_getElem? hb)).mpr fun heq => ?_
    rcases (keyText_eq_iff a b).mp heq with ⟨hassetId, hid⟩ | hab | hba
    · exact hij (node_index_unique hwired.nodesDistinct ha hb hassetId hid)
    · exact hcut i j a b hij ha hb hab
    · exact hcut j i b a (Ne.symm hij) hb ha hba

theorem pump_keys_injective : KeysInjective pumpModel := by
  refine (keys_injective_iff (some pumpTemplate) pumpModel pumpModel_loadedAndWired).mpr ?_
  rintro i j a b - ha hb ⟨x, hassetId, -⟩
  -- all nodes are of one asset, whose id is not longer than itself
  have hasset : ∀ node ∈ pumpModel.nodes, node.assetId.length = 9 := by decide +kernel
  have hlength := congrArg List.length hassetId
  rw [List.length_append, List.length_append, hasset a (List.mem_of_getElem? ha),
    hasset b (List.mem_of_getElem? hb)] at hlength
  have hdot : (lit ".").length = 1 := by decide
  omega

/-- Node `c` of asset `a.b` and node `b.c` of asset `a`. -/
def dottedTemplate : Bytes :=
  templateOf [
    "[plant]", "id=p", "name=P",
    "[asset]", "id=a", "type=t", "name=A",
    "[asset]", "id=a.b", "type=t", "name=AB",
    "[node]", "asset=a", "id=b.c", "name=N", "data_type=bool", "access=read", "source=modbus",
      "modbus_unit=1", "modbus_register=40001", "scale=1",
    "[node]", "asset=a.b", "id=c", "name=N", "data_type=bool", "access=read", "source=modbus",
      "modbus_unit=1", "modbus_register=40002", "scale=1"]

theorem dottedTemplate_accepted : (edgeConfigLoad (some dottedTemplate) {}).1 = .ok := by
  decide +kernel

theorem not_keysInjective {model : EdgeModel} {i j : Nat} (hij : i ≠ j) {key : Bytes}
    (hi : (model.nodes[i]?.map fun node => (makeNodeKey node).2) = some key)
    (hj : (model.nodes[j]?.map fun node => (makeNodeKey node).2) = some key) :
    ¬ KeysInjective model := by
  intro h
  obtain ⟨a, ha, hka⟩ := Option.map_eq_some_iff.mp hi
  obtain ⟨b, hb, hkb⟩ := Option.map_eq_some_iff.mp hj
  exact (h i j a b hij ha hb).1 (hka.trans hkb.symm)

theorem dotted_keys_collide :
    LoadedAndWired (some dottedTemplate) (startupModel (some dottedTemplate)) ∧
      ¬ KeysInjective (startupModel (some dottedTemplate)) := by
  have hfirst : ((startupModel (some dottedTemplate)).nodes[0]?.map fun node =>
      (makeNodeKey node).2) = some (lit "node:a.b.c") := by decide +kernel
  have hsecond : ((startupModel (some dottedTemplate)).nodes[1]?.map fun node =>
      (makeNodeKey node).2) = some (lit "node:a.b.c") := by decide +kernel
  exact ⟨loadedAndWired_of_ok dottedTemplate_accepted,
    not_keysInjective Nat.zero_ne_one hfirst hsecond⟩

end OpcuaEdge
