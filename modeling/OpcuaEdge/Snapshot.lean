import OpcuaEdge.AssetTree
import OpcuaEdge.StoreAtomic

/-!
# OpcuaEdge — when the persisted configuration is a snapshot

`edge_store_persist_model` upserts the plant, assets, nodes and events of the model and removes
nothing. So after a successful call the four tables hold exactly the current model just when they
held no other keys before (`snapshot_iff`): rows of an asset that was renamed, of a node or event
that was removed, or of another plant stay for ever.
-/

namespace OpcuaEdge

open CStr CLoop Txn Upsert

variable {τ : Type}

/-- The configuration tables hold the model's plant, assets, nodes and events, with the fields of
the model, and nothing else. -/
structure IsSnapshot (model : EdgeModel) (db : Db) : Prop where
  plants : ∀ key name, db.plants.lookup key = some name ↔ model.id = key ∧ model.name = name
  assets : ∀ key row, db.assets.lookup key = some row ↔
    ∃ asset ∈ model.assets, asset.id = key ∧ assetRow model asset = row
  nodes : ∀ key row, db.nodes.lookup key = some row ↔
    ∃ node ∈ model.nodes, nodeKeyText node = key ∧ nodeRow node = row
  eventDefinitions : ∀ key row, db.eventDefinitions.lookup key = some row ↔
    ∃ event ∈ model.events, event.id = key ∧ eventRow event = row

/-- Every key of the configuration tables is one of the model's. -/
structure OnlyKeysOf (model : EdgeModel) (db : Db) : Prop where
  plants : ∀ key ∈ db.plants, model.id = key
  assets : ∀ key ∈ db.assets, ∃ asset ∈ model.assets, asset.id = key
  nodes : ∀ key ∈ db.nodes, ∃ node ∈ model.nodes, nodeKeyText node = key
  eventDefinitions : ∀ key ∈ db.eventDefinitions, ∃ event ∈ model.events, event.id = key

/-- One upsert leaves exactly its row behind just when the table held no other key. -/
theorem insert_exact_iff {ρ : Type} (key : Bytes) (row : ρ) (table : Table ρ) :
    (∀ k r, (table.insert key row).lookup k = some r ↔ key = k ∧ row = r) ↔
      ∀ k ∈ table, key = k := by
  have hbatch : (∀ k r, (upsertAll (fun _ : Unit => key) (fun _ => row) [()] table).lookup k
        = some r ↔ ∃ a ∈ [()], key = k ∧ row = r) ↔ ∀ k ∈ table, ∃ a ∈ [()], key = k :=
    upsertAll_exact_iff (by simp) table
  simpa [upsertAll] using hbatch

/-- Applying a model upserts its own rows. What is left to ask is that there are no others. -/
theorem isSnapshot_applyModel_iff {model : EdgeModel}
    (hassets : (model.assets.map (·.id)).Nodup) (hnodes : (model.nodes.map nodeKeyText).Nodup)
    (hevents : (model.events.map (·.id)).Nodup) (db : Db) :
    IsSnapshot model (applyModel model db) ↔ OnlyKeysOf model db := by
  -- an upsert is exact if and only if it meets no foreign key, table by table
  constructor
  · intro h
    exact {
      plants := (insert_exact_iff model.id model.name db.plants).mp h.plants
      assets := (upsertAll_exact_iff hassets db.assets).mp h.assets
      nodes := (upsertAll_exact_iff hnodes db.nodes).mp h.nodes
      eventDefinitions := (upsertAll_exact_iff hevents db.eventDefinitions).mp h.eventDefinitions }
  · intro h
    exact {
      plants := (insert_exact_iff model.id model.name db.plants).mpr h.plants
      assets := (upsertAll_exact_iff hassets db.assets).mpr h.assets
      nodes := (upsertAll_exact_iff hnodes db.nodes).mpr h.nodes
      eventDefinitions := (upsertAll_exact_iff hevents db.eventDefinitions).mpr h.eventDefinitions }

/-- **A successful persist leaves a snapshot of the model exactly when the tables held no keys but
the model's.** -/
theorem snapshot_iff (engine : Engine τ) (store : Store τ) (file : Option Bytes)
    (model : EdgeModel) (h : LoadedAndWired file model)
    (hkeys : (model.nodes.map nodeKeyText).Nodup)
    (hok : (edgeStorePersistModel engine model store).1 = .ok) :
    IsSnapshot model (edgeStorePersistModel engine model store).2.conn.committed ↔
      OnlyKeysOf model store.conn.committed := by
  obtain ⟨-, hconn⟩ := (allOrNothing_persistModel engine model store).2 hok
  rw [hconn]
  exact isSnapshot_applyModel_iff h.assetTree.distinct hkeys h.wired.eventsDistinct _

theorem pump_snapshot :
    IsSnapshot pumpModel
      (edgeStorePersistModel busyEngine pumpModel (busyStore 0)).2.conn.committed := by
  refine (snapshot_iff busyEngine (busyStore 0) (some pumpTemplate) pumpModel
    pumpModel_loadedAndWired (by decide +kernel) (by decide +kernel)).mpr ?_
  -- the tables were empty
  exact {
    plants := fun key hkey => absurd hkey (AList.notMem_empty key)
    assets := fun key hkey => absurd hkey (AList.notMem_empty key)
    nodes := fun key hkey => absurd hkey (AList.notMem_empty key)
    eventDefinitions := fun key hkey => absurd hkey (AList.notMem_empty key) }

/-- The store after a run with the template of the pump. -/
def pumpStore : Store Nat := (edgeStorePersistModel busyEngine pumpModel (busyStore 0)).2

/-- A run with another template: the plant of the pump is still there. -/
theorem earlier_plant_stays :
    LoadedAndWired (some trainTemplate) trainModel ∧
      (trainModel.nodes.map nodeKeyText).Nodup ∧
      (∀ node ∈ trainModel.nodes, node.scale = .fin 1) ∧ trainModel.events = [] ∧
      (edgeStorePersistModel busyEngine trainModel pumpStore).1 = .ok ∧
      ¬ IsSnapshot trainModel
        (edgeStorePersistModel busyEngine trainModel pumpStore).2.conn.committed := by
  refine ⟨trainModel_loadedAndWired, by decide +kernel, by decide +kernel, rfl, by decide +kernel,
    fun h => ?_⟩
  have hstale : (edgeStorePersistModel busyEngine trainModel
      pumpStore).2.conn.committed.plants.lookup pumpModel.id = some pumpModel.name := by
    decide +kernel
  have hid := ((h.plants _ _).mp hstale).1
  exact absurd hid (by decide +kernel)

end OpcuaEdge
