import OpcuaEdge.Agreement
import OpcuaEdge.Lib.Forest
import OpcuaEdge.Lives

/-!
# OpcuaEdge — the database stays consistent

The schema declares no foreign keys, so it is the order in which the code writes that keeps rows
from pointing nowhere. `Consistent` says of the tables that every reference has its row and that
the parents of the assets form a forest. Lives with any templates, one after the other on the same
files, keep it whatever fails in them (`lives_consistent`), and none of them takes a row away
(`lives_extend`).
-/

namespace OpcuaEdge

open CStr Txn Upsert

/-! ## Many lives

Processes that follow each other on one disk, each with its own template. Nothing is asked of how
one of them ends. -/

/-- A process with everything around it. -/
structure Life where
  {σ : Type}
  {τ : Type}
  {ρ : Type}
  world : World σ τ ρ
  options : Options

/-- The model that the process loads. -/
def Life.model (life : Life) : EdgeModel := (startupLoad life.world life.options).2

/-- The disk after the lives, one after the other. -/
def livesDisk (lives : List Life) (disk : Disk) : Disk :=
  lives.foldl (fun disk life => (edgeMain life.world life.options disk).disk) disk

/-- What every life keeps of the data of a file, any number of lives keep .. -/
theorem livesDisk_keeps {I : Db → Prop} {J : EdgeModel → Db → Prop} {path : Bytes} :
    ∀ (lives : List Life), (∀ life ∈ lives, ∀ file, LoadedAndWired file life.model →
      KeptByLife life.model I (J life.model)) →
      ∀ disk : Disk, I (disk path).data → I (livesDisk lives disk path).data := by
  intro lives
  induction lives with
  | nil => intro _ disk hI; exact hI
  | cons life rest ih =>
    intro h disk hI
    obtain ⟨hlife, hrest⟩ := List.forall_mem_cons.mp h
    exact ih hrest _ (edgeMain_keeps life.world life.options hlife hI)

/-- .. and of its schema. -/
theorem livesDisk_keepsSchema {I : SchemaDb → Prop} (h : KeptBySchema I) {path : Bytes} :
    ∀ (lives : List Life) (disk : Disk), I (disk path).schema →
      I (livesDisk lives disk path).schema := by
  intro lives
  induction lives with
  | nil => intro disk hI; exact hI
  | cons life rest ih =>
    intro disk hI
    exact ih _ (edgeMain_keepsSchema h life.world life.options hI)

/-! ## Consistency

Every reference of a row has its row. Besides, the key of a node is made of its ids, and the parents
form a forest. -/

/-- The parent of an asset, if it has one below the plant. -/
def Db.parentOf (db : Db) (id : Bytes) : Option Bytes :=
  (db.assets.lookup id).bind fun row => row.parentId.filter (· ≠ row.plantId)

/-- The references of the six tables. -/
structure Consistent (db : Db) : Prop where
  plants : ∀ id row, db.assets.lookup id = some row → row.plantId ∈ db.plants
  parents : ∀ id parent, db.parentOf id = some parent → parent ∈ db.assets
  forest : Forest.Rooted db.parentOf
  nodeKeys : ∀ key row, db.nodes.lookup key = some row → key = keyText row.assetId row.id
  nodeAssets : ∀ key row, db.nodes.lookup key = some row → row.assetId ∈ db.assets
  eventAssets : ∀ id row, db.eventDefinitions.lookup id = some row → row.assetId ∈ db.assets
  eventSources : ∀ id row, db.eventDefinitions.lookup id = some row → row.sourceNodeKey ∈ db.nodes
  history : ∀ row ∈ db.eventHistory, row.eventId ∈ db.eventDefinitions
  latestValues : ∀ key ∈ db.latestValues, key ∈ db.nodes

theorem consistent_empty : Consistent {} where
  plants _ _ h := nomatch h
  parents _ _ h := nomatch h
  forest := Forest.rooted_none
  nodeKeys _ _ h := nomatch h
  nodeAssets _ _ h := nomatch h
  eventAssets _ _ h := nomatch h
  eventSources _ _ h := nomatch h
  history _ h := nomatch h
  latestValues _ h := absurd h (AList.notMem_empty _)

/-- What alarms and values of the model will refer to. -/
structure Defines (model : EdgeModel) (db : Db) : Prop where
  events : ∀ event ∈ model.events, event.id ∈ db.eventDefinitions
  nodes : ∀ node ∈ model.nodes, nodeKeyText node ∈ db.nodes

/-! ## The assets of a model

An accepted template names parents before their children, so its assets form a forest of their own.
Their parents are among them, so upserted into another forest they close no cycle in it. -/

/-- Wiring leaves the parents as the template names them. -/
theorem LoadedAndWired.parents {file : Option Bytes} {model : EdgeModel}
    (h : LoadedAndWired file model) :
    ∀ i asset, model.assets[i]? = some asset → ParentResolved model i asset := by
  obtain ⟨loaded, hload, hwire⟩ := h
  have hwf := edgeConfigLoad_wellFormed file loaded hload
  obtain ⟨assets, hwired, hassets⟩ := edgeConfigWireRuntime_ok hwf
  cases (Prod.mk.inj (hwire.symm.trans hwired)).2
  intro i asset hget
  obtain ⟨origin, _, _, horigin, rfl⟩ := exists_of_uncounted hassets hget
  obtain ⟨hroot, hparent⟩ := hwf.parents i origin horigin
  refine ⟨hroot, fun hnamed => ?_⟩
  obtain ⟨hlt, parent, hparentget, hid⟩ := hparent hnamed
  have hids := congrArg (·[origin.parentIndex]?) (map_id_of_uncounted hassets)
  simp only [List.getElem?_map, hparentget, Option.map_some] at hids
  obtain ⟨wired, hwiredget, hwiredid⟩ := Option.map_eq_some_iff.mp hids
  exact ⟨hlt, wired, hwiredget, hwiredid.trans hid⟩

theorem nodeKeyText_eq {node : EdgeNode} (h : NodeFields node) :
    nodeKeyText node = keyText node.assetId node.id := congrArg Prod.snd (makeNodeKey_eq h)

variable {model : EdgeModel} {db : Db}

/-- The parent that a persisted asset gets is an earlier asset of the model. -/
theorem parentOf_applyModel {file : Option Bytes} (h : LoadedAndWired file model)
    {id parent : Bytes} (hparent : (applyModel model db).parentOf id = some parent) :
    (∃ (i j : Nat) (asset earlier : EdgeAsset), model.assets[i]? = some asset ∧ asset.id = id ∧
        model.assets[j]? = some earlier ∧ earlier.id = parent ∧ j < i) ∨
      (∀ asset ∈ model.assets, asset.id ≠ id) ∧ db.parentOf id = some parent := by
  obtain ⟨row, hlookup, hrow⟩ := Option.bind_eq_some_iff.mp hparent
  -- the row of the id is the template's, or is left from before
  obtain ⟨asset, hmem, hid, rfl⟩ | ⟨hother, hold⟩ :=
    (lookup_upsertAll_iff h.assetTree.distinct db.assets).mp hlookup
  · obtain ⟨hnamed, hne⟩ := Option.filter_eq_some_iff.mp hrow
    unfold assetRow at hnamed hne
    dsimp only at hnamed hne
    split_ifs at hnamed with hparentId
    cases hnamed
    obtain ⟨i, hget⟩ := List.mem_iff_getElem?.mp hmem
    obtain ⟨-, hresolved⟩ := h.parents i asset hget
    obtain ⟨hlt, earlier, hearlier, hearlierid⟩ := hresolved (by simp_all)
    exact .inl ⟨i, _, asset, earlier, hget, hid, hearlier, hearlierid, hlt⟩
  · exact .inr ⟨hother, Option.bind_eq_some_iff.mpr ⟨row, hold, hrow⟩⟩

/-- The assets of a template, upserted into a forest, leave a forest. -/
theorem forest_applyModel {file : Option Bytes} (h : LoadedAndWired file model)
    (hforest : Forest.Rooted db.parentOf) : Forest.Rooted (applyModel model db).parentOf := by
  have hrank : ∀ (i : Nat) (asset : EdgeAsset), model.assets[i]? = some asset →
      (model.assets.map (·.id)).idxOf asset.id = i := by
    intro i asset hget
    obtain ⟨hi, rfl⟩ := List.getElem?_eq_some_iff.mp hget
    have hindex := h.assetTree.distinct.idxOf_getElem i (by simpa using hi)
    rw [List.getElem_map] at hindex
    exact hindex
  -- the rank of an asset is its place in the template, and parents come first
  have hbatch : Forest.RootedBatch (applyModel model db).parentOf
      (fun id => ∃ asset ∈ model.assets, asset.id = id)
      ((model.assets.map (·.id)).idxOf ·) := by
    constructor
    · intro c p hc hp
      obtain ⟨_, _, _, earlier, _, _, hearlier, hid, _⟩ | ⟨hother, -⟩ := parentOf_applyModel h hp
      · exact ⟨earlier, List.mem_of_getElem? hearlier, hid⟩
      · obtain ⟨asset, hmem, hid⟩ := hc
        exact absurd hid (hother asset hmem)
    · intro c p hc hp
      obtain ⟨i, j, asset, earlier, hget, hid, hearlier, hearlierid, hlt⟩ | ⟨hother, -⟩ :=
        parentOf_applyModel h hp
      · rw [← hid, ← hearlierid, hrank i asset hget, hrank j earlier hearlier]
        exact hlt
      · obtain ⟨asset, hmem, hid⟩ := hc
        exact absurd hid (hother asset hmem)
  refine hforest.overwrite hbatch fun c hc => ?_
  have hlookup : (applyModel model db).assets.lookup c = db.assets.lookup c :=
    lookup_upsertAll_of_ne (fun asset hmem hid => hc ⟨asset, hmem, hid⟩) db.assets
  unfold Db.parentOf
  rw [hlookup]

/-! ## What a life commits

Applying a model keeps the database consistent, and so do the rows of the events and the values of
the nodes. -/

theorem consistent_applyModel {file : Option Bytes} (h : LoadedAndWired file model)
    (hdb : Consistent db) :
    Consistent (applyModel model db) ∧ Defines model (applyModel model db) := by
  have hassets : ∀ {id}, id ∈ db.assets → id ∈ (applyModel model db).assets :=
    fun hmem => (mem_upsertAll _).mpr (.inr hmem)
  have hnodes : ∀ {key}, key ∈ db.nodes → key ∈ (applyModel model db).nodes :=
    fun hmem => (mem_upsertAll _).mpr (.inr hmem)
  have hevents : ∀ {id}, id ∈ db.eventDefinitions → id ∈ (applyModel model db).eventDefinitions :=
    fun hmem => (mem_upsertAll _).mpr (.inr hmem)
  -- the rows of the model refer to rows of the model
  have hasset : ∀ asset ∈ model.assets, asset.id ∈ (applyModel model db).assets :=
    fun asset hmem => (mem_upsertAll _).mpr (.inl ⟨asset, hmem, rfl⟩)
  have hnode : ∀ node ∈ model.nodes, nodeKeyText node ∈ (applyModel model db).nodes :=
    fun node hmem => (mem_upsertAll _).mpr (.inl ⟨node, hmem, rfl⟩)
  refine ⟨{
    plants := fun id row hlookup => ?_
    parents := fun id parent hparent => ?_
    forest := forest_applyModel h hdb.forest
    nodeKeys := fun key row hlookup => ?_
    nodeAssets := fun key row hlookup => ?_
    eventAssets := fun id row hlookup => ?_
    eventSources := fun id row hlookup => ?_
    history := fun row hmem => hevents (hdb.history row hmem)
    latestValues := fun key hmem => hnodes (hdb.latestValues key hmem) },
    fun event hmem => (mem_upsertAll _).mpr (.inl ⟨event, hmem, rfl⟩), hnode⟩
  · refine (AList.mem_insert _).mpr ?_
    obtain ⟨asset, hmem, -, rfl⟩ | hold := lookup_upsertAll_cases _ hlookup
    · exact .inl rfl
    · exact .inr (hdb.plants id row hold)
  · obtain ⟨_, _, _, earlier, _, _, hearlier, rfl, _⟩ | ⟨-, hold⟩ := parentOf_applyModel h hparent
    · exact hasset earlier (List.mem_of_getElem? hearlier)
    · exact hassets (hdb.parents id parent hold)
  · obtain ⟨node, hmem, rfl, rfl⟩ | hold := lookup_upsertAll_cases _ hlookup
    · exact nodeKeyText_eq (h.wired.nodes node hmem)
    · exact hdb.nodeKeys key row hold
  · obtain ⟨node, hmem, -, rfl⟩ | hold := lookup_upsertAll_cases _ hlookup
    · obtain ⟨asset, howner, hid⟩ := h.wired.nodeAssets node hmem
      have hin := hasset asset (mem_of_assetOf howner)
      rw [hid] at hin
      exact hin
    · exact hassets (hdb.nodeAssets key row hold)
  · obtain ⟨event, hmem, -, rfl⟩ | hold := lookup_upsertAll_cases _ hlookup
    · obtain ⟨asset, hin, -, hid⟩ := h.eventAssets event hmem
      have hin := hasset asset hin
      rw [hid] at hin
      exact hin
    · exact hassets (hdb.eventAssets id row hold)
  · obtain ⟨event, hmem, -, rfl⟩ | hold := lookup_upsertAll_cases _ hlookup
    · obtain ⟨-, -, ⟨source, hsource, hkey, -⟩, -⟩ := h.identifiersAgree.events event hmem
      obtain ⟨i, -, hget⟩ := Option.bind_eq_some_iff.mp hsource
      have hin := hnode source (List.mem_of_getElem? hget)
      unfold nodeKeyText at hin
      rw [← hkey] at hin
      exact hin
    · exact hnodes (hdb.eventSources id row hold)

/-- **What a life commits is consistent with what the database holds**: the model in itself, and
alarms and values because their model was persisted first. -/
theorem consistent_keptByLife {file : Option Bytes} (h : LoadedAndWired file model) :
    KeptByLife model Consistent fun db => Consistent db ∧ Defines model db where
  configured db hdb := consistent_applyModel h hdb
  recorded event hmem value nowMs db hdb := by
    obtain ⟨hconsistent, hdefines⟩ := hdb
    refine ⟨{ hconsistent with history := fun row hrow => ?_ }, ⟨hdefines.events, hdefines.nodes⟩⟩
    rcases List.mem_append.mp hrow with hold | hnew
    · exact hconsistent.history row hold
    · rw [List.mem_singleton.mp hnew]
      exact hdefines.events event hmem
  valued current nowMs db hconfig hdb := by
    obtain ⟨hconsistent, hdefines⟩ := hdb
    refine ⟨{ hconsistent with latestValues := fun key hkey => ?_ },
      ⟨hdefines.events, hdefines.nodes⟩⟩
    rcases (mem_upsertAll _).mp hkey with ⟨node, hmem, rfl⟩ | hold
    · -- the keys do not depend on the values
      have hkeys : ∀ node ∈ current.nodes, nodeKeyText node ∈ db.nodes :=
        forall_of_config (fun _ => Iff.rfl) hconfig hdefines.nodes
      exact hkeys node hmem
    · exact hconsistent.latestValues key hold
  done _ hdb := hdb.1

/-- **The database stays consistent.** Lives with any templates, one after the other on the same
files, leave no reference without its row and no circle of assets, whatever fails in them. -/
theorem lives_consistent (lives : List Life) (disk : Disk) (path : Bytes)
    (h : Consistent (disk path).data) : Consistent (livesDisk lives disk path).data :=
  livesDisk_keeps (J := fun model db => Consistent db ∧ Defines model db) lives
    (fun _ _ _ hmodel => consistent_keptByLife hmodel) disk h

/-- A pump that shakes gives an alarm, and the plant gets another template. -/
def pumpThenTrain : List Life :=
  [{ world := { pumpWorld [[.tick { evaluateMs := 1, persistMs := 1 }]] with
        libs.modbus.readRegisters := fun _ width s => ((width, List.replicate width 1000), s) }
     options := {} },
   { world := { pumpWorld [] with files := fun _ => some trainTemplate }
     options := {} }]

/-- Two lives with different templates, the first of which leaves an alarm behind. -/
theorem pumpThenTrain_consistent :
    (livesDisk pumpThenTrain emptyDisk (lit "opcua-edge.db")).data.eventHistory.map (·.eventId) =
        [lit "high_vibration_hp1"] ∧
      Consistent (livesDisk pumpThenTrain emptyDisk (lit "opcua-edge.db")).data :=
  ⟨by decide +kernel, lives_consistent pumpThenTrain emptyDisk _ consistent_empty⟩

/-! ## Nothing is taken away

No statement of the program deletes, and an upsert keeps its key. So tables only grow, whatever
happens to a process. -/

/-- Every row is still there, with its key, and the alarms in their order. -/
structure Extends (before after : Db) : Prop where
  plants : ∀ id ∈ before.plants, id ∈ after.plants
  assets : ∀ id ∈ before.assets, id ∈ after.assets
  nodes : ∀ key ∈ before.nodes, key ∈ after.nodes
  eventDefinitions : ∀ id ∈ before.eventDefinitions, id ∈ after.eventDefinitions
  latestValues : ∀ key ∈ before.latestValues, key ∈ after.latestValues
  history : before.eventHistory <+: after.eventHistory

/-- The row of an alarm of the event. -/
def IsRecordOf (event : EdgeEvent) (row : HistoryRow) : Prop :=
  row.eventId = event.id ∧ row.threshold = event.threshold ∧ row.severity = event.severity

/-- Every row is still there, and the alarms that were added are of events of these models. -/
structure ExtendsWith (models : List EdgeModel) (before after : Db) : Prop
    extends Extends before after where
  added : ∀ row ∈ after.eventHistory.drop before.eventHistory.length,
    ∃ model ∈ models, ∃ event ∈ model.events, IsRecordOf event row

theorem ExtendsWith.refl (models : List EdgeModel) (db : Db) : ExtendsWith models db db where
  plants _ h := h
  assets _ h := h
  nodes _ h := h
  eventDefinitions _ h := h
  latestValues _ h := h
  history := List.prefix_rfl
  added row h := by simp at h

/-- The rule at work: each way in which a life changes the database extends it. -/
theorem extends_keptByLife {models : List EdgeModel} (hmodel : model ∈ models) (base : Db) :
    KeptByLife model (ExtendsWith models base) (ExtendsWith models base) where
  configured db h :=
    -- upserts keep the keys that are there, and add others
    { h with
      plants := fun id hid => (AList.mem_insert _).mpr (.inr (h.plants id hid))
      assets := fun id hid => (mem_upsertAll _).mpr (.inr (h.assets id hid))
      nodes := fun key hkey => (mem_upsertAll _).mpr (.inr (h.nodes key hkey))
      eventDefinitions := fun id hid => (mem_upsertAll _).mpr (.inr (h.eventDefinitions id hid)) }
  recorded event hmem value nowMs db h := by
    refine { h with
      history := h.history.trans (List.prefix_append _ _)
      added := fun row hrow => ?_ }
    replace hrow : row ∈ (db.eventHistory ++ [_]).drop base.eventHistory.length := hrow
    rw [List.drop_append_of_le_length h.history.length_le] at hrow
    rcases List.mem_append.mp hrow with hold | hnew
    · exact h.added row hold
    · rw [List.mem_singleton.mp hnew]
      exact ⟨model, hmodel, event, hmem, rfl, rfl, rfl⟩
  valued current nowMs db _ h :=
    { h with
      latestValues := fun key hkey => (mem_upsertAll _).mpr (.inr (h.latestValues key hkey)) }
  done _ h := h

/-- **No life takes a row away**, and the alarms it adds are those of its own template. The rows of
the other tables of the file, those of `benchmark_runs` among them, are kept as well. -/
theorem lives_extend (lives : List Life) (disk : Disk) (path : Bytes) :
    ExtendsWith (lives.map Life.model) (disk path).data (livesDisk lives disk path).data ∧
      RowsKept (disk path).schema (livesDisk lives disk path).schema := by
  constructor
  · refine livesDisk_keeps (J := fun _ => ExtendsWith (lives.map Life.model) (disk path).data)
      lives (fun life hlife _ _ => ?_) disk (.refl _ _)
    exact extends_keptByLife (List.mem_map_of_mem hlife) _
  · exact livesDisk_keepsSchema (rowsKept_keptBySchema _) lives disk (.refl _)

end OpcuaEdge
