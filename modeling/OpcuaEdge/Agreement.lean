import OpcuaEdge.AssetTree
import OpcuaEdge.StoreAtomic

/-!
# OpcuaEdge — all identifier builders agree

Six functions in three files format identifiers, some from the textual ids of a record and some
from the record a pointer leads to. On a loaded and wired model none of them is cut off by its
buffer, and the ones that name the same thing give the same text (`IdentifiersAgree`). So the keys
in the store are NodeIds of variables, and events come from the objects of assets
(`identifiers_agree`).
-/

namespace OpcuaEdge

open CStr CLoop Txn Upsert

variable {τ ρ : Type}

/-- All identifiers of a model fit, and those that are meant to be the same are. -/
structure IdentifiersAgree (model : EdgeModel) : Prop where
  plant : (makePlantNodeid model).1 = .ok
  assets : ∀ asset ∈ model.assets, (makeAssetNodeid asset).1 = .ok
  nodes : ∀ node ∈ model.nodes, (makeNodeKey node).1 = .ok ∧
    makeVariableNodeid model node = some (makeNodeKey node)
  events : ∀ event ∈ model.events,
    (makeEventSourceNodeKey event).1 = .ok ∧ (makeEventSourceNodeid event).1 = .ok ∧
      (∃ source, model.sourceOf event = some source ∧
        makeEventSourceNodeKey event = makeNodeKey source ∧
        model.assetOf source = model.eventAssetOf event) ∧
      ∃ asset ∈ model.assets, model.eventAssetOf event = some asset ∧
        makeEventSourceNodeid event = makeAssetNodeid asset

/-! ## Events and their assets

An event names its asset and its node by id. After the wiring the pointers lead to the same
records. -/

/-- Wiring points an event at the asset it names. -/
theorem LoadedAndWired.eventAssets {file : Option Bytes} {model : EdgeModel}
    (h : LoadedAndWired file model) : ∀ event ∈ model.events,
      ∃ asset ∈ model.assets, model.eventAssetOf event = some asset ∧ asset.id = event.assetId := by
  obtain ⟨loaded, hload, hwire⟩ := h
  have hwf := edgeConfigLoad_wellFormed file loaded hload
  obtain ⟨assets, hwired, hassets⟩ := edgeConfigWireRuntime_ok hwf
  cases (Prod.mk.inj (hwire.symm.trans hwired)).2
  intro event hmem
  obtain ⟨event, hevent, rfl⟩ := List.mem_map.mp hmem
  have hresolved := assetResolved_iff.mp (hwf.eventAssets event hevent)
  rw [← map_id_of_uncounted hassets, List.getElem?_map] at hresolved
  obtain ⟨asset, hget, hid⟩ := Option.map_eq_some_iff.mp hresolved
  exact ⟨asset, List.mem_of_getElem? hget, hget, hid⟩

theorem mem_of_assetOf {model : EdgeModel} {node : EdgeNode} {asset : EdgeAsset}
    (h : model.assetOf node = some asset) : asset ∈ model.assets := by
  obtain ⟨i, -, hget⟩ := Option.bind_eq_some_iff.mp h
  exact List.mem_of_getElem? hget

theorem LoadedAndWired.identifiersAgree {file : Option Bytes} {model : EdgeModel}
    (h : LoadedAndWired file model) : IdentifiersAgree model where
  plant := by rw [makePlantNodeid_eq h.assetTree]
  assets asset hmem := by rw [makeAssetNodeid_eq h.assetTree hmem]
  nodes node hmem := by
    rw [makeNodeKey_eq (h.wired.nodes node hmem), makeVariableNodeid_eq h.wired hmem]
    exact ⟨rfl, rfl⟩
  events event hmem := by
    obtain ⟨asset, hasset, hpointer, hid⟩ := h.eventAssets event hmem
    obtain ⟨source, hsource, hassetId, hsourceId⟩ := h.wired.eventSources event hmem
    obtain ⟨i, -, hget⟩ := Option.bind_eq_some_iff.mp hsource
    have hfields := h.wired.nodes source (List.mem_of_getElem? hget)
    -- the two texts are those of the source node and of the asset
    have hkey : makeEventSourceNodeKey event = makeNodeKey source := by
      unfold makeEventSourceNodeKey makeNodeKey
      rw [hassetId, hsourceId]
    have hnodeid : makeEventSourceNodeid event = makeAssetNodeid asset := by
      unfold makeEventSourceNodeid makeAssetNodeid
      rw [hid]
      rfl
    refine ⟨?_, ?_, ⟨source, hsource, hkey, ?_⟩, asset, hasset, hpointer, hnodeid⟩
    · rw [hkey, makeNodeKey_eq hfields]
    · rw [hnodeid, makeAssetNodeid_eq h.assetTree hasset]
    · -- both pointers lead to the asset with the id that node and event name
      obtain ⟨owner, howner, hownerId⟩ := h.wired.nodeAssets source (List.mem_of_getElem? hget)
      rw [howner, hpointer]
      refine congrArg some (List.inj_on_of_nodup_map h.assetTree.distinct (mem_of_assetOf howner)
        hasset ?_)
      rw [hownerId, hassetId, hid]

/-! ## Keys in the store

Every key that the process stores is the NodeId of one of its variables, so a reader of the
database can tell the node. -/

/-- A row of the store that holds a node key. -/
inductive KeyEntry where
  | node (row : NodeRow)
  | latestValue (row : LatestRow)
  | event (id : Bytes) (row : EventRow)

/-- The row is in its table and holds this key. -/
def KeyEntry.Holds (db : Db) (key : Bytes) : KeyEntry → Prop
  | .node row => db.nodes.lookup key = some row
  | .latestValue row => db.latestValues.lookup key = some row
  | .event id row => db.eventDefinitions.lookup id = some row ∧ row.sourceNodeKey = key

/-- The text is the NodeId of a variable of the model. -/
def NamesVariable (model : EdgeModel) (key : Bytes) : Prop :=
  ∃ node ∈ model.nodes, makeVariableNodeid model node = some (.ok, key)

/-- The key of a node names its variable .. -/
theorem IdentifiersAgree.namesVariable {model : EdgeModel} (h : IdentifiersAgree model)
    {node : EdgeNode} (hmem : node ∈ model.nodes) : NamesVariable model (nodeKeyText node) := by
  obtain ⟨hok, hsame⟩ := h.nodes node hmem
  exact ⟨node, hmem, hsame.trans (congrArg some (Prod.ext hok rfl))⟩

/-- .. and so does the key that an event is stored with. -/
theorem IdentifiersAgree.eventSource_namesVariable {model : EdgeModel} (h : IdentifiersAgree model)
    {event : EdgeEvent} (hmem : event ∈ model.events) :
    NamesVariable model (eventRow event).sourceNodeKey := by
  obtain ⟨-, -, ⟨source, hsource, hsame, -⟩, -⟩ := h.events event hmem
  obtain ⟨i, -, hget⟩ := Option.bind_eq_some_iff.mp hsource
  have hkey : (eventRow event).sourceNodeKey = nodeKeyText source := congrArg Prod.snd hsame
  rw [hkey]
  exact h.namesVariable (List.mem_of_getElem? hget)

/-- A row after the upserts of a model was there before, or its key is one of the model's. -/
theorem applyModel_holds {model : EdgeModel} (h : IdentifiersAgree model) {db : Db} {key : Bytes}
    {entry : KeyEntry} (hafter : entry.Holds (applyModel model db) key) :
    entry.Holds db key ∨ NamesVariable model key := by
  cases entry with
  | node row =>
    rcases lookup_upsertAll_cases _ hafter with ⟨node, hmem, rfl, -⟩ | hbefore
    · exact .inr (h.namesVariable hmem)
    · exact .inl hbefore
  | latestValue row => exact .inl hafter
  | event id row =>
    obtain ⟨hrow, rfl⟩ := hafter
    rcases lookup_upsertAll_cases _ hrow with ⟨event, hmem, -, rfl⟩ | hbefore
    · exact .inr (h.eventSource_namesVariable hmem)
    · exact .inl ⟨hbefore, rfl⟩

/-- A key of the values was there before, or names a variable. -/
theorem applyLatestValues_holds {model : EdgeModel} (h : IdentifiersAgree model) {nowMs : Nat}
    {db : Db} {key : Bytes} {entry : KeyEntry}
    (hafter : entry.Holds (applyLatestValues model nowMs db) key) :
    entry.Holds db key ∨ NamesVariable model key := by
  cases entry with
  | node row => exact .inl hafter
  | latestValue row =>
    rcases lookup_upsertAll_cases _ hafter with ⟨node, hmem, rfl, -⟩ | hbefore
    · exact .inr (h.namesVariable hmem)
    · exact .inl hbefore
  | event id row => exact .inl hafter

/-! ## Sources of events

The source of a notification is the NodeId of the event's asset, as the address space has it. -/

/-- An emission hands the server the event's notification, or nothing. -/
theorem emitOpcuaEvent_emitted (lib : UaLib ρ) (model : EdgeModel) (event : EdgeEvent)
    (server : Option (EdgeServer ρ)) :
    emittedBy (emitOpcuaEvent lib model event server).2 = emittedBy server ∨
      ∃ ns, emittedBy (emitOpcuaEvent lib model event server).2
        = emittedBy server ++ [uaEventOf model event ns] := by
  cases server with
  | none => exact .inl rfl
  | some server =>
    obtain ⟨ua, emitted⟩ := server
    cases ua with
    | none => exact .inl rfl
    | some ua =>
      -- every early return leaves the log of the server as it was
      unfold emitOpcuaEvent
      dsimp only
      split
      · exact .inl rfl
      · next ns _ =>
        split_ifs
        · exact .inl rfl
        · exact .inl rfl
        · exact .inl rfl
        · exact .inr ⟨ns, rfl⟩
        · exact .inl rfl

/-- What is emitted beyond `before` comes from the sources of the events. -/
def EmittedFrom (before : List UaEvent) (events : List EdgeEvent) (emitted : List UaEvent) : Prop :=
  ∃ new, emitted = before ++ new ∧
    ∀ n ∈ new, ∃ event ∈ events, n.source = (makeEventSourceNodeid event).2

theorem EmittedFrom.emit {lib : UaLib ρ} {model : EdgeModel} {event : EdgeEvent}
    {server : Option (EdgeServer ρ)} {before : List UaEvent} {events : List EdgeEvent}
    (hmem : event ∈ events) (active : Bool) (h : EmittedFrom before events (emittedBy server)) :
    EmittedFrom before events
      (emittedBy (emitOpcuaEvent lib model (event.setActive active) server).2) := by
  rcases emitOpcuaEvent_emitted lib model (event.setActive active) server with heq | ⟨ns, heq⟩
  · rw [heq]
    exact h
  · obtain ⟨new, hbefore, hnew⟩ := h
    refine ⟨new ++ [uaEventOf model (event.setActive active) ns], ?_, fun n hn => ?_⟩
    · rw [heq, hbefore, List.append_assoc]
    · rcases List.mem_append.mp hn with hn | hn
      · exact hnew n hn
      · rw [List.mem_singleton.mp hn]
        exact ⟨event, hmem, rfl⟩

/-- All notifications of a pass are of events of the model. -/
theorem edgeEventsEvaluate_emitted (env : EventEnv τ ρ) (nowMs : Nat) (model : EdgeModel)
    (store : Store τ) (server : Option (EdgeServer ρ)) :
    EmittedFrom (emittedBy server) model.events
      (emittedBy (edgeEventsEvaluate env nowMs model store server).server) := by
  have hstart : EmittedFrom (emittedBy server) model.events (emittedBy server) :=
    ⟨[], (List.append_nil _).symm, fun n hn => nomatch hn⟩
  refine sweep_state_mem (fun s : EvalState τ ρ =>
    EmittedFrom (emittedBy server) model.events (emittedBy s.server)) model.events
    (fun i event hmem s hs => ?_) 0 _ hstart
  obtain ⟨-, heq⟩ | ⟨-, -, heq⟩ | ⟨-, -, -, heq⟩ | ⟨-, -, -, s', rfl, heq⟩ :=
    evaluateEvent_cases env model nowMs i event s
  · rw [heq]; exact hs
  · rw [heq]; exact hs
  · rw [heq]; exact hs.emit hmem true
  · rw [heq]; exact hs.emit hmem true

/-! ## The whole

The three statements together. -/

/-- **All identifier builders agree.** Every key that persisting the model commits is the NodeId
of one of its variables, and every event is emitted from the object of one of its assets. -/
theorem identifiers_agree (file : Option Bytes) (model : EdgeModel)
    (h : LoadedAndWired file model) :
    IdentifiersAgree model ∧
      (∀ (engine : Engine τ) (store : Store τ) (call : StoreCall), PersistsModel model call →
        ∀ (entry : KeyEntry) (key : Bytes),
          entry.Holds (call.run engine store).2.conn.committed key →
            entry.Holds store.conn.committed key ∨ NamesVariable model key) ∧
      ∀ (env : EventEnv τ ρ) (nowMs : Nat) (store : Store τ) (server : Option (EdgeServer ρ)),
        ∃ new, emittedBy (edgeEventsEvaluate env nowMs model store server).server
            = emittedBy server ++ new ∧
          ∀ n ∈ new, ∃ event ∈ model.events, ∃ asset ∈ model.assets,
            model.eventAssetOf event = some asset ∧ n.source = (makeAssetNodeid asset).2 := by
  have hagree := h.identifiersAgree
  refine ⟨hagree, fun engine store call hcall entry key hafter => ?_,
    fun env nowMs store server => ?_⟩
  · -- the keys of the file change only when the call commits
    rw [run_committed] at hafter
    split_ifs at hafter
    · rcases hcall with rfl | ⟨nowMs, rfl⟩
      · exact applyModel_holds hagree hafter
      · exact applyLatestValues_holds hagree hafter
    · exact .inl hafter
  · obtain ⟨new, hemitted, hnew⟩ := edgeEventsEvaluate_emitted env nowMs model store server
    refine ⟨new, hemitted, fun n hn => ?_⟩
    obtain ⟨event, hmem, hsource⟩ := hnew n hn
    obtain ⟨-, -, -, asset, hasset, hpointer, hsame⟩ := hagree.events event hmem
    refine ⟨event, hmem, asset, hasset, hpointer, ?_⟩
    rw [hsource, hsame]

/-- The key that the pump's first node has in the store. -/
theorem pump_key_names_variable : NamesVariable pumpModel (lit "node:hp_pump_1.vibration") := by
  obtain ⟨-, hkeys, -⟩ := identifiers_agree (τ := Nat) (ρ := Unit) (some pumpTemplate) pumpModel
    pumpModel_loadedAndWired
  have hstored : ∃ row, ((StoreCall.persistModel pumpModel).run busyEngine
      (busyStore 0)).2.conn.committed.nodes.lookup (lit "node:hp_pump_1.vibration") = some row :=
    Option.isSome_iff_exists.mp (by decide +kernel)
  obtain ⟨row, hrow⟩ := hstored
  refine (hkeys busyEngine (busyStore 0) (.persistModel pumpModel) (.inl rfl) (.node row) _
    hrow).resolve_left fun hbefore => ?_
  -- the tables were empty before
  cases hbefore

end OpcuaEdge
