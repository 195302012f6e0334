import OpcuaEdge.Frame
import OpcuaEdge.Keys
import OpcuaEdge.StoreAtomic

/-!
# OpcuaEdge — latest values are restored by identity

A successful persist call is a batch of upserts into `latest_values`, one for each node, under the
node's key. A restore looks every node of the new model up by its own key. So a node gets back the
value of the last model persisted that had its key, wherever the node stood there, and a node
whose key was never persisted keeps its value (`latest_values_restored`).
-/

namespace OpcuaEdge

open CStr CLoop Txn Upsert

variable {τ : Type}

/-! ## Through `double` and back

All types are stored as a double, which holds each of their values exactly. What comes back is the
value that was stored, in the member of the node's type. -/

/-- The two values agree in the member that the data type selects. -/
def SameMember (dataType : EdgeDataType) (v w : EdgeValue) : Prop :=
  match dataType with
  | .bool => v.b = w.b
  | .int16 => v.i16 = w.i16
  | .int32 => v.i32 = w.i32
  | .uint32 => v.u32 = w.u32
  | .double => v.d = w.d
  | .unset => True

/-- A flag is 0 or 1. -/
def EdgeNode.BoolInRange (node : EdgeNode) : Prop :=
  node.dataType = .bool → node.value.b = 0 ∨ node.value.b = 1

instance (node : EdgeNode) : Decidable node.BoolInRange := inferInstanceAs (Decidable (_ → _))

/-- Converting a value to a double and back gives it again. -/
theorem edgeNodeSetFromDouble_asDouble {node source : EdgeNode}
    (htype : source.dataType = node.dataType) (hbool : source.BoolInRange) :
    SameMember node.dataType (edgeNodeSetFromDouble node (edgeNodeAsDouble source)).value
      source.value := by
  have hnat : ∀ n : Nat, Double.trunc (n : ℚ) = n := fun n => by
    rw [← Int.cast_natCast, Double.trunc_intCast]
  unfold edgeNodeAsDouble edgeNodeSetFromDouble SameMember
  rw [htype]
  -- by the data type; integers are exact, and a double comes back with its infinity if it has one
  cases hnode : node.dataType with
  | unset => trivial
  | bool =>
    rcases hbool (htype.trans hnode) with hb | hb
    · simp [hb]
    · simp [hb]
  | int16 => simp
  | int32 => simp
  | uint32 => simp [hnat]
  | double => cases source.value.d <;> simp

/-! ## A persist call is a batch of upserts

A call that succeeds has written the row of each node, so the last batch counts for each key. -/

/-- What a successful call leaves in the table. -/
theorem persistLatestValues_view {engine : Engine τ} {model : EdgeModel} {nowMs : Nat}
    {store : Store τ} (h : (edgeStorePersistLatestValues engine model nowMs store).1 = .ok) :
    (edgeStorePersistLatestValues engine model nowMs store).2.conn.view.latestValues =
      upsertAll (fun node => (makeNodeKey node).2) (latestRow nowMs) model.nodes
        store.conn.view.latestValues := by
  obtain ⟨hnone, hconn⟩ := (allOrNothing_persistLatestValues engine model nowMs store).2 h
  rw [hconn, Conn.view_outside hnone]
  rfl

/-! ## A restore is a lookup by key

A restore that is answered sets each node from the row of its key, and leaves a node without a row
alone. -/

/-- The node with the value of its row, if it has one. -/
def restoredNode (table : Table LatestRow) (node : EdgeNode) : EdgeNode :=
  match table.lookup (makeNodeKey node).2 with
  | some row => edgeNodeSetFromDouble node row.doubleValue
  | none => node

theorem quiet_restoreTurn (engine : Engine τ) (i : Nat) (node : EdgeNode) (s : Store τ) :
    s.Quiet (restoreTurn engine i node s).state :=
  restoreRow_store (P := s.Quiet) (fun select => Session.quiet_query engine select s) (.refl s)

theorem restoreTurn_of_not_refused {engine : Engine τ} {i : Nat} {node : EdgeNode} {s : Store τ}
    (hkey : (makeNodeKey node).1 = .ok) (h : ¬ s.Refused (restoreTurn engine i node s).state) :
    (restoreTurn engine i node s).exit = none ∧
      (restoreTurn engine i node s).elem = restoredNode s.conn.view.latestValues node ∧
      (restoreTurn engine i node s).state.conn = s.conn := by
  unfold restoreTurn at h ⊢
  rw [restoreRow_of_key hkey] at h ⊢
  obtain ⟨hrow, hconn⟩ := Session.query_of_not_refused h
  unfold restoredNode
  dsimp only
  rw [hrow]
  cases s.conn.view.latestValues.lookup (makeNodeKey node).2 with
  | none => exact ⟨rfl, rfl, hconn⟩
  | some row => exact ⟨rfl, rfl, hconn⟩

/-- A loop of requests that was not refused: neither was its first turn, nor the rest. -/
theorem sweep_not_refused {ρ α σ : Type} {body : Nat → α → σ → Turn ρ α σ} (session : σ → Store τ)
    (hquiet : ∀ i a s, (session s).Quiet (session (body i a s).state)) {i : Nat} {a : α}
    {rest : List α} {s : σ}
    (h : ¬ (session s).Refused (session (sweep body i (a :: rest) s).state)) :
    ¬ (session s).Refused (session (body i a s).state) ∧
      ((body i a s).exit = none →
        ¬ (session (body i a s).state).Refused
          (session (sweep body (i + 1) rest (body i a s).state).state)) := by
  -- what comes after the first turn only adds to the log
  have hlater : ∀ (i : Nat) (s : σ), (session s).Quiet (session (sweep body i rest s).state) :=
    fun i s => sweep_state (fun t => (session s).Quiet (session t))
      (fun i a t ht => ht.trans (hquiet i a t)) rest i s (.refl _)
  cases hexit : (body i a s).exit with
  | some r =>
    rw [sweep_cons_exit hexit] at h
    exact ⟨h, nofun⟩
  | none =>
    rw [sweep_cons_next hexit] at h
    exact ⟨fun hrefused => h (hrefused.before (hlater (i + 1) _).isPrefix),
      fun _ hrefused => h (hrefused.after (hquiet i a s).isPrefix)⟩

/-- All turns. Induction on the nodes; the tables do not change on the way. -/
theorem sweep_restoreTurn {engine : Engine τ} (nodes : List EdgeNode)
    (hkeys : ∀ node ∈ nodes, (makeNodeKey node).1 = .ok) :
    ∀ (i : Nat) (s : Store τ), ¬ s.Refused (sweep (restoreTurn engine) i nodes s).state →
      (sweep (restoreTurn engine) i nodes s).exit = none ∧
        (sweep (restoreTurn engine) i nodes s).elem =
          nodes.map (restoredNode s.conn.view.latestValues) := by
  induction nodes with
  | nil => intro i s _; exact ⟨rfl, rfl⟩
  | cons node rest ih =>
    intro i s h
    obtain ⟨hkey, hrest⟩ := List.forall_mem_cons.mp hkeys
    obtain ⟨hturn, hlater⟩ := sweep_not_refused (fun t : Store τ => t) (quiet_restoreTurn engine) h
    obtain ⟨hexit, helem, hconn⟩ := restoreTurn_of_not_refused hkey hturn
    rw [sweep_cons_next hexit]
    obtain ⟨hexit', helem'⟩ := ih hrest (i + 1) _ (hlater hexit)
    exact ⟨hexit', by rw [helem', helem, hconn, List.map_cons]⟩

theorem loadLatestValues_of_not_refused {engine : Engine τ} {store : Store τ} {model : EdgeModel}
    (hkeys : ∀ node ∈ model.nodes, (makeNodeKey node).1 = .ok)
    (h : ¬ store.Refused (edgeStoreLoadLatestValues engine store model).2.1) :
    (edgeStoreLoadLatestValues engine store model).1 = .ok ∧
      (edgeStoreLoadLatestValues engine store model).2.2 =
        { model with nodes := model.nodes.map (restoredNode store.conn.view.latestValues) } := by
  unfold edgeStoreLoadLatestValues at h ⊢
  simp only at h ⊢
  split_ifs at h ⊢ with hunprepared
  · exact absurd (Session.prepare_refused hunprepared) h
  · obtain ⟨hexit, helem⟩ := sweep_restoreTurn model.nodes hkeys 0 (store.prepare engine).2
      fun hrefused => h (hrefused.after (Session.quiet_prepare engine store).isPrefix)
    rw [hexit, helem]
    exact ⟨rfl, rfl⟩

/-! ## A history of persist calls and a restore

Persist calls of any templates, one after the other, and then a restore. For each key the last
value counts that any of them wrote. -/

/-- Persist calls, each with the model it found and the time it read. -/
def persistCalls (persists : List (EdgeModel × Nat)) : List StoreCall :=
  persists.map fun p => .persistLatestValues p.1 p.2

/-- The values after such a history are the upserts of its batches. -/
theorem storeAfter_latestValues {engine : Engine τ} (persists : List (EdgeModel × Nat)) :
    ∀ store : Store τ, (∀ r ∈ runCalls engine (persistCalls persists) store, r.status = .ok) →
      (storeAfter engine (persistCalls persists) store).conn.view.latestValues =
        upsertBatches (fun node => (makeNodeKey node).2) (fun p => latestRow p.2)
          (fun p => p.1.nodes) persists store.conn.view.latestValues := by
  induction persists with
  | nil => intro store _; rfl
  | cons p rest ih =>
    intro store hok
    obtain ⟨hfirst, hrest⟩ := List.forall_mem_cons.mp hok
    refine (ih _ hrest).trans ?_
    rw [show
      (StoreCall.run engine store (.persistLatestValues p.1 p.2)).2.conn.view.latestValues = _
      from persistLatestValues_view hfirst]
    rfl

/-- What a restore after these persist calls makes of node `n`: only its value may change; it is
the value of the last model that had the node's key, if just one node had it there and with the
same type; and it is as before if no model had the key. -/
structure RestoredBy (persists : List (EdgeModel × Nat)) (n n' : EdgeNode) : Prop where
  others : n' = { n with value := n'.value }
  last : ∀ pre p post node, persists = pre ++ p :: post →
    (∀ q ∈ post, ∀ node' ∈ q.1.nodes, (makeNodeKey node').2 ≠ (makeNodeKey n).2) →
    p.1.nodes.filter (fun node' => (makeNodeKey node').2 = (makeNodeKey n).2) = [node] →
    node.dataType = n.dataType → SameMember n.dataType n'.value node.value
  absent : (∀ p ∈ persists, ∀ node ∈ p.1.nodes, (makeNodeKey node).2 ≠ (makeNodeKey n).2) → n' = n

/-- What a node is restored to: the value of the last node with its key, or its own. -/
theorem restoredNode_restoredBy {persists : List (EdgeModel × Nat)}
    (hbool : ∀ p ∈ persists, ∀ node ∈ p.1.nodes, node.BoolInRange) (n : EdgeNode) :
    RestoredBy persists n (restoredNode (upsertBatches (fun node => (makeNodeKey node).2)
      (fun p => latestRow p.2) (fun p => p.1.nodes) persists ∅) n) := by
  -- the settings stay, the last persisted value wins, and a key never persisted keeps the default
  constructor
  · unfold restoredNode
    split
    · exact edgeNodeSetFromDouble_others n _
    · rfl
  · intro pre p post node hsplit hlater honly htype
    have hmem : node ∈ p.1.nodes :=
      (List.mem_filter.mp (honly ▸ List.mem_singleton_self node : node ∈ _)).1
    unfold restoredNode
    rw [hsplit, lookup_upsertBatches_of_last hlater honly]
    exact edgeNodeSetFromDouble_asDouble htype (hbool p (by rw [hsplit]; simp) node hmem)
  · intro habsent
    unfold restoredNode
    rw [lookup_upsertBatches_of_ne habsent, AList.lookup_empty]

/-- The model as the loader leaves it, before or after it is wired. -/
def FreshlyLoaded (file : Option Bytes) (model : EdgeModel) : Prop :=
  edgeConfigLoad file {} = (.ok, model) ∨ LoadedAndWired file model

theorem FreshlyLoaded.nodes {file : Option Bytes} {model : EdgeModel}
    (h : FreshlyLoaded file model) : ∀ node ∈ model.nodes, NodeFields node := by
  rcases h with hload | hwired
  · exact (edgeConfigLoad_wellFormed file model hload).nodes
  · exact hwired.wired.nodes

/-- Persist calls followed by a restore into `model`. -/
def restoreAfter (engine : Engine τ) (persists : List (EdgeModel × Nat)) (store : Store τ)
    (model : EdgeModel) : EdgeStatus × Store τ × EdgeModel :=
  edgeStoreLoadLatestValues engine (storeAfter engine (persistCalls persists) store) model

/-- **Latest values are restored by identity.** After any sequence of successful persist calls on
a store without latest values, with any models, a restore into a freshly loaded model succeeds and
changes nothing but node values, each by the node's key. SQLite is assumed to answer the requests
of the restore. -/
theorem latest_values_restored (engine : Engine τ) (store : Store τ)
    (hempty : store.conn.view.latestValues = ∅) (persists : List (EdgeModel × Nat))
    (hok : ∀ r ∈ runCalls engine (persistCalls persists) store, r.status = .ok)
    (hbool : ∀ p ∈ persists, ∀ node ∈ p.1.nodes, node.BoolInRange)
    (file : Option Bytes) (model : EdgeModel) (hmodel : FreshlyLoaded file model)
    (hanswered : ¬ (storeAfter engine (persistCalls persists) store).Refused
      (restoreAfter engine persists store model).2.1) :
    (restoreAfter engine persists store model).1 = .ok ∧
      (restoreAfter engine persists store model).2.2 =
        { model with nodes := (restoreAfter engine persists store model).2.2.nodes } ∧
      List.Forall₂ (RestoredBy persists) model.nodes
        (restoreAfter engine persists store model).2.2.nodes := by
  have hkeys : ∀ node ∈ model.nodes, (makeNodeKey node).1 = .ok := fun node hmem => by
    rw [makeNodeKey_eq (hmodel.nodes node hmem)]
  obtain ⟨hstatus, hresult⟩ := loadLatestValues_of_not_refused hkeys hanswered
  -- what the restore finds is what the snapshots have left, in a table that was empty
  rw [storeAfter_latestValues persists store hok, hempty] at hresult
  refine ⟨hstatus, ?_, ?_⟩
  · unfold restoreAfter
    rw [hresult]
  · unfold restoreAfter
    rw [hresult, List.forall₂_map_right_iff]
    exact List.forall₂_same.mpr fun node _ => restoredNode_restoredBy hbool node

/-! The pump's values are persisted, and once more with its nodes in another order. -/

/-- The pump with values. -/
def pumpRunning : EdgeModel :=
  { pumpModel with
    nodes := pumpModel.nodes.map fun node => { node with value := { b := 1, d := .fin 9 } } }

/-- Its values, persisted twice, the second time in the other order. -/
def pumpPersists : List (EdgeModel × Nat) :=
  [(pumpRunning, 1), ({ pumpRunning with nodes := pumpRunning.nodes.reverse }, 2)]

theorem pump_values_restored :
    (restoreAfter busyEngine pumpPersists (busyStore 0) pumpModel).2.2.nodes.map (·.value) =
        [{ d := .fin 9 }, { b := 1 }] ∧
      List.Forall₂ (RestoredBy pumpPersists) pumpModel.nodes
        (restoreAfter busyEngine pumpPersists (busyStore 0) pumpModel).2.2.nodes := by
  refine ⟨by decide +kernel, ?_⟩
  refine (latest_values_restored busyEngine (busyStore 0) rfl pumpPersists (by decide +kernel)
    (by decide +kernel) (some pumpTemplate) pumpModel (.inr pumpModel_loadedAndWired) ?_).2.2
  exact Session.not_refused_of_forall (by decide +kernel)

end OpcuaEdge
