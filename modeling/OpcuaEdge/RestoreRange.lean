import OpcuaEdge.LatestValues
import OpcuaEdge.Persistable

/-!
# OpcuaEdge — restored values out of range

`edge_node_set_from_double` guards against infinities and NaNs, and then assigns the double to an
`int16_t`, `int32_t` or `uint32_t`, which is undefined when the truncated number does not fit. A
restore does this with whatever `latest_values` holds under the node's key. `loggedRestore` is the
restore with a log of these assignments; all of them are in range exactly when the rows of the
integer nodes are (`restore_in_range_iff`).
-/

namespace OpcuaEdge

open CStr CLoop Txn

variable {τ : Type}

/-! ## One assignment

`edge_node_set_from_double` converts a double to the node's type by a C cast. Where the value does
not fit the type, C leaves the cast undefined. -/

/-- The least and the greatest value of the integer members. -/
def intRange : EdgeDataType → Option (Int × Int)
  | .int16 => some (-2 ^ 15, 2 ^ 15 - 1)
  | .int32 => some (-2 ^ 31, 2 ^ 31 - 1)
  | .uint32 => some (0, 2 ^ 32 - 1)
  | _ => none

/-- Assigning `d` to the member is a defined conversion. -/
def ConvertsInRange (dataType : EdgeDataType) (d : Double) : Prop :=
  match intRange dataType, d with
  | some (lo, hi), .fin q => lo ≤ Double.trunc q ∧ Double.trunc q ≤ hi
  | _, _ => True

instance (dataType : EdgeDataType) (d : Double) : Decidable (ConvertsInRange dataType d) := by
  unfold ConvertsInRange
  split <;> infer_instance

/-- What `edge_node_as_double` is to give back: the truncated number for an integer node, the
number itself for a double, 0 or 1 for a flag, and 0 for what no flag and no integer can hold. -/
def restoredDouble : EdgeDataType → Double → Double
  | .int16, .fin q => .fin (Double.trunc q)
  | .int32, .fin q => .fin (Double.trunc q)
  | .uint32, .fin q => .fin (Double.trunc q)
  | .bool, .fin q => .fin (if q = 0 then 0 else 1)
  | .double, d => d
  | _, _ => .fin 0

/-- A defined conversion gives the truncated number. -/
theorem asDouble_setFromDouble {node : EdgeNode} {d : Double}
    (h : ConvertsInRange node.dataType d) :
    edgeNodeAsDouble (edgeNodeSetFromDouble node d) = restoredDouble node.dataType d := by
  unfold ConvertsInRange at h
  unfold edgeNodeAsDouble edgeNodeSetFromDouble restoredDouble
  cases d with
  | fin q =>
    cases htype : node.dataType with
    | unset => simp [htype]
    | bool => by_cases hq : q = 0 <;> simp [hq]
    | int16 =>
      rw [htype] at h
      have hexact := BitVec.toInt_ofInt_eq_self (w := 16) (by decide) h.1 (Int.lt_of_le_sub_one h.2)
      simp [hexact]
    | int32 =>
      rw [htype] at h
      have hexact := BitVec.toInt_ofInt_eq_self (w := 32) (by decide) h.1 (Int.lt_of_le_sub_one h.2)
      simp [hexact]
    | uint32 =>
      rw [htype] at h
      have hlow : 0 ≤ Double.trunc q := h.1
      have hhigh : Double.trunc q ≤ 2 ^ 32 - 1 := h.2
      -- in its range a number survives the cast to the type and back
      have hexact : ((BitVec.ofInt 32 (Double.trunc q)).toNat : Int) = Double.trunc q := by
        rw [BitVec.toNat_ofInt]
        omega
      simp only [Double.fin.injEq]
      exact_mod_cast hexact
    | double => simp
  | inf neg => cases htype : node.dataType <;> simp
  | nan => cases htype : node.dataType <;> simp

/-- The stored numbers that an integer node can take. -/
def StoredInRange (dataType : EdgeDataType) (d : Double) : Prop :=
  match intRange dataType, d with
  | some (lo, hi), .fin q => (lo : ℚ) - 1 < q ∧ q < hi + 1
  | _, _ => True

instance (dataType : EdgeDataType) (d : Double) : Decidable (StoredInRange dataType d) := by
  unfold StoredInRange
  split <;> infer_instance

theorem intRange_signs {dataType : EdgeDataType} {lo hi : Int}
    (h : intRange dataType = some (lo, hi)) : lo ≤ 0 ∧ 0 ≤ hi := by
  cases dataType with
  | int16 | int32 | uint32 =>
    cases h
    decide
  | unset | bool | double => cases h

/-- The range in which the cast is defined, told by the value and the type alone. -/
theorem convertsInRange_iff (dataType : EdgeDataType) (d : Double) :
    ConvertsInRange dataType d ↔ StoredInRange dataType d := by
  unfold ConvertsInRange StoredInRange
  cases hrange : intRange dataType with
  | none => rfl
  | some range =>
    cases d with
    | fin q => exact Double.trunc_mem_iff (intRange_signs hrange).1 (intRange_signs hrange).2 q
    | inf neg => rfl
    | nan => rfl

/-! ## The restore with its assignments

The restore of the source, with a log of the assignments that it makes. The log is not in the
source and changes nothing. -/

/-- A call of `edge_node_set_from_double`: the type of the node, and the number. -/
abbrev SetCall := EdgeDataType × Double

/-- The call that a row leads to. -/
def setCall (node : EdgeNode) (row : LatestRow) : SetCall := (node.dataType, row.doubleValue)

/-- A turn of the restore with a log of its calls. -/
def loggedTurn (engine : Engine τ) (_ : Nat) (node : EdgeNode) (s : Store τ × List SetCall) :
    Turn EdgeStatus EdgeNode (Store τ × List SetCall) :=
  let r := restoreRow engine node s.1
  { elem := r.1.elim node fun row => edgeNodeSetFromDouble node row.doubleValue
    state := (r.2.1, s.2 ++ (r.1.map (setCall node)).toList)
    exit := r.2.2 }

/-- `edge_store_load_latest_values` and its calls of `edge_node_set_from_double`. -/
def loggedRestore (engine : Engine τ) (store : Store τ) (model : EdgeModel) :
    (EdgeStatus × Store τ × EdgeModel) × List SetCall :=
  let p := store.prepare engine
  if p.1 = false then ((.error, p.2, model), [])
  else
    let t := sweep (loggedTurn engine) 0 model.nodes (p.2, [])
    ((t.exit.getD .ok, t.state.1, { model with nodes := t.elem }), t.state.2)

/-- The log changes nothing. -/
theorem loggedTurn_restoreTurn (engine : Engine τ) (i : Nat) (node : EdgeNode)
    (s : Store τ × List SetCall) :
    (loggedTurn engine i node s).elem = (restoreTurn engine i node s.1).elem ∧
      (loggedTurn engine i node s).exit = (restoreTurn engine i node s.1).exit ∧
      (loggedTurn engine i node s).state.1 = (restoreTurn engine i node s.1).state :=
  ⟨rfl, rfl, rfl⟩

theorem loggedRestore_fst (engine : Engine τ) (store : Store τ) (model : EdgeModel) :
    (loggedRestore engine store model).1 = edgeStoreLoadLatestValues engine store model := by
  obtain ⟨helem, hexit, hstate⟩ := sweep_simulates (fun (s : Store τ × List SetCall) t => s.1 = t)
    (fun i node s t hst => hst ▸ loggedTurn_restoreTurn engine i node s)
    model.nodes 0 ((store.prepare engine).2, []) _ rfl
  unfold loggedRestore edgeStoreLoadLatestValues
  simp only
  split_ifs
  · rfl
  · rw [helem, hexit, hstate]

/-! ## What one turn does

A turn makes one assignment for the row of its node, and none if there is no row or SQLite refuses
to step to it. -/

/-- Outside a transaction a turn leaves the connection as it is; the node stays as it is, or it is
set from its row and the call is logged. -/
theorem loggedTurn_cases (engine : Engine τ) (i : Nat) (node : EdgeNode)
    {s : Store τ × List SetCall} (htxn : s.1.conn.txn = none) :
    (loggedTurn engine i node s).state.1.conn = s.1.conn ∧
      ((loggedTurn engine i node s).elem = node ∧ (loggedTurn engine i node s).state.2 = s.2 ∨
        ∃ row, s.1.conn.committed.latestValues.lookup (makeNodeKey node).2 = some row ∧
          (loggedTurn engine i node s).elem = edgeNodeSetFromDouble node row.doubleValue ∧
          (loggedTurn engine i node s).state.2 = s.2 ++ [setCall node row]) := by
  unfold loggedTurn
  by_cases hkey : (makeNodeKey node).1 = .ok
  · rw [restoreRow_of_key hkey]
    obtain ⟨hconn, hrow⟩ := Session.query_outside engine
      (fun db : Db => db.latestValues.lookup (makeNodeKey node).2) htxn
    dsimp only
    -- no row, no setter call; a row is set with its double
    cases hquery : (s.1.query engine fun db => db.latestValues.lookup (makeNodeKey node).2).1 with
    | none => exact ⟨hconn, .inl ⟨rfl, List.append_nil _⟩⟩
    | some row =>
      rw [hquery] at hrow
      exact ⟨hconn, .inr ⟨row, (hrow.resolve_left nofun).symm, rfl, rfl⟩⟩
  · have hlimit : restoreRow engine node s.1 = (none, s.1, some .limit) := if_pos hkey
    rw [hlimit]
    exact ⟨rfl, .inl ⟨rfl, List.append_nil _⟩⟩

/-- The log of a restore has only calls of nodes with a row. -/
theorem loggedRestore_log {engine : Engine τ} {store : Store τ} {model : EdgeModel}
    (htxn : store.conn.txn = none) :
    ∀ call ∈ (loggedRestore engine store model).2, ∃ node ∈ model.nodes, ∃ row,
      store.conn.committed.latestValues.lookup (makeNodeKey node).2 = some row ∧
        call = (node.dataType, row.doubleValue) := by
  unfold loggedRestore
  simp only
  split_ifs
  · exact List.forall_mem_nil _
  · refine (sweep_state_mem (fun s : Store τ × List SetCall => s.1.conn = store.conn ∧
      ∀ call ∈ s.2, ∃ node ∈ model.nodes, ∃ row,
        store.conn.committed.latestValues.lookup (makeNodeKey node).2 = some row ∧
          call = (node.dataType, row.doubleValue)) model.nodes ?_ 0 _
      ⟨rfl, List.forall_mem_nil _⟩).2
    -- one turn: its call comes from the row that the connection shows, which no turn changes
    rintro i node hmem s ⟨hconn, hlog⟩
    rw [← hconn] at htxn hlog ⊢
    obtain ⟨hsame, ⟨-, hcalls⟩ | ⟨row, hrow, -, hcalls⟩⟩ := loggedTurn_cases engine i node htxn
    · rw [hcalls]
      exact ⟨hsame, hlog⟩
    · rw [hcalls]
      refine ⟨hsame, List.forall_mem_append.mpr ⟨hlog, ?_⟩⟩
      rw [List.forall_mem_singleton]
      exact ⟨node, hmem, row, hrow, rfl⟩

/-- A restore leaves a node as it is or sets it from its row. -/
theorem restore_nodes (engine : Engine τ) {store : Store τ} {model : EdgeModel}
    (htxn : store.conn.txn = none) :
    List.Forall₂ (fun n n' => n' = n ∨ ∃ row,
        store.conn.committed.latestValues.lookup (makeNodeKey n).2 = some row ∧
          n' = edgeNodeSetFromDouble n row.doubleValue)
      model.nodes (edgeStoreLoadLatestValues engine store model).2.2.nodes := by
  -- the log is left out again at the end, it only helps to name the rows
  rw [← loggedRestore_fst]
  unfold loggedRestore
  simp only
  split_ifs
  · exact List.forall₂_same.mpr fun n _ => .inl rfl
  · refine sweep_forall₂ (fun s : Store τ × List SetCall => s.1.conn = store.conn) _
      (fun n => .inl rfl) model.nodes (fun i node _ s hconn => ?_) 0 _ rfl
    rw [← hconn] at htxn ⊢
    obtain ⟨hsame, ⟨helem, -⟩ | ⟨row, hrow, helem, -⟩⟩ := loggedTurn_cases engine i node htxn
    · exact ⟨hsame, .inl helem⟩
    · exact ⟨hsame, .inr ⟨row, hrow, helem⟩⟩

/-! ## Every row leads to a call, where SQLite answers

A refused statement only ever means fewer assignments. Where nothing was refused, the assignments
are those of the rows. -/

theorem quiet_loggedTurn (engine : Engine τ) (i : Nat) (node : EdgeNode)
    (s : Store τ × List SetCall) : s.1.Quiet (loggedTurn engine i node s).state.1 := by
  rw [(loggedTurn_restoreTurn engine i node s).2.2]
  exact quiet_restoreTurn engine i node s.1

/-- The call that `node` leads to, if it has a row. -/
def rowCalls (table : Table LatestRow) (node : EdgeNode) : List SetCall :=
  ((table.lookup (makeNodeKey node).2).map (setCall node)).toList

/-- One turn, where SQLite answers: the loop goes on, and the calls are those of the node's row. -/
theorem loggedTurn_of_not_refused {engine : Engine τ} {i : Nat} {node : EdgeNode}
    {s : Store τ × List SetCall} (hkey : (makeNodeKey node).1 = .ok)
    (h : ¬ s.1.Refused (loggedTurn engine i node s).state.1) :
    (loggedTurn engine i node s).exit = none ∧
      (loggedTurn engine i node s).state.1.conn = s.1.conn ∧
      (loggedTurn engine i node s).state.2 =
        s.2 ++ rowCalls s.1.conn.view.latestValues node := by
  unfold loggedTurn at h ⊢
  rw [restoreRow_of_key hkey] at h ⊢
  obtain ⟨hrow, hconn⟩ := Session.query_of_not_refused h
  unfold rowCalls
  dsimp only
  rw [hrow]
  exact ⟨rfl, hconn, rfl⟩

/-- The whole loop, by induction on the nodes that are left. -/
theorem sweep_loggedTurn {engine : Engine τ} (nodes : List EdgeNode)
    (hkeys : ∀ node ∈ nodes, (makeNodeKey node).1 = .ok) :
    ∀ (i : Nat) (s : Store τ × List SetCall),
      ¬ s.1.Refused (sweep (loggedTurn engine) i nodes s).state.1 →
        (sweep (loggedTurn engine) i nodes s).state.2 =
          s.2 ++ nodes.flatMap (rowCalls s.1.conn.view.latestValues) := by
  induction nodes with
  | nil => intro i s _; exact (List.append_nil _).symm
  | cons node rest ih =>
    intro i s h
    obtain ⟨hkey, hrest⟩ := List.forall_mem_cons.mp hkeys
    obtain ⟨hturn, hlater⟩ := sweep_not_refused Prod.fst (quiet_loggedTurn engine) h
    obtain ⟨hexit, hconn, hcalls⟩ := loggedTurn_of_not_refused hkey hturn
    rw [sweep_cons_next hexit]
    dsimp only
    rw [ih hrest (i + 1) _ (hlater hexit), hcalls, hconn, List.flatMap_cons, List.append_assoc]

theorem loggedRestore_of_not_refused {engine : Engine τ} {store : Store τ} {model : EdgeModel}
    (hkeys : ∀ node ∈ model.nodes, (makeNodeKey node).1 = .ok)
    (h : ¬ store.Refused (edgeStoreLoadLatestValues engine store model).2.1) :
    (loggedRestore engine store model).2 =
      model.nodes.flatMap (rowCalls store.conn.view.latestValues) := by
  rw [← loggedRestore_fst] at h
  unfold loggedRestore at h ⊢
  simp only at h ⊢
  split_ifs at h ⊢ with hunprepared
  · exact absurd (Session.prepare_refused hunprepared) h
  · exact sweep_loggedTurn model.nodes hkeys 0 ((store.prepare engine).2, [])
      fun hrefused => h (hrefused.after (Session.quiet_prepare engine store).isPrefix)

/-! ## Restores in range

So whether a restore stays in range can be told from the rows that it finds. -/

/-- Every conversion of the restore is defined, and every restored node holds the truncated number
of its row or the fallback. -/
structure RestoresInRange (engine : Engine τ) (store : Store τ) (model : EdgeModel) : Prop where
  conversions : ∀ call ∈ (loggedRestore engine store model).2, ConvertsInRange call.1 call.2
  values : List.Forall₂ (fun n n' => n' = n ∨ ∃ row,
      store.conn.committed.latestValues.lookup (keyText n.assetId n.id) = some row ∧
        edgeNodeAsDouble n' = restoredDouble n.dataType row.doubleValue)
    model.nodes (edgeStoreLoadLatestValues engine store model).2.2.nodes

/-- The table has no number under the key of an integer node that the node cannot take. -/
def RowsInRange (table : Table LatestRow) (model : EdgeModel) : Prop :=
  ∀ node ∈ model.nodes, ∀ row ∈ table.lookup (keyText node.assetId node.id),
    StoredInRange node.dataType row.doubleValue

instance (table : Table LatestRow) (model : EdgeModel) : Decidable (RowsInRange table model) :=
  inferInstanceAs (Decidable (∀ node ∈ model.nodes, ∀ row ∈ table.lookup _, StoredInRange _ _))

/-- **Restoring converts in range exactly when the rows of the integer nodes are in range.** -/
theorem restore_in_range_iff (engine : Engine τ) (store : Store τ) (htxn : store.conn.txn = none)
    (file : Option Bytes) (model : EdgeModel) (hmodel : FreshlyLoaded file model) :
    (RowsInRange store.conn.committed.latestValues model → RestoresInRange engine store model) ∧
      (¬ store.Refused (edgeStoreLoadLatestValues engine store model).2.1 →
        RestoresInRange engine store model →
        RowsInRange store.conn.committed.latestValues model) := by
  have hkey : ∀ node ∈ model.nodes,
      makeNodeKey node = (.ok, keyText node.assetId node.id) :=
    fun node hmem => makeNodeKey_eq (hmodel.nodes node hmem)
  refine ⟨fun hrows => ⟨fun call hcall => ?_, ?_⟩, fun hanswered h node hmem row hrow => ?_⟩
  · obtain ⟨node, hmem, row, hrow, rfl⟩ := loggedRestore_log htxn call hcall
    rw [hkey node hmem] at hrow
    exact (convertsInRange_iff _ _).mpr (hrows node hmem row hrow)
  · have hnodes := (List.forall₂_and_left model.nodes _).mpr
      ⟨fun node hmem => And.intro (hkey node hmem) (hrows node hmem), restore_nodes engine htxn⟩
    refine hnodes.imp fun n n' ⟨⟨hn, hrange⟩, hset⟩ => hset.imp_right ?_
    rintro ⟨row, hrow, rfl⟩
    rw [hn] at hrow
    exact ⟨row, hrow, asDouble_setFromDouble ((convertsInRange_iff _ _).mpr (hrange row hrow))⟩
  · -- nothing was refused, so the row in question led to a call
    have hlog := loggedRestore_of_not_refused (fun node hmem => by rw [hkey node hmem]) hanswered
    have hcall : (node.dataType, row.doubleValue) ∈ (loggedRestore engine store model).2 := by
      rw [hlog, List.mem_flatMap]
      refine ⟨node, hmem, ?_⟩
      unfold rowCalls
      rw [hkey node hmem, Conn.view_outside htxn, hrow]
      exact List.mem_singleton_self _
    exact (convertsInRange_iff _ _).mp (h.conversions _ hcall)

/-! An earlier template made the level an `int32`; the next one makes it an `int16`. -/

/-- The database after the earlier run persisted the level. -/
def levelStore (level : BitVec 32) : Store Unit :=
  (edgeStorePersistLatestValues willingEngine
    { setpointModel with
      nodes := setpointModel.nodes.map fun node =>
        { node with dataType := .int32, value := { i32 := level } } } 1 freshStore).2

theorem level_restored_in_range : RestoresInRange willingEngine (levelStore 1200) setpointModel :=
  (restore_in_range_iff willingEngine (levelStore 1200) rfl (some setpointTemplate) setpointModel
    (.inr setpointModel_loadedAndWired)).1 (by decide +kernel)

/-- A level of 40000 is not, though the template is accepted. -/
theorem level_restored_out_of_range :
    FreshlyLoaded (some setpointTemplate) setpointModel ∧
      ¬ RestoresInRange willingEngine (levelStore 40000) setpointModel := by
  refine ⟨.inr setpointModel_loadedAndWired, fun h => ?_⟩
  have hcall : (EdgeDataType.int16, Double.fin 40000) ∈
      (loggedRestore willingEngine (levelStore 40000) setpointModel).2 := by decide +kernel
  exact absurd (h.conversions _ hcall) (by decide +kernel)

end OpcuaEdge
