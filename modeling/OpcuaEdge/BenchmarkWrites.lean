import OpcuaEdge.AddressSpace
import OpcuaEdge.Benchmark

/-!
# OpcuaEdge — the writes scenario (`edge_benchmark_run_writes`)

The scenario looks the namespace up, asks for its memory and makes the NodeIds of all nodes; where
one of these fails it returns at once. A pass then writes every writable node once, in order, each
write through the server: a boolean alternates from node to node and from pass to pass, every other
node is written its own value as a double. A node that holds neither a boolean nor a double refuses
what it is written, and the scenario counts that as an error (`writes_scenario_measures`).

open62541 and the allocator are a parameter (`BenchServer`). Writing on the server reaches the write
callback of the node with that NodeId, and the callback changes the model: what the library does to
the nodes is part of its answer, and `Dispatches` says that it is what the callback does.
-/

namespace OpcuaEdge

open CStr CLoop Scatter

variable {κ υ : Type}

/-! ## Preparing

What comes before the clock is read for the first time: the namespace, three allocations and the
table of NodeIds. Each of them may end the scenario. -/

/-- The calls that the scenario makes, with their answers. A write says whether its status was good,
and what has become of the nodes. -/
structure BenchServer (υ : Type) where
  getNamespaceByName : υ → Option Nat × υ
  calloc : υ → Bool × υ
  nodeIdStringAlloc : Bytes → υ → Bool × υ
  writeValue : UaNodeId → UaVariant → List EdgeNode → υ → Bool × List EdgeNode × υ

/-- `prepare_namespace`. An index that does not fit 16 bits is an error. -/
def prepareNamespace (lib : BenchServer υ) (ua : υ) : (EdgeStatus × UInt16) × υ :=
  let r := lib.getNamespaceByName ua
  match r.1 with
  | none => ((.error, 0), r.2)
  | some ns => if 65535 < ns then ((.error, 0), r.2) else ((.ok, ns.toUInt16), r.2)

/-- The NodeId of one node. `none` as status stands for the crash on a null `node->asset`. -/
def buildNodeId (lib : BenchServer υ) (ns : UInt16) (model : EdgeModel) (_ : Nat) (node : EdgeNode)
    (s : List UaNodeId × υ) : (List UaNodeId × υ) × Option (Option EdgeStatus) :=
  match makeVariableNodeid model node with
  | none => (s, some none)
  | some text =>
    if text.1 ≠ .ok then (s, some (some .limit))
    else
      let r := lib.nodeIdStringAlloc text.2 s.2
      if r.1 = false then ((s.1, r.2), some (some .error))
      else ((s.1 ++ [.string ns text.2], r.2), none)

/-- `build_node_id_table`. The first failure ends it. -/
def buildNodeIdTable (lib : BenchServer υ) (ns : UInt16) (model : EdgeModel) (ua : υ) :
    Option EdgeStatus × List UaNodeId × υ :=
  let t := visit (buildNodeId lib ns model) 0 model.nodes ([], ua)
  (t.2.getD (some .ok), t.1)

/-- The part of `edge_benchmark_run_writes` before its loop. -/
def prepareWrites (lib : BenchServer υ) (model : EdgeModel) (ua : υ) :
    Option EdgeStatus × List UaNodeId × υ :=
  let ns := prepareNamespace lib ua
  if ns.1.1 ≠ .ok then (some .error, [], ns.2)
  else
    let nodeIds := lib.calloc ns.2
    let indexes := lib.calloc nodeIds.2
    let samples := lib.calloc indexes.2
    -- what was allocated is only looked at after all three
    if nodeIds.1 = false ∨ indexes.1 = false ∨ samples.1 = false then (some .error, [], samples.2)
    else buildNodeIdTable lib ns.1.2 model samples.2

/-! ## One pass

A pass writes every writable node once, in the order of the table, and counts the writes that were
not answered with a good status. -/

/-- The loop that fills `writable_indexes`. -/
def writableIndexes (nodes : List EdgeNode) : List Nat :=
  (nodes.zipIdx.filter fun p => p.1.writable).map Prod.snd

/-- The payload of the `k`-th write of a pass. -/
def benchPayload (passCount : UInt64) (k : Nat) (node : EdgeNode) : UaVariant :=
  if node.dataType = .bool then .boolean (passCount + .ofNat k &&& 1 ≠ 0) else .double node.value.d

/-- What the passes of the scenario carry along. -/
structure WritesWorld (υ : Type) where
  nodes : List EdgeNode
  ua : υ
  errorCount : UInt64 := 0

/-- The write of one node: its index, and its place in the pass. -/
def benchWrite (lib : BenchServer υ) (ids : List UaNodeId) (passCount : UInt64) (w : WritesWorld υ)
    (write : Nat × Nat) : WritesWorld υ :=
  match w.nodes[write.1]?, ids[write.1]? with
  | some node, some id =>
    let r := lib.writeValue id (benchPayload passCount write.2 node) w.nodes w.ua
    { nodes := r.2.1, ua := r.2.2, errorCount := w.errorCount + if r.1 = false then 1 else 0 }
  -- the indexes are those of the model's nodes, and the table has an entry for each
  | _, _ => w

/-- A pass never fails: what goes wrong in it is counted. -/
def writesPass (lib : BenchServer υ) (ids : List UaNodeId) (indexes : List Nat) (passCount : UInt64)
    (clock : κ) (w : WritesWorld υ) : EdgeStatus × κ × WritesWorld υ :=
  (.ok, clock, indexes.zipIdx.foldl (benchWrite lib ids passCount) w)

/-- What `edge_benchmark_run_writes` fills in after its loop. -/
def writesResult (clk : BenchClock κ) (clock : κ) (model : EdgeModel)
    (last : BenchLoop κ (WritesWorld υ)) : EdgeBenchmarkResult :=
  let writable := (writableIndexes model.nodes).length
  let duration := (clk.nowUs last.clock).1 - (clk.nowUs clock).1
  { name := (formatInto edgeBenchmarkNameLen
      (lit "write_" ++ decimal writable ++ lit "_writable")).2
    tagCount := model.nodes.length
    assetCount := model.assets.length
    eventCount := model.events.length
    durationUs := duration
    writesPerSecond := perSecond (last.passCount * .ofNat writable) duration
    errorCount := last.world.errorCount }

/-- `edge_benchmark_run_writes`, as the runs it can make. Without a writable node there is no
pass. -/
def EdgeBenchmarkRunWrites (lib : BenchServer υ) (clk : BenchClock κ) (seconds : UInt32) (clock : κ)
    (model : EdgeModel) (ua : υ) (visited : List (BenchLoop κ (WritesWorld υ)))
    (status : EdgeStatus) (last : BenchLoop κ (WritesWorld υ)) (result : EdgeBenchmarkResult) :
    Prop :=
  let prepared := prepareWrites lib model ua
  let world : WritesWorld υ := { nodes := model.nodes, ua := prepared.2.2 }
  if prepared.1 = some .ok then
    TimedRun clk seconds (fun _ => !(writableIndexes model.nodes).isEmpty)
        (writesPass lib prepared.2.1 (writableIndexes model.nodes)) clock world visited status
        last ∧
      result = writesResult clk clock model last
  else prepared.1 = some status ∧ visited = [] ∧ last = { clock, world }

/-- The server passes a write to the callback of the node that the NodeId names, and returns its
status. The table is that of the nodes, in their order. -/
def BenchServer.Dispatches (lib : BenchServer υ) (ids : List UaNodeId) : Prop :=
  ∀ i id, ids[i]? = some id → ∀ value nodes ua node, nodes[i]? = some node →
    node.writable = true →
      (lib.writeValue id value nodes ua).1 =
          decide ((writeEdgeNode node (some value)).1 = .good) ∧
        (lib.writeValue id value nodes ua).2.1 = nodes.set i (writeEdgeNode node (some value)).2

/-! ## Writes, one by one and together

A write changes no type and no access, so which writes are refused can be told from the template,
and a pass is a loop over nodes that are all different. -/

/-- What the `k`-th write of a pass makes of its node. -/
def benchWritten (passCount : UInt64) (k : Nat) (node : EdgeNode) : EdgeNode :=
  (writeEdgeNode node (some (benchPayload passCount k node))).2

/-- A writable node that takes neither a boolean nor a double. -/
def mistyped (node : EdgeNode) : Bool := node.dataType ≠ .bool && node.dataType ≠ .double

/-- A writable node refuses its payload exactly if it takes neither a boolean nor a double. -/
theorem writeEdgeNode_bench {node : EdgeNode} (h : node.writable = true) (passCount : UInt64)
    (k : Nat) :
    (writeEdgeNode node (some (benchPayload passCount k node))).1 ≠ .good ↔
      mistyped node = true := by
  unfold writeEdgeNode benchPayload mistyped
  rw [h]
  cases node.dataType <;> simp

/-- A later write leaves nothing of an earlier one. -/
theorem benchWritten_again (passCount later : UInt64) (k : Nat) (node : EdgeNode) :
    benchWritten later k (benchWritten passCount k node) = benchWritten later k node := by
  unfold benchWritten writeEdgeNode benchPayload
  cases hwritable : node.writable with
  | false => simp [hwritable]
  | true => cases htype : node.dataType <;> simp [hwritable, htype]

/-- What no write changes of a node. -/
def EdgeNode.access (node : EdgeNode) : EdgeDataType × Bool := (node.dataType, node.writable)

theorem benchWritten_access (passCount : UInt64) (k : Nat) (node : EdgeNode) :
    (benchWritten passCount k node).access = node.access := by
  unfold benchWritten writeEdgeNode
  split
  · rfl
  · rfl
  · split <;> rfl

theorem mistyped_of_access {a b : EdgeNode} (h : a.access = b.access) :
    mistyped a = mistyped b := by
  unfold mistyped
  rw [show a.dataType = b.dataType from congrArg Prod.fst h]

section Dispatched

variable {lib : BenchServer υ} {ids : List UaNodeId}

/-- **One write**: the server hands it to the node, and counts it where the node refuses it. -/
theorem benchWrite_dispatched (hlib : lib.Dispatches ids) (passCount : UInt64) {w : WritesWorld υ}
    {write : Nat × Nat} {node : EdgeNode} {id : UaNodeId}
    (hnode : w.nodes[write.1]? = some node) (hid : ids[write.1]? = some id)
    (hwritable : node.writable = true) :
    (benchWrite lib ids passCount w write).nodes =
        w.nodes.modify write.1 (benchWritten passCount write.2) ∧
      (benchWrite lib ids passCount w write).errorCount =
        w.errorCount + if mistyped node then 1 else 0 := by
  obtain ⟨hstatus, hnodes⟩ := hlib write.1 id hid (benchPayload passCount write.2 node) w.nodes
    w.ua node hnode hwritable
  unfold benchWrite
  rw [hnode, hid]
  constructor
  · refine hnodes.trans (List.ext_getElem? fun j => ?_)
    -- the server sets the entry of the node, which is to modify it by what the write makes of it
    by_cases hj : write.1 = j
    · subst hj
      rw [List.getElem?_modify_eq, hnode]
      exact List.getElem?_set_self (List.getElem?_eq_some_iff.mp hnode).1
    · rw [List.getElem?_modify_ne _ _ hj]
      exact List.getElem?_set_ne hj
  · refine congrArg (w.errorCount + ·) (if_congr ?_ rfl rfl)
    rw [hstatus, decide_eq_false_iff_not]
    exact writeEdgeNode_bench hwritable passCount write.2

/-- The writes of a pass, by induction on them: the nodes are rewritten one after the other, and
there is one error for each mistyped node. -/
theorem foldl_benchWrite (hlib : lib.Dispatches ids) (passCount : UInt64) {nodes : List EdgeNode}
    (hids : ids.length = nodes.length) (writes : List (Nat × Nat)) :
    ∀ w : WritesWorld υ, w.nodes.map EdgeNode.access = nodes.map EdgeNode.access →
      (∀ write ∈ writes, ∃ node, nodes[write.1]? = some node ∧ node.writable = true) →
      (writes.foldl (benchWrite lib ids passCount) w).nodes =
          scatter (fun write => some write.1) (fun write => benchWritten passCount write.2) writes
            w.nodes ∧
        (writes.foldl (benchWrite lib ids passCount) w).errorCount = w.errorCount +
          .ofNat (writes.countP fun write => (nodes[write.1]?.map mistyped).getD false) := by
  induction writes with
  | nil => intro w _ _; exact ⟨rfl, (UInt64.add_zero _).symm⟩
  | cons write rest ih =>
    intro w hsame hwrites
    obtain ⟨⟨node, hnode, hwritable⟩, hrest⟩ := List.forall_mem_cons.mp hwrites
    -- the node in its present state, with the type and the access of the template's
    have hget := congrArg (·[write.1]?) hsame
    simp only [List.getElem?_map, hnode, Option.map_some] at hget
    obtain ⟨node', hnode', haccess⟩ := Option.map_eq_some_iff.mp hget
    have hlt : write.1 < ids.length := by
      rw [hids]
      exact (List.getElem?_eq_some_iff.mp hnode).1
    obtain ⟨hnodes, herror⟩ := benchWrite_dispatched hlib passCount hnode'
      (List.getElem?_eq_getElem hlt) ((congrArg Prod.snd haccess).trans hwritable)
    rw [mistyped_of_access haccess] at herror
    have hlater : (benchWrite lib ids passCount w write).nodes.map EdgeNode.access =
        nodes.map EdgeNode.access := by
      rw [hnodes, map_modify (benchWritten_access passCount write.2), hsame]
    obtain ⟨hnodes', herrors⟩ := ih _ hlater hrest
    rw [List.foldl_cons]
    constructor
    · rw [hnodes', hnodes]
      rfl
    · rw [herrors, herror, List.countP_cons, hnode, Option.map_some, Option.getD_some,
        UInt64.ofNat_add, UInt64.add_assoc, UInt64.add_comm (if mistyped node = true then 1 else 0)]
      split_ifs <;> rfl

end Dispatched

/-! ## All passes

The places of the writable nodes are all different, and each node is in the place that the template
gave it. -/

/-- An index is in the list if its node is writable. -/
theorem mem_writableIndexes {nodes : List EdgeNode} {i : Nat} :
    i ∈ writableIndexes nodes ↔ ∃ node, nodes[i]? = some node ∧ node.writable = true := by
  unfold writableIndexes
  constructor
  · intro h
    obtain ⟨⟨node, j⟩, hmem, rfl⟩ := List.mem_map.mp h
    obtain ⟨hzip, hwritable⟩ := List.mem_filter.mp hmem
    exact ⟨node, List.mem_zipIdx_iff_getElem?.mp hzip, hwritable⟩
  · rintro ⟨node, hnode, hwritable⟩
    exact List.mem_map.mpr ⟨(node, i),
      List.mem_filter.mpr ⟨List.mem_zipIdx_iff_getElem?.mpr hnode, hwritable⟩, rfl⟩

theorem nodup_writableIndexes (nodes : List EdgeNode) : (writableIndexes nodes).Nodup := by
  have hindexes : (nodes.zipIdx.map Prod.snd).Nodup := by
    rw [List.zipIdx_map_snd]
    exact List.nodup_range'
  exact hindexes.sublist (List.filter_sublist.map Prod.snd)

/-- A pass writes to each writable node once. -/
theorem writes_targets (nodes : List EdgeNode) :
    (writableIndexes nodes).zipIdx.filterMap (fun write => some write.1) =
      writableIndexes nodes := by
  rw [congrFun List.filterMap_eq_map' _, List.zipIdx_map_fst]

/-- The refused writes of a pass, counted in the template. -/
theorem countP_writes (nodes : List EdgeNode) :
    ((writableIndexes nodes).zipIdx.countP fun write =>
        (nodes[write.1]?.map mistyped).getD false) =
      nodes.countP fun node => mistyped node && node.writable := by
  -- count by place first, then at the nodes in these places
  have hplaces : (writableIndexes nodes).zipIdx.countP (fun write =>
        (nodes[write.1]?.map mistyped).getD false) =
      (writableIndexes nodes).countP fun i => (nodes[i]?.map mistyped).getD false := by
    conv_rhs => rw [← List.zipIdx_map_fst 0 (writableIndexes nodes), List.countP_map]
    rfl
  have hfound : nodes.zipIdx.countP (fun p =>
        (nodes[p.2]?.map mistyped).getD false && p.1.writable) =
      nodes.zipIdx.countP ((fun node => mistyped node && node.writable) ∘ Prod.fst) := by
    refine List.countP_congr fun p hp => ?_
    rw [List.mem_zipIdx_iff_getElem?.mp hp]
    exact Iff.rfl
  rw [hplaces, writableIndexes, List.countP_map, List.countP_filter]
  refine hfound.trans ?_
  rw [← List.countP_map, List.zipIdx_map_fst]

/-- What `passes` passes make of the node that is the `k`-th to be written: the last one counts. -/
def writtenAfter (passes k : Nat) (node : EdgeNode) : EdgeNode :=
  match passes with
  | 0 => node
  | p + 1 => benchWritten (.ofNat p) k node

/-- The world of the scenario after the passes `before`. -/
structure Written (nodes : List EdgeNode) (before : List (BenchLoop κ (WritesWorld υ)))
    (w : WritesWorld υ) : Prop where
  access : w.nodes.map EdgeNode.access = nodes.map EdgeNode.access
  written : ∀ k i, (writableIndexes nodes)[k]? = some i →
    w.nodes[i]? = nodes[i]?.map (writtenAfter before.length k)
  others : ∀ i, i ∉ writableIndexes nodes → w.nodes[i]? = nodes[i]?
  errors : w.errorCount =
    .ofNat (before.length * nodes.countP fun node => mistyped node && node.writable)

theorem written_start (nodes : List EdgeNode) (ua : υ) :
    Written nodes ([] : List (BenchLoop κ (WritesWorld υ))) { nodes, ua } where
  access := rfl
  written k i _ := (congrFun Option.map_id _).symm
  others i _ := rfl
  errors := by rw [List.length_nil, Nat.zero_mul]; rfl

/-- **One pass** over the plant, with the passes before it at hand. -/
theorem Written.pass {lib : BenchServer υ} {ids : List UaNodeId} (hlib : lib.Dispatches ids)
    {nodes : List EdgeNode} (hids : ids.length = nodes.length)
    {before : List (BenchLoop κ (WritesWorld υ))} {s : BenchLoop κ (WritesWorld υ)}
    (h : Written nodes before s.world) (hcount : s.passCount = .ofNat before.length) (clock : κ) :
    Written nodes (before ++ [s])
      (writesPass lib ids (writableIndexes nodes) s.passCount clock s.world).2.2 := by
  have hlength : (before ++ [s]).length = before.length + 1 := by
    rw [List.length_append, List.length_singleton]
  obtain ⟨hnodes, herrors⟩ := foldl_benchWrite hlib s.passCount hids
    (writableIndexes nodes).zipIdx s.world h.access (fun write hwrite => mem_writableIndexes.mp
      (List.mem_of_getElem? (List.mem_zipIdx_iff_getElem?.mp hwrite)))
  have hnodes : (writesPass lib ids (writableIndexes nodes) s.passCount clock s.world).2.2.nodes =
    _ := hnodes
  constructor
  · rw [hnodes, ← h.access]
    exact map_scatter EdgeNode.access
      (fun (write : Nat × Nat) => benchWritten_access s.passCount write.2) _ _
  · intro k i hk
    have htarget : (scatter (fun write : Nat × Nat => some write.1)
        (fun write => benchWritten s.passCount write.2) (writableIndexes nodes).zipIdx
        s.world.nodes)[i]? = s.world.nodes[i]?.map (benchWritten s.passCount k) :=
      scatter_target (b := (i, k)) rfl _ _
        (by rw [writes_targets]; exact nodup_writableIndexes nodes)
        (List.mem_zipIdx_iff_getElem?.mpr hk)
    rw [hnodes, htarget, h.written k i hk, Option.map_map, hlength, hcount]
    refine congrArg (Option.map · nodes[i]?) (funext fun node => ?_)
    -- a pass overwrites what the passes before it wrote
    show benchWritten (.ofNat before.length) k (writtenAfter before.length k node) =
      benchWritten (.ofNat before.length) k node
    cases before.length with
    | zero => rfl
    | succ p => exact benchWritten_again (.ofNat p) (.ofNat (p + 1)) k node
  · intro i hi
    have hother : ∀ write ∈ (writableIndexes nodes).zipIdx, some write.1 ≠ some i := by
      rintro write hwrite hsame
      apply hi
      rw [← Option.some.inj hsame]
      exact List.mem_of_getElem? (List.mem_zipIdx_iff_getElem?.mp hwrite)
    rw [hnodes, scatter_other _ _ hother]
    exact h.others i hi
  · refine herrors.trans ?_
    rw [countP_writes, h.errors, hlength, Nat.succ_mul, UInt64.ofNat_add]

/-! ## The table of NodeIds

The table has the NodeId of every node at the node's own index, or there is no table. -/

section Prepared

variable {lib : BenchServer υ} {ns : UInt16} {model : EdgeModel}

/-- A turn that goes on has added one NodeId. -/
theorem buildNodeId_next {i : Nat} {node : EdgeNode} {s : List UaNodeId × υ}
    (h : (buildNodeId lib ns model i node s).2 = none) :
    (buildNodeId lib ns model i node s).1.1.length = s.1.length + 1 := by
  unfold buildNodeId at h ⊢
  cases htext : makeVariableNodeid model node with
  | none => rw [htext] at h; cases h
  | some text =>
    rw [htext] at h
    dsimp only at h ⊢
    split_ifs at h ⊢
    · rw [List.length_append, List.length_singleton]

/-- The table has an entry for each node. -/
theorem length_buildNodeIds (nodes : List EdgeNode) :
    ∀ (i : Nat) (s : List UaNodeId × υ), (visit (buildNodeId lib ns model) i nodes s).2 = none →
      (visit (buildNodeId lib ns model) i nodes s).1.1.length = s.1.length + nodes.length := by
  induction nodes with
  | nil => intro i s _; rfl
  | cons node rest ih =>
    intro i s h
    cases hturn : (buildNodeId lib ns model i node s).2 with
    | some status => rw [visit_cons_exit hturn] at h; cases h
    | none =>
      rw [visit_cons_next hturn] at h ⊢
      rw [ih _ _ h, buildNodeId_next hturn, List.length_cons]
      omega

/-- A turn that leaves the loop, at a node that is wired, leaves it with an error. -/
theorem buildNodeId_exit {i : Nat} {node : EdgeNode} (hwired : (model.assetOf node).isSome)
    {s : List UaNodeId × υ} {r : Option EdgeStatus}
    (h : (buildNodeId lib ns model i node s).2 = some r) : ∃ rc, r = some rc ∧ rc ≠ .ok := by
  obtain ⟨asset, hasset⟩ := Option.isSome_iff_exists.mp hwired
  unfold buildNodeId makeVariableNodeid at h
  rw [hasset, Option.map_some] at h
  dsimp only at h
  split_ifs at h
  · cases h
    exact ⟨.limit, rfl, by decide⟩
  · cases h
    exact ⟨.error, rfl, by decide⟩

/-- The table of a wired plant is complete, or there is an error. -/
theorem buildNodeIdTable_status (lib : BenchServer υ) (ns : UInt16)
    (hwired : ∀ node ∈ model.nodes, (model.assetOf node).isSome) (ua : υ) :
    ∃ rc, (buildNodeIdTable lib ns model ua).1 = some rc ∧
      (rc = .ok → (buildNodeIdTable lib ns model ua).2.1.length = model.nodes.length) := by
  unfold buildNodeIdTable
  dsimp only
  cases hexit : (visit (buildNodeId lib ns model) 0 model.nodes ([], ua)).2 with
  | none =>
    refine ⟨.ok, rfl, fun _ => ?_⟩
    rw [length_buildNodeIds model.nodes 0 _ hexit]
    exact Nat.zero_add _
  | some r =>
    obtain ⟨rc, rfl, hrc⟩ := visit_exit_mem
      (fun r : Option EdgeStatus => ∃ rc, r = some rc ∧ rc ≠ .ok) model.nodes
      (fun i node hmem s r => buildNodeId_exit (hwired node hmem)) 0 ([], ua) r hexit
    exact ⟨rc, rfl, fun hok => absurd hok hrc⟩

/-- The preparation of a wired plant ends with a status, and with a NodeId for each node where that
is OK. -/
theorem prepareWrites_status (lib : BenchServer υ)
    (hwired : ∀ node ∈ model.nodes, (model.assetOf node).isSome) (ua : υ) :
    ∃ rc, (prepareWrites lib model ua).1 = some rc ∧
      (rc = .ok → (prepareWrites lib model ua).2.1.length = model.nodes.length) := by
  unfold prepareWrites
  dsimp only
  split_ifs
  · exact ⟨.error, rfl, nofun⟩
  · exact ⟨.error, rfl, nofun⟩
  · exact buildNodeIdTable_status lib _ hwired _

end Prepared

/-! ## The scenario

Together: the scenario ends, every pass writes every writable node, and the errors are the writes
to mistyped nodes. -/

/-- What the scenario has measured when it ended well: the errors of its passes, the nodes it wrote
and those it did not. -/
structure WritesMeasured (model : EdgeModel) (visited : List (BenchLoop κ (WritesWorld υ)))
    (last : BenchLoop κ (WritesWorld υ)) (result : EdgeBenchmarkResult) : Prop where
  errors : result.errorCount = .ofNat (visited.length *
    model.nodes.countP fun node => mistyped node && node.writable)
  written : ∀ k i, (writableIndexes model.nodes)[k]? = some i →
    last.world.nodes[i]? = model.nodes[i]?.map (writtenAfter visited.length k)
  others : ∀ i, i ∉ writableIndexes model.nodes → last.world.nodes[i]? = model.nodes[i]?
  rate : result.writesPerSecond =
    perSecond (.ofNat (visited.length * (writableIndexes model.nodes).length)) result.durationUs

/-- Where the preparations succeed, the scenario is its loop. -/
theorem edgeBenchmarkRunWrites_entered {lib : BenchServer υ} {clk : BenchClock κ} {seconds : UInt32}
    {clock : κ} {model : EdgeModel} {ua : υ} {visited : List (BenchLoop κ (WritesWorld υ))}
    {status : EdgeStatus} {last : BenchLoop κ (WritesWorld υ)} {result : EdgeBenchmarkResult}
    (h : (prepareWrites lib model ua).1 = some .ok) :
    EdgeBenchmarkRunWrites lib clk seconds clock model ua visited status last result ↔
      TimedRun clk seconds (fun _ => !(writableIndexes model.nodes).isEmpty)
          (writesPass lib (prepareWrites lib model ua).2.1 (writableIndexes model.nodes)) clock
          { nodes := model.nodes, ua := (prepareWrites lib model ua).2.2 } visited status last ∧
        result = writesResult clk clock model last := by
  unfold EdgeBenchmarkRunWrites
  dsimp only
  rw [if_pos h]

/-- Where they fail, it returns what they failed with. -/
theorem edgeBenchmarkRunWrites_returned {lib : BenchServer υ} {clk : BenchClock κ}
    {seconds : UInt32} {clock : κ} {model : EdgeModel} {ua : υ}
    {visited : List (BenchLoop κ (WritesWorld υ))} {status : EdgeStatus}
    {last : BenchLoop κ (WritesWorld υ)} {result : EdgeBenchmarkResult}
    (h : (prepareWrites lib model ua).1 ≠ some .ok) :
    EdgeBenchmarkRunWrites lib clk seconds clock model ua visited status last result ↔
      (prepareWrites lib model ua).1 = some status ∧ visited = [] ∧
        last =
          { clock, world := { nodes := model.nodes, ua := (prepareWrites lib model ua).2.2 } } := by
  unfold EdgeBenchmarkRunWrites
  dsimp only
  rw [if_neg h]

/-- **What the writes scenario measures.** On any plant that is wired, and with a clock that reaches
the deadline, the scenario ends, with the status of its preparation. If that is an error there was
no pass and no node was touched. If it is OK and the server passes each write to the callback of the
node it names, each pass has one error for each writable node that takes neither a boolean nor a
double; what the last pass wrote is what the writable nodes hold, and the other nodes are as they
were. -/
theorem writes_scenario_measures (lib : BenchServer υ) (clk : BenchClock κ) (seconds : UInt32)
    (clock : κ) (hclock : clk.Reaches ((clk.nowUs clock).1 + seconds.toUInt64 * 1000000))
    (model : EdgeModel) (hwired : ∀ node ∈ model.nodes, (model.assetOf node).isSome) (ua : υ) :
    (∃ visited status last result,
        EdgeBenchmarkRunWrites lib clk seconds clock model ua visited status last result) ∧
      ∀ visited status last result,
        EdgeBenchmarkRunWrites lib clk seconds clock model ua visited status last result →
          (prepareWrites lib model ua).1 = some status ∧
            (status ≠ .ok → visited = [] ∧ last.world.nodes = model.nodes) ∧
            (status = .ok → lib.Dispatches (prepareWrites lib model ua).2.1 →
              WritesMeasured model visited last result) := by
  obtain ⟨rc, hrc, htable⟩ := prepareWrites_status lib hwired ua
  by_cases hok : rc = .ok
  · subst hok
    -- the loop is entered
    have hpass : ∀ left : κ → Nat, (∀ c, left (clk.nowUs c).2 ≤ left c) →
        (∀ c, left (clk.nowMs c).2 ≤ left c) → ∀ k c (w : WritesWorld υ),
        left (writesPass lib (prepareWrites lib model ua).2.1 (writableIndexes model.nodes) k c
          w).2.1 ≤ left c :=
      fun left _ _ k c w => Nat.le_refl _
    constructor
    · obtain ⟨visited, status, last, hrun⟩ := exists_timedRun hclock hpass
        { nodes := model.nodes, ua := (prepareWrites lib model ua).2.2 }
      exact ⟨visited, status, last, writesResult clk clock model last,
        (edgeBenchmarkRunWrites_entered hrc).mpr ⟨hrun, rfl⟩⟩
    · rintro visited status last result hruns
      obtain ⟨hrun, rfl⟩ := (edgeBenchmarkRunWrites_entered hrc).mp hruns
      obtain ⟨hstatus, -⟩ := TimedRun.keeps hrun (fun _ _ => True) trivial
        (fun before s _ _ => ⟨rfl, trivial⟩)
      subst hstatus
      refine ⟨hrc, fun hnot => absurd rfl hnot, fun _ hlib => ?_⟩
      obtain ⟨-, hend, hpasses⟩ := TimedRun.keeps hrun (Written model.nodes)
        (written_start model.nodes _)
        (fun before s hs hcount => ⟨rfl, hs.pass hlib (htable rfl) hcount _⟩)
      refine ⟨hend.errors, hend.written, hend.others, ?_⟩
      rw [UInt64.ofNat_mul, ← hpasses]
      rfl
  · -- the scenario has returned before its loop
    have hnot : (prepareWrites lib model ua).1 ≠ some .ok := by
      rw [hrc]
      exact fun h => hok (Option.some.inj h)
    constructor
    · exact ⟨[], rc, _, {}, (edgeBenchmarkRunWrites_returned hnot).mpr ⟨hrc, rfl, rfl⟩⟩
    · rintro visited status last result hruns
      obtain ⟨hstatus, rfl, rfl⟩ := (edgeBenchmarkRunWrites_returned hnot).mp hruns
      refine ⟨hstatus, fun _ => ⟨rfl, rfl⟩, fun hgood => ?_⟩
      rw [hgood] at hstatus
      exact absurd hstatus hnot

/-- A server with these NodeIds that does what it is asked: it finds the node of a NodeId and calls
its write callback. -/
def benchServer (ids : List UaNodeId) : BenchServer Unit where
  getNamespaceByName _ := (some 1, ())
  calloc _ := (true, ())
  nodeIdStringAlloc _ _ := (true, ())
  writeValue id value nodes _ :=
    match nodes[ids.idxOf id]? with
    | none => (false, nodes, ())
    | some node =>
      let r := writeEdgeNode node (some value)
      (decide (r.1 = UaStatusCode.good), nodes.set (ids.idxOf id) r.2, ())

/-- Where no two NodeIds are the same, each write gets to its node. -/
theorem benchServer_dispatches {ids : List UaNodeId} (h : ids.Nodup) :
    (benchServer ids).Dispatches ids := by
  intro i id hid value nodes ua node hnode _
  obtain ⟨hlt, rfl⟩ := List.getElem?_eq_some_iff.mp hid
  unfold benchServer
  dsimp only
  rw [h.idxOf_getElem i hlt, hnode]
  exact ⟨rfl, rfl⟩

/-- The NodeIds of three pumps. -/
def threePumpIds : List UaNodeId :=
  (prepareWrites (benchServer []) (syntheticPlant false 3) ()).2.1

/-- Three pumps behind a server with their NodeIds. -/
theorem three_pumps_written :
    (∃ visited status last result, EdgeBenchmarkRunWrites (benchServer threePumpIds) benchClock 2 0
        (syntheticPlant false 3) () visited status last result) ∧
      ∀ visited status last result, EdgeBenchmarkRunWrites (benchServer threePumpIds) benchClock 2 0
          (syntheticPlant false 3) () visited status last result →
        status = .ok ∧ WritesMeasured (syntheticPlant false 3) visited last result := by
  obtain ⟨hwired, hok, hids, hnodup⟩ :
      (∀ node ∈ (syntheticPlant false 3).nodes,
        ((syntheticPlant false 3).assetOf node).isSome) ∧
      (prepareWrites (benchServer threePumpIds) (syntheticPlant false 3) ()).1 = some .ok ∧
      (prepareWrites (benchServer threePumpIds) (syntheticPlant false 3) ()).2.1 = threePumpIds ∧
      threePumpIds.Nodup := by decide +kernel
  obtain ⟨hends, hruns⟩ := writes_scenario_measures (benchServer threePumpIds) benchClock 2 0
    benchClock_reaches (syntheticPlant false 3) hwired ()
  refine ⟨hends, fun visited status last result hrun => ?_⟩
  obtain ⟨hstatus, -, hmeasured⟩ := hruns visited status last result hrun
  -- the status is the one prepare_namespace and the table gave, here OK
  have hgood : status = .ok := Option.some.inj (hstatus.symm.trans hok)
  refine ⟨hgood, hmeasured hgood ?_⟩
  rw [hids]
  exact benchServer_dispatches hnodup

end OpcuaEdge
