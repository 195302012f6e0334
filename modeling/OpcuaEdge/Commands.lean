import OpcuaEdge.Drain
import OpcuaEdge.Wiring

/-!
# OpcuaEdge — commands on their way to the PLC

A client's write is a command: it is acknowledged at once, waits in the node's value with
`pending_write` set, and is written to the PLC by the next tick. The invariant `PendingInv` ties
the pending flags to the acknowledgements since the last tick; every run from startup keeps it
(`run_pendingInv`). Two results rest on it:

* the register writes of a tick are those of acknowledged commands, each sent once and with the
  latest value (`registerWrites_from_acknowledged`);
* no acknowledged command is lost as long as every write-back is delivered, and only then
  (`commands_accounted_iff`): the drain clears `pending_write` without looking at the status of
  the write.
-/

namespace OpcuaEdge

open CStr CLoop Txn

variable {σ τ ρ : Type}

/-! ## Reading a trace

What the runtime shows to the outside, in order: answers to clients, writebacks, and ticks. What is
pending can be told from the part since the last tick. -/

/-- The observations after the last tick. -/
def sinceTick (tr : List Obs) : List Obs :=
  tr.foldl (fun acc o => if o = .ticked then [] else acc ++ [o]) []

/-- The values acknowledged for node `i`, in order. -/
def ackedValues (i : Nat) (tr : List Obs) : List UaVariant :=
  tr.filterMap fun
    | .answered j (some v) .good => if j = i then some v else none
    | _ => none

/-- The writebacks of a trace. -/
def writeBacksOf (tr : List Obs) : List WriteBack :=
  tr.filterMap fun
    | .writeBack w => some w
    | _ => none

theorem sinceTick_concat (tr : List Obs) (o : Obs) :
    sinceTick (tr ++ [o]) = if o = .ticked then [] else sinceTick tr ++ [o] := by
  unfold sinceTick
  rw [List.foldl_append]
  rfl

@[simp] theorem sinceTick_ticked (tr : List Obs) : sinceTick (tr ++ [.ticked]) = [] := by
  rw [sinceTick_concat, if_pos rfl]

/-- Observations without a tick belong to the part that was begun. -/
theorem sinceTick_append {l : List Obs} (h : .ticked ∉ l) (tr : List Obs) :
    sinceTick (tr ++ l) = sinceTick tr ++ l := by
  induction l using List.reverseRecOn with
  | nil => simp
  | append_singleton l o ih =>
    simp only [List.mem_append, List.mem_singleton, not_or] at h
    rw [← List.append_assoc, sinceTick_concat, if_neg (Ne.symm h.2), ih h.1, List.append_assoc]

/-- The part since the last tick is the end of the trace. -/
theorem sinceTick_suffix (tr : List Obs) : ∃ before, tr = before ++ sinceTick tr := by
  induction tr using List.reverseRecOn with
  | nil => exact ⟨[], rfl⟩
  | append_singleton tr o ih =>
    obtain ⟨before, hbefore⟩ := ih
    rw [sinceTick_concat]
    split_ifs
    · exact ⟨tr ++ [o], by simp⟩
    · refine ⟨before, ?_⟩
      rw [← List.append_assoc, ← hbefore]

@[simp] theorem ackedValues_append (i : Nat) (a b : List Obs) :
    ackedValues i (a ++ b) = ackedValues i a ++ ackedValues i b :=
  List.filterMap_append

@[simp] theorem ackedValues_writeBacks (i : Nat) (ws : List WriteBack) :
    ackedValues i (ws.map .writeBack) = [] := by
  simp [ackedValues, List.filterMap_map]

/-- A write that was refused is not among the acknowledged ones. -/
theorem ackedValues_refused {status : UaStatusCode} (h : status ≠ .good) (i j : Nat)
    (value : Option UaVariant) : ackedValues i [.answered j value status] = [] := by
  unfold ackedValues
  cases value <;> cases status <;> simp_all

@[simp] theorem ackedValues_good (i j : Nat) (v : UaVariant) :
    ackedValues i [.answered j (some v) .good] = if j = i then [v] else [] := by
  unfold ackedValues
  split_ifs with h <;> simp [h]

theorem mem_of_ackedValues {i : Nat} {v : UaVariant} {tr : List Obs} (h : v ∈ ackedValues i tr) :
    .answered i (some v) .good ∈ tr := by
  obtain ⟨o, ho, hv⟩ := List.mem_filterMap.mp h
  cases o with
  | answered j value status =>
    cases value <;> cases status <;> simp_all
  | writeBack w => cases hv
  | ticked => cases hv

@[simp] theorem writeBacksOf_append (a b : List Obs) :
    writeBacksOf (a ++ b) = writeBacksOf a ++ writeBacksOf b :=
  List.filterMap_append

@[simp] theorem writeBacksOf_map (ws : List WriteBack) :
    writeBacksOf (ws.map .writeBack) = ws := by
  simp [writeBacksOf, List.filterMap_map]

/-! ## What one step does

A write changes one node and is answered; a tick makes writebacks and is noted. No other step is
observed. -/

/-- The three outcomes of a client's write: no such node, refused, acknowledged. -/
theorem runStep_write_cases (libs : Libs σ τ ρ) (rt : EdgeRuntime σ τ ρ) (i : Nat)
    (value : Option UaVariant) :
    runStep libs rt (.write i value) = (rt, []) ∨
      (∃ status, status ≠ .good ∧
        runStep libs rt (.write i value) = (rt, [.answered i value status])) ∨
      ∃ node node' v, rt.model.nodes[i]? = some node ∧ node.writable = true ∧
        node'.config = node.config ∧ node'.pendingWrite = true ∧ readEdgeNode node' = v ∧
        runStep libs rt (.write i value) =
          ({ rt with model.nodes := rt.model.nodes.set i node' },
            [.answered i (some v) .good]) := by
  -- a write that names no node reaches no callback
  cases hget : rt.model.nodes[i]? with
  | none => exact .inl (by simp only [runStep, hget])
  | some node =>
    obtain ⟨v, rfl, hwritable, hgood, hpending, hread⟩ | ⟨hrefused, hsame⟩ :=
      writeEdgeNode_cases node value
    · refine .inr (.inr ⟨node, _, v, rfl, hwritable, writeEdgeNode_config node _, hpending,
        hread, ?_⟩)
      simp only [runStep, hget, hgood]
    · refine .inr (.inl ⟨_, hrefused, ?_⟩)
      obtain ⟨hlt, rfl⟩ := List.getElem?_eq_some_iff.mp hget
      simp only [runStep, hget, hsame, List.set_getElem_self]

theorem runFrom_append (libs : Libs σ τ ρ) (a b : List RunOp) :
    ∀ st, runFrom libs (a ++ b) st = runFrom libs b (runFrom libs a st) := by
  induction a with
  | nil => intro st; rfl
  | cons op rest ih => intro st; exact ih _

theorem run_concat (libs : Libs σ τ ρ) (ops : List RunOp) (op : RunOp) (rt : EdgeRuntime σ τ ρ) :
    run libs (ops ++ [op]) rt =
      ((runStep libs (run libs ops rt).1 op).1,
        (run libs ops rt).2 ++ (runStep libs (run libs ops rt).1 op).2) :=
  runFrom_append libs ops [op] _

/-- What holds at the start of a run and is kept by every step holds after it. -/
theorem run_induction (libs : Libs σ τ ρ) (rt : EdgeRuntime σ τ ρ)
    (Inv : EdgeRuntime σ τ ρ → List Obs → Prop) (hinit : Inv rt [])
    (hstep : ∀ rt tr op, Inv rt tr → Inv (runStep libs rt op).1 (tr ++ (runStep libs rt op).2))
    (ops : List RunOp) : Inv (run libs ops rt).1 (run libs ops rt).2 := by
  induction ops using List.reverseRecOn with
  | nil => exact hinit
  | append_singleton ops op ih => rw [run_concat]; exact hstep _ _ op ih

/-! ## The invariant

A node waits to be written back exactly if a write to it was acknowledged since the last tick, and
then it holds the last acknowledged value. -/

/-- A pending node is writable and shows the latest value acknowledged since the last tick, a
node with an acknowledged value is pending, and no write-back happened since then. -/
structure PendingInv (rt : EdgeRuntime σ τ ρ) (tr : List Obs) : Prop where
  pending : ∀ i node, rt.model.nodes[i]? = some node → node.pendingWrite = true →
    node.writable = true ∧ (ackedValues i (sinceTick tr)).getLast? = some (readEdgeNode node)
  acked : ∀ i, ackedValues i (sinceTick tr) ≠ [] →
    ∃ node, rt.model.nodes[i]? = some node ∧ node.pendingWrite = true
  answersOnly : ∀ w, .writeBack w ∉ sinceTick tr

/-- Only writable nodes are pending. -/
theorem PendingInv.writable {rt : EdgeRuntime σ τ ρ} {tr : List Obs} (h : PendingInv rt tr) :
    ∀ node ∈ rt.model.nodes, node.pendingWrite = true → node.writable = true := by
  intro node hmem hpending
  obtain ⟨i, hget⟩ := List.mem_iff_getElem?.mp hmem
  exact (h.pending i node hget hpending).1

theorem pendingInv_of_none_pending {rt : EdgeRuntime σ τ ρ} {tr : List Obs}
    (hnone : ∀ node ∈ rt.model.nodes, node.pendingWrite = false) (htr : sinceTick tr = []) :
    PendingInv rt tr where
  pending i node hget hpending := by
    rw [hnone node (List.mem_of_getElem? hget)] at hpending
    cases hpending
  acked i hacked := by rw [htr] at hacked; exact absurd rfl hacked
  answersOnly w hmem := by rw [htr] at hmem; cases hmem

theorem runStep_pendingInv {libs : Libs σ τ ρ} {rt : EdgeRuntime σ τ ρ} {tr : List Obs}
    (h : PendingInv rt tr) (op : RunOp) :
    PendingInv (runStep libs rt op).1 (tr ++ (runStep libs rt op).2) := by
  cases op with
  | write i value =>
    obtain hstep | ⟨status, hstatus, hstep⟩ | ⟨node, node', v, hget, hwritable, hconfig, hpending,
      hread, hstep⟩ := runStep_write_cases libs rt i value
    · rw [hstep, List.append_nil]; exact h
    · -- a refused write adds no acknowledgement
      rw [hstep]
      have hsame : ∀ j, ackedValues j (sinceTick (tr ++ [.answered i value status])) =
          ackedValues j (sinceTick tr) := by
        intro j
        rw [sinceTick_append (by simp), ackedValues_append, ackedValues_refused hstatus,
          List.append_nil]
      refine ⟨fun j node hj hpend => ?_, fun j hacked => ?_, fun w hmem => ?_⟩
      · rw [hsame]; exact h.pending j node hj hpend
      · rw [hsame] at hacked; exact h.acked j hacked
      · rw [sinceTick_append (by simp)] at hmem
        exact h.answersOnly w (by simpa using hmem)
    · -- an acknowledged write makes its node pending and touches no other
      rw [hstep]
      have hwritable' : node'.writable = true :=
        (EdgeNode.config_congr _ (fun _ => rfl) hconfig).trans hwritable
      have hlt := (List.getElem?_eq_some_iff.mp hget).1
      refine ⟨fun j other hj hpend => ?_, fun j hacked => ?_, fun w hmem => ?_⟩
      · rw [sinceTick_append (by simp), ackedValues_append, ackedValues_good]
        rw [List.getElem?_set] at hj
        split_ifs at hj with hij
        · -- the node just written shows the value just acknowledged
          cases hj
          subst hij
          rw [if_pos rfl, List.getLast?_concat, hread]
          exact ⟨hwritable', rfl⟩
        · rw [if_neg hij, List.append_nil]
          exact h.pending j other hj hpend
      · rw [sinceTick_append (by simp), ackedValues_append, ackedValues_good] at hacked
        by_cases hij : i = j
        · subst hij
          exact ⟨node', by simp [hlt], hpending⟩
        · rw [if_neg hij, List.append_nil] at hacked
          obtain ⟨other, hother, hpend⟩ := h.acked j hacked
          exact ⟨other, by simpa [List.getElem?_set_ne hij] using hother, hpend⟩
      · rw [sinceTick_append (by simp)] at hmem
        exact h.answersOnly w (by simpa using hmem)
  | tick clock =>
    -- the drain clears every flag, and the observations since the tick are none
    refine pendingInv_of_none_pending
      (edgeRuntimeTick_pendingWrite libs clock h.writable) ?_
    rw [runStep, ← List.append_assoc, sinceTick_ticked]

/-- **The invariant holds in every state a run reaches.** -/
theorem run_pendingInv (libs : Libs σ τ ρ) {rt : EdgeRuntime σ τ ρ}
    (hnone : ∀ node ∈ rt.model.nodes, node.pendingWrite = false) (ops : List RunOp) :
    PendingInv (run libs ops rt).1 (run libs ops rt).2 :=
  run_induction libs rt PendingInv (pendingInv_of_none_pending hnone rfl)
    (fun _ _ op h => runStep_pendingInv h op) ops

/-! ## The pump, with a PLC that answers or refuses the connection -/

/-- Libraries for examples. The device answers everything, or refuses the connection. -/
def pumpLibs (connects : Bool) : Libs Unit Unit Unit where
  modbus :=
    { nowUs := fun s => (1000000, s)
      newTcp := fun _ _ s => (true, s)
      connect := fun s => (connects, s)
      setSlave := fun _ s => (true, s)
      readRegisters := fun _ width s => ((width, List.replicate width 0), s)
      writeRegister := fun _ _ s => (1, s)
      writeRegisters := fun _ values s => (values.length, s)
      close := id
      free := id }
  events :=
    { engine := { answer := fun _ s => (.ok, s) }
      lib :=
        { getNamespaceByName := fun s => (some 1, s)
          setScalar := fun s => (true, s)
          createEvent := fun _ s => (true, s) } }

/-- The runtime of the pump before its first tick. -/
def pumpRuntime : EdgeRuntime Unit Unit Unit where
  server := none
  model := pumpModel
  store := { conn := { committed := {} }, env := () }
  bus := { modbus := (edgeModbusInit (some (lit "127.0.0.1")) 502).2, env := () }
  persistEveryNTicks := 1

/-- It is that of a loaded template. -/
theorem pumpRuntime_started : LoadedAndWired (some pumpTemplate) pumpRuntime.model := by
  simp only [pumpRuntime]
  exact pumpModel_loadedAndWired

theorem pumpRuntime_enabled : pumpRuntime.bus.modbus.enabled = true := by decide +kernel

/-- A client starts the pump, then the tick comes. -/
def startPump : List RunOp :=
  [.write 1 (some (.boolean true)), .tick { evaluateMs := 1, persistMs := 1 }]

/-! ## Register writes come from acknowledged commands

From the bus backwards: a register write belongs to a writeback, a writeback to a pending node, and
a pending node to an acknowledged command. -/

/-- The bus of a run has made the register writes of the run's write-backs and no others. -/
theorem run_busStep (libs : Libs σ τ ρ) (rt : EdgeRuntime σ τ ρ) (ops : List RunOp) :
    BusStep ((writeBacksOf (run libs ops rt).2).flatMap fun w => registerWrites w.calls)
      rt.bus (run libs ops rt).1.bus := by
  refine run_induction libs rt
    (fun rt' tr => BusStep ((writeBacksOf tr).flatMap fun w : WriteBack => registerWrites w.calls)
      rt.bus rt'.bus) (BusStep.refl rt.bus) (fun rt' tr op h => ?_) ops
  cases op with
  | write i value =>
    -- a client's write does nothing on the bus
    obtain hstep | ⟨_, _, hstep⟩ | ⟨_, _, _, _, _, _, _, _, hstep⟩ :=
      runStep_write_cases libs rt' i value
    · rw [hstep, List.append_nil]; exact h
    all_goals
      rw [hstep, writeBacksOf_append, show writeBacksOf [_] = [] from rfl, List.append_nil]
      exact h
  | tick clock =>
    -- a tick drains, and its poll writes no register
    have hdrain := drain_step libs.modbus rt'.bus rt'.model.nodes
    have hpoll := edgeModbusPoll_step libs.modbus
      (drainPendingWrites libs.modbus rt'.bus rt'.model.nodes).state.bus
      (drainPendingWrites libs.modbus rt'.bus rt'.model.nodes).elem
    rw [runStep, writeBacksOf_append, writeBacksOf_append, writeBacksOf_map,
      show writeBacksOf [.ticked] = [] from rfl, List.append_nil, List.flatMap_append]
    exact h.trans (hdrain.then_nil hpoll)

/-- A step leaves the configuration .. -/
theorem runStep_config (libs : Libs σ τ ρ) (rt : EdgeRuntime σ τ ρ) (op : RunOp) :
    (runStep libs rt op).1.model.nodes.map EdgeNode.config =
      rt.model.nodes.map EdgeNode.config := by
  cases op with
  | write i value =>
    obtain hstep | ⟨_, _, hstep⟩ | ⟨node, node', _, hget, _, hconfig, _, _, hstep⟩ :=
      runStep_write_cases libs rt i value
    · rw [hstep]
    · rw [hstep]
    · rw [hstep]
      obtain ⟨hlt, rfl⟩ := List.getElem?_eq_some_iff.mp hget
      rw [List.map_set, hconfig, ← List.getElem_map EdgeNode.config]
      · exact List.set_getElem_self _
      · simpa using hlt
  | tick clock => exact edgeRuntimeTick_config libs clock rt

/-- .. and so does a run. -/
theorem run_config (libs : Libs σ τ ρ) (rt : EdgeRuntime σ τ ρ) (ops : List RunOp) :
    (run libs ops rt).1.model.nodes.map EdgeNode.config = rt.model.nodes.map EdgeNode.config :=
  run_induction libs rt
    (fun rt' _ => rt'.model.nodes.map EdgeNode.config = rt.model.nodes.map EdgeNode.config) rfl
    (fun rt' _ op h => (runStep_config libs rt' op).trans h) ops

/-- The write-back `w`, made after the observations `before`, carries out a command: it is for
a writable node of the model, the first for this node since the last tick, and sends the latest
value acknowledged for it since then. -/
structure CarriesCommand (nodes : List EdgeNode) (before : List Obs) (w : WriteBack) : Prop where
  node : ∃ node, nodes[w.index]? = some node ∧ w.node.config = node.config
  writable : w.node.writable = true
  once : ∀ w', .writeBack w' ∈ sinceTick before → w'.index ≠ w.index
  latest : (ackedValues w.index (sinceTick before)).getLast? = some (readEdgeNode w.node)
  registers : w.SendsPacked

/-- An element of `a ++ b` lies in `b` or in `a`. -/
theorem split_append {α : Type} {a b pre post : List α} {x : α} (h : a ++ b = pre ++ x :: post) :
    (∃ mid, pre = a ++ mid ∧ b = mid ++ x :: post) ∨
      ∃ mid, a = pre ++ x :: mid ∧ post = mid ++ b := by
  obtain ⟨mid, hpre, hb⟩ | ⟨mid, ha, hx⟩ := List.append_eq_append_iff.mp h
  · exact .inl ⟨mid, hpre, hb⟩
  · cases mid with
    | nil =>
      rw [List.append_nil] at ha
      exact .inl ⟨[], by rw [ha, List.append_nil], hx.symm⟩
    | cons y mid =>
      cases hx
      exact .inr ⟨mid, ha, rfl⟩

/-- A write-back observed in a tick splits the tick's write-backs. -/
theorem split_tick {ws : List WriteBack} {pre post : List Obs} {w : WriteBack}
    (h : ws.map .writeBack ++ [.ticked] = pre ++ .writeBack w :: post) :
    ∃ before after, ws = before ++ w :: after ∧ pre = before.map .writeBack := by
  obtain ⟨mid, _, hb⟩ | ⟨mid, hws, _⟩ := split_append h
  · cases mid with
    | nil => cases hb
    | cons y mid => cases mid <;> cases hb
  · obtain ⟨before, rest, rfl, hpre, hrest⟩ := List.map_eq_append_iff.mp hws
    obtain ⟨w', after, rfl, hw, _⟩ := List.map_eq_cons_iff.mp hrest
    cases hw
    exact ⟨before, after, rfl, hpre.symm⟩

/-- A writeback of a tick carries the command that its node was waiting with. -/
theorem tick_carriesCommand {libs : Libs σ τ ρ} {rt : EdgeRuntime σ τ ρ} {tr : List Obs}
    (h : PendingInv rt tr) {before after : List WriteBack} {w : WriteBack}
    (hws : (drainPendingWrites libs.modbus rt.bus rt.model.nodes).state.writeBacks =
      before ++ w :: after) :
    CarriesCommand rt.model.nodes (tr ++ before.map .writeBack) w := by
  have hmem : w ∈ (drainPendingWrites libs.modbus rt.bus rt.model.nodes).state.writeBacks := by
    rw [hws]; simp
  obtain ⟨hget, hwritable, hpending⟩ := mem_writeBacks hmem
  have hsince : sinceTick (tr ++ before.map .writeBack) =
      sinceTick tr ++ before.map .writeBack := sinceTick_append (by simp) tr
  refine ⟨⟨w.node, hget, rfl⟩, hwritable, fun w' hw' => ?_, ?_, drain_registers _ _ _ w hmem⟩
  · -- no write-back since the last tick but those of this drain, one for each node
    rw [hsince, List.mem_append] at hw'
    rcases hw' with hold | hnew
    · exact absurd hold (h.answersOnly w')
    · have hnodup := writeBacks_nodup libs.modbus rt.bus rt.model.nodes
      rw [hws, List.map_append, List.map_cons, List.nodup_append] at hnodup
      have hbefore : w' ∈ before := by simpa using hnew
      exact hnodup.2.2 _ (List.mem_map_of_mem hbefore) _ List.mem_cons_self
  · rw [hsince, ackedValues_append, ackedValues_writeBacks, List.append_nil]
    exact (h.pending w.index w.node hget hpending).2

theorem CarriesCommand.congr {nodes nodes' : List EdgeNode} {before : List Obs} {w : WriteBack}
    (hconfig : nodes.map EdgeNode.config = nodes'.map EdgeNode.config)
    (h : CarriesCommand nodes before w) : CarriesCommand nodes' before w := by
  obtain ⟨node, hget, hnode⟩ := h.node
  have hmap := congrArg (·[w.index]?) hconfig
  simp only [List.getElem?_map, hget, Option.map_some] at hmap
  obtain ⟨node', hget', hnode'⟩ := Option.map_eq_some_iff.mp hmap.symm
  exact { h with node := ⟨node', hget', hnode.trans hnode'.symm⟩ }

/-- Every write-back of a run carries out a command. -/
theorem run_carriesCommand (libs : Libs σ τ ρ) {rt : EdgeRuntime σ τ ρ}
    (hnone : ∀ node ∈ rt.model.nodes, node.pendingWrite = false) (ops : List RunOp) :
    ∀ pre w post, (run libs ops rt).2 = pre ++ .writeBack w :: post →
      CarriesCommand rt.model.nodes pre w := by
  induction ops using List.reverseRecOn with
  | nil => intro pre w post h; cases pre <;> cases h
  | append_singleton ops op ih =>
    intro pre w post h
    rw [run_concat] at h
    obtain ⟨mid, hpre, hnew⟩ | ⟨mid, hold, _⟩ := split_append h
    · -- the write-back is one of the last step, which is then a tick
      cases op with
      | write i value =>
        obtain hstep | ⟨_, _, hstep⟩ | ⟨_, _, _, _, _, _, _, _, hstep⟩ :=
          runStep_write_cases libs (run libs ops rt).1 i value
        all_goals
          rw [hstep] at hnew
          cases mid with
          | nil => cases hnew
          | cons y mid => cases mid <;> cases hnew
      | tick clock =>
        obtain ⟨before, after, hws, rfl⟩ := split_tick hnew
        rw [hpre]
        exact (tick_carriesCommand (run_pendingInv libs hnone ops) hws).congr
          (run_config libs rt ops)
    · exact ih pre w mid hold

theorem LoadedAndWired.none_pending {file : Option Bytes} {model : EdgeModel}
    (h : LoadedAndWired file model) : ∀ node ∈ model.nodes, node.pendingWrite = false :=
  fun node hmem => (h.wired.nodes node hmem).pendingWrite

/-- Restoring values makes no write pending. -/
theorem restored_none_pending {file : Option Bytes} {model : EdgeModel}
    (h : LoadedAndWired file model) (engine : Engine τ) (store : Store τ) :
    ∀ node ∈ (edgeStoreLoadLatestValues engine store model).2.2.nodes,
      node.pendingWrite = false := by
  intro node hmem
  have hkept := List.mem_map_of_mem (f := EdgeNode.pendingWrite) hmem
  rw [edgeStoreLoadLatestValues_map _ edgeNodeSetFromDouble_pendingWrite] at hkept
  obtain ⟨node', hmem', heq⟩ := List.mem_map.mp hkept
  exact heq.symm.trans (h.none_pending node' hmem')

/-- **No spurious, stale or duplicated command reaches the PLC.** In every run from startup, with
values restored from any database:

* the register writes on the bus are those of the write-backs, so polling and restoring write
  none;
* each write-back carries out the latest command acknowledged for its node since the last tick;
* a refused write changes nothing but the list of answers;
* a node that no client wrote successfully is never written back. -/
theorem registerWrites_from_acknowledged (libs : Libs σ τ ρ) (file : Option Bytes)
    (model : EdgeModel) (hmodel : LoadedAndWired file model) (store : Store τ)
    (rt : EdgeRuntime σ τ ρ)
    (hrt : rt.model = (edgeStoreLoadLatestValues libs.events.engine store model).2.2)
    (ops : List RunOp) :
    BusStep ((writeBacksOf (run libs ops rt).2).flatMap fun w => registerWrites w.calls)
        rt.bus (run libs ops rt).1.bus ∧
      (∀ pre w post, (run libs ops rt).2 = pre ++ .writeBack w :: post →
        CarriesCommand rt.model.nodes pre w) ∧
      (∀ pre i value node, pre ++ [.write i value] <+: ops →
        (run libs pre rt).1.model.nodes[i]? = some node → (writeEdgeNode node value).1 ≠ .good →
          run libs (pre ++ [.write i value]) rt =
            ((run libs pre rt).1,
              (run libs pre rt).2 ++ [.answered i value (writeEdgeNode node value).1])) ∧
      ∀ i, ackedValues i (run libs ops rt).2 = [] →
        ∀ w ∈ writeBacksOf (run libs ops rt).2, w.index ≠ i := by
  have hnone : ∀ node ∈ rt.model.nodes, node.pendingWrite = false := by
    rw [hrt]; exact restored_none_pending hmodel _ store
  have hcarries := run_carriesCommand libs hnone ops
  refine ⟨run_busStep libs rt ops, hcarries, fun pre i value node _ hget hrefused => ?_, ?_⟩
  · have hsame : (writeEdgeNode node value).2 = node := by
      obtain ⟨_, _, _, hgood, _⟩ | ⟨_, hsame⟩ := writeEdgeNode_cases node value
      · exact absurd hgood hrefused
      · exact hsame
    obtain ⟨hlt, rfl⟩ := List.getElem?_eq_some_iff.mp hget
    rw [run_concat, runStep]
    simp only [hget, hsame, List.set_getElem_self]
  · -- a write-back of the node would carry out an acknowledged command
    rintro i hnever w hw rfl
    obtain ⟨o, ho, hwo⟩ := List.mem_filterMap.mp hw
    obtain ⟨pre, post, htr⟩ := List.append_of_mem ho
    cases o with
    | answered => cases hwo
    | ticked => cases hwo
    | writeBack w' =>
      cases hwo
      have hlatest := (hcarries pre w post htr).latest
      obtain ⟨before, hbefore⟩ := sinceTick_suffix pre
      rw [htr, ackedValues_append, List.append_eq_nil_iff] at hnever
      rw [hbefore, ackedValues_append, List.append_eq_nil_iff] at hnever
      rw [hnever.1.2] at hlatest
      cases hlatest

theorem registerWrites_from_acknowledged_pump :
    (writeBacksOf (run (pumpLibs true) startPump pumpRuntime).2).length = 1 ∧
      ∀ pre w post, (run (pumpLibs true) startPump pumpRuntime).2 = pre ++ .writeBack w :: post →
        CarriesCommand pumpRuntime.model.nodes pre w := by
  have hrestored : pumpRuntime.model =
      (edgeStoreLoadLatestValues (pumpLibs true).events.engine pumpRuntime.store
        pumpModel).2.2 := by
    decide +kernel
  refine ⟨by decide +kernel, ?_⟩
  exact (registerWrites_from_acknowledged (pumpLibs true) (some pumpTemplate) pumpModel
    pumpModel_loadedAndWired pumpRuntime.store pumpRuntime hrestored startPump).2.1

/-! ## Acknowledged commands are accounted for

From a command forwards: it is overwritten by a later command to its node, still pending, or
carried by a writeback in the next tick. Whether that writeback succeeded is what the source does
not look at. -/

/-- After an acknowledged write of `v` to node `i`, followed by the observations `post`: a
write-back of that node succeeded with `v` or with a value acknowledged later. -/
def Committed (i : Nat) (v : UaVariant) (post : List Obs) : Prop :=
  ∃ mid w rest, post = mid ++ .writeBack w :: rest ∧ w.index = i ∧ w.status = .ok ∧
    readEdgeNode w.node ∈ v :: ackedValues i mid

/-- The node is still pending and shows the latest acknowledged value. -/
def StillPending (rt : EdgeRuntime σ τ ρ) (i : Nat) (v : UaVariant) (post : List Obs) : Prop :=
  ∃ node, rt.model.nodes[i]? = some node ∧ node.pendingWrite = true ∧
    (v :: ackedValues i post).getLast? = some (readEdgeNode node)

/-- Every acknowledged command is on the PLC or still on its way. -/
def CommandsAccounted (st : EdgeRuntime σ τ ρ × List Obs) : Prop :=
  ∀ pre i v post, st.2 = pre ++ .answered i (some v) .good :: post →
    Committed i v post ∨ StillPending st.1 i v post

theorem Committed.append {i : Nat} {v : UaVariant} {post : List Obs} (h : Committed i v post)
    (new : List Obs) : Committed i v (post ++ new) := by
  obtain ⟨mid, w, rest, rfl, hw⟩ := h
  exact ⟨mid, w, rest ++ new, by simp, hw⟩

/-- A client's write keeps the account: at most it replaces the value on its way. -/
theorem write_accounted {libs : Libs σ τ ρ} {rt : EdgeRuntime σ τ ρ} {tr : List Obs}
    (h : CommandsAccounted (rt, tr)) (i : Nat) (value : Option UaVariant) :
    CommandsAccounted ((runStep libs rt (.write i value)).1,
      tr ++ (runStep libs rt (.write i value)).2) := by
  obtain hstep | ⟨status, hstatus, hstep⟩ | ⟨node, node', v, hget, _, _, hpending, hread, hstep⟩ :=
    runStep_write_cases libs rt i value
  · rw [hstep, List.append_nil]; exact h
  · rw [hstep]
    intro pre j u post htr
    obtain ⟨mid, _, hnew⟩ | ⟨mid, hold, rfl⟩ := split_append htr
    · cases mid with
      | nil => cases hnew; exact absurd rfl hstatus
      | cons y mid => cases mid <;> cases hnew
    · refine (h pre j u mid hold).imp (·.append _) fun ⟨n, hn, hpend, hlast⟩ => ⟨n, hn, hpend, ?_⟩
      rw [ackedValues_append, ackedValues_refused hstatus, List.append_nil]
      exact hlast
  · rw [hstep]
    have hlt := (List.getElem?_eq_some_iff.mp hget).1
    -- what is pending for the node just written is the value just acknowledged
    have hnew : ∀ u post,
        StillPending { rt with model.nodes := rt.model.nodes.set i node' } i u
          (post ++ [.answered i (some v) .good]) := by
      intro u post
      refine ⟨node', by simp [hlt], hpending, ?_⟩
      rw [ackedValues_append, ackedValues_good, if_pos rfl, ← List.cons_append,
        List.getLast?_concat, hread]
    intro pre j u post htr
    obtain ⟨mid, _, hlast⟩ | ⟨mid, hold, rfl⟩ := split_append htr
    · cases mid with
      | nil =>
        cases hlast
        exact .inr ⟨node', by simp [hlt], hpending, by simp [hread, ackedValues]⟩
      | cons y mid => cases mid <;> cases hlast
    · refine (h pre j u mid hold).imp (·.append _) fun hpend => ?_
      by_cases hij : i = j
      · subst hij; exact hnew u mid
      · obtain ⟨n, hn, hflag, hlast⟩ := hpend
        refine ⟨n, by simp [List.getElem?_set_ne hij, hn], hflag, ?_⟩
        rw [ackedValues_append, ackedValues_good, if_neg hij, List.append_nil]
        exact hlast

/-- A tick whose drain delivers everything commits what was pending. -/
theorem tick_accounted {libs : Libs σ τ ρ} {rt : EdgeRuntime σ τ ρ} {tr : List Obs}
    (hinv : PendingInv rt tr) (henabled : rt.bus.modbus.enabled = true)
    (hdelivers : DrainDelivers libs.modbus rt.bus rt.model.nodes)
    (h : CommandsAccounted (rt, tr)) (clock : TickClock) :
    CommandsAccounted ((runStep libs rt (.tick clock)).1,
      tr ++ (runStep libs rt (.tick clock)).2) := by
  intro pre i v post htr
  obtain ⟨mid, _, hnew⟩ | ⟨mid, hold, rfl⟩ := split_append htr
  · -- a tick answers no client
    have hmem : Obs.answered i (some v) .good ∈ (runStep libs rt (.tick clock)).2 := by
      rw [hnew]; simp
    simp [runStep] at hmem
  · refine .inl ?_
    obtain hdone | ⟨node, hget, hpending, hlast⟩ := h pre i v mid hold
    · exact hdone.append _
    · -- it was pending, so the drain wrote it back
      obtain ⟨w, hw, hindex, hnode⟩ := exists_writeBack libs.modbus rt.bus hget
        (hinv.pending i node hget hpending).1 hpending
      obtain ⟨before, after, hws⟩ := List.append_of_mem hw
      refine ⟨mid ++ before.map .writeBack, w, after.map .writeBack ++ [.ticked], ?_, hindex,
        (drain_ok_iff libs.modbus rt.model.nodes henabled).mpr hdelivers w hw, ?_⟩
      · have hnew : (runStep libs rt (.tick clock)).2 =
            (before ++ w :: after).map .writeBack ++ [.ticked] := by
          rw [← hws]; rfl
        rw [hnew]
        simp
      · rw [ackedValues_append, ackedValues_writeBacks, List.append_nil, hnode]
        exact List.mem_of_getLast? hlast

/-- A tick that leaves the account in order delivered everything: a write-back that failed has
lost its command. -/
theorem drainDelivers_of_accounted {libs : Libs σ τ ρ} {rt : EdgeRuntime σ τ ρ} {tr : List Obs}
    (hinv : PendingInv rt tr) (henabled : rt.bus.modbus.enabled = true) (clock : TickClock)
    (h : CommandsAccounted ((runStep libs rt (.tick clock)).1,
      tr ++ (runStep libs rt (.tick clock)).2)) :
    DrainDelivers libs.modbus rt.bus rt.model.nodes := by
  refine (drain_ok_iff libs.modbus rt.model.nodes henabled).mp fun w hw => ?_
  obtain ⟨hget, hwritable, hpending⟩ := mem_writeBacks hw
  -- the command of this write-back was acknowledged since the last tick
  have hlatest := (hinv.pending w.index w.node hget hpending).2
  have hacked := mem_of_ackedValues (List.mem_of_getLast? hlatest)
  obtain ⟨early, late, hsince⟩ := List.append_of_mem hacked
  obtain ⟨before, hbefore⟩ := sinceTick_suffix tr
  have htr : tr ++ (runStep libs rt (.tick clock)).2 =
      (before ++ early) ++ .answered w.index (some (readEdgeNode w.node)) .good ::
        (late ++ (runStep libs rt (.tick clock)).2) := by
    rw [hbefore, hsince]; simp
  obtain ⟨mid, w', rest, hpost, hindex, hstatus, _⟩ | ⟨node, hnode, hflag, _⟩ := h _ _ _ _ htr
  · have hw' : w' ∈ (drainPendingWrites libs.modbus rt.bus rt.model.nodes).state.writeBacks := by
      have hmem : Obs.writeBack w' ∈ late ++ (runStep libs rt (.tick clock)).2 := by
        rw [hpost]; simp
      rcases List.mem_append.mp hmem with hlate | hnew
      · exact absurd (by rw [hsince]; simp [hlate]) (hinv.answersOnly w')
      · simpa [runStep, edgeRuntimeTick] using hnew
    -- this tick wrote the node back once, so the successful write-back is this one
    have hsame := List.inj_on_of_nodup_map
      (writeBacks_nodup libs.modbus rt.bus rt.model.nodes) hw' hw hindex
    rw [← hsame, hstatus]
  · -- after a tick nothing is pending
    have hfalse := edgeRuntimeTick_pendingWrite libs clock hinv.writable node
      (List.mem_of_getElem? hnode)
    rw [hfalse] at hflag
    cases hflag

/-- **No acknowledged command is lost, as long as every write-back is delivered, and only then.**
The drain forgets a command whose write-back fails, so in a run from startup every command stays
accounted for exactly when, at each tick, every due node has a register above the base and
libmodbus has or sets up a link, selects the unit and takes the registers in full. -/
theorem commands_accounted_iff (libs : Libs σ τ ρ) (file : Option Bytes) (rt : EdgeRuntime σ τ ρ)
    (hmodel : LoadedAndWired file rt.model) (henabled : rt.bus.modbus.enabled = true)
    (ops : List RunOp) :
    (∀ pre, pre <+: ops → CommandsAccounted (run libs pre rt)) ↔
      ∀ pre clock, pre ++ [.tick clock] <+: ops →
        DrainDelivers libs.modbus (run libs pre rt).1.bus (run libs pre rt).1.model.nodes := by
  have hinv := run_pendingInv libs hmodel.none_pending
  have henabled' : ∀ pre, (run libs pre rt).1.bus.modbus.enabled = true :=
    fun pre => (run_busStep libs rt pre).enabled.trans henabled
  constructor
  · intro h pre clock hpre
    have hafter := h _ hpre
    rw [run_concat] at hafter
    -- a command that is accounted for after a tick was delivered by it
    exact drainDelivers_of_accounted (hinv pre) (henabled' pre) clock hafter
  · intro h pre hpre
    -- from the start of the run on, one call after the other
    induction pre using List.reverseRecOn with
    | nil => intro pre i v post htr; cases pre <;> cases htr
    | append_singleton pre op ih =>
      have hprev := ih ((List.prefix_append pre [op]).trans hpre)
      rw [run_concat]
      cases op with
      | write i value => exact write_accounted hprev i value
      | tick clock =>
        exact tick_accounted (hinv pre) (henabled' pre) (h pre clock hpre) hprev clock

/-- With a PLC that answers, the start command is accounted for. -/
theorem commands_accounted_pump :
    CommandsAccounted (run (pumpLibs true) startPump pumpRuntime) := by
  refine (commands_accounted_iff (pumpLibs true) (some pumpTemplate) pumpRuntime
    pumpRuntime_started pumpRuntime_enabled startPump).mpr (fun pre clock hpre => ?_) startPump
    List.prefix_rfl
  -- the run has one tick, right after the write
  have hbefore : pre = [.write 1 (some (.boolean true))] := by
    obtain ⟨post, hpost⟩ := hpre
    match pre with
    | [] => cases hpost
    | [_] => cases hpost; rfl
    | _ :: _ :: _ => simp [startPump] at hpost
  rw [hbefore]
  exact (drain_ok_iff _ _ (by decide +kernel)).mp (by decide +kernel)

/-- A command acknowledged first is lost when every write-back failed and nothing is pending. -/
theorem not_accounted {st : EdgeRuntime σ τ ρ × List Obs} {i : Nat} {v : UaVariant}
    (hacked : st.2.head? = some (.answered i (some v) .good))
    (hfailed : ∀ w ∈ writeBacksOf st.2, w.status ≠ .ok)
    (hcleared : st.1.model.nodes[i]?.map EdgeNode.pendingWrite = some false) :
    ¬ CommandsAccounted st := by
  intro h
  obtain ⟨post, htr⟩ := List.head?_eq_some_iff.mp hacked
  obtain ⟨mid, w, rest, hpost, _, hok, _⟩ | ⟨node, hget, hpending, _⟩ := h [] i v post htr
  · refine hfailed w ?_ hok
    rw [htr, hpost]
    simp [writeBacksOf]
  · rw [hget, Option.map_some, hpending] at hcleared
    cases hcleared

/-- The connection is refused: the start command is acknowledged, its write-back fails, and
nothing is pending any more. -/
theorem start_command_lost :
    LoadedAndWired (some pumpTemplate) pumpRuntime.model ∧
      pumpRuntime.bus.modbus.enabled = true ∧
      ¬ CommandsAccounted (run (pumpLibs false) startPump pumpRuntime) := by
  have hacked : (run (pumpLibs false) startPump pumpRuntime).2.head? =
      some (.answered 1 (some (.boolean true)) .good) := by decide +kernel
  have hfailed : ∀ w ∈ writeBacksOf (run (pumpLibs false) startPump pumpRuntime).2,
      w.status ≠ .ok := by decide +kernel
  have hcleared : (run (pumpLibs false) startPump pumpRuntime).1.model.nodes[1]?.map
      EdgeNode.pendingWrite = some false := by decide +kernel
  exact ⟨pumpRuntime_started, pumpRuntime_enabled, not_accounted hacked hfailed hcleared⟩

end OpcuaEdge
