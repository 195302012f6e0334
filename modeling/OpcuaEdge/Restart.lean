import OpcuaEdge.Checkpoints
import OpcuaEdge.Lifecycle

/-!
# OpcuaEdge — a process that starts again

`main` restores the values of its nodes from the database that an earlier process left. What the
next process comes back to is the last checkpoint: the values of the last persist that succeeded,
or those the earlier process itself started from. That holds when the earlier process was killed
(`killed_process_resumes`) and when it was shut down, where the last persist is the one that
`main` makes on its way out (`stopped_process_resumes`).

* **`ComesUp.resumable`** — what a process starts from is a state to come back to, before it has
  stored anything;
* **`loopEnd_resumable`** — the server loop keeps such a state, and replaces it whenever it stores
  the values;
* **`killed_process_resumes`** and **`stopped_process_resumes`** — the next process, after a kill
  and after a shutdown.
-/

namespace OpcuaEdge

open CStr CLoop Txn Upsert

variable {σ τ ρ σ' τ' ρ' : Type}

/-! ## A startup that succeeds

The stages of `main` up to the server loop. Each one's failure ends the process, so a started
runtime comes from all of them having succeeded. -/

/-- What a process that comes up has when it enters the server loop. -/
structure Started (σ τ ρ : Type) where
  opened : OpenedStore τ
  registered : Registered σ τ ρ

/-- The startup, with nothing for a process that ends before its loop. -/
def edgeStartup (w : World σ τ ρ) (options : Options) (disk : Disk) : Option (Started σ τ ρ) :=
  let loaded := startupLoad w options
  let opened := startupStore w (disk options.dbPath) loaded.2
  let started := startupServer w options opened.2
  if loaded.1 = .openStore ∧ w.sqliteOpen options.dbPath = .opened ∧ opened.1 = .modbus ∧
      started.1 = .served then
    started.2.2.map fun registered => ⟨opened.2, registered⟩
  else none

/-- SQLite answers the requests of the restore. -/
def RestoreAnswered (w : World σ τ ρ) (options : Options) (disk : Disk) : Prop :=
  let model := (startupLoad w options).2
  let store := (edgeStorePersistModel w.libs.events.engine model
    (startupSchema w (disk options.dbPath)).2.2).2
  ¬ store.Refused (edgeStoreLoadLatestValues w.libs.events.engine store model).2.1

theorem startupLoad_ok {w : World σ τ ρ} {options : Options}
    (h : (startupLoad w options).1 = .openStore) :
    LoadedAndWired (w.files options.configPath) (startupLoad w options).2 := by
  unfold startupLoad at h ⊢
  dsimp only at h ⊢
  split_ifs at h ⊢ with hsignals hload hwire
  exact ⟨_, Prod.ext (not_not.mp hload) rfl, Prod.ext (not_not.mp hwire) rfl⟩

/-- The startup of the database touches no latest value and leaves no transaction open. -/
theorem startupStore_ok {w : World σ τ ρ} {file : DbFile} {model : EdgeModel}
    (h : (startupStore w file model).1 = .modbus) :
    (startupStore w file model).2.store.conn.committed.latestValues = file.data.latestValues ∧
      (edgeStorePersistModel w.libs.events.engine model (startupSchema w file).2.2).1 = .ok ∧
      (startupStore w file model).2.store = (edgeStoreLoadLatestValues w.libs.events.engine
        (edgeStorePersistModel w.libs.events.engine model (startupSchema w file).2.2).2 model).2.1 ∧
      (startupStore w file model).2.model = (edgeStoreLoadLatestValues w.libs.events.engine
        (edgeStorePersistModel w.libs.events.engine model
          (startupSchema w file).2.2).2 model).2.2 := by
  unfold startupStore at h ⊢
  dsimp only at h ⊢
  split_ifs at h ⊢ with hschema hpersist hrestore
  -- persisting the model writes the plant's own tables and leaves the latest values alone
  obtain ⟨-, hconn⟩ := (allOrNothing_persistModel w.libs.events.engine model
    (startupSchema w file).2.2).2 (not_not.mp hpersist)
  refine ⟨?_, not_not.mp hpersist, rfl, rfl⟩
  refine (congrArg Db.latestValues (loadLatestValues_committed _ model _)).trans ?_
  rw [hconn]
  rfl

/-- Registering the callback changes the state of the server only. -/
theorem edgeRuntimeRegister_others (lib : UaServerLib ρ) (rt : EdgeRuntime σ τ ρ) :
    (edgeRuntimeRegister lib rt).2.2.1 =
      { rt with server := (edgeRuntimeRegister lib rt).2.2.1.server } := by
  unfold edgeRuntimeRegister
  split
  · rfl
  · dsimp only
    split <;> rfl

/-- What the startup of the server hands to the loop. -/
theorem startupSpace_runtime (w : World σ τ ρ) (o : OpenedStore τ) (bus : Bus σ) (ua : ρ)
    (log : List LifeCall) :
    (startupSpace w o bus ua log).2.rt =
      { server := (startupSpace w o bus ua log).2.rt.server
        model := o.model
        store := o.store
        bus := bus
        persistEveryNTicks := persistEveryNTicks } := by
  unfold startupSpace
  dsimp only
  split_ifs
  · rfl
  · unfold startupRuntime
    dsimp only
    rw [edgeRuntimeRegister_others]
    rfl

/-- The runtime of a registered server: the restored model, the store, no tick so far, and a link
that has not been used. -/
theorem startupServer_runtime {w : World σ τ ρ} {options : Options} {o : OpenedStore τ}
    {r : Registered σ τ ρ} (h : (startupServer w options o).2.2 = some r) :
    r.rt.model = o.model ∧ r.rt.store = o.store ∧ r.rt.tickCount = 0 ∧
      r.rt.persistEveryNTicks = persistEveryNTicks ∧
      r.rt.bus = { modbus := (edgeModbusInit (some options.modbusHost) options.modbusPort).2
                   env := w.network } := by
  unfold startupServer at h
  dsimp only at h
  split_ifs at h
  cases hua : (edgeServerInit w.server options.opcuaPort).2.1.ua with
  | none => simp [hua] at h
  | some ua =>
    simp only [hua, Option.some.injEq] at h
    subst h
    rw [startupSpace_runtime]
    exact ⟨rfl, rfl, rfl, rfl, rfl⟩

theorem SameMember.refl (dataType : EdgeDataType) (v : EdgeValue) : SameMember dataType v v := by
  unfold SameMember
  cases dataType with
  | unset => trivial
  | bool | int16 | int32 | uint32 | double => rfl

/-- What a startup that succeeded has gone through. -/
structure ComesUp (w : World σ τ ρ) (options : Options) (disk : Disk) (s : Started σ τ ρ) : Prop
    where
  loaded : (startupLoad w options).1 = .openStore
  opens : w.sqliteOpen options.dbPath = .opened
  store : (startupStore w (disk options.dbPath) (startupLoad w options).2).1 = .modbus
  opened : s.opened = (startupStore w (disk options.dbPath) (startupLoad w options).2).2
  served : (startupServer w options s.opened).1 = .served
  registered : (startupServer w options s.opened).2.2 = some s.registered

theorem edgeStartup_some {w : World σ τ ρ} {options : Options} {disk : Disk} {s : Started σ τ ρ}
    (h : edgeStartup w options disk = some s) : ComesUp w options disk s := by
  unfold edgeStartup at h
  dsimp only at h
  split_ifs at h with hall
  obtain ⟨hloaded, hopens, hstore, hserved⟩ := hall
  obtain ⟨registered, hregistered, rfl⟩ := Option.map_eq_some_iff.mp h
  exact ⟨hloaded, hopens, hstore, rfl, hserved, hregistered⟩

/-- A startup that was answered restores every node from its row. -/
theorem ComesUp.nodes {w : World σ τ ρ} {options : Options} {disk : Disk} {s : Started σ τ ρ}
    (h : ComesUp w options disk s) (hread : RestoreAnswered w options disk) :
    s.opened.model.nodes = (startupLoad w options).2.nodes.map
      (restoredNode (disk options.dbPath).data.latestValues) := by
  obtain ⟨-, hpersist, -, hmodel⟩ := startupStore_ok h.store
  have hwired := (startupLoad_ok h.loaded).wired
  have hkeys : ∀ node ∈ (startupLoad w options).2.nodes, (makeNodeKey node).1 = .ok :=
    fun node hmem => by rw [makeNodeKey_eq (hwired.nodes node hmem)]
  obtain ⟨-, hresult⟩ := loadLatestValues_of_not_refused hkeys hread
  obtain ⟨-, hconn⟩ := (allOrNothing_persistModel w.libs.events.engine _
    (startupSchema w (disk options.dbPath)).2.2).2 hpersist
  rw [h.opened, hmodel, hresult, hconn]
  rfl

/-- What was restored are the nodes that were loaded. -/
theorem ComesUp.serves {w : World σ τ ρ} {options : Options} {disk : Disk} {s : Started σ τ ρ}
    (h : ComesUp w options disk s) :
    Serves (startupLoad w options).2.nodes s.registered.rt := by
  have hwired := (startupLoad_ok h.loaded).wired
  obtain ⟨-, -, -, hrestored⟩ := startupStore_ok h.store
  obtain ⟨hmodel, -⟩ := startupServer_runtime h.registered
  constructor
  · rw [hmodel, h.opened, hrestored]
    refine edgeStoreLoadLatestValues_map EdgeNode.config (fun node d => ?_) _ _ _
    rw [edgeNodeSetFromDouble_others]
    rfl
  · rw [hmodel, h.opened, hrestored]
    refine edgeStoreLoadLatestValues_forall _ (fun node d => ?_) _ _ fun node hmem => ?_
    · exact fun hnode => edgeNodeSetFromDouble_boolInRange hnode d
    · exact fun _ => .inl (by rw [(hwired.nodes node hmem).value])

/-- **The values a process starts from are its first checkpoint.** -/
theorem ComesUp.resumable {w : World σ τ ρ} {options : Options} {disk : Disk} {s : Started σ τ ρ}
    (h : ComesUp w options disk s) (hread : RestoreAnswered w options disk) :
    Resumable (startupLoad w options).2.nodes s.registered.rt s.registered.rt.model.nodes := by
  obtain ⟨htable, -⟩ := startupStore_ok h.store
  obtain ⟨hmodel, hstore, -⟩ := startupServer_runtime h.registered
  refine ⟨h.serves, h.serves.config, ?_⟩
  intro i n m hn hm _
  rw [hmodel, h.nodes hread, List.getElem?_map, hn] at hm
  cases hm
  rw [hstore, h.opened, htable]
  exact .refl n.dataType _

/-! ## The server loop

Between two ticks the loop lets clients write. A kill can come at any point of it, so what is on
disk is told by the last tick that committed. -/

/-- The turns that the loop makes: none if the server does not start. -/
def World.turns (w : World σ τ ρ) (rt : EdgeRuntime σ τ ρ) : List (List RunOp) :=
  if (rt.server.bind (·.ua)).any fun ua => (w.server.runStartup ua).1 then w.iterations else []

/-- The runtime when the loop begins. -/
def loopStart (w : World σ τ ρ) (rt : EdgeRuntime σ τ ρ) : EdgeRuntime σ τ ρ :=
  { rt with server := rt.server.map (·.update fun ua => (w.server.runStartup ua).2) }

/-- A turn of the loop, with what is kept track of. -/
def trackIterate {γ : Type} (w : World σ τ ρ) (track : EdgeRuntime σ τ ρ → RunOp → γ → γ)
    (s : EdgeRuntime σ τ ρ × γ) (ops : List RunOp) : EdgeRuntime σ τ ρ × γ :=
  ops.foldl (trackStep w.libs track)
    ({ s.1 with server := s.1.server.map (·.update w.server.runIterate) }, s.2)

/-- The loop of `main` with something tracked along it, step by step. -/
def trackLoop {γ : Type} (w : World σ τ ρ) (track : EdgeRuntime σ τ ρ → RunOp → γ → γ)
    (rt : EdgeRuntime σ τ ρ) (start : γ) : EdgeRuntime σ τ ρ × γ :=
  (w.turns rt).foldl (trackIterate w track) (loopStart w rt, start)

/-- The runtime after the turns of the loop, and its last checkpoint: the values persisted last
with success, or those the process started from. -/
def loopEnd (w : World σ τ ρ) (rt : EdgeRuntime σ τ ρ) : EdgeRuntime σ τ ρ × List EdgeNode :=
  trackLoop w (checkpoint w.libs) rt rt.model.nodes

/-- What happens to the server alone is no matter. -/
theorem Resumable.server {loaded point : List EdgeNode} {rt : EdgeRuntime σ τ ρ}
    (h : Resumable loaded rt point) (server : Option (EdgeServer ρ)) :
    Resumable loaded { rt with server := server } point :=
  ⟨⟨h.config, h.flags⟩, h.point_config, h.comesBack⟩

/-- What every step of a run keeps of two things that are kept track of, and what no change of the
server alone destroys, holds after the loop. -/
theorem trackLoop_induction₂ {γ δ : Type} (w : World σ τ ρ)
    (track : EdgeRuntime σ τ ρ → RunOp → γ → γ) (track' : EdgeRuntime σ τ ρ → RunOp → δ → δ)
    (P : EdgeRuntime σ τ ρ → γ → δ → Prop)
    (hserver : ∀ rt g d server, P rt g d → P { rt with server := server } g d)
    (hstep : ∀ rt g d op, P rt g d →
      P (runStep w.libs rt op).1 (track rt op g) (track' rt op d))
    {rt : EdgeRuntime σ τ ρ} {g : γ} {d : δ} (h : P rt g d) :
    P (trackLoop w track rt g).1 (trackLoop w track rt g).2 (trackLoop w track' rt d).2 := by
  -- the two things are kept track of along one and the same run
  have hops : ∀ (ops : List RunOp) (rt : EdgeRuntime σ τ ρ) (g : γ) (d : δ), P rt g d →
      P (ops.foldl (trackStep w.libs track) (rt, g)).1
          (ops.foldl (trackStep w.libs track) (rt, g)).2
          (ops.foldl (trackStep w.libs track') (rt, d)).2 ∧
        (ops.foldl (trackStep w.libs track') (rt, d)).1 =
          (ops.foldl (trackStep w.libs track) (rt, g)).1 := by
    intro ops
    induction ops with
    | nil => intro rt g d hs; exact ⟨hs, rfl⟩
    | cons op rest ih => intro rt g d hs; exact ih _ _ _ (hstep rt g d op hs)
  have hturns : ∀ (turns : List (List RunOp)) (s : EdgeRuntime σ τ ρ × γ)
      (s' : EdgeRuntime σ τ ρ × δ), s'.1 = s.1 → P s.1 s.2 s'.2 →
      P (turns.foldl (trackIterate w track) s).1 (turns.foldl (trackIterate w track) s).2
        (turns.foldl (trackIterate w track') s').2 := by
    intro turns
    induction turns with
    | nil => intro s s' _ hs; exact hs
    | cons ops rest ih =>
      intro s s' hrt hs
      obtain ⟨hP, hsame⟩ := hops ops _ s.2 s'.2
        (hserver s.1 s.2 s'.2 (s.1.server.map (·.update w.server.runIterate)) hs)
      unfold List.foldl trackIterate
      rw [hrt]
      exact ih _ _ hsame hP
  exact hturns (w.turns rt) _ _ rfl (hserver _ _ _ _ h)

/-- The same for one thing. -/
theorem trackLoop_induction {γ : Type} (w : World σ τ ρ)
    {track : EdgeRuntime σ τ ρ → RunOp → γ → γ} {P : EdgeRuntime σ τ ρ → γ → Prop}
    (hserver : ∀ rt g server, P rt g → P { rt with server := server } g)
    (hstep : ∀ rt g op, P rt g → P (runStep w.libs rt op).1 (track rt op g))
    {rt : EdgeRuntime σ τ ρ} {g : γ} (h : P rt g) :
    P (trackLoop w track rt g).1 (trackLoop w track rt g).2 :=
  trackLoop_induction₂ w track (fun _ _ (d : Unit) => d) (fun rt g _ => P rt g)
    (fun rt g _ server => hserver rt g server) (fun rt g _ op => hstep rt g op) (d := ()) h

/-- The loop keeps what makes a process resumable. -/
theorem loopEnd_resumable (w : World σ τ ρ) {loaded : List EdgeNode} {rt : EdgeRuntime σ τ ρ}
    (h : Resumable loaded rt rt.model.nodes) :
    Resumable loaded (loopEnd w rt).1 (loopEnd w rt).2 :=
  trackLoop_induction w (P := Resumable loaded) (fun _ _ server hs => hs.server server)
    (fun _ _ op hs => runStep_resumable w.libs hs op) h

theorem loopEnd_serves (w : World σ τ ρ) {loaded : List EdgeNode} {rt : EdgeRuntime σ τ ρ}
    (h : Serves loaded rt) : Serves loaded (loopEnd w rt).1 :=
  trackLoop_induction w (P := fun rt _ => Serves loaded rt)
    (fun _ _ _ hs => ⟨hs.config, hs.flags⟩) (fun _ _ op hs => runStep_serves w.libs hs op) h

/-- Keeping track does not change the loop. -/
theorem trackLoop_runtime {γ : Type} (w : World σ τ ρ)
    (track : EdgeRuntime σ τ ρ → RunOp → γ → γ) (turns : List (List RunOp)) :
    ∀ (s : ServeState σ τ ρ) (g : γ),
      (turns.foldl (serverIterate w.server w.libs) s).rt =
        (turns.foldl (trackIterate w track) (s.rt, g)).1 := by
  induction turns with
  | nil => intro s g; rfl
  | cons ops rest ih =>
    intro s g
    refine (ih _ (trackIterate w track (s.rt, g) ops).2).trans ?_
    have hturn : (serverIterate w.server w.libs s ops).rt =
        (trackIterate w track (s.rt, g) ops).1 :=
      (trackStep_run w.libs track ops
        ({ s.rt with server := s.rt.server.map (·.update w.server.runIterate) }, g) s.seen).symm
    rw [hturn]
    rfl

/-- `edge_server_run` leaves the model and the store as its loop does. -/
theorem edgeServerRun_runtime (w : World σ τ ρ) (rt : EdgeRuntime σ τ ρ) (log : List LifeCall) :
    let run := edgeServerRun w.server w.libs w.iterations { rt := rt, log := log }
    run.2.rt.model = (loopEnd w rt).1.model ∧ run.2.rt.store = (loopEnd w rt).1.store := by
  unfold edgeServerRun loopEnd trackLoop World.turns
  cases hserver : rt.server.bind (·.ua) with
  | none => exact ⟨rfl, rfl⟩
  | some ua =>
    cases hup : (w.server.runStartup ua).1 with
    | false => simp [hup, loopStart]
    | true =>
      have hloop := trackLoop_runtime w (checkpoint w.libs) w.iterations
        { rt := loopStart w rt, log := log ++ [.uaRunStartup true] } rt.model.nodes
      simp only [hup, Option.any_some, if_true, Bool.true_eq_false, if_false]
      exact ⟨congrArg EdgeRuntime.model hloop, congrArg EdgeRuntime.store hloop⟩

/-! ## Coming back

The next process loads the same template and restores from the rows that the last one committed. -/

/-- Every node with a key of its own has the value it has in `point`. -/
def ResumesFrom (point nodes : List EdgeNode) : Prop :=
  ∀ (i : Nat) (n : EdgeNode), nodes[i]? = some n → OwnKey nodes i n →
    ∃ m, point[i]? = some m ∧ n.config = m.config ∧ n.pendingWrite = false ∧
      SameMember n.dataType n.value m.value

/-- The template decides what is loaded. -/
theorem startupLoad_model {w : World σ τ ρ} {options : Options}
    (h : (startupLoad w options).1 = .openStore) :
    (startupLoad w options).2 = startupModel (w.files options.configPath) := by
  unfold startupLoad at h ⊢
  dsimp only at h ⊢
  split_ifs at h ⊢
  rfl

/-- A restore changes nothing that a template says of a node. -/
theorem restoredNode_config (table : Table LatestRow) (node : EdgeNode) :
    (restoredNode table node).config = node.config := by
  unfold restoredNode
  split
  · rw [edgeNodeSetFromDouble_others]; rfl
  · rfl

/-- **A process that finds the committed values of an earlier one comes back to its checkpoint.** -/
theorem Resumable.resumesFrom {loaded point : List EdgeNode} {rt : EdgeRuntime σ τ ρ}
    (h : Resumable loaded rt point) {w' : World σ' τ' ρ'} {options' : Options} {disk' : Disk}
    {s' : Started σ' τ' ρ'} (hup : ComesUp w' options' disk' s')
    (hread : RestoreAnswered w' options' disk')
    (hdisk : (disk' options'.dbPath).data.latestValues = rt.store.conn.committed.latestValues)
    (hloaded : (startupLoad w' options').2.nodes = loaded) :
    ResumesFrom point s'.opened.model.nodes := by
  have hwired := (startupLoad_ok hup.loaded).wired
  have hnodes := hup.nodes hread
  rw [hdisk, hloaded] at hnodes
  intro i n hn hown
  rw [hnodes] at hn hown
  obtain ⟨n₀, hn₀, rfl⟩ := Option.map_eq_some_iff.mp (List.getElem?_map.symm.trans hn)
  have hsame := restoredNode_config rt.store.conn.committed.latestValues n₀
  -- the restore keeps the configuration, so a key that is the node's own was so before it
  have hown₀ : OwnKey loaded i n₀ := by
    intro j other hj hkey
    refine hown j (restoredNode _ other) (by rw [List.getElem?_map, hj]; rfl) ?_
    rw [EdgeNode.config_congr nodeKeyText (fun _ => rfl) (restoredNode_config _ other), hkey]
    exact EdgeNode.config_congr nodeKeyText (fun _ => rfl) hsame.symm
  obtain ⟨m, hm, hconfig⟩ := config_getElem? h.point_config.symm hn₀
  refine ⟨m, hm, hsame.trans hconfig.symm, ?_, ?_⟩
  · have hfresh := (hwired.nodes n₀ (hloaded ▸ List.mem_of_getElem? hn₀)).pendingWrite
    unfold restoredNode
    split
    · rw [edgeNodeSetFromDouble_pendingWrite, hfresh]
    · exact hfresh
  · rw [EdgeNode.config_congr EdgeNode.dataType (fun _ => rfl) hsame]
    exact h.comesBack i n₀ m hn₀ hm hown₀

/-- What is on the disk when the process is killed after the turns of its loop: what was
committed. -/
def killedDisk (w : World σ τ ρ) (options : Options) (disk : Disk) (s : Started σ τ ρ) : Disk :=
  closedDisk disk options.dbPath s.opened.schema (loopEnd w s.registered.rt).1.store

/-- A process after a killed one has the values of the last commit, as far as a row of doubles
keeps them. -/
theorem ComesUp.killed_resumes {w : World σ τ ρ} {options : Options} {disk : Disk}
    {s : Started σ τ ρ} (hup : ComesUp w options disk s) (hread : RestoreAnswered w options disk)
    {w' : World σ' τ' ρ'} {options' : Options}
    (hfile : w'.files options'.configPath = w.files options.configPath)
    (hpath : options'.dbPath = options.dbPath) {s' : Started σ' τ' ρ'}
    (hup' : ComesUp w' options' (killedDisk w options disk s) s')
    (hread' : RestoreAnswered w' options' (killedDisk w options disk s)) :
    ResumesFrom (loopEnd w s.registered.rt).2 s'.opened.model.nodes := by
  refine (loopEnd_resumable w (hup.resumable hread)).resumesFrom hup' hread' ?_ ?_
  · rw [hpath]
    simp [killedDisk, closedDisk, edgeStoreClose, Session.close, Conn.close]
  · rw [startupLoad_model hup'.loaded, startupLoad_model hup.loaded, hfile]

/-- **A process that is killed loses what happened since its last checkpoint and no more.** It may
be killed after any turns of its server loop, whatever SQLite answered in them; the next process
with the same template and database comes back to the values persisted last with success, or to
those the killed process started from. -/
theorem killed_process_resumes (w : World σ τ ρ) (options : Options) (disk : Disk)
    (s : Started σ τ ρ) (hs : edgeStartup w options disk = some s)
    (hread : RestoreAnswered w options disk) (w' : World σ' τ' ρ') (options' : Options)
    (hfile : w'.files options'.configPath = w.files options.configPath)
    (hpath : options'.dbPath = options.dbPath) (s' : Started σ' τ' ρ')
    (hs' : edgeStartup w' options' (killedDisk w options disk s) = some s')
    (hread' : RestoreAnswered w' options' (killedDisk w options disk s)) :
    ResumesFrom (loopEnd w s.registered.rt).2 s'.opened.model.nodes :=
  (edgeStartup_some hs).killed_resumes hread hfile hpath (edgeStartup_some hs') hread'

/-! ## Shutting down

A process that is stopped stores its values once more. So the next one has those, and not the ones
of the last commit in the loop. -/

/-- What a process that served leaves behind. -/
structure Served (w : World σ τ ρ) (options : Options) (disk : Disk) (s : Started σ τ ρ) : Prop
    where
  startup : edgeStartup w options disk = some s
  startModel : (edgeMain w options disk).startModel = s.opened.model
  model : (edgeMain w options disk).model = (serveAndStop w s.registered).1.rt.model
  lastPersist : (edgeMain w options disk).lastPersist = (serveAndStop w s.registered).2.1
  disk : (edgeMain w options disk).disk =
    closedDisk disk options.dbPath s.opened.schema (serveAndStop w s.registered).2.2.1

/-- Loading alone does not serve. -/
theorem startupLoad_stage (w : World σ τ ρ) (options : Options) :
    (startupLoad w options).1 ≠ .served := by
  unfold startupLoad
  dsimp only
  split_ifs <;> nofun

/-- Nor does opening the store. -/
theorem startupStore_stage (w : World σ τ ρ) (file : DbFile) (model : EdgeModel) :
    (startupStore w file model).1 ≠ .served := by
  unfold startupStore
  dsimp only
  split_ifs <;> nofun

theorem startupServer_stage {w : World σ τ ρ} {options : Options} {o : OpenedStore τ}
    (h : (startupServer w options o).2.2 = none) : (startupServer w options o).1 ≠ .served := by
  unfold startupServer at h ⊢
  dsimp only at h ⊢
  split_ifs at h ⊢
  · nofun
  · cases hua : (edgeServerInit w.server options.opcuaPort).2.1.ua with
    | none => nofun
    | some ua => simp [hua] at h

/-- A process that served has gone through every stage and through the loop. -/
theorem edgeMain_served {w : World σ τ ρ} {options : Options} {disk : Disk}
    (h : (edgeMain w options disk).stage = .served) : ∃ s, Served w options disk s := by
  have hmain : (startupLoad w options).1 = .openStore ∧
      w.sqliteOpen options.dbPath = .opened ∧
      edgeMain w options disk = mainOpened w options disk (startupLoad w options).2 := by
    unfold edgeMain at h ⊢
    dsimp only at h ⊢
    split_ifs at h ⊢ with hloaded
    · exact absurd h (startupLoad_stage w options)
    · cases hopens : w.sqliteOpen options.dbPath with
      | failed allocated => rw [hopens] at h; cases h
      | opened => exact ⟨not_not.mp hloaded, rfl, rfl⟩
  obtain ⟨hloaded, hopens, hmain⟩ := hmain
  rw [hmain] at h
  -- every other way out of main ends in a stage of its own, which is not `served`
  by_cases hstore : (startupStore w (disk options.dbPath) (startupLoad w options).2).1 = .modbus
  · cases hstarted : (startupServer w options
        (startupStore w (disk options.dbPath) (startupLoad w options).2).2).2.2 with
    | none =>
      simp only [mainOpened, hstore, hstarted, ne_eq, not_true_eq_false, if_false] at h
      exact absurd h (startupServer_stage hstarted)
    | some r =>
      by_cases hserved : (startupServer w options
          (startupStore w (disk options.dbPath) (startupLoad w options).2).2).1 = .served
      · have hstartup : edgeStartup w options disk = some
            ⟨(startupStore w (disk options.dbPath) (startupLoad w options).2).2, r⟩ := by
          simp [edgeStartup, hloaded, hopens, hstore, hserved, hstarted]
        refine ⟨_, hstartup, ?_, ?_, ?_, ?_⟩
        all_goals
          rw [hmain]
          simp only [mainOpened, hstore, hstarted, hserved, ne_eq, not_true_eq_false, if_false]
      · simp [mainOpened, hstore, hstarted, hserved] at h
  · simp only [mainOpened, ne_eq, hstore, not_false_eq_true, if_true] at h
    exact absurd h (startupStore_stage w _ _)

/-- Unregistering the callback leaves the model and the store alone. -/
theorem edgeRuntimeUnregister_others (lib : UaServerLib ρ) (id : UInt64)
    (rt : EdgeRuntime σ τ ρ) :
    (edgeRuntimeUnregister lib id rt).1.model = rt.model ∧
      (edgeRuntimeUnregister lib id rt).1.store = rt.store := by
  unfold edgeRuntimeUnregister
  split_ifs <;> exact ⟨rfl, rfl⟩

/-- The persist at shutdown is made on the model and the store that the loop left. -/
theorem serveAndStop_persist (w : World σ τ ρ) (r : Registered σ τ ρ) :
    let persisted := edgeStorePersistLatestValues w.libs.events.engine (loopEnd w r.rt).1.model
      w.shutdownMs (loopEnd w r.rt).1.store
    (serveAndStop w r).1.rt.model = (loopEnd w r.rt).1.model ∧
      (serveAndStop w r).2.1 = persisted.1 ∧ (serveAndStop w r).2.2.1 = persisted.2 := by
  obtain ⟨hmodel, hstore⟩ := edgeServerRun_runtime w r.rt r.log
  obtain ⟨hmodel', hstore'⟩ := edgeRuntimeUnregister_others w.server r.callbackId
    (edgeServerRun w.server w.libs w.iterations { rt := r.rt, log := r.log }).2.rt
  unfold serveAndStop
  dsimp only
  rw [hmodel', hstore', hmodel, hstore]
  exact ⟨rfl, rfl, rfl⟩

/-- **A process that is shut down loses nothing.** Where its last persist succeeded, the next
process with the same template and database comes back to the very values it stopped with. -/
theorem stopped_process_resumes (w : World σ τ ρ) (options : Options) (disk : Disk)
    (hserved : (edgeMain w options disk).stage = .served)
    (hpersist : (edgeMain w options disk).lastPersist = .ok) (w' : World σ' τ' ρ')
    (options' : Options) (hfile : w'.files options'.configPath = w.files options.configPath)
    (hpath : options'.dbPath = options.dbPath)
    (hserved' : (edgeMain w' options' (edgeMain w options disk).disk).stage = .served)
    (hread' : RestoreAnswered w' options' (edgeMain w options disk).disk) :
    ResumesFrom (edgeMain w options disk).model.nodes
      (edgeMain w' options' (edgeMain w options disk).disk).startModel.nodes := by
  obtain ⟨s, hs⟩ := edgeMain_served hserved
  obtain ⟨s', hs'⟩ := edgeMain_served hserved'
  have hup := edgeStartup_some hs.startup
  have hup' := edgeStartup_some hs'.startup
  obtain ⟨hmodel, hstatus, hstore⟩ := serveAndStop_persist w s.registered
  have hserves : Serves (startupLoad w options).2.nodes (loopEnd w s.registered.rt).1 :=
    loopEnd_serves w hup.serves
  rw [hs.lastPersist] at hpersist
  -- the last persist is a checkpoint of its own
  obtain ⟨-, hconn⟩ := (allOrNothing_persistLatestValues w.libs.events.engine _ w.shutdownMs
    (loopEnd w s.registered.rt).1.store).2 (hstatus.symm.trans hpersist)
  have hresumable : Resumable (startupLoad w options).2.nodes
      { (loopEnd w s.registered.rt).1 with store := (serveAndStop w s.registered).2.2.1 }
      (loopEnd w s.registered.rt).1.model.nodes := by
    refine ⟨⟨hserves.config, hserves.flags⟩, hserves.config, ?_⟩
    dsimp only
    rw [hstore, hconn]
    exact comesBack_upsertAll hserves.config hserves.flags w.shutdownMs _
  rw [hs.model, hs'.startModel, hmodel]
  refine hresumable.resumesFrom hup' hread' ?_ ?_
  · rw [hpath, hs.disk]
    simp [closedDisk, edgeStoreClose, Session.close, Conn.close]
  · rw [startupLoad_model hup'.loaded, startupLoad_model hup.loaded, hfile]

/-! The pump is started by a client and the process stopped and started again. -/

/-- Libraries that refuse nothing, with the pump's template. -/
def pumpWorld (iterations : List (List RunOp)) : World Unit Unit Unit where
  installsSignals := true
  files _ := some pumpTemplate
  sqliteOpen _ := .opened
  sqlite := ()
  network := ()
  libs := pumpLibs true
  server :=
    { setMinimal := fun _ => true
      newWithConfig := fun _ => some ()
      addRepeatedCallback := fun ua => (some 1, ua)
      runStartup := fun ua => (true, ua)
      runIterate := id
      runShutdown := id
      removeCallback := fun _ ua => ua }
  builder :=
    { addNamespace := fun _ ua => (2, ua)
      addNode := fun _ ua => (true, ua) }
  iterations := iterations
  shutdownMs := 9

/-- A disk without a database. -/
def emptyDisk : Disk := fun _ => {}

/-- Without a PLC, so that a node keeps what was written to it. -/
def offline : Options := { modbusHost := [] }

/-- Every request of a startup so far was answered. -/
def answered (w : World σ τ ρ) (options : Options) (disk : Disk) : Bool :=
  (startupStore w (disk options.dbPath) (startupLoad w options).2).2.store.log.all fun e =>
    e.verdict = .ok

/-- The check that the examples evaluate is enough for the condition. -/
theorem restoreAnswered_of_answered {w : World σ τ ρ} {options : Options} {disk : Disk}
    (hstore : (startupStore w (disk options.dbPath) (startupLoad w options).2).1 = .modbus)
    (h : answered w options disk = true) : RestoreAnswered w options disk := by
  refine Session.not_refused_of_forall fun e he => ?_
  unfold answered at h
  rw [(startupStore_ok hstore).2.2.1] at h
  simpa using List.all_eq_true.mp h e (List.mem_of_mem_drop he)

/-- A process that starts the pump and is then stopped. -/
def pumpStopped : ProcessEnd Unit := edgeMain (pumpWorld [startPump]) offline emptyDisk

theorem stopped_pump_resumes :
    (edgeMain (pumpWorld []) offline pumpStopped.disk).startModel.nodes.map (·.value.b) =
        [0, 1] ∧
      ResumesFrom pumpStopped.model.nodes
        (edgeMain (pumpWorld []) offline pumpStopped.disk).startModel.nodes := by
  obtain ⟨hserved, hpersist, hagain, hanswered, hvalues⟩ :
      pumpStopped.stage = .served ∧ pumpStopped.lastPersist = .ok ∧
        (edgeMain (pumpWorld []) offline pumpStopped.disk).stage = .served ∧
        answered (pumpWorld []) offline pumpStopped.disk = true ∧
        (edgeMain (pumpWorld []) offline pumpStopped.disk).startModel.nodes.map (·.value.b) =
          [0, 1] := by decide +kernel
  refine ⟨hvalues, ?_⟩
  obtain ⟨s, hs⟩ := edgeMain_served hagain
  -- the restore of this run was answered, as the evaluation shows
  have hread := restoreAnswered_of_answered (edgeStartup_some hs.startup).store hanswered
  unfold pumpStopped at hserved hpersist hagain hread ⊢
  exact stopped_process_resumes (pumpWorld [startPump]) offline emptyDisk hserved hpersist
    (pumpWorld []) offline rfl rfl hagain hread

/-- The pump is started, its state persisted with the 50th tick, and a client stops it again. -/
def pumpKilledAfter : List RunOp :=
  startPump ++ List.replicate 49 (.tick { evaluateMs := 2, persistMs := 2 }) ++
    [.write 1 (some (.boolean false)), .tick { evaluateMs := 3, persistMs := 3 }]

/-- The process killed after this, and the one that follows. -/
def pumpLives : Option (Started Unit Unit Unit × Started Unit Unit Unit) :=
  (edgeStartup (pumpWorld [pumpKilledAfter]) offline emptyDisk).bind fun s =>
    (edgeStartup (pumpWorld []) offline
      (killedDisk (pumpWorld [pumpKilledAfter]) offline emptyDisk s)).map fun s' => (s, s')

/-- A client's write after the last commit is lost with the kill, and the next process has the
committed value. -/
theorem killed_pump_resumes :
    ∃ s s', pumpLives = some (s, s') ∧
      (loopEnd (pumpWorld [pumpKilledAfter]) s.registered.rt).1.model.nodes.map (·.value.b) =
        [0, 0] ∧
      s'.opened.model.nodes.map (·.value.b) = [0, 1] ∧
      ResumesFrom (loopEnd (pumpWorld [pumpKilledAfter]) s.registered.rt).2
        s'.opened.model.nodes := by
  have hlives : (pumpLives.map fun lives =>
      ((loopEnd (pumpWorld [pumpKilledAfter]) lives.1.registered.rt).1.model.nodes.map (·.value.b),
        lives.2.opened.model.nodes.map (·.value.b),
        answered (pumpWorld [pumpKilledAfter]) offline emptyDisk,
        answered (pumpWorld []) offline
          (killedDisk (pumpWorld [pumpKilledAfter]) offline emptyDisk lives.1))) =
      some ([0, 0], [0, 1], true, true) := by decide +kernel
  obtain ⟨⟨s, s'⟩, hsome, hfacts⟩ := Option.map_eq_some_iff.mp hlives
  obtain ⟨hkilled, hvalues, hanswered, hanswered'⟩ :
      _ ∧ _ ∧ _ ∧ _ := by simpa only [Prod.mk.injEq] using hfacts
  obtain ⟨s, hs, hnext⟩ := Option.bind_eq_some_iff.mp hsome
  obtain ⟨s', hs', heq⟩ := Option.map_eq_some_iff.mp hnext
  cases heq
  -- the values are those of the 50th tick, not those of the kill
  refine ⟨s, s', hsome, hkilled, hvalues, ?_⟩
  exact killed_process_resumes (pumpWorld [pumpKilledAfter]) offline emptyDisk s hs
    (restoreAnswered_of_answered (edgeStartup_some hs).store hanswered) (pumpWorld []) offline rfl
    rfl s' hs' (restoreAnswered_of_answered (edgeStartup_some hs').store hanswered')

end OpcuaEdge
