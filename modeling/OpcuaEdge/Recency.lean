import OpcuaEdge.Restart

/-!
# OpcuaEdge — how old a checkpoint can be

While SQLite refuses nothing and no value is a NaN, every tick that is due to persist succeeds. The
last checkpoint is then the values after the latest tick whose number is a multiple of
`persist_every_n_ticks`, so a process that is killed loses less than that many ticks
(`killed_process_loses_few_ticks`).
-/

namespace OpcuaEdge

open CStr CLoop Txn Upsert

variable {σ τ ρ σ' τ' ρ' : Type}

/-! ## The values after each tick

A checkpoint is due every so many ticks. The values after each of the ticks are noted, so that a
checkpoint can be found among them. -/

/-- Notes the nodes after every tick. -/
def noteTick (libs : Libs σ τ ρ) (rt : EdgeRuntime σ τ ρ) (op : RunOp)
    (ticked : List (List EdgeNode)) : List (List EdgeNode) :=
  match op with
  | .write _ _ => ticked
  | .tick clock => ticked ++ [(edgeRuntimeTick libs clock rt).1.model.nodes]

/-- The nodes that a process starts with, and those after each tick of its server loop. -/
def tickedNodes (w : World σ τ ρ) (rt : EdgeRuntime σ τ ρ) : List (List EdgeNode) :=
  (trackLoop w (noteTick w.libs) rt [rt.model.nodes]).2

/-- No value is a NaN. -/
def NoNan (nodes : List EdgeNode) : Prop := ∀ node ∈ nodes, (edgeNodeAsDouble node).isNan = false

instance (nodes : List EdgeNode) : Decidable (NoNan nodes) :=
  inferInstanceAs (Decidable (∀ node ∈ nodes, _))

/-- The latest of the first `count` ticks that was due to persist. Its number, which has 64 bits, is
a multiple of `every`. -/
def lastDue (every : UInt32) (count : Nat) : Nat :=
  count - (UInt64.ofNat count % every.toUInt64).toNat

/-- The number of a tick, modulo the interval. -/
theorem toNat_ofNat_mod (every : UInt32) (count : Nat) :
    (UInt64.ofNat count % every.toUInt64).toNat = count % 2 ^ 64 % every.toNat := by
  rw [UInt64.toNat_mod, UInt64.toNat_ofNat', UInt32.toNat_toUInt64]

/-- A tick at which storing is due is the last one that was. -/
theorem lastDue_succ_of_due {every : UInt32} {count : Nat}
    (h : UInt64.ofNat (count + 1) % every.toUInt64 = 0) :
    lastDue every (count + 1) = count + 1 := by
  unfold lastDue
  rw [h]
  rfl

/-- A tick that is not due leaves the latest one that was as it is: the number wraps to 0 only, and
0 is due. -/
theorem lastDue_succ_of_not_due {every : UInt32} {count : Nat}
    (h : UInt64.ofNat (count + 1) % every.toUInt64 ≠ 0) :
    lastDue every (count + 1) = lastDue every count := by
  have hnot : (count + 1) % 2 ^ 64 % every.toNat ≠ 0 := by
    rw [← toNat_ofNat_mod]
    exact fun hzero => h (UInt64.toNat_inj.mp hzero)
  -- a tick number that wraps to 0 would be due
  have hnumber : (count + 1) % 2 ^ 64 = count % 2 ^ 64 + 1 := by
    have hwrap : (count + 1) % 2 ^ 64 ≠ 0 := fun hzero => hnot (by rw [hzero, Nat.zero_mod])
    omega
  have hstep : (count % 2 ^ 64 + 1) % every.toNat = count % 2 ^ 64 % every.toNat + 1 := by
    rw [hnumber] at hnot
    have hdiv := Nat.succ_div_of_not_dvd fun hdvd => hnot (Nat.mod_eq_zero_of_dvd hdvd)
    have hsplit := Nat.div_add_mod (count % 2 ^ 64 + 1) every.toNat
    have hsplit' := Nat.div_add_mod (count % 2 ^ 64) every.toNat
    rw [hdiv] at hsplit
    omega
  unfold lastDue
  rw [toNat_ofNat_mod, toNat_ofNat_mod, hnumber, hstep, Nat.add_sub_add_right]

theorem lastDue_le (every : UInt32) (count : Nat) : lastDue every count ≤ count := Nat.sub_le ..

/-- Less than `every` ticks came after the latest one that was due. -/
theorem lt_lastDue_add {every : UInt32} (h : every ≠ 0) (count : Nat) :
    count < lastDue every count + every.toNat := by
  have hpos : 0 < every.toNat := Nat.pos_of_ne_zero fun hzero => h (UInt32.toNat_inj.mp hzero)
  have hlt : count % 2 ^ 64 % every.toNat < every.toNat := Nat.mod_lt _ hpos
  unfold lastDue
  rw [toNat_ofNat_mod]
  omega

/-! ## The checkpoint of a step

A step that stores makes its own values the checkpoint. Any other step leaves the last one. -/

/-- The pass of a tick opens no transaction. -/
theorem tickPass_txn (libs : Libs σ τ ρ) (clock : TickClock) {rt : EdgeRuntime σ τ ρ}
    (h : rt.store.conn.txn = none) : (tickPass libs clock rt).store.conn.txn = none := by
  refine sweep_state (fun s : EvalState τ ρ => s.store.conn.txn = none) (fun i event s hs => ?_)
    _ 0 { store := rt.store, server := rt.server } h
  -- the insert is the pass's only statement, and it opens no transaction
  have hrecorded : ∀ model : EdgeModel,
      (s.recorded libs.events model clock.evaluateMs i event).2.store.conn.txn = none := by
    intro model
    show (edgeStoreInsertEventHistory libs.events.engine _ _ _ s.store).2.conn.txn = none
    unfold edgeStoreInsertEventHistory
    dsimp only
    split_ifs
    · exact hs
    · exact Session.step_txn_none hs
  obtain ⟨-, hturn⟩ | ⟨-, -, hturn⟩ | ⟨-, -, -, hturn⟩ | ⟨-, -, -, _, rfl, hturn⟩ :=
    evaluateEvent_cases libs.events _ clock.evaluateMs i event s
  · rw [hturn]; exact hs
  · rw [hturn]; exact hrecorded _
  · rw [hturn]; exact hrecorded _
  · rw [hturn]; exact hrecorded _

/-- A persist that is due succeeds, and ends its transaction. -/
theorem tickPersist_ok {libs : Libs σ τ ρ} (hengine : libs.events.engine.NeverRefuses)
    (clock : TickClock) {rt : EdgeRuntime σ τ ρ} (htxn : rt.store.conn.txn = none)
    (hstorable : ∀ node ∈ (edgeRuntimeTick libs clock rt).1.model.nodes, node.Storable) :
    (tickPersist libs clock rt).1 = .ok ∧ (tickPersist libs clock rt).2.conn.txn = none := by
  have hok : (tickPersist libs clock rt).1 = .ok :=
    persistLatestValues_of_neverRefuses hengine clock.persistMs (tickPass_txn libs clock htxn)
      hstorable
  obtain ⟨-, hconn⟩ := (allOrNothing_persistLatestValues libs.events.engine
    (tickPass libs clock rt).model clock.persistMs (tickPass libs clock rt).store).2 hok
  exact ⟨hok, congrArg Conn.txn hconn⟩

/-- After `ticks` ticks the checkpoint is the note of the latest one that was due. -/
structure Recent (every : UInt32) (ticks : Nat) (rt : EdgeRuntime σ τ ρ) (point : List EdgeNode)
    (ticked : List (List EdgeNode)) : Prop where
  interval : rt.persistEveryNTicks = every
  outside : rt.store.conn.txn = none
  count : rt.tickCount = .ofNat ticks
  length : ticked.length = ticks + 1
  point : ticked[lastDue every ticks]? = some point

/-- One step. A write adds no tick. A tick adds its values, and where it stores them they are the
checkpoint. -/
theorem runStep_recent {libs : Libs σ τ ρ} (hengine : libs.events.engine.NeverRefuses)
    {every : UInt32} (hevery : every ≠ 0) {ticks : Nat} {rt : EdgeRuntime σ τ ρ}
    {point : List EdgeNode} {ticked : List (List EdgeNode)} (h : Recent every ticks rt point ticked)
    (op : RunOp) (hkeys : ∀ node ∈ (runStep libs rt op).1.model.nodes, (makeNodeKey node).1 = .ok)
    (hnan : ∀ nodes ∈ noteTick libs rt op ticked, NoNan nodes) :
    ∃ ticks', Recent every ticks' (runStep libs rt op).1 (checkpoint libs rt op point)
      (noteTick libs rt op ticked) := by
  cases op with
  | write i value =>
    have hpoint : checkpoint libs rt (.write i value) point = point := if_neg id
    refine ⟨ticks, ?_⟩
    obtain hstep | ⟨_, _, hstep⟩ | ⟨_, _, _, _, _, _, _, _, hstep⟩ :=
      runStep_write_cases libs rt i value
    all_goals
      rw [hstep, hpoint]
      exact ⟨h.interval, h.outside, h.count, h.length, h.point⟩
  | tick clock =>
    have hnew : (edgeRuntimeTick libs clock rt).1.model.nodes ∈
        noteTick libs rt (.tick clock) ticked := List.mem_append_right _ (List.mem_singleton_self _)
    obtain ⟨hok, htxn⟩ := tickPersist_ok hengine clock h.outside fun node hmem =>
      ⟨hkeys node hmem, hnan _ hnew node hmem⟩
    have hcount : (edgeRuntimeTick libs clock rt).1.tickCount = .ofNat (ticks + 1) :=
      (congrArg (· + 1) h.count).trans (UInt64.ofNat_add ticks 1).symm
    have hlength : (noteTick libs rt (.tick clock) ticked).length = ticks + 2 := by
      show (ticked ++ [_]).length = _
      rw [List.length_append, h.length]
      rfl
    have hstore := edgeRuntimeTick_store libs clock rt
    have hmod : (rt.tickCount + 1) % rt.persistEveryNTicks.toUInt64 =
        UInt64.ofNat (ticks + 1) % every.toUInt64 := by
      rw [h.interval, h.count, UInt64.ofNat_add]
      rfl
    refine ⟨ticks + 1, ?_⟩
    -- a due tick persists what it left; any other tick keeps the checkpoint there was
    by_cases hdue : rt.PersistDue
    · rw [if_pos hdue] at hstore
      refine ⟨h.interval, (congrArg (·.conn.txn) hstore).trans htxn, hcount, hlength, ?_⟩
      have hcheckpoint : checkpoint libs rt (.tick clock) point =
          (edgeRuntimeTick libs clock rt).1.model.nodes := if_pos ⟨hdue, hok⟩
      have hlast : lastDue every (ticks + 1) = ticked.length := by
        rw [h.length]
        exact lastDue_succ_of_due (hmod.symm.trans hdue.2)
      show (ticked ++ [_])[lastDue every (ticks + 1)]? = _
      rw [hcheckpoint, hlast, List.getElem?_concat_length]
    · rw [if_neg hdue] at hstore
      refine ⟨h.interval, (congrArg (·.conn.txn) hstore).trans (tickPass_txn libs clock h.outside),
        hcount, hlength, ?_⟩
      have hcheckpoint : checkpoint libs rt (.tick clock) point = point :=
        if_neg fun hp => hdue hp.1
      have hlast : lastDue every (ticks + 1) = lastDue every ticks := by
        refine lastDue_succ_of_not_due fun hzero => hdue ⟨?_, hmod.trans hzero⟩
        rw [h.interval]
        exact hevery
      have hlt : lastDue every ticks < ticked.length := by
        have hle := lastDue_le every ticks
        rw [h.length]
        omega
      show (ticked ++ [_])[lastDue every (ticks + 1)]? = _
      rw [hcheckpoint, hlast, List.getElem?_append_left hlt]
      exact h.point

/-! ## The loop

The server loop, by induction on its turns. -/

/-- The loop keeps the checkpoint recent, as long as no tick leaves a NaN. -/
theorem loopEnd_recent (w : World σ τ ρ) (hengine : w.libs.events.engine.NeverRefuses)
    {rt : EdgeRuntime σ τ ρ} {loaded : List EdgeNode} (hserves : Serves loaded rt)
    (hkeys : ∀ node ∈ loaded, (makeNodeKey node).1 = .ok) (htxn : rt.store.conn.txn = none)
    (hcount : rt.tickCount = 0) (hevery : rt.persistEveryNTicks ≠ 0)
    (hnan : ∀ nodes ∈ tickedNodes w rt, NoNan nodes) :
    ∃ ticks, Recent rt.persistEveryNTicks ticks (loopEnd w rt).1 (loopEnd w rt).2
      (tickedNodes w rt) := by
  have hstart : Recent rt.persistEveryNTicks 0 rt rt.model.nodes [rt.model.nodes] :=
    ⟨rfl, htxn, hcount, rfl, by rw [lastDue, Nat.zero_sub]; rfl⟩
  refine (trackLoop_induction₂ w (checkpoint w.libs) (noteTick w.libs)
    (fun rt' point ticked => Serves loaded rt' ∧
      ((∀ nodes ∈ ticked, NoNan nodes) →
        ∃ ticks, Recent rt.persistEveryNTicks ticks rt' point ticked))
    ?_ ?_ ⟨hserves, fun _ => ⟨0, hstart⟩⟩).2 hnan
  · rintro rt' point ticked server ⟨hserves', hrecent⟩
    refine ⟨⟨hserves'.config, hserves'.flags⟩, fun hall => ?_⟩
    obtain ⟨ticks, hinterval, houtside, hnumber, hlength, hpoint⟩ := hrecent hall
    exact ⟨ticks, hinterval, houtside, hnumber, hlength, hpoint⟩
  · rintro rt' point ticked op ⟨hserves', hrecent⟩
    have hserves'' := runStep_serves w.libs hserves' op
    refine ⟨hserves'', fun hall => ?_⟩
    -- nothing that was noted is dropped
    have hkept : ∀ nodes ∈ ticked, nodes ∈ noteTick w.libs rt' op ticked := by
      intro nodes hmem
      cases op with
      | write i value => exact hmem
      | tick clock => exact List.mem_append_left _ hmem
    obtain ⟨ticks, hticks⟩ := hrecent fun nodes hmem => hall nodes (hkept nodes hmem)
    exact runStep_recent hengine hevery hticks op
      (forall_of_config (fun _ => Iff.rfl) hserves''.config hkeys) hall

/-! ## Coming back

So what a killed process comes back to is at most one interval of ticks old. -/

/-- An engine that refuses nothing answers every request of the restore. -/
theorem restoreAnswered_of_neverRefuses {w : World σ τ ρ}
    (h : w.libs.events.engine.NeverRefuses) (options : Options) (disk : Disk) :
    RestoreAnswered w options disk := by
  -- every request of the restore adds an entry that was answered
  have hall : ∀ (store : Store τ) (model : EdgeModel), ∃ new,
      (edgeStoreLoadLatestValues w.libs.events.engine store model).2.1.log = store.log ++ new ∧
        ∀ e ∈ new, e.verdict = .ok := by
    intro store model
    have hprepare : ∃ new, (store.prepare w.libs.events.engine).2.log = store.log ++ new ∧
        ∀ e ∈ new, e.verdict = .ok :=
      ⟨_, rfl, fun e he => by rw [List.mem_singleton.mp he]; exact h _ _⟩
    unfold edgeStoreLoadLatestValues
    dsimp only
    split_ifs
    · exact hprepare
    · refine sweep_state (fun s : Store τ => ∃ new, s.log = store.log ++ new ∧
        ∀ e ∈ new, e.verdict = .ok) (fun i node s hs => ?_) model.nodes 0 _ hprepare
      obtain ⟨new, hlog, hnew⟩ := hs
      refine restoreRow_store (P := fun s : Store τ => ∃ new, s.log = store.log ++ new ∧
        ∀ e ∈ new, e.verdict = .ok) (fun select => ?_) ⟨new, hlog, hnew⟩
      refine ⟨_, (Session.query_log w.libs.events.engine select s).trans
        ((congrArg (· ++ _) hlog).trans (List.append_assoc _ _ _)), fun e he => ?_⟩
      rcases List.mem_append.mp he with hold | hadded
      · exact hnew e hold
      · rw [List.mem_singleton.mp hadded]
        exact h _ _
  unfold RestoreAnswered
  dsimp only
  refine Session.not_refused_of_forall fun e he => ?_
  obtain ⟨new, hlog, hnew⟩ := hall (edgeStorePersistModel w.libs.events.engine
    (startupLoad w options).2 (startupSchema w (disk options.dbPath)).2.2).2
    (startupLoad w options).2
  rw [hlog, List.drop_left] at he
  exact hnew e he

/-- Reading opens no transaction. -/
theorem loadLatestValues_txn (engine : Engine τ) (model : EdgeModel) {store : Store τ}
    (h : store.conn.txn = none) :
    (edgeStoreLoadLatestValues engine store model).2.1.conn.txn = none := by
  unfold edgeStoreLoadLatestValues
  dsimp only
  split_ifs
  · exact h
  · exact sweep_state (fun s : Store τ => s.conn.txn = none)
      (fun i node s hs => restoreRow_store (P := fun t : Store τ => t.conn.txn = none)
        (fun _ => Session.query_txn_none hs) hs) model.nodes 0 _ h

/-- A process that came up has no transaction open. -/
theorem ComesUp.outside {w : World σ τ ρ} {options : Options} {disk : Disk} {s : Started σ τ ρ}
    (h : ComesUp w options disk s) : s.registered.rt.store.conn.txn = none := by
  obtain ⟨-, hpersist, hstore, -⟩ := startupStore_ok h.store
  obtain ⟨-, hrt, -⟩ := startupServer_runtime h.registered
  obtain ⟨-, hconn⟩ := (allOrNothing_persistModel w.libs.events.engine _
    (startupSchema w (disk options.dbPath)).2.2).2 hpersist
  rw [hrt, h.opened, hstore]
  exact loadLatestValues_txn _ _ (congrArg Conn.txn hconn)

/-- **A process that is killed loses less than 50 ticks.** While SQLite refuses nothing and no tick
leaves a NaN, the next process with the same template and database comes back to the values after
the latest tick whose number was a multiple of 50, or to those the killed process started from. -/
theorem killed_process_loses_few_ticks (w : World σ τ ρ) (options : Options) (disk : Disk)
    (hengine : w.libs.events.engine.NeverRefuses) (s : Started σ τ ρ)
    (hs : edgeStartup w options disk = some s)
    (hnan : ∀ nodes ∈ tickedNodes w s.registered.rt, NoNan nodes) (w' : World σ' τ' ρ')
    (options' : Options) (hfile : w'.files options'.configPath = w.files options.configPath)
    (hpath : options'.dbPath = options.dbPath) (hengine' : w'.libs.events.engine.NeverRefuses)
    (s' : Started σ' τ' ρ')
    (hs' : edgeStartup w' options' (killedDisk w options disk s) = some s') :
    ∃ ticks point,
      (tickedNodes w s.registered.rt)[lastDue 50 ticks]? = some point ∧
        (tickedNodes w s.registered.rt).length = ticks + 1 ∧
        (loopEnd w s.registered.rt).1.tickCount = .ofNat ticks ∧
        ticks < lastDue 50 ticks + 50 ∧
        ResumesFrom point s'.opened.model.nodes := by
  have hup := edgeStartup_some hs
  have hwired := (startupLoad_ok hup.loaded).wired
  obtain ⟨-, -, hcount, hinterval, -⟩ := startupServer_runtime hup.registered
  have hkeys : ∀ node ∈ (startupLoad w options).2.nodes, (makeNodeKey node).1 = .ok :=
    fun node hmem => by rw [makeNodeKey_eq (hwired.nodes node hmem)]
  -- the runtime of a started process stores its values every fifty ticks
  obtain ⟨ticks, hrecent⟩ := loopEnd_recent w hengine hup.serves hkeys hup.outside hcount
    (by rw [hinterval]; decide) hnan
  rw [hinterval] at hrecent
  refine ⟨ticks, _, hrecent.point, hrecent.length, hrecent.count,
    lt_lastDue_add (by decide) ticks, ?_⟩
  exact hup.killed_resumes (restoreAnswered_of_neverRefuses hengine options disk) hfile hpath
    (edgeStartup_some hs') (restoreAnswered_of_neverRefuses hengine' options' _)

/-- The process of the pump is killed after its 51st tick. -/
theorem killed_pump_loses_one_tick :
    ∃ s s' point, pumpLives = some (s, s') ∧
      (loopEnd (pumpWorld [pumpKilledAfter]) s.registered.rt).1.tickCount = 51 ∧
      (tickedNodes (pumpWorld [pumpKilledAfter]) s.registered.rt)[50]? = some point ∧
      ResumesFrom point s'.opened.model.nodes := by
  have hlives : (pumpLives.map fun lives : Started Unit Unit Unit × Started Unit Unit Unit =>
      ((loopEnd (pumpWorld [pumpKilledAfter]) lives.1.registered.rt).1.tickCount,
        (tickedNodes (pumpWorld [pumpKilledAfter]) lives.1.registered.rt).length,
        decide (∀ nodes ∈ tickedNodes (pumpWorld [pumpKilledAfter]) lives.1.registered.rt,
          NoNan nodes))) = some (51, 52, true) := by decide +kernel
  obtain ⟨⟨s, s'⟩, hsome, hfacts⟩ := Option.map_eq_some_iff.mp hlives
  obtain ⟨hcount, hticked, hnan⟩ : _ ∧ _ ∧ _ := by simpa only [Prod.mk.injEq] using hfacts
  obtain ⟨s, hs, hnext⟩ := Option.bind_eq_some_iff.mp hsome
  obtain ⟨s', hs', heq⟩ := Option.map_eq_some_iff.mp hnext
  cases heq
  obtain ⟨ticks, point, hpoint, hlength, -, -, hresumes⟩ := killed_process_loses_few_ticks
    (pumpWorld [pumpKilledAfter]) offline emptyDisk (fun _ _ => rfl) s hs (of_decide_eq_true hnan)
    (pumpWorld []) offline rfl rfl (fun _ _ => rfl) s' hs'
  -- the count of the values tells the count of the ticks
  have hticks : ticks = 51 := by
    rw [hticked] at hlength
    omega
  rw [hticks] at hpoint
  exact ⟨s, s', point, hsome, hcount, hpoint, hresumes⟩

end OpcuaEdge
