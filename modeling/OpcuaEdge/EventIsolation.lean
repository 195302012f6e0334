import OpcuaEdge.EventHistory
import OpcuaEdge.StoreTxn

/-!
# OpcuaEdge — events of one pass

A pass over all events next to passes over each of them alone. The events are taken in order until
an insert or an emission fails, and those behind the failure are not looked at. An event that is
looked at is treated as if it were alone; one that is not keeps its latch, which loses an edge if
there was one (`events_independent_iff`). The rows and notifications of an event are told by its
attempts, and that these are what happened to the store and the server is
`edgeEventsEvaluate_ledger`.
-/

namespace OpcuaEdge

open CStr CLoop Txn

variable {τ ρ : Type}

/-! ## One event of a pass

A pass makes at most two attempts for one event: a history row, and after it a notification. The
trace says which attempts each event made and how its latch ended. -/

/-- The attempts of a pass for one event. -/
def attemptsFor (i : Nat) (attempts : List EventAttempt) : List EventAttempt :=
  attempts.filter (·.index = i)

/-- The attempts that a pass which looks at the event makes for it. -/
def ActsOn (model : EdgeModel) (event : EdgeEvent) (i : Nat) (own : List EventAttempt) : Prop :=
  (rises model event = false ∧ own = []) ∨
    (rises model event = true ∧
      ((∃ status, status ≠ .ok ∧ own = [.insert i status]) ∨
        ∃ status, own = [.insert i .ok, .emit i status]))

/-- The pass looked at the event: none before it has failed. -/
structure Reached (model : EdgeModel) (attempts : List EventAttempt) (events' : List EdgeEvent)
    (k i : Nat) (event : EdgeEvent) : Prop where
  before : ∀ a ∈ attempts, a.index < i → a.status = .ok
  latch : events'[k]? = some (event.setActive (eventConditionMet model event))
  own : ActsOn model event i (attemptsFor i attempts)

/-- The pass ended before the event. -/
structure Missed (attempts : List EventAttempt) (events' : List EdgeEvent) (k i : Nat)
    (event : EdgeEvent) : Prop where
  before : ∃ a ∈ attempts, a.index < i ∧ a.status ≠ .ok
  latch : events'[k]? = some event
  own : attemptsFor i attempts = []

/-- The attempts of the events from the `i`-th on are theirs. -/
theorem PassTrace.index_le {model : EdgeModel} {i : Nat} {events events' : List EdgeEvent}
    {attempts : List EventAttempt} (h : PassTrace model i events attempts events') :
    ∀ a ∈ attempts, i ≤ a.index := by
  intro a ha
  obtain ⟨k, _, _, hindex, _⟩ := h.passAttempts.edge a ha
  omega

theorem attemptsFor_eq_nil {i : Nat} {attempts : List EventAttempt}
    (h : ∀ a ∈ attempts, a.index ≠ i) : attemptsFor i attempts = [] :=
  List.filter_eq_nil_iff.mpr fun a ha => by simpa using h a ha

/-- The attempts for one event, over two stretches of a pass. -/
theorem attemptsFor_append (i : Nat) (a b : List EventAttempt) :
    attemptsFor i (a ++ b) = attemptsFor i a ++ attemptsFor i b := List.filter_append _ _

/-- More events in front, whose attempts all succeeded. -/
theorem Reached.cons {model : EdgeModel} {attempts first : List EventAttempt}
    {events' : List EdgeEvent} {k i : Nat} {event : EdgeEvent}
    (h : Reached model attempts events' k i event)
    (hfirst : ∀ a ∈ first, a.index < i ∧ a.status = .ok) (e' : EdgeEvent) :
    Reached model (first ++ attempts) (e' :: events') (k + 1) i event where
  before a ha hlt := by
    rcases List.mem_append.mp ha with ha | ha
    · exact (hfirst a ha).2
    · exact h.before a ha hlt
  latch := h.latch
  own := by
    rw [attemptsFor_append, attemptsFor_eq_nil fun a ha => Nat.ne_of_lt (hfirst a ha).1,
      List.nil_append]
    exact h.own

/-- A missed transition stays missed with one more event in front. -/
theorem Missed.cons {attempts first : List EventAttempt} {events' : List EdgeEvent} {k i : Nat}
    {event : EdgeEvent} (h : Missed attempts events' k i event)
    (hfirst : ∀ a ∈ first, a.index < i) (e' : EdgeEvent) :
    Missed (first ++ attempts) (e' :: events') (k + 1) i event where
  before := by
    obtain ⟨a, ha, hlt, hbad⟩ := h.before
    exact ⟨a, List.mem_append_right _ ha, hlt, hbad⟩
  latch := h.latch
  own := by
    rw [attemptsFor_append, attemptsFor_eq_nil fun a ha => Nat.ne_of_lt (hfirst a ha), h.own]
    rfl

/-- The first event is always looked at. -/
theorem PassTrace.reached_first {model : EdgeModel} {i : Nat} {event e' : EdgeEvent}
    {rest rest' : List EdgeEvent} {attempts : List EventAttempt}
    (h : PassTrace model i (event :: rest) attempts (e' :: rest'))
    (hlatch : e' = event.setActive (eventConditionMet model event))
    (hown : ActsOn model event i (attemptsFor i attempts)) :
    Reached model attempts (e' :: rest') 0 (i + 0) event where
  before a ha hlt := absurd (h.index_le a ha) (by omega)
  latch := congrArg some hlatch
  own := hown

/-- **A pass looks at each event as if it were alone, or not at all.** -/
theorem PassTrace.reached_or_missed {model : EdgeModel} {i : Nat}
    {events events' : List EdgeEvent} {attempts : List EventAttempt}
    (h : PassTrace model i events attempts events') :
    ∀ (k : Nat) (event : EdgeEvent), events[k]? = some event →
      Reached model attempts events' k (i + k) event ∨
        Missed attempts events' k (i + k) event := by
  have hlatch : ∀ {event : EdgeEvent}, rises model event = true →
      event.setActive true = event.setActive (eventConditionMet model event) := fun hrises => by
    rw [(conditionMet_of_rises hrises).1]
  -- The first event of the trace is reached. A later one is reached or missed by the rest, where
  -- the first does not end the pass, and missed where it does.
  induction h with
  | done => intro k event hget; cases hget
  | quiet hquiet hrest ih =>
    rename_i i head rest attempts rest'
    intro k event hget
    cases k with
    | zero =>
      cases hget
      refine .inl ((PassTrace.quiet hquiet hrest).reached_first rfl (.inl ⟨hquiet, ?_⟩))
      exact attemptsFor_eq_nil fun a ha => Nat.ne_of_gt (hrest.index_le a ha)
    | succ k =>
      rw [show i + (k + 1) = i + 1 + k from by omega]
      exact (ih k event hget).imp (fun h => h.cons (List.forall_mem_nil _) _)
        fun h => h.cons (List.forall_mem_nil _) _
  | fired hrises hrest ih =>
    rename_i i head rest attempts rest'
    intro k event hget
    cases k with
    | zero =>
      cases hget
      refine .inl ((PassTrace.fired hrises hrest).reached_first (hlatch hrises)
        (.inr ⟨hrises, .inr ⟨.ok, ?_⟩⟩))
      show attemptsFor i ([.insert i .ok, .emit i .ok] ++ attempts) = _
      rw [attemptsFor_append, attemptsFor_eq_nil fun a ha => Nat.ne_of_gt (hrest.index_le a ha)]
      simp [attemptsFor, EventAttempt.index]
    | succ k =>
      have hfirst : ∀ a ∈ [EventAttempt.insert i .ok, .emit i .ok],
          a.index < i + 1 + k ∧ a.status = .ok := by
        intro a ha
        have hlt : i < i + 1 + k := by omega
        rcases List.mem_pair.mp ha with rfl | rfl
        · exact ⟨hlt, rfl⟩
        · exact ⟨hlt, rfl⟩
      rw [show i + (k + 1) = i + 1 + k from by omega]
      exact (ih k event hget).imp (fun h => h.cons hfirst _)
        fun h => h.cons (fun a ha => (hfirst a ha).1) _
  | unrecorded hrises hfailed =>
    rename_i i head rest status
    intro k event hget
    cases k with
    | zero =>
      cases hget
      refine .inl ((PassTrace.unrecorded hrises hfailed).reached_first (hlatch hrises)
        (.inr ⟨hrises, .inl ⟨status, hfailed, ?_⟩⟩))
      simp [attemptsFor, EventAttempt.index]
    | succ k =>
      have hlt : i < i + (k + 1) := by omega
      refine .inr ⟨⟨_, List.mem_singleton_self _, hlt, hfailed⟩, hget, attemptsFor_eq_nil ?_⟩
      intro a ha
      cases List.mem_singleton.mp ha
      exact Nat.ne_of_lt hlt
  | unemitted hrises hfailed =>
    rename_i i head rest status
    intro k event hget
    cases k with
    | zero =>
      cases hget
      refine .inl ((PassTrace.unemitted hrises hfailed).reached_first (hlatch hrises)
        (.inr ⟨hrises, .inr ⟨status, ?_⟩⟩))
      simp [attemptsFor, EventAttempt.index]
    | succ k =>
      have hlt : i < i + (k + 1) := by omega
      refine .inr ⟨⟨.emit i status, by simp, hlt, hfailed⟩, hget, attemptsFor_eq_nil ?_⟩
      intro a ha
      rcases List.mem_pair.mp ha with rfl | rfl
      · exact Nat.ne_of_lt hlt
      · exact Nat.ne_of_lt hlt

/-! ## What a pass adds for one event

The attempts of a pass say what they left behind: a history row for each insert that was answered,
a notification for each emission that was. This ties the attempts to the store and to the server. -/

/-- The row that a successful insert appended to the history. -/
def recordedRow (model : EdgeModel) (nowMs : Nat) : EventAttempt → Option HistoryRow
  | .insert i .ok => model.events[i]?.map (historyRow model nowMs)
  | _ => none

/-- The notification that a successful emission handed to the server. -/
def emittedNotification (model : EdgeModel) : EventAttempt → Option UaEvent
  | .emit i .ok => model.events[i]?.map fun event => (uaEventOf model event 0).body
  | _ => none

/-- An insert that was answered left the row of its event. -/
theorem recordedRow_insert (model : EdgeModel) (nowMs : Nat) {i : Nat} {event : EdgeEvent}
    (hevent : model.events[i]? = some event) (status : EdgeStatus) :
    recordedRow model nowMs (.insert i status) =
      if status = .ok then some (historyRow model nowMs event) else none := by
  cases status with
  | ok => rw [recordedRow, hevent]; rfl
  | error => rfl
  | limit => rfl
  | invalid => rfl

/-- An emission that was answered left the notification of its event. -/
theorem emittedNotification_emit (model : EdgeModel) {i : Nat} {event : EdgeEvent}
    (hevent : model.events[i]? = some event) (status : EdgeStatus) :
    emittedNotification model (.emit i status) =
      if status = .ok then some (uaEventOf model event 0).body else none := by
  cases status with
  | ok => rw [emittedNotification, hevent]; rfl
  | error => rfl
  | limit => rfl
  | invalid => rfl

/-- A row was left by an insert that was answered, and is that of its event. -/
theorem recordedRow_eq_some {model : EdgeModel} {nowMs : Nat} {a : EventAttempt} {row : HistoryRow}
    (h : recordedRow model nowMs a = some row) :
    ∃ i event, a = .insert i .ok ∧ model.events[i]? = some event ∧
      row = historyRow model nowMs event := by
  cases a with
  | emit i status => cases h
  | insert i status =>
    cases status with
    | error | limit | invalid => cases h
    | ok =>
      obtain ⟨event, hevent, hrow⟩ := Option.map_eq_some_iff.mp h
      exact ⟨i, event, rfl, hevent, hrow.symm⟩

/-- A notification was left by an emission that was answered, and is that of its event. -/
theorem emittedNotification_eq_some {model : EdgeModel} {a : EventAttempt} {body : UaEvent}
    (h : emittedNotification model a = some body) :
    ∃ i event, a = .emit i .ok ∧ model.events[i]? = some event ∧
      body = (uaEventOf model event 0).body := by
  cases a with
  | insert i status => cases h
  | emit i status =>
    cases status with
    | error | limit | invalid => cases h
    | ok =>
      obtain ⟨event, hevent, hbody⟩ := Option.map_eq_some_iff.mp h
      exact ⟨i, event, rfl, hevent, hbody.symm⟩

/-- The two attempts of a firing leave one row. -/
theorem recordedRow_pair (model : EdgeModel) (nowMs : Nat) {i : Nat} {event : EdgeEvent}
    (hevent : model.events[i]? = some event) (status : EdgeStatus) :
    [EventAttempt.insert i .ok, .emit i status].filterMap (recordedRow model nowMs) =
      [historyRow model nowMs event] := by
  rw [List.filterMap_cons, recordedRow_insert model nowMs hevent, if_pos rfl]
  rfl

theorem emittedNotification_pair (model : EdgeModel) {i : Nat} {event : EdgeEvent}
    (hevent : model.events[i]? = some event) (status : EdgeStatus) :
    [EventAttempt.insert i .ok, .emit i status].filterMap (emittedNotification model) =
      if status = .ok then [(uaEventOf model event 0).body] else [] := by
  rw [List.filterMap_cons_none rfl, List.filterMap_cons, emittedNotification_emit model hevent]
  split_ifs <;> rfl

/-- The history rows that the `i`-th event got from the pass. -/
def rowsFor (model : EdgeModel) (nowMs i : Nat) (r : EvalResult τ ρ) : List HistoryRow :=
  (attemptsFor i r.attempts).filterMap (recordedRow model nowMs)

/-- The notifications that the `i`-th event got from the pass. Without a server there are none. -/
def notificationsFor (model : EdgeModel) (i : Nat) (r : EvalResult τ ρ) : List UaEvent :=
  if r.server.isSome then (attemptsFor i r.attempts).filterMap (emittedNotification model) else []

/-- The history is a beginning of `base` with rows of `new` behind it: what a connection sees that
saw `base` and has got `new` since, whatever transactions were discarded. -/
def HistoryOf (base new : List HistoryRow) (db : Db) : Prop :=
  ∃ kept rows, db.eventHistory = kept ++ rows ∧ kept <+: base ∧ rows ⊆ new

theorem HistoryOf.mono {base new new' : List HistoryRow} (hsub : new ⊆ new') {db : Db}
    (h : HistoryOf base new db) : HistoryOf base new' db := by
  obtain ⟨kept, rows, hhistory, hkept, hrows⟩ := h
  exact ⟨kept, rows, hhistory, hkept, List.Subset.trans hrows hsub⟩

/-- What is behind `base` in such a history is of `new`. -/
theorem HistoryOf.subset {base new rows : List HistoryRow} {db : Db} (h : HistoryOf base new db)
    (hrows : db.eventHistory = base ++ rows) : rows ⊆ new := by
  obtain ⟨kept, got, hhistory, ⟨lost, rfl⟩, hgot⟩ := h
  rw [hhistory, List.append_assoc] at hrows
  have hsplit := List.append_cancel_left hrows
  intro row hrow
  exact hgot (hsplit ▸ List.mem_append_right lost hrow)

/-- Everything on the connection is ahead of the view, which has no new rows yet. -/
theorem HistoryAhead.all {conn : Conn Db} (h : HistoryAhead conn) :
    conn.All (HistoryOf conn.view.eventHistory []) := by
  refine ⟨⟨_, [], (List.append_nil _).symm, h, List.nil_subset _⟩, fun w hw => ?_⟩
  rw [Conn.view_inside hw]
  exact ⟨_, [], (List.append_nil _).symm, List.prefix_rfl, List.nil_subset _⟩

/-- The rows and notifications of a pass are those of its attempts, in order, with a server or
without one. The rows are exactly these outside a transaction, and when every attempt succeeded; a
failed insert may discard an open transaction, and with it rows from before. A notification that a
server took has its whole text. -/
structure PassLedger (model : EdgeModel) (nowMs : Nat) (s s' : EvalState τ ρ)
    (attempts : List EventAttempt) : Prop where
  txn : s.store.conn.txn = none → s'.store.conn.txn = none
  history : s.store.conn.txn = none ∨ (∀ a ∈ attempts, a.status = .ok) →
    s'.store.conn.view.eventHistory =
      s.store.conn.view.eventHistory ++ attempts.filterMap (recordedRow model nowMs)
  ahead : HistoryAhead s.store.conn → HistoryAhead s'.store.conn
  rows : ∀ base new, s.store.conn.All (HistoryOf base new) →
    s'.store.conn.All (HistoryOf base (new ++ attempts.filterMap (recordedRow model nowMs)))
  server : s'.server.isSome = s.server.isSome
  emitted : (emittedBy s'.server).map UaEvent.body = (emittedBy s.server).map UaEvent.body ++
    if s.server.isSome then attempts.filterMap (emittedNotification model) else []
  texts : s.server.isSome → ∀ i event, .emit i .ok ∈ attempts → model.events[i]? = some event →
    (makeEventMessage model event).1 = .ok

/-- A stretch of the pass that tries nothing adds nothing. -/
theorem PassLedger.refl {model : EdgeModel} {nowMs : Nat} {s s' : EvalState τ ρ}
    (hstore : s'.store = s.store) (hserver : s'.server = s.server) :
    PassLedger model nowMs s s' [] where
  txn htxn := by rw [hstore]; exact htxn
  history _ := by rw [hstore, List.filterMap_nil, List.append_nil]
  ahead h := by rw [hstore]; exact h
  rows base new h := by rw [hstore, List.filterMap_nil, List.append_nil]; exact h
  server := by rw [hserver]
  emitted := by rw [hserver, List.filterMap_nil, ite_self, List.append_nil]
  texts _ i event hmem := absurd hmem List.not_mem_nil

/-- Two stretches of a pass: their rows and their notifications are appended. -/
theorem PassLedger.trans {model : EdgeModel} {nowMs : Nat} {s s' s'' : EvalState τ ρ}
    {a b : List EventAttempt} (h : PassLedger model nowMs s s' a)
    (h' : PassLedger model nowMs s' s'' b) : PassLedger model nowMs s s'' (a ++ b) where
  txn htxn := h'.txn (h.txn htxn)
  history hexact := by
    have hfirst := h.history (hexact.imp_right fun hok x hx => hok x (List.mem_append_left b hx))
    have hsecond := h'.history (hexact.imp h.txn fun hok x hx => hok x (List.mem_append_right a hx))
    rw [hsecond, hfirst, List.filterMap_append, List.append_assoc]
  ahead hahead := h'.ahead (h.ahead hahead)
  -- the rows of the second stretch come behind those of the first
  rows base new hconn := by
    rw [List.filterMap_append, ← List.append_assoc]
    exact h'.rows base _ (h.rows base new hconn)
  server := h'.server.trans h.server
  emitted := by
    rw [h'.emitted, h.emitted, h.server, List.filterMap_append]
    split_ifs
    · rw [List.append_assoc]
    · rw [List.append_nil]
  texts hserved i event hmem hevent := by
    rcases List.mem_append.mp hmem with hmem | hmem
    · exact h.texts hserved i event hmem hevent
    · exact h'.texts (h.server ▸ hserved) i event hmem hevent

/-- The row that an insert asks for. -/
theorem appendHistory_historyOf {event : EdgeEvent} {value : Double} {nowMs : Nat} {db w : Db}
    {base new : List HistoryRow} (h : HistoryOf base new db)
    (hchange : appendHistory event value nowMs db = some w) :
    HistoryOf base
      (new ++ [{ eventId := event.id, value, threshold := event.threshold,
                 severity := event.severity, createdMs := nowMs }]) w := by
  obtain ⟨kept, rows, hhistory, hkept, hrows⟩ := h
  rw [appendHistory_eq_some hchange]
  refine ⟨kept, rows ++ [_], ?_, hkept, List.append_subset.mpr ⟨?_, List.subset_append_right _ _⟩⟩
  · dsimp only
    rw [hhistory, List.append_assoc]
  · exact List.subset_append_of_subset_left _ hrows

/-- An insert outside a transaction appends its row if it succeeds, and nothing if it fails. -/
theorem edgeStoreInsertEventHistory_outside (engine : Engine τ) (event : EdgeEvent)
    (value : Double) (nowMs : Nat) {store : Store τ} (htxn : store.conn.txn = none) :
    (edgeStoreInsertEventHistory engine event value nowMs store).2.conn.txn = none ∧
      ((edgeStoreInsertEventHistory engine event value nowMs store).1 ≠ .ok →
        (edgeStoreInsertEventHistory engine event value nowMs store).2.conn.view.eventHistory =
          store.conn.view.eventHistory) := by
  unfold edgeStoreInsertEventHistory
  dsimp only
  split_ifs with hprepare
  · exact ⟨htxn, fun _ => rfl⟩
  · have hnone : ((store.prepare engine).2.step engine
        (appendHistory event value nowMs)).2.conn.txn = none := Session.step_txn_none htxn
    refine ⟨hnone, fun hbad => ?_⟩
    -- a status that is not OK can only come from the step
    have hfailed : ((store.prepare engine).2.step engine
        (appendHistory event value nowMs)).1 = false := by
      by_contra hok
      exact hbad (if_pos (Bool.not_eq_false _ ▸ hok))
    have hcommitted := Session.step_committed_of_not_ok hfailed
    rw [Conn.view_outside hnone, Conn.view_outside htxn]
    exact congrArg Db.eventHistory hcommitted

/-- Wherever it is made, it gets its row if it succeeds and none if it fails; rows may go then with
an open transaction. -/
theorem edgeStoreInsertEventHistory_rows (engine : Engine τ) (event : EdgeEvent) (value : Double)
    (nowMs : Nat) {store : Store τ} {base new : List HistoryRow}
    (h : store.conn.All (HistoryOf base new)) :
    (edgeStoreInsertEventHistory engine event value nowMs store).2.conn.All (HistoryOf base
      (new ++ if (edgeStoreInsertEventHistory engine event value nowMs store).1 = .ok then
        [{ eventId := event.id, value, threshold := event.threshold, severity := event.severity,
           createdMs := nowMs }] else [])) := by
  unfold edgeStoreInsertEventHistory
  dsimp only
  by_cases hprepare : (store.prepare engine).1 = false
  · rw [if_pos hprepare, if_neg nofun, List.append_nil]
    exact h
  · rw [if_neg hprepare]
    dsimp only
    -- a row more if the statement was stepped to, else nothing
    cases hstep : ((store.prepare engine).2.step engine (appendHistory event value nowMs)).1 with
    | true =>
      rw [if_pos (show statusOf true = .ok from rfl)]
      exact Conn.All.step_of_ok h (fun _ => HistoryOf.mono (List.subset_append_left _ _))
        (fun _ _ => appendHistory_historyOf) hstep
    | false =>
      rw [if_neg nofun, List.append_nil]
      exact Conn.All.step_of_not_ok h hstep

/-- An emission that failed handed nothing to the server. -/
theorem emitOpcuaEvent_not_ok {lib : UaLib ρ} {model : EdgeModel} {event : EdgeEvent}
    {server : Option (EdgeServer ρ)} (h : (emitOpcuaEvent lib model event server).1 ≠ .ok) :
    emittedBy (emitOpcuaEvent lib model event server).2 = emittedBy server := by
  cases server with
  | none => exact absurd rfl h
  | some server =>
    obtain ⟨ua, emitted⟩ := server
    cases ua with
    | none => rfl
    | some ua =>
      unfold emitOpcuaEvent at h ⊢
      cases hns : (lib.getNamespaceByName ua).1 with
      | none => simp only [hns]; rfl
      | some nsIndex =>
        simp only [hns] at h ⊢
        -- the notification is appended on the one path that returns OK
        split_ifs at h ⊢
        all_goals first | rfl | exact absurd rfl h

/-- A server takes no notification whose text does not fit. -/
theorem makeEventMessage_ok_of_emitted {lib : UaLib ρ} {model : EdgeModel} {event : EdgeEvent}
    {server : Option (EdgeServer ρ)} (hserved : server.isSome)
    (h : (emitOpcuaEvent lib model event server).1 = .ok) :
    (makeEventMessage model event).1 = .ok := by
  cases server with
  | none => cases hserved
  | some server =>
    obtain ⟨ua, emitted⟩ := server
    cases ua with
    | none => cases h
    | some ua =>
      unfold emitOpcuaEvent at h
      dsimp only at h
      split at h
      · cases h
      · split_ifs at h with htexts
        -- a text that does not fit is refused before anything is created
        exact not_not.mp fun hbad => htexts (.inr hbad)

/-- One insert: the row if it is answered with OK, else nothing. -/
theorem EvalState.recorded_ledger (env : EventEnv τ ρ) {model : EdgeModel} (nowMs : Nat) {i : Nat}
    {event : EdgeEvent} {s : EvalState τ ρ} (hevent : model.events[i]? = some event) :
    PassLedger model nowMs s (s.recorded env model nowMs i event).2
      [.insert i (s.recorded env model nowMs i event).1] where
  txn htxn := (edgeStoreInsertEventHistory_outside env.engine (event.setActive true)
    (eventValue model event) nowMs htxn).1
  history hexact := by
    rw [List.filterMap_cons, recordedRow_insert model nowMs hevent]
    by_cases hok : (s.recorded env model nowMs i event).1 = .ok
    · rw [if_pos hok]
      exact edgeStoreInsertEventHistory_ok hok
    · -- a refused insert shows in the history only if it left a transaction open
      rcases hexact with htxn | hall
      · rw [if_neg hok]
        exact ((edgeStoreInsertEventHistory_outside env.engine (event.setActive true)
          (eventValue model event) nowMs htxn).2 hok).trans (List.append_nil _).symm
      · exact absurd (hall _ List.mem_cons_self) hok
  ahead hahead := run_ahead env.engine
    (.insertEventHistory (event.setActive true) (eventValue model event) nowMs) hahead
  rows base new hconn := by
    have hrows := edgeStoreInsertEventHistory_rows env.engine (event.setActive true)
      (eventValue model event) nowMs hconn
    rw [List.filterMap_cons, recordedRow_insert model nowMs hevent]
    by_cases hok : (s.recorded env model nowMs i event).1 = .ok
    · rw [if_pos (show (edgeStoreInsertEventHistory _ _ _ _ _).1 = .ok from hok)] at hrows
      rw [if_pos hok]
      exact hrows
    · rw [if_neg (show ¬ (edgeStoreInsertEventHistory _ _ _ _ _).1 = .ok from hok)] at hrows
      rw [if_neg hok]
      exact hrows
  server := rfl
  emitted := by
    show (emittedBy s.server).map UaEvent.body = _
    rw [show [EventAttempt.insert i (s.recorded env model nowMs i event).1].filterMap
      (emittedNotification model) = [] from rfl, ite_self, List.append_nil]
  texts _ j other hmem := absurd hmem (by simp)

/-- One emission: the notification if it is answered with OK, else nothing. -/
theorem EvalState.emitted_ledger (env : EventEnv τ ρ) {model : EdgeModel} (nowMs : Nat) {i : Nat}
    {event : EdgeEvent} {s : EvalState τ ρ} (hevent : model.events[i]? = some event) :
    PassLedger model nowMs s (s.emitted env model i event).2
      [.emit i (s.emitted env model i event).1] where
  txn htxn := htxn
  history _ := (List.append_nil _).symm
  ahead hahead := hahead
  rows base new hconn := (List.append_nil new).symm ▸ hconn
  server := emitOpcuaEvent_isSome _ _ _ _
  emitted := by
    rw [List.filterMap_cons, emittedNotification_emit model hevent]
    by_cases hok : (s.emitted env model i event).1 = .ok
    · rw [if_pos hok]
      exact emitOpcuaEvent_ok hok
    · rw [if_neg hok]
      dsimp only
      rw [List.filterMap_nil, ite_self, List.append_nil]
      exact congrArg _ (emitOpcuaEvent_not_ok hok)
  texts hserved j other hmem hother := by
    obtain ⟨rfl, hok⟩ : j = i ∧ EdgeStatus.ok = (s.emitted env model i event).1 := by
      simpa using hmem
    cases Option.some.inj (hevent.symm.trans hother)
    -- what was emitted had a text that fits
    exact makeEventMessage_ok_of_emitted hserved hok.symm

/-- One event of the pass. The cases are those of the source: not met, latched, and firing with
either attempt refused. -/
theorem evaluateEvent_ledger (env : EventEnv τ ρ) {model : EdgeModel} (nowMs : Nat) {i : Nat}
    {event : EdgeEvent} {s : EvalState τ ρ} (hevent : model.events[i]? = some event) :
    ∃ attempts, (evaluateEvent env model nowMs i event s).state.attempts = s.attempts ++ attempts ∧
      PassLedger model nowMs s (evaluateEvent env model nowMs i event s).state attempts := by
  have hrecorded := EvalState.recorded_ledger env nowMs (s := s) hevent
  have hemitted := hrecorded.trans (EvalState.emitted_ledger env nowMs hevent)
  -- the four ways out of the loop body: no edge, insert refused, emission refused, both taken
  obtain ⟨_, hturn⟩ | ⟨_, _, hturn⟩ | ⟨_, _, _, hturn⟩ | ⟨_, _, _, s', hs', hturn⟩ :=
    evaluateEvent_cases env model nowMs i event s
  · rw [hturn]
    exact ⟨[], (List.append_nil _).symm, .refl rfl rfl⟩
  · rw [hturn]
    exact ⟨_, rfl, hrecorded⟩
  · rw [hturn]
    exact ⟨_, List.append_assoc _ _ _, hemitted⟩
  · rw [hturn, hs']
    exact ⟨_, List.append_assoc _ _ _, hemitted.txn, hemitted.history, hemitted.ahead,
      hemitted.rows, hemitted.server, hemitted.emitted, hemitted.texts⟩

/-- The loop over the events, by induction on what is left of the table. -/
theorem sweep_ledger (env : EventEnv τ ρ) (model : EdgeModel) (nowMs : Nat) :
    ∀ (events : List EdgeEvent) (i : Nat) (s : EvalState τ ρ),
      (∀ k event, events[k]? = some event → model.events[i + k]? = some event) →
      ∃ attempts,
        (sweep (evaluateEvent env model nowMs) i events s).state.attempts =
            s.attempts ++ attempts ∧
          PassLedger model nowMs s (sweep (evaluateEvent env model nowMs) i events s).state
            attempts := by
  intro events
  induction events with
  | nil =>
    intro i s _
    exact ⟨[], (List.append_nil _).symm, .refl rfl rfl⟩
  | cons event rest ih =>
    intro i s hevents
    have hevent : model.events[i]? = some event := hevents 0 event rfl
    obtain ⟨first, hfirst, hledger⟩ := evaluateEvent_ledger env nowMs (s := s) hevent
    -- a turn that ends the loop is the last that tries anything
    cases hexit : (evaluateEvent env model nowMs i event s).exit with
    | some status =>
      rw [sweep_cons_exit hexit]
      exact ⟨first, hfirst, hledger⟩
    | none =>
      obtain ⟨later, hlater, hrest⟩ := ih (i + 1) (evaluateEvent env model nowMs i event s).state
        fun k e hk => by
          rw [show i + 1 + k = i + (k + 1) from by omega]
          exact hevents (k + 1) e hk
      rw [sweep_cons_next hexit]
      refine ⟨first ++ later, ?_, hledger.trans hrest⟩
      rw [← List.append_assoc, ← hfirst, ← hlater]

/-- **What the attempts of a pass say is what happened**: the history grows by the rows, and the
server's list by the notifications, of the attempts that succeeded. -/
theorem edgeEventsEvaluate_ledger (env : EventEnv τ ρ) (nowMs : Nat) (model : EdgeModel)
    (store : Store τ) (server : Option (EdgeServer ρ)) :
    PassLedger model nowMs { store, server }
      { store := (edgeEventsEvaluate env nowMs model store server).store
        server := (edgeEventsEvaluate env nowMs model store server).server }
      (edgeEventsEvaluate env nowMs model store server).attempts := by
  obtain ⟨attempts, hattempts, hledger⟩ := sweep_ledger env model nowMs model.events 0
    { store, server } fun k event hk => by rw [Nat.zero_add]; exact hk
  have hsame : (edgeEventsEvaluate env nowMs model store server).attempts = attempts := hattempts
  rw [hsame]
  exact ⟨hledger.txn, hledger.history, hledger.ahead, hledger.rows, hledger.server,
    hledger.emitted, hledger.texts⟩

/-! ## Independence

What a pass does for one event is what a pass over that event alone would do, unless the pass
stopped before it. -/

/-- The model with one event. -/
def EdgeModel.only (model : EdgeModel) (event : EdgeEvent) : EdgeModel :=
  { model with events := [event] }

/-- Where both passes made an attempt for the event, both succeeded or both failed. -/
structure SameOutcomes (i : Nat) (full alone : List EventAttempt) : Prop where
  insert : ∀ status status', .insert i status ∈ full → .insert 0 status' ∈ alone →
    (status = EdgeStatus.ok ↔ status' = EdgeStatus.ok)
  emit : ∀ status status', .emit i status ∈ full → .emit 0 status' ∈ alone →
    (status = EdgeStatus.ok ↔ status' = EdgeStatus.ok)

/-- The event has the same latch, the same history row and the same notification after a pass over
all events and after a pass over it alone. -/
structure TreatedAlike (model : EdgeModel) (nowMs i : Nat) (event : EdgeEvent)
    (full alone : EvalResult τ ρ) : Prop where
  latch : full.model.events[i]?.map (·.active) = alone.model.events[0]?.map (·.active)
  rows : rowsFor model nowMs i full = rowsFor (model.only event) nowMs 0 alone
  notifications : notificationsFor model i full = notificationsFor (model.only event) 0 alone

/-- A pass treats every event as any pass over it alone with the same outcomes does. -/
def EventsIndependent (env : EventEnv τ ρ) (nowMs : Nat) (model : EdgeModel) (store : Store τ)
    (server : Option (EdgeServer ρ)) : Prop :=
  ∀ (i : Nat) (event : EdgeEvent), model.events[i]? = some event →
    ∀ (env' : EventEnv τ ρ) (store' : Store τ) (server' : Option (EdgeServer ρ)),
      server'.isSome = server.isSome →
      SameOutcomes i (edgeEventsEvaluate env nowMs model store server).attempts
        (edgeEventsEvaluate env' nowMs (model.only event) store' server').attempts →
      TreatedAlike model nowMs i event (edgeEventsEvaluate env nowMs model store server)
        (edgeEventsEvaluate env' nowMs (model.only event) store' server')

/-- An assignment of success or failure to the insert and the emission of each event. -/
structure Outcomes where
  insert : Nat → Bool
  emit : Nat → Bool

/-- The attempts that are made end as assigned. -/
structure Outcomes.Of (o : Outcomes) (attempts : List EventAttempt) : Prop where
  insert : ∀ i status, .insert i status ∈ attempts →
    (status = EdgeStatus.ok ↔ o.insert i = true)
  emit : ∀ i status, .emit i status ∈ attempts → (status = EdgeStatus.ok ↔ o.emit i = true)

/-- One of the two attempts of the `i`-th event would be refused. -/
def Outcomes.Fails (o : Outcomes) (i : Nat) : Prop := o.insert i = false ∨ o.emit i = false

/-- No event behind one that rises and whose insert or emission fails has an edge, rising or
falling. -/
def FailuresLoseNoEdge (model : EdgeModel) (o : Outcomes) : Prop :=
  ∀ i event, model.events[i]? = some event → rises model event = true → o.Fails i →
    ∀ j other, i < j → model.events[j]? = some other →
      other.active = eventConditionMet model other

/-- What a pass attempts, it attempts for an event that rises. -/
theorem PassTrace.rises_of_mem {model : EdgeModel} {events events' : List EdgeEvent}
    {attempts : List EventAttempt} (h : PassTrace model 0 events attempts events')
    {a : EventAttempt} (ha : a ∈ attempts) :
    ∃ event, events[a.index]? = some event ∧ rises model event = true := by
  obtain ⟨k, event, event', hindex, hevent, hevent', hlow, hhigh⟩ := h.passAttempts.edge a ha
  rw [Nat.zero_add] at hindex
  refine ⟨event, hindex ▸ hevent, ?_⟩
  -- the latch that it found clear is set after the pass
  obtain hreached | hmissed := h.reached_or_missed k event hevent
  · rw [hreached.latch] at hevent'
    cases hevent'
    have hmet : eventConditionMet model event = true := hhigh
    rw [rises, hmet, hlow]
    rfl
  · rw [hmissed.latch] at hevent'
    cases hevent'
    rw [hlow] at hhigh
    cases hhigh

/-- An attempt that was refused is one that the outcomes refuse. -/
theorem Outcomes.Of.fails {o : Outcomes} {attempts : List EventAttempt} (h : o.Of attempts)
    {a : EventAttempt} (ha : a ∈ attempts) (hbad : a.status ≠ .ok) : o.Fails a.index := by
  cases a with
  | insert i status =>
    exact .inl (Bool.eq_false_of_not_eq_true fun hok => hbad ((h.insert i status ha).mpr hok))
  | emit i status =>
    exact .inr (Bool.eq_false_of_not_eq_true fun hok => hbad ((h.emit i status ha).mpr hok))

/-- A pass that goes on behind an event that rises has recorded and emitted it. -/
theorem Reached.not_fails {o : Outcomes} {model : EdgeModel} {attempts : List EventAttempt}
    {events' : List EdgeEvent} {k i : Nat} {event : EdgeEvent}
    (h : Reached model attempts events' k i event) (ho : o.Of attempts)
    (hrises : rises model event = true)
    (hpassed : ∀ a ∈ attempts, a.index ≤ i → a.status = .ok) : ¬ o.Fails i := by
  have hmem : ∀ a ∈ attemptsFor i attempts, a ∈ attempts := fun a ha => List.mem_of_mem_filter ha
  obtain ⟨hquiet, -⟩ | ⟨-, hown⟩ := h.own
  · rw [hrises] at hquiet
    cases hquiet
  · obtain ⟨status, hfailed, hown⟩ | ⟨status, hown⟩ := hown
    · have hinsert := hmem (.insert i status) (by rw [hown]; exact List.mem_singleton_self _)
      exact absurd (hpassed _ hinsert le_rfl) hfailed
    · have hinsert := hmem (.insert i .ok) (by rw [hown]; exact List.mem_cons_self)
      have hemit := hmem (.emit i status) (by rw [hown]; simp)
      have hinserted := (ho.insert i .ok hinsert).mp rfl
      have hemitted := (ho.emit i status hemit).mp (hpassed _ hemit le_rfl)
      -- both attempts are good, and o fails neither of them
      rintro (hfails | hfails)
      · rw [hinserted] at hfails
        cases hfails
      · rw [hemitted] at hfails
        cases hfails

theorem edgeEventsEvaluate_served (env : EventEnv τ ρ) (nowMs : Nat) (model : EdgeModel)
    (store : Store τ) (server : Option (EdgeServer ρ)) :
    (edgeEventsEvaluate env nowMs model store server).server.isSome = server.isSome := by
  refine sweep_state (fun s : EvalState τ ρ => s.server.isSome = server.isSome)
    (fun i event s hs => ?_) model.events 0 _ rfl
  obtain ⟨_, hturn⟩ | ⟨_, _, hturn⟩ | ⟨_, _, _, hturn⟩ | ⟨_, _, _, s', hs', hturn⟩ :=
    evaluateEvent_cases env model nowMs i event s
  · rw [hturn]; exact hs
  · rw [hturn]; exact hs
  · rw [hturn]; exact (emitOpcuaEvent_isSome _ _ _ _).trans hs
  · rw [hturn, hs']; exact (emitOpcuaEvent_isSome _ _ _ _).trans hs

/-- A pass over one event looks at it. -/
theorem alone_reached (env : EventEnv τ ρ) (nowMs : Nat) (model : EdgeModel) (event : EdgeEvent)
    (store : Store τ) (server : Option (EdgeServer ρ)) :
    Reached model (edgeEventsEvaluate env nowMs (model.only event) store server).attempts
      (edgeEventsEvaluate env nowMs (model.only event) store server).model.events 0 0 event := by
  have htrace := edgeEventsEvaluate_trace env nowMs (model.only event) store server
  obtain hreached | hmissed := htrace.reached_or_missed 0 event rfl
  · exact ⟨hreached.before, hreached.latch, hreached.own⟩
  · obtain ⟨a, _, hlt, _⟩ := hmissed.before
    exact absurd hlt (Nat.not_lt_zero _)

section Alike

variable {model : EdgeModel} {nowMs i : Nat} {event : EdgeEvent} {full alone : EvalResult τ ρ}

/-- Two passes that tried nothing for the event treat it alike if they leave its latch alike. -/
theorem treatedAlike_of_own_nil
    (hlatch : full.model.events[i]?.map (·.active) = alone.model.events[0]?.map (·.active))
    (hfull : attemptsFor i full.attempts = []) (halone : attemptsFor 0 alone.attempts = []) :
    TreatedAlike model nowMs i event full alone where
  latch := hlatch
  rows := by rw [rowsFor, rowsFor, hfull, halone]; rfl
  notifications := by
    rw [notificationsFor, notificationsFor, hfull, halone, List.filterMap_nil, List.filterMap_nil,
      ite_self, ite_self]

/-- An event that the pass does not get to is treated alike if it has no edge. -/
theorem Missed.treatedAlike (h : Missed full.attempts full.model.events i i event)
    (halone : Reached model alone.attempts alone.model.events 0 0 event)
    (hedge : event.active = eventConditionMet model event) :
    TreatedAlike model nowMs i event full alone := by
  have hquiet : rises model event = false := by
    rw [rises, ← hedge, Bool.and_not_self]
  obtain ⟨-, hown⟩ | ⟨hrises, -⟩ := halone.own
  · refine treatedAlike_of_own_nil ?_ h.own hown
    rw [h.latch, halone.latch, ← hedge]
    rfl
  · rw [hquiet] at hrises
    cases hrises

/-- An event that the pass gets to is treated alike. -/
theorem Reached.treatedAlike (h : Reached model full.attempts full.model.events i i event)
    (halone : Reached model alone.attempts alone.model.events 0 0 event)
    (hevent : model.events[i]? = some event) (hserver : alone.server.isSome = full.server.isSome)
    (hsame : SameOutcomes i full.attempts alone.attempts) :
    TreatedAlike model nowMs i event full alone := by
  have hlatch : full.model.events[i]?.map (·.active) = alone.model.events[0]?.map (·.active) := by
    rw [h.latch, halone.latch]
  have hmem : ∀ {j : Nat} {attempts own : List EventAttempt} {a : EventAttempt},
      attemptsFor j attempts = own → a ∈ own → a ∈ attempts := fun hown ha =>
    List.mem_of_mem_filter (hown ▸ ha)
  obtain ⟨hquiet, hown⟩ | ⟨hrises, hown⟩ := h.own
  · obtain ⟨-, hown'⟩ | ⟨hrises, -⟩ := halone.own
    · exact treatedAlike_of_own_nil hlatch hown hown'
    · rw [hquiet] at hrises
      cases hrises
  · obtain ⟨hquiet, -⟩ | ⟨-, hown'⟩ := halone.own
    · rw [hquiet] at hrises
      cases hrises
    · -- the same outcomes leave the event with the same attempts
      have hevent' : (model.only event).events[0]? = some event := rfl
      obtain ⟨status, hfailed, hown⟩ | ⟨status, hown⟩ := hown
      · obtain ⟨status', hfailed', hown'⟩ | ⟨status', hown'⟩ := hown'
        · refine ⟨hlatch, ?_, ?_⟩
          · rw [rowsFor, rowsFor, hown, hown', List.filterMap_cons, List.filterMap_cons,
              recordedRow_insert model nowMs hevent, recordedRow_insert _ nowMs hevent',
              if_neg hfailed, if_neg hfailed']
            rfl
          · rw [notificationsFor, notificationsFor, hown, hown', hserver]
            rfl
        · have hok := (hsame.insert status .ok (hmem hown (by simp)) (hmem hown' (by simp))).mpr rfl
          exact absurd hok hfailed
      · obtain ⟨status', hfailed', hown'⟩ | ⟨status', hown'⟩ := hown'
        · have hok := (hsame.insert .ok status' (hmem hown (by simp)) (hmem hown' (by simp))).mp rfl
          exact absurd hok hfailed'
        · have hemit := hsame.emit status status' (hmem hown (by simp)) (hmem hown' (by simp))
          refine ⟨hlatch, ?_, ?_⟩
          · rw [rowsFor, rowsFor, hown, hown', recordedRow_pair model nowMs hevent,
              recordedRow_pair _ nowMs hevent']
            rfl
          · rw [notificationsFor, notificationsFor, hown, hown',
              emittedNotification_pair model hevent, emittedNotification_pair _ hevent', hserver]
            simp only [hemit]
            rfl

end Alike

/-- **Events do not interfere with each other** exactly where no insert or emission fails in front
of an event with an edge. -/
theorem events_independent_iff (env : EventEnv τ ρ) (nowMs : Nat) (model : EdgeModel)
    (store : Store τ) (server : Option (EdgeServer ρ)) (o : Outcomes)
    (ho : o.Of (edgeEventsEvaluate env nowMs model store server).attempts) :
    EventsIndependent env nowMs model store server ↔ FailuresLoseNoEdge model o := by
  have htrace := edgeEventsEvaluate_trace env nowMs model store server
  have hcases : ∀ (i : Nat) (event : EdgeEvent), model.events[i]? = some event →
      Reached model (edgeEventsEvaluate env nowMs model store server).attempts
          (edgeEventsEvaluate env nowMs model store server).model.events i i event ∨
        Missed (edgeEventsEvaluate env nowMs model store server).attempts
          (edgeEventsEvaluate env nowMs model store server).model.events i i event := by
    intro i event hevent
    have hboth := htrace.reached_or_missed i event hevent
    rwa [Nat.zero_add] at hboth
  constructor
  · intro h i event hevent hrises hfails j other hlt hother
    obtain hreached | hmissed := hcases j other hother
    · -- a pass that got to the later event has passed the failing one
      obtain hbefore | hbefore := hcases i event hevent
      · exact absurd hfails (hbefore.not_fails ho hrises fun a ha hle =>
          hreached.before a ha (by omega))
      · obtain ⟨a, ha, hindex, hbad⟩ := hbefore.before
        exact absurd (hreached.before a ha (by omega)) hbad
    · -- any pass over the later event alone sets its latch to the condition
      have halone := alone_reached env nowMs model other store server
      have hnone : ∀ b ∈ (edgeEventsEvaluate env nowMs model store server).attempts,
          b.index ≠ j := by
        simpa [attemptsFor] using hmissed.own
      have hlatch := (h j other hother env store server rfl
        ⟨fun _ _ hmem => absurd rfl (hnone _ hmem),
          fun _ _ hmem => absurd rfl (hnone _ hmem)⟩).latch
      rw [hmissed.latch, halone.latch] at hlatch
      exact Option.some.inj hlatch
  · intro h i event hevent env' store' server' hserver hsame
    have halone := alone_reached env' nowMs model event store' server'
    have hserved : (edgeEventsEvaluate env' nowMs (model.only event) store' server').server.isSome
        = (edgeEventsEvaluate env nowMs model store server).server.isSome := by
      rw [edgeEventsEvaluate_served, edgeEventsEvaluate_served, hserver]
    obtain hreached | hmissed := hcases i event hevent
    · exact hreached.treatedAlike halone hevent hserved hsame
    · obtain ⟨a, ha, hlt, hbad⟩ := hmissed.before
      obtain ⟨failed, hfailed, hrises⟩ := htrace.rises_of_mem ha
      exact hmissed.treatedAlike halone
        (h a.index failed hfailed hrises (ho.fails ha hbad) i event hlt hevent)

/-! Two alarms on one vibration, and an SQLite that is busy for the first insert. -/

/-- A pump with two alarms on one node, at 8.5 and at 8.9. -/
def vibrationTemplate : Bytes :=
  templateOf [
    "[plant]", "id=xyz_desalination", "name=XYZ Desalination Plant",
    "[asset]", "id=hp_pump_1", "type=hp_pump", "name=HP Pump 1",
    "[node]", "asset=hp_pump_1", "id=vibration", "name=Vibration", "data_type=double",
      "access=read", "source=modbus", "modbus_unit=3", "modbus_register=40006", "scale=0.01",
    "[event]", "asset=hp_pump_1", "id=high_vibration_hp1", "source_node=vibration",
      "condition=greater_than", "threshold=8.5", "severity=700",
    "[event]", "asset=hp_pump_1", "id=vibration_trip_hp1", "source_node=vibration",
      "condition=greater_than", "threshold=8.9", "severity=900"]

/-- The model that starts from it. -/
def vibrationModel : EdgeModel := startupModel (some vibrationTemplate)

theorem vibrationModel_loadedAndWired :
    LoadedAndWired (some vibrationTemplate) vibrationModel :=
  loadedAndWired_of_ok (by decide +kernel)

/-- The state counts the steps; the first is refused. -/
def busyOnce : EventEnv Nat Unit where
  engine :=
    { answer := fun op n => (if op = .step ∧ n = 0 then .fail false else .ok,
        if op = .step then n + 1 else n) }
  lib := (alarmEnv true).lib

/-- The first insert fails and nothing else. -/
def firstInsertFails : Outcomes where
  insert i := i ≠ 0
  emit _ := true

/-- Between the two thresholds the failing insert of the first alarm hides nothing: the trip has no
edge. -/
theorem alarm_below_trip_independent :
    EventsIndependent busyOnce 1 (setValues (fun _ => { d := .fin (87 / 10) }) vibrationModel)
      { conn := { committed := {} }, env := 0 } none := by
  obtain ⟨hattempts, hlast⟩ : (edgeEventsEvaluate busyOnce 1
      (setValues (fun _ => { d := .fin (87 / 10) }) vibrationModel)
      { conn := { committed := {} }, env := 0 } none).attempts = [.insert 0 .error] ∧
      ∀ event ∈ (setValues (fun _ => { d := .fin (87 / 10) }) vibrationModel).events.drop 1,
        event.active = eventConditionMet
          (setValues (fun _ => { d := .fin (87 / 10) }) vibrationModel) event := by
    decide +kernel
  -- the first event is refused, and behind it no latch is to change
  refine (events_independent_iff busyOnce 1 _ _ none firstInsertFails ⟨?_, ?_⟩).mpr ?_
  · intro i status hmem
    rw [hattempts] at hmem
    cases List.mem_singleton.mp hmem
    decide
  · intro i status hmem
    rw [hattempts] at hmem
    cases List.mem_singleton.mp hmem
  · intro i event _ _ _ j other hlt hother
    refine hlast other (List.mem_of_getElem? (i := j - 1) ?_)
    rw [List.getElem?_drop, Nat.add_sub_cancel' (by omega)]
    exact hother

/-- The failing insert of the first alarm keeps the trip, whose condition is met, from being seen;
alone it is latched and recorded. -/
theorem trip_lost_behind_failure :
    LoadedAndWired (some vibrationTemplate) vibrationModel ∧
      (edgeEventsEvaluate busyOnce 1 (setValues vibrating.values vibrationModel)
        { conn := { committed := {} }, env := 0 } none).model.events.map (·.active) =
          [true, false] ∧
      vibrationModel.events[1]?.map (fun event =>
        ((edgeEventsEvaluate busyOnce 1 ((setValues vibrating.values vibrationModel).only event)
          { conn := { committed := {} }, env := 1 } none).model.events.map (·.active))) =
          some [true] ∧
      ¬ EventsIndependent busyOnce 1 (setValues vibrating.values vibrationModel)
        { conn := { committed := {} }, env := 0 } none := by
  obtain ⟨hlatches, halone, hattempts, hcondition⟩ :
      (edgeEventsEvaluate busyOnce 1 (setValues vibrating.values vibrationModel)
        { conn := { committed := {} }, env := 0 } none).model.events.map (·.active) =
          [true, false] ∧
      vibrationModel.events[1]?.map (fun event =>
        ((edgeEventsEvaluate busyOnce 1 ((setValues vibrating.values vibrationModel).only event)
          { conn := { committed := {} }, env := 1 } none).model.events.map (·.active))) =
          some [true] ∧
      (∀ a ∈ (edgeEventsEvaluate busyOnce 1 (setValues vibrating.values vibrationModel)
        { conn := { committed := {} }, env := 0 } none).attempts, a.index = 0) ∧
      (setValues vibrating.values vibrationModel).events[1]?.map
        (eventConditionMet (setValues vibrating.values vibrationModel)) = some true := by
    decide +kernel
  -- alone the second event is latched, behind the first it is not
  refine ⟨vibrationModel_loadedAndWired, hlatches, halone, fun h => ?_⟩
  obtain ⟨event, hevent, hmet⟩ := Option.map_eq_some_iff.1 hcondition
  have hlatch := (h 1 event hevent busyOnce { conn := { committed := {} }, env := 1 } none rfl
    ⟨fun _ _ hmem => absurd (hattempts _ hmem) Nat.one_ne_zero,
      fun _ _ hmem => absurd (hattempts _ hmem) Nat.one_ne_zero⟩).latch
  rw [(alone_reached busyOnce 1 _ event _ none).latch, hmet, ← List.getElem?_map,
    hlatches] at hlatch
  cases hlatch

end OpcuaEdge
