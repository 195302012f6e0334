import OpcuaEdge.Events

/-!
# OpcuaEdge — one evaluation pass

What one turn of `edge_events_evaluate` can do (`evaluateEvent_cases`), and from it a whole pass:
its turns up to the first failure (`PassTrace`), which attempts it makes, however they end
(`PassAttempts`), and what it leaves behind when every attempt succeeds (`PassResult`).

Every later statement about a pass comes from one of these:

* `PassTrace` keeps the order, for what an early end of the pass does to the events behind it;
* `PassAttempts` forgets it, for what was tried and for how often;
* `PassResult` assumes that nothing was refused, for rows, notifications and counts.
-/

namespace OpcuaEdge

open CStr CLoop Txn

variable {τ ρ : Type}

/-! ## Attempts

A pass tries to record and to emit. `attempts` lists what it tried, with the index of the event and
the status it got. -/

/-- The event that the attempt is for. -/
def EventAttempt.index : EventAttempt → Nat
  | .insert i _ => i
  | .emit i _ => i

/-- What came of it. -/
def EventAttempt.status : EventAttempt → EdgeStatus
  | .insert _ status => status
  | .emit _ status => status

/-- What is attempted, and for which event. -/
def EventAttempt.key : EventAttempt → Bool × Nat
  | .insert i _ => (true, i)
  | .emit i _ => (false, i)

/-- The condition is met and the event is not latched. -/
def rises (model : EdgeModel) (event : EdgeEvent) : Bool :=
  eventConditionMet model event && !event.active

/-- A rising edge: the condition holds, and the latch was open. -/
theorem conditionMet_of_rises {model : EdgeModel} {event : EdgeEvent}
    (h : rises model event = true) :
    eventConditionMet model event = true ∧ event.active = false := by
  simpa [rises] using h

/-- An event with its latch set or open. -/
def EdgeEvent.setActive (event : EdgeEvent) (active : Bool) : EdgeEvent :=
  { event with active := active }

/-- The row of a rising edge. -/
def historyRow (model : EdgeModel) (nowMs : Nat) (event : EdgeEvent) : HistoryRow where
  eventId := event.id
  value := eventValue model event
  threshold := event.threshold
  severity := event.severity
  createdMs := nowMs

/-! ## Recording and emitting

The two things that a rising edge leads to, the row first. -/

/-- A row that could be stored is at the end of the history. -/
theorem appendHistory_eq_some {event : EdgeEvent} {value : Double} {nowMs : Nat} {db w : Db}
    (h : appendHistory event value nowMs db = some w) :
    w = { db with
      eventHistory := db.eventHistory ++
        [{ eventId := event.id, value, threshold := event.threshold, severity := event.severity,
           createdMs := nowMs }] } := by
  unfold appendHistory at h
  obtain ⟨value', hvalue, hmap⟩ := Option.bind_eq_some_iff.mp h
  obtain ⟨threshold', hthreshold, rfl⟩ := Option.map_eq_some_iff.mp hmap
  unfold bindDouble at hvalue hthreshold
  split_ifs at hvalue hthreshold
  cases hvalue
  cases hthreshold
  rfl

/-- An insert that succeeded appended its row to the history the connection sees. -/
theorem edgeStoreInsertEventHistory_ok {engine : Engine τ} {event : EdgeEvent} {value : Double}
    {nowMs : Nat} {store : Store τ}
    (h : (edgeStoreInsertEventHistory engine event value nowMs store).1 = .ok) :
    (edgeStoreInsertEventHistory engine event value nowMs store).2.conn.view.eventHistory =
      store.conn.view.eventHistory ++
        [{ eventId := event.id, value, threshold := event.threshold, severity := event.severity,
           createdMs := nowMs }] := by
  unfold edgeStoreInsertEventHistory at h ⊢
  simp only at h ⊢
  split_ifs at h ⊢ with hprepare
  -- OK is returned only when the step is done
  have hstep :
      ((store.prepare engine).2.step engine (appendHistory event value nowMs)).1 = true := by
    unfold statusOf at h
    split_ifs at h with hstep
    exact hstep
  obtain ⟨w, hw, hview, _⟩ := Session.step_ok hstep
  exact (congrArg Db.eventHistory hview).trans (congrArg Db.eventHistory (appendHistory_eq_some hw))

/-- The notification without the namespace index, which the server chose. -/
def UaEvent.body (event : UaEvent) : UaEvent := { event with namespaceIndex := 0 }

/-- The notifications that a server has emitted; none without a server. -/
def emittedBy (server : Option (EdgeServer ρ)) : List UaEvent :=
  (server.map (·.emitted)).getD []

theorem emitOpcuaEvent_isSome (lib : UaLib ρ) (model : EdgeModel) (event : EdgeEvent)
    (server : Option (EdgeServer ρ)) :
    (emitOpcuaEvent lib model event server).2.isSome = server.isSome := by
  cases server with
  | none => rfl
  | some server =>
    obtain ⟨ua, emitted⟩ := server
    cases ua with
    | none => rfl
    | some ua =>
      unfold emitOpcuaEvent
      dsimp only
      split
      · rfl
      · split_ifs <;> rfl

/-- An emission that succeeded handed the notification to the server, if there is one. -/
theorem emitOpcuaEvent_ok {lib : UaLib ρ} {model : EdgeModel} {event : EdgeEvent}
    {server : Option (EdgeServer ρ)} (h : (emitOpcuaEvent lib model event server).1 = .ok) :
    (emittedBy (emitOpcuaEvent lib model event server).2).map UaEvent.body =
      (emittedBy server).map UaEvent.body ++
        if server.isSome then [(uaEventOf model event 0).body] else [] := by
  cases server with
  | none => rfl
  | some server =>
    obtain ⟨ua, emitted⟩ := server
    cases ua with
    | none => cases h
    | some ua =>
      unfold emitOpcuaEvent at h ⊢
      dsimp only at h ⊢
      -- behind the namespace the other returns are failures
      split at h
      · cases h
      · simp only [Option.isSome_some, if_true]
        split_ifs at h ⊢
        simp [emittedBy, uaEventOf, UaEvent.body]

/-! ## One turn

The turn of one event: nothing happens, the latch opens, the row is refused, or the row is stored
and the notification tried. -/

/-- The state after the history insert of a rising edge. -/
def EvalState.recorded (env : EventEnv τ ρ) (model : EdgeModel) (nowMs i : Nat) (event : EdgeEvent)
    (s : EvalState τ ρ) : EdgeStatus × EvalState τ ρ :=
  let r := edgeStoreInsertEventHistory env.engine (event.setActive true) (eventValue model event)
    nowMs s.store
  (r.1, { s with
    store := r.2
    stats.checkedCount := s.stats.checkedCount + 1
    attempts := s.attempts ++ [.insert i r.1] })

/-- The state after the emission that follows. -/
def EvalState.emitted (env : EventEnv τ ρ) (model : EdgeModel) (i : Nat) (event : EdgeEvent)
    (s : EvalState τ ρ) : EdgeStatus × EvalState τ ρ :=
  let r := emitOpcuaEvent env.lib model (event.setActive true) s.server
  (r.1, { s with server := r.2, attempts := s.attempts ++ [.emit i r.1] })

/-- **What a turn can do.** Without a rising edge it sets the latch to the condition. On a rising
edge it sets the latch first; then the insert fails, or the emission fails, or both succeed. -/
theorem evaluateEvent_cases (env : EventEnv τ ρ) (model : EdgeModel) (nowMs i : Nat)
    (event : EdgeEvent) (s : EvalState τ ρ) :
    (rises model event = false ∧ evaluateEvent env model nowMs i event s =
      { elem := event.setActive (eventConditionMet model event)
        state := { s with stats.checkedCount := s.stats.checkedCount + 1 } }) ∨
    (rises model event = true ∧ (s.recorded env model nowMs i event).1 ≠ .ok ∧
      evaluateEvent env model nowMs i event s =
        { elem := event.setActive true
          state := (s.recorded env model nowMs i event).2
          exit := some .error }) ∨
    (rises model event = true ∧ (s.recorded env model nowMs i event).1 = .ok ∧
      ((s.recorded env model nowMs i event).2.emitted env model i event).1 ≠ .ok ∧
      evaluateEvent env model nowMs i event s =
        { elem := event.setActive true
          state := ((s.recorded env model nowMs i event).2.emitted env model i event).2
          exit := some .error }) ∨
    (rises model event = true ∧ (s.recorded env model nowMs i event).1 = .ok ∧
      ((s.recorded env model nowMs i event).2.emitted env model i event).1 = .ok ∧
      ∃ s', s' = ((s.recorded env model nowMs i event).2.emitted env model i event).2 ∧
      evaluateEvent env model nowMs i event s =
        { elem := event.setActive true
          state := { s' with
            stats.firedCount := s'.stats.firedCount + 1
            stats.emittedCount :=
              s'.stats.emittedCount + (if s'.server.isSome then 1 else 0) } }) := by
  unfold evaluateEvent rises
  dsimp only
  cases hcondition : eventConditionMet model event <;> cases hactive : event.active
  · exact .inl ⟨rfl, by simp [EdgeEvent.setActive]⟩
  · exact .inl ⟨rfl, by simp [EdgeEvent.setActive]⟩
  · right
    -- met and not latched: the only case in which the event fires
    rw [if_pos ⟨rfl, rfl⟩]
    unfold fireEvent
    by_cases hinsert : (s.recorded env model nowMs i event).1 ≠ .ok
    · exact .inl ⟨rfl, hinsert, if_pos hinsert⟩
    · right
      by_cases hemit : ((s.recorded env model nowMs i event).2.emitted env model i event).1 ≠ .ok
      · exact .inl ⟨rfl, not_not.mp hinsert, hemit, (if_neg hinsert).trans (if_pos hemit)⟩
      · exact .inr ⟨rfl, not_not.mp hinsert, not_not.mp hemit, _, rfl,
          (if_neg hinsert).trans (if_neg hemit)⟩
  · refine .inl ⟨rfl, ?_⟩
    rw [if_neg (by simp), if_neg (by simp)]
    simp [EdgeEvent.setActive, ← hactive]

/-- A turn changes the latch and nothing else of the event. -/
theorem evaluateEvent_definition (env : EventEnv τ ρ) (model : EdgeModel) (nowMs i : Nat)
    (event : EdgeEvent) (s : EvalState τ ρ) :
    (evaluateEvent env model nowMs i event s).elem.setActive false = event.setActive false := by
  obtain ⟨-, hturn⟩ | ⟨-, -, hturn⟩ | ⟨-, -, -, hturn⟩ | ⟨-, -, -, _, -, hturn⟩ :=
    evaluateEvent_cases env model nowMs i event s
  all_goals
    rw [hturn]
    rfl

theorem edgeEventsEvaluate_definitions (env : EventEnv τ ρ) (nowMs : Nat) (model : EdgeModel)
    (store : Store τ) (server : Option (EdgeServer ρ)) :
    (edgeEventsEvaluate env nowMs model store server).model.events.map (·.setActive false) =
      model.events.map (·.setActive false) :=
  sweep_map (EdgeEvent.setActive · false) (evaluateEvent_definition env model nowMs) _ 0 _

/-! ## The trace of a pass

What a pass tried, event by event, up to the turn that ended it. -/

/-- The attempts of a pass over `events`, the first of which has index `i`, and the events after
it. -/
inductive PassTrace (model : EdgeModel) :
    Nat → List EdgeEvent → List EventAttempt → List EdgeEvent → Prop
  | done (i : Nat) : PassTrace model i [] [] []
  | quiet {i event rest attempts rest'} (hquiet : rises model event = false)
      (hrest : PassTrace model (i + 1) rest attempts rest') :
      PassTrace model i (event :: rest) attempts
        (event.setActive (eventConditionMet model event) :: rest')
  | fired {i event rest attempts rest'} (hrises : rises model event = true)
      (hrest : PassTrace model (i + 1) rest attempts rest') :
      PassTrace model i (event :: rest) (.insert i .ok :: .emit i .ok :: attempts)
        (event.setActive true :: rest')
  | unrecorded {i event rest status} (hrises : rises model event = true)
      (hfailed : status ≠ EdgeStatus.ok) :
      PassTrace model i (event :: rest) [.insert i status] (event.setActive true :: rest)
  | unemitted {i event rest status} (hrises : rises model event = true)
      (hfailed : status ≠ EdgeStatus.ok) :
      PassTrace model i (event :: rest) [.insert i .ok, .emit i status]
        (event.setActive true :: rest)

/-- Every pass has such a trace. Induction on the events, one case for each way a turn can end. -/
theorem sweep_passTrace (env : EventEnv τ ρ) (model : EdgeModel) (nowMs : Nat) :
    ∀ (events : List EdgeEvent) (i : Nat) (s : EvalState τ ρ), ∃ attempts,
      (sweep (evaluateEvent env model nowMs) i events s).state.attempts =
          s.attempts ++ attempts ∧
        PassTrace model i events attempts
          (sweep (evaluateEvent env model nowMs) i events s).elem := by
  intro events
  induction events with
  | nil => intro i s; exact ⟨[], (List.append_nil _).symm, .done i⟩
  | cons event rest ih =>
    intro i s
    obtain ⟨hrises, hturn⟩ | ⟨hrises, hbad, hturn⟩ | ⟨hrises, hok, hbad, hturn⟩ |
      ⟨hrises, hok, hok', s', hs', hturn⟩ := evaluateEvent_cases env model nowMs i event s
    · -- no edge
      obtain ⟨attempts, hattempts, htrace⟩ :=
        ih (i + 1) { s with stats.checkedCount := s.stats.checkedCount + 1 }
      rw [sweep_cons_next (by rw [hturn]), hturn]
      exact ⟨attempts, hattempts, .quiet hrises htrace⟩
    · rw [sweep_cons_exit (by rw [hturn]), hturn]
      -- an edge whose row is refused, and which ends the pass
      exact ⟨[.insert i _], rfl, .unrecorded hrises hbad⟩
    · rw [sweep_cons_exit (by rw [hturn]), hturn]
      -- an edge whose notification is refused
      refine ⟨[.insert i .ok,
        .emit i ((s.recorded env model nowMs i event).2.emitted env model i event).1], ?_,
        .unemitted hrises hbad⟩
      simp [EvalState.emitted, EvalState.recorded, ← hok]
    · obtain ⟨attempts, hattempts, htrace⟩ :=
        ih (i + 1) (evaluateEvent env model nowMs i event s).state
      rw [sweep_cons_next (by rw [hturn])]
      -- an edge that goes through
      refine ⟨.insert i .ok :: .emit i .ok :: attempts, ?_, ?_⟩
      · rw [hattempts, hturn, hs']
        simp only [EvalState.emitted, EvalState.recorded] at hok hok' ⊢
        rw [hok, hok']
        simp
      · rw [hturn] at htrace ⊢
        exact .fired hrises htrace

/-! ## The attempts of a pass

From the trace: at most one attempt of each kind for an event, in the order of the events, and only
for those that rise. -/

/-- The attempts of a pass over `events`, the first of which has index `i`, that left `events'`:
they are for events that were unlatched before and are latched after, none is made twice, and an
event that became latched was tried to be recorded and, after a successful insert, emitted. -/
structure PassAttempts (i : Nat) (events events' : List EdgeEvent)
    (attempts : List EventAttempt) : Prop where
  length : events'.length = events.length
  edge : ∀ a ∈ attempts, ∃ k e e', a.index = i + k ∧ events[k]? = some e ∧
    events'[k]? = some e' ∧ e.active = false ∧ e'.active = true
  once : (attempts.map EventAttempt.key).Nodup
  tried : ∀ k e e', events[k]? = some e → events'[k]? = some e' → e.active = false →
    e'.active = true → ∃ status, .insert (i + k) status ∈ attempts ∧
      (status = .ok → ∃ status', .emit (i + k) status' ∈ attempts)

/-- The index is the second part of the key by which attempts are ordered. -/
theorem EventAttempt.index_eq_key (a : EventAttempt) : a.index = a.key.2 := by cases a <;> rfl

/-- A turn without attempts before the rest of the pass. -/
theorem PassAttempts.cons_quiet {i : Nat} {e e' : EdgeEvent} {events events' : List EdgeEvent}
    {attempts : List EventAttempt} (h : PassAttempts (i + 1) events events' attempts)
    (hquiet : ¬ (e.active = false ∧ e'.active = true)) :
    PassAttempts i (e :: events) (e' :: events') attempts where
  length := congrArg (· + 1) h.length
  edge a ha := by
    obtain ⟨k, f, f', hindex, hf, hf', hlow, hhigh⟩ := h.edge a ha
    exact ⟨k + 1, f, f', by omega, hf, hf', hlow, hhigh⟩
  once := h.once
  tried k f f' hf hf' hlow hhigh := by
    -- the event in front did not rise, so the tried one is further on
    cases k with
    | zero =>
      cases hf
      cases hf'
      exact absurd ⟨hlow, hhigh⟩ hquiet
    | succ k =>
      rw [show i + (k + 1) = i + 1 + k from by omega]
      exact h.tried k f f' hf hf' hlow hhigh

/-- A rising edge at `i` before the rest of the pass. -/
theorem PassAttempts.cons_edge {i : Nat} {e e' : EdgeEvent} {events events' : List EdgeEvent}
    {first attempts : List EventAttempt} (h : PassAttempts (i + 1) events events' attempts)
    (hedge : e.active = false ∧ e'.active = true)
    (hfirst : (∃ status, status ≠ .ok ∧ first = [.insert i status]) ∨
      ∃ status', first = [.insert i .ok, .emit i status']) :
    PassAttempts i (e :: events) (e' :: events') (first ++ attempts) := by
  -- the attempts of this turn have index `i`, those of the rest of the pass a greater one
  have hindex : ∀ a ∈ first, a.index = i := by
    rcases hfirst with ⟨_, _, rfl⟩ | ⟨_, rfl⟩ <;> simp [EventAttempt.index]
  have hlater : ∀ a ∈ attempts, i < a.index := by
    intro a ha
    obtain ⟨k, _, _, hk, _⟩ := h.edge a ha
    omega
  refine ⟨congrArg (· + 1) h.length, fun a ha => ?_, ?_, fun k f f' hf hf' hlow hhigh => ?_⟩
  · rcases List.mem_append.mp ha with ha | ha
    · exact ⟨0, e, e', hindex a ha, rfl, rfl, hedge⟩
    · obtain ⟨k, f, f', hk, hf, hf', hlow, hhigh⟩ := h.edge a ha
      exact ⟨k + 1, f, f', by omega, hf, hf', hlow, hhigh⟩
  · rw [List.map_append, List.nodup_append]
    refine ⟨?_, h.once, ?_⟩
    · rcases hfirst with ⟨_, _, rfl⟩ | ⟨_, rfl⟩ <;> simp [EventAttempt.key]
    · intro key hkey key' hkey' heq
      obtain ⟨a, ha, rfl⟩ := List.mem_map.mp hkey
      obtain ⟨b, hb, rfl⟩ := List.mem_map.mp hkey'
      have hsame : a.index = b.index := by rw [a.index_eq_key, b.index_eq_key, heq]
      have h1 := hindex a ha
      have h2 := hlater b hb
      omega
  · cases k with
    | zero =>
      rcases hfirst with ⟨status, hbad, rfl⟩ | ⟨status', rfl⟩
      · exact ⟨status, by simp, fun hok => absurd hok hbad⟩
      · exact ⟨.ok, by simp, fun _ => ⟨status', by simp⟩⟩
    | succ k =>
      obtain ⟨status, hinsert, hemit⟩ := h.tried k f f' hf hf' hlow hhigh
      rw [show i + (k + 1) = i + 1 + k from by omega]
      refine ⟨status, List.mem_append_right _ hinsert, fun hok => ?_⟩
      obtain ⟨status', hmem⟩ := hemit hok
      exact ⟨status', List.mem_append_right _ hmem⟩

/-- Events that a pass did not get to. -/
theorem passAttempts_unchanged (i : Nat) (events : List EdgeEvent) :
    PassAttempts i events events [] where
  length := rfl
  edge a ha := by cases ha
  once := List.nodup_nil
  tried k e e' he he' hlow hhigh := by
    cases Option.some.inj (he.symm.trans he')
    rw [hlow] at hhigh
    cases hhigh

theorem PassTrace.passAttempts {model : EdgeModel} {i : Nat} {events events' : List EdgeEvent}
    {attempts : List EventAttempt} (h : PassTrace model i events attempts events') :
    PassAttempts i events events' attempts := by
  have hlatched : ∀ {event : EdgeEvent}, rises model event = true →
      event.active = false ∧ (event.setActive true).active = true := by
    intro event hrises
    simp only [rises, Bool.and_eq_true, Bool.not_eq_true'] at hrises
    exact ⟨hrises.2, rfl⟩
  -- on the trace: a failed attempt ends it, and leaves the later events as they are
  induction h with
  | done => exact passAttempts_unchanged _ []
  | quiet hquiet _ ih =>
    refine ih.cons_quiet fun hedge => ?_
    simp only [rises, EdgeEvent.setActive] at hquiet hedge
    simp [hedge] at hquiet
  | fired hrises _ ih => exact ih.cons_edge (hlatched hrises) (.inr ⟨.ok, rfl⟩)
  | unrecorded hrises hfailed =>
    exact (passAttempts_unchanged _ _).cons_edge (hlatched hrises) (.inl ⟨_, hfailed, rfl⟩)
  | unemitted hrises _ =>
    exact (passAttempts_unchanged _ _).cons_edge (hlatched hrises) (.inr ⟨_, rfl⟩)

/-! ## A pass whose attempts all succeed

Then every event has its turn, and the pass records and emits all rising edges. -/

/-- What a pass over `events` that started in `s` leaves behind when every attempt succeeds. -/
structure PassResult (model : EdgeModel) (nowMs : Nat) (events : List EdgeEvent)
    (s : EvalState τ ρ) (t : Turn EdgeStatus (List EdgeEvent) (EvalState τ ρ)) : Prop where
  latched : t.elem = events.map fun e => e.setActive (eventConditionMet model e)
  checked : t.state.stats.checkedCount = s.stats.checkedCount + events.length
  fired : t.state.stats.firedCount = s.stats.firedCount + (events.filter (rises model)).length
  emittedCount : t.state.stats.emittedCount = s.stats.emittedCount +
    if s.server.isSome then (events.filter (rises model)).length else 0
  history : t.state.store.conn.view.eventHistory = s.store.conn.view.eventHistory ++
    (events.filter (rises model)).map (historyRow model nowMs)
  server : t.state.server.isSome = s.server.isSome
  emitted : (emittedBy t.state.server).map UaEvent.body = (emittedBy s.server).map UaEvent.body ++
    if s.server.isSome then
      (events.filter (rises model)).map fun e => (uaEventOf model e 0).body
    else []

/-- A turn without a rising edge before the rest of the pass. -/
theorem PassResult.cons_quiet {model : EdgeModel} {nowMs : Nat} {event : EdgeEvent}
    {rest : List EdgeEvent} {s : EvalState τ ρ}
    {t : Turn EdgeStatus (List EdgeEvent) (EvalState τ ρ)}
    (h : PassResult model nowMs rest
      { s with stats.checkedCount := s.stats.checkedCount + 1 } t)
    (hrises : rises model event = false) :
    PassResult model nowMs (event :: rest) s
      { t with elem := event.setActive (eventConditionMet model event) :: t.elem } := by
  have hfilter : (event :: rest).filter (rises model) = rest.filter (rises model) :=
    List.filter_cons_of_neg (by simp [hrises])
  -- only checkedCount and the latch of the first event change
  exact {
    latched := by rw [h.latched, List.map_cons]
    checked := by rw [h.checked, List.length_cons]; dsimp only; omega
    fired := by rw [h.fired, hfilter]
    emittedCount := by rw [h.emittedCount, hfilter]
    history := by rw [h.history, hfilter]
    server := h.server
    emitted := by rw [h.emitted, hfilter] }

/-- What recording and emitting one event leave behind when both succeed. -/
structure FiredResult (model : EdgeModel) (nowMs : Nat) (event : EdgeEvent)
    (s s' : EvalState τ ρ) : Prop where
  checked : s'.stats.checkedCount = s.stats.checkedCount + 1
  fired : s'.stats.firedCount = s.stats.firedCount
  emittedCount : s'.stats.emittedCount = s.stats.emittedCount
  history : s'.store.conn.view.eventHistory =
    s.store.conn.view.eventHistory ++ [historyRow model nowMs event]
  server : s'.server.isSome = s.server.isSome
  emitted : (emittedBy s'.server).map UaEvent.body = (emittedBy s.server).map UaEvent.body ++
    if s.server.isSome then [(uaEventOf model event 0).body] else []

/-- A turn whose row was stored and whose notification was emitted. -/
theorem firedResult_of_ok {env : EventEnv τ ρ} {model : EdgeModel} {nowMs i : Nat}
    {event : EdgeEvent} {s : EvalState τ ρ} (hok : (s.recorded env model nowMs i event).1 = .ok)
    (hok' : ((s.recorded env model nowMs i event).2.emitted env model i event).1 = .ok) :
    FiredResult model nowMs event s
      ((s.recorded env model nowMs i event).2.emitted env model i event).2 where
  checked := rfl
  fired := rfl
  emittedCount := rfl
  history := edgeStoreInsertEventHistory_ok hok
  server := emitOpcuaEvent_isSome _ _ _ _
  emitted := emitOpcuaEvent_ok hok'

/-- A rising edge, recorded and emitted, before the rest of the pass. -/
theorem PassResult.cons_edge {model : EdgeModel} {nowMs : Nat} {event : EdgeEvent}
    {rest : List EdgeEvent} {s s' : EvalState τ ρ}
    {t : Turn EdgeStatus (List EdgeEvent) (EvalState τ ρ)}
    (h : PassResult model nowMs rest
      { s' with
        stats.firedCount := s'.stats.firedCount + 1
        stats.emittedCount := s'.stats.emittedCount + (if s'.server.isSome then 1 else 0) } t)
    (hrises : rises model event = true) (hfired : FiredResult model nowMs event s s') :
    PassResult model nowMs (event :: rest) s { t with elem := event.setActive true :: t.elem } := by
  have hfilter : (event :: rest).filter (rises model) = event :: rest.filter (rises model) :=
    List.filter_cons_of_pos hrises
  have hcondition : eventConditionMet model event = true := by
    simp only [rises, Bool.and_eq_true] at hrises
    exact hrises.1
  have hchecked := hfired.checked
  have hfiredCount := hfired.fired
  have hemittedCount := hfired.emittedCount
  -- each field is that of the rest, with what the edge adds in front
  exact {
    latched := by rw [h.latched, List.map_cons, hcondition]
    checked := by rw [h.checked, List.length_cons]; dsimp only; omega
    fired := by rw [h.fired, hfilter, List.length_cons]; dsimp only; omega
    emittedCount := by
      rw [h.emittedCount, hfilter, List.length_cons]
      dsimp only
      rw [hfired.server]
      split_ifs <;> omega
    history := by
      rw [h.history, hfilter, hfired.history, List.map_cons, List.append_assoc]
      rfl
    server := h.server.trans hfired.server
    emitted := by
      rw [h.emitted, hfilter, hfired.emitted, hfired.server]
      split_ifs <;> simp }

theorem sweep_passResult (env : EventEnv τ ρ) (model : EdgeModel) (nowMs : Nat) :
    ∀ (events : List EdgeEvent) (i : Nat) (s : EvalState τ ρ),
      (∀ a ∈ (sweep (evaluateEvent env model nowMs) i events s).state.attempts,
        a.status = .ok) →
      PassResult model nowMs events s (sweep (evaluateEvent env model nowMs) i events s) := by
  intro events
  induction events with
  | nil => intro i s _; constructor <;> simp
  | cons event rest ih =>
    intro i s hall
    obtain ⟨hrises, hturn⟩ | ⟨hrises, hbad, hturn⟩ | ⟨hrises, hok, hbad, hturn⟩ |
      ⟨hrises, hok, hok', s', hs', hturn⟩ := evaluateEvent_cases env model nowMs i event s
    · rw [sweep_cons_next (by rw [hturn])] at hall ⊢
      have hrest := ih (i + 1) _ hall
      rw [hturn] at hrest ⊢
      exact hrest.cons_quiet hrises
    · -- a failed attempt is among the attempts of the pass
      rw [sweep_cons_exit (by rw [hturn]), hturn] at hall
      exact absurd (hall (.insert i _) (by simp [EvalState.recorded])) hbad
    · rw [sweep_cons_exit (by rw [hturn]), hturn] at hall
      exact absurd (hall (.emit i _) (by simp [EvalState.emitted])) hbad
    · rw [sweep_cons_next (by rw [hturn])] at hall ⊢
      have hrest := ih (i + 1) _ hall
      have hfired : FiredResult model nowMs event s s' := by
        rw [hs']
        exact firedResult_of_ok hok hok'
      rw [hturn] at hrest ⊢
      exact hrest.cons_edge hrises hfired

/-! ## Passes without a server

Before the server runs, or after it is gone, there is nothing to emit to. That is no failure. -/

/-- Without a server there is nothing to emit, and the emission succeeds. -/
theorem sweep_emit_ok (env : EventEnv τ ρ) (model : EdgeModel) (nowMs : Nat)
    (events : List EdgeEvent) {s : EvalState τ ρ} (hserver : s.server = none)
    (hemit : ∀ i status, .emit i status ∈ s.attempts → status = .ok) :
    (sweep (evaluateEvent env model nowMs) 0 events s).state.server = none ∧
      ∀ i status,
        .emit i status ∈ (sweep (evaluateEvent env model nowMs) 0 events s).state.attempts →
          status = .ok := by
  refine sweep_state (fun s : EvalState τ ρ => s.server = none ∧
    ∀ i status, .emit i status ∈ s.attempts → status = .ok) (fun i event s hs => ?_) events 0 s
    ⟨hserver, hemit⟩
  obtain ⟨hnone, hold⟩ := hs
  have hrecorded : (s.recorded env model nowMs i event).2.server = none ∧
      ∀ j status, .emit j status ∈ (s.recorded env model nowMs i event).2.attempts →
        status = .ok := by
    refine ⟨hnone, fun j status hmem => hold j status ?_⟩
    simpa [EvalState.recorded] using hmem
  have hemitted : (((s.recorded env model nowMs i event).2.emitted env model i event).2).server =
        none ∧
      ∀ j status, .emit j status ∈
        ((s.recorded env model nowMs i event).2.emitted env model i event).2.attempts →
          status = .ok := by
    unfold EvalState.emitted
    -- without a server an emission is answered with OK at once
    rw [hrecorded.1]
    refine ⟨rfl, fun j status hmem => ?_⟩
    rcases List.mem_append.mp hmem with hmem | hmem
    · exact hrecorded.2 j status hmem
    · cases List.mem_singleton.mp hmem
      rfl
  obtain ⟨_, hturn⟩ | ⟨_, _, hturn⟩ | ⟨_, _, _, hturn⟩ | ⟨_, _, _, s', hs', hturn⟩ :=
    evaluateEvent_cases env model nowMs i event s
  · rw [hturn]; exact ⟨hnone, hold⟩
  · rw [hturn]; exact hrecorded
  · rw [hturn]; exact hemitted
  · rw [hturn]; subst hs'; exact hemitted

/-! ## The attempts of `edge_events_evaluate`

The statements above, for the whole function. -/

theorem edgeEventsEvaluate_trace (env : EventEnv τ ρ) (nowMs : Nat) (model : EdgeModel)
    (store : Store τ) (server : Option (EdgeServer ρ)) :
    PassTrace model 0 model.events (edgeEventsEvaluate env nowMs model store server).attempts
      (edgeEventsEvaluate env nowMs model store server).model.events := by
  obtain ⟨attempts, hattempts, htrace⟩ := sweep_passTrace env model nowMs model.events 0
    { store, server }
  have hsame : (edgeEventsEvaluate env nowMs model store server).attempts = attempts := hattempts
  rw [hsame]
  exact htrace

theorem edgeEventsEvaluate_attempts (env : EventEnv τ ρ) (nowMs : Nat) (model : EdgeModel)
    (store : Store τ) (server : Option (EdgeServer ρ)) :
    PassAttempts 0 model.events (edgeEventsEvaluate env nowMs model store server).model.events
      (edgeEventsEvaluate env nowMs model store server).attempts :=
  (edgeEventsEvaluate_trace env nowMs model store server).passAttempts

theorem edgeEventsEvaluate_emit_ok (env : EventEnv τ ρ) (nowMs : Nat) (model : EdgeModel)
    (store : Store τ) :
    (edgeEventsEvaluate env nowMs model store none).server = none ∧
      ∀ i status, .emit i status ∈ (edgeEventsEvaluate env nowMs model store none).attempts →
        status = .ok :=
  sweep_emit_ok env model nowMs model.events rfl fun _ _ hmem => absurd hmem List.not_mem_nil

end OpcuaEdge
