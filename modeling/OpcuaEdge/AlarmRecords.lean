import OpcuaEdge.EventIsolation
import OpcuaEdge.AlarmText

/-!
# OpcuaEdge — alarms and their records

An alarm that is latched should have been recorded, and emitted if there is a server, since it was
last inactive. Both are read off the data here: the rows that the history has got, and the
notifications that the server was handed, while the alarm was latched (`RecordedSince`,
`EmittedSince`).

The latch is set before the insert and the emission, and a latched event is not tried again. So
alarms are recorded exactly where SQLite takes the row and open62541 the notification of every
rising edge, and every text fits (`alarms_recorded_iff`): a single refusal leaves an alarm latched
without its record.

The proof goes through the attempts of the passes, which the data and the answers have in common:

* **`runPasses_added`** — the rows and notifications that some passes add are those of the attempts
  that succeeded in them, so the data tell these attempts (`alarmsRecorded_attempted`);
* **`status_ok_of_alarmsAttempted`** — an event is tried exactly when it is latched, so a latch
  with its attempts means that no attempt failed;
* **`runPasses_taken`** — the attempts all succeed exactly where both libraries take the edges, one
  after the other, each in the state that the edges before it left.
-/

namespace OpcuaEdge

open CStr CLoop Txn

variable {τ ρ : Type}

/-! ## After some passes of a run

A run starts from a store, a server and the events of a template. After some of its passes they are
what the last pass left. -/

/-- What the last pass left of something that the run started with. -/
def afterLast {α : Type} (f : EvalResult τ ρ → α) (start : α) (results : List (EvalResult τ ρ)) :
    α := (results.getLast?.map f).getD start

theorem afterLast_concat {α : Type} (f : EvalResult τ ρ → α) (start : α)
    (results : List (EvalResult τ ρ)) (r : EvalResult τ ρ) :
    afterLast f start (results ++ [r]) = f r := by
  simp [afterLast]

theorem afterLast_cons {α : Type} (f : EvalResult τ ρ → α) (start : α) (first : EvalResult τ ρ)
    (results : List (EvalResult τ ρ)) :
    afterLast f start (first :: results) = afterLast f (f first) results := by
  cases results using List.reverseRecOn with
  | nil => rfl
  | append_singleton results r =>
    rw [← List.cons_append, afterLast_concat, afterLast_concat]

/-- The events as the last of the passes left them. -/
def eventsAfter (events : List EdgeEvent) (results : List (EvalResult τ ρ)) : List EdgeEvent :=
  afterLast (·.model.events) events results

/-- The history that the connection sees. -/
def historyAfter (store : Store τ) (results : List (EvalResult τ ρ)) : List HistoryRow :=
  (afterLast (·.store) store results).conn.view.eventHistory

/-- What the server has been handed, without the namespace index that it chose itself. -/
def notifiedAfter (server : Option (EdgeServer ρ)) (results : List (EvalResult τ ρ)) :
    List UaEvent :=
  (emittedBy (afterLast (·.server) server results)).map UaEvent.body

/-- Event `i` is latched at the end of the pass. -/
def LatchedAt (r : EvalResult τ ρ) (i : Nat) : Prop :=
  ∃ event, r.model.events[i]? = some event ∧ event.active = true

/-- **The alarm is in the history**: in passes that all left event `i` latched the history has got
a row with the event's id. -/
def RecordedSince (store : Store τ) (results : List (EvalResult τ ρ)) (i : Nat)
    (event : EdgeEvent) : Prop :=
  ∃ pre post, results = pre ++ post ∧ (∀ r ∈ post, LatchedAt r i) ∧
    ∃ rows, historyAfter store results = historyAfter store pre ++ rows ∧
      ∃ row ∈ rows, row.eventId = event.id

/-- **The alarm was emitted**: in passes that all left event `i` latched the server was handed the
event's notification, with its whole text for the values of one of them. -/
def EmittedSince (server : Option (EdgeServer ρ)) (results : List (EvalResult τ ρ)) (i : Nat)
    (event : EdgeEvent) : Prop :=
  ∃ pre post, results = pre ++ post ∧ (∀ r ∈ post, LatchedAt r i) ∧
    ∃ new, notifiedAfter server results = notifiedAfter server pre ++ new ∧
      ∃ r ∈ post, (makeEventMessage r.model event).1 = .ok ∧
        (uaEventOf r.model event 0).body ∈ new

/-- Every event latched at the end of the last pass was recorded, and emitted if there is a
server, since it was last inactive. -/
def AlarmsRecorded (model : EdgeModel) (store : Store τ) (server : Option (EdgeServer ρ))
    (results : List (EvalResult τ ρ)) : Prop :=
  ∀ r i event, results.getLast? = some r → LatchedAt r i → model.events[i]? = some event →
    RecordedSince store results i event ∧
      (server.isSome = true → EmittedSince server results i event)

/-! ## The events of a template

A pass changes latches and nothing else, so the events of a run are known by their index, and by
their id. -/

/-- The events of `current` are those of the template, with latches of their own. -/
def SameEvents (model current : EdgeModel) : Prop :=
  current.events.map (·.setActive false) = model.events.map (·.setActive false)

theorem SameEvents.getElem? {model current : EdgeModel} (h : SameEvents model current) {i : Nat}
    {event : EdgeEvent} (hevent : model.events[i]? = some event) :
    ∃ active, current.events[i]? = some (event.setActive active) := by
  have hi := congrArg (·[i]?) h
  simp only [List.getElem?_map, hevent, Option.map_some] at hi
  obtain ⟨other, hother, hsame⟩ := Option.map_eq_some_iff.mp hi
  refine ⟨other.active, hother.trans (congrArg some ?_)⟩
  exact congrArg (·.setActive other.active) hsame

theorem SameEvents.origin {model current : EdgeModel} (h : SameEvents model current) {i : Nat}
    {event : EdgeEvent} (hevent : current.events[i]? = some event) :
    ∃ origin, model.events[i]? = some origin ∧ event = origin.setActive event.active := by
  have hback : SameEvents current model := h.symm
  obtain ⟨active, hactive⟩ := hback.getElem? hevent
  exact ⟨_, hactive, rfl⟩

theorem makeEventMessage_congr {a b : EdgeModel} (h : a.nodes = b.nodes) (event : EdgeEvent)
    (active : Bool) : makeEventMessage a (event.setActive active) = makeEventMessage b event := by
  unfold makeEventMessage EdgeModel.sourceOf
  rw [h]
  rfl

/-- The ids of a template tell its events apart, whatever their latches are. -/
theorem SameEvents.index_eq_of_id {model current : EdgeModel} (h : SameEvents model current)
    (hids : (model.events.map (·.id)).Nodup) {i j : Nat} {event other : EdgeEvent}
    (hevent : model.events[i]? = some event) (hother : current.events[j]? = some other)
    (hid : other.id = event.id) : j = i := by
  obtain ⟨origin, horigin, hactive⟩ := h.origin hother
  have hsame : origin.id = event.id := by
    rw [hactive] at hid
    exact hid
  refine (List.getElem?_inj (l := model.events.map (·.id)) ?_ hids).mp ?_
  · rw [List.length_map]
    exact (List.getElem?_eq_some_iff.mp horigin).1
  · rw [List.getElem?_map, List.getElem?_map, horigin, hevent, Option.map_some, Option.map_some,
      hsame]

theorem runPasses_sameEvents {model : EdgeModel} (env : EventEnv τ ρ) :
    ∀ (passes : List Pass) (current : EdgeModel) (store : Store τ) (server : Option (EdgeServer ρ)),
      SameEvents model current →
      ∀ r ∈ runPasses env passes current store server, SameEvents model r.model := by
  intro passes
  induction passes with
  | nil => intro current store server _ r hr; cases hr
  | cons pass rest ih =>
    intro current store server hsame r hr
    have hkept := edgeEventsEvaluate_definitions env pass.nowMs (setValues pass.values current)
      store server
    rcases List.mem_cons.mp hr with rfl | hr
    · exact hkept.trans hsame
    · exact ih _ _ _ (hkept.trans hsame) r hr

/-! ## Rows and notifications of passes

What passes add to the history and to the server's list tells which of their attempts succeeded:
ids are unique, and the text of a notification tells the id. -/

/-- What passes added between two states: they found `store` and `server` and left `store'` and
`server'`, and `rows` and `new` are those of their successful attempts. -/
structure Added (model : EdgeModel) (store store' : Store τ)
    (server server' : Option (EdgeServer ρ)) (results : List (EvalResult τ ρ))
    (rows : List HistoryRow) (new : List UaEvent) : Prop where
  history : (∀ r ∈ results, ∀ a ∈ r.attempts, a.status = .ok) →
    store'.conn.view.eventHistory = store.conn.view.eventHistory ++ rows
  kept : ∀ base old, store.conn.All (HistoryOf base old) →
    store'.conn.All (HistoryOf base (old ++ rows))
  ahead : HistoryAhead store.conn → HistoryAhead store'.conn
  notified : (emittedBy server').map UaEvent.body = (emittedBy server).map UaEvent.body ++ new
  served : server'.isSome = server.isSome
  row : ∀ i event, model.events[i]? = some event →
    ((∃ row ∈ rows, row.eventId = event.id) ↔ ∃ r ∈ results, .insert i .ok ∈ r.attempts)
  told : ∀ i event, model.events[i]? = some event → ∀ found : EdgeModel,
    (makeEventMessage found event).1 = .ok → (uaEventOf found event 0).body ∈ new →
      ∃ r ∈ results, .emit i .ok ∈ r.attempts
  emitted : server.isSome = true → ∀ i event, model.events[i]? = some event →
    ∀ r ∈ results, .emit i .ok ∈ r.attempts →
      (makeEventMessage r.model event).1 = .ok ∧ (uaEventOf r.model event 0).body ∈ new

theorem Added.nil (model : EdgeModel) (store : Store τ) (server : Option (EdgeServer ρ)) :
    Added model store store server server [] [] [] where
  history _ := (List.append_nil _).symm
  kept base old h := (List.append_nil old).symm ▸ h
  ahead h := h
  notified := (List.append_nil _).symm
  served := rfl
  row i event _ := by simp
  told i event _ found _ hmem := absurd hmem List.not_mem_nil
  emitted _ i event _ r hmem := absurd hmem List.not_mem_nil

theorem Added.append {model : EdgeModel} {store store' store'' : Store τ}
    {server server' server'' : Option (EdgeServer ρ)} {a b : List (EvalResult τ ρ)}
    {rows rows' : List HistoryRow} {new new' : List UaEvent}
    (h : Added model store store' server server' a rows new)
    (h' : Added model store' store'' server' server'' b rows' new') :
    Added model store store'' server server'' (a ++ b) (rows ++ rows') (new ++ new') where
  history hok := by
    have hfirst := h.history fun r hr => hok r (List.mem_append_left b hr)
    rw [h'.history fun r hr => hok r (List.mem_append_right a hr), hfirst, List.append_assoc]
  kept base old hconn := by
    rw [← List.append_assoc]
    exact h'.kept base _ (h.kept base old hconn)
  ahead hahead := h'.ahead (h.ahead hahead)
  notified := by rw [h'.notified, h.notified, List.append_assoc]
  served := h'.served.trans h.served
  row i event hevent := by
    simp only [List.mem_append, or_and_right, exists_or]
    exact or_congr (h.row i event hevent) (h'.row i event hevent)
  -- both directions of the notifications go to the half that the text or the pass is in
  told i event hevent found hok hmem := by
    rcases List.mem_append.mp hmem with hmem | hmem
    · obtain ⟨r, hr, hemit⟩ := h.told i event hevent found hok hmem
      exact ⟨r, List.mem_append_left b hr, hemit⟩
    · obtain ⟨r, hr, hemit⟩ := h'.told i event hevent found hok hmem
      exact ⟨r, List.mem_append_right a hr, hemit⟩
  emitted hserved i event hevent r hr hemit := by
    rcases List.mem_append.mp hr with hr | hr
    · obtain ⟨hok, hmem⟩ := h.emitted hserved i event hevent r hr hemit
      exact ⟨hok, List.mem_append_left new' hmem⟩
    · obtain ⟨hok, hmem⟩ := h'.emitted (h.served.trans hserved) i event hevent r hr hemit
      exact ⟨hok, List.mem_append_right new hmem⟩

/-- A pass adds the rows and notifications of its attempts. -/
theorem edgeEventsEvaluate_added {model found : EdgeModel}
    (hids : (model.events.map (·.id)).Nodup) (hsame : SameEvents model found) (env : EventEnv τ ρ)
    (nowMs : Nat) (store : Store τ) (server : Option (EdgeServer ρ)) :
    let r := edgeEventsEvaluate env nowMs found store server
    ∃ rows new, Added model store r.store server r.server [r] rows new := by
  intro r
  have hledger := edgeEventsEvaluate_ledger env nowMs found store server
  exact ⟨_, _, {
    history := fun hok => hledger.history (.inr (hok r (List.mem_singleton_self r)))
    kept := hledger.rows
    ahead := hledger.ahead
    notified := hledger.emitted
    served := hledger.server
    row := fun i event hevent => by
      constructor
      · rintro ⟨row, hrow, hid⟩
        obtain ⟨a, ha, hrecorded⟩ := List.mem_filterMap.mp hrow
        obtain ⟨j, other, rfl, hother, rfl⟩ := recordedRow_eq_some hrecorded
        obtain rfl := hsame.index_eq_of_id hids hevent hother hid
        exact ⟨r, List.mem_singleton_self r, ha⟩
      · rintro ⟨r', hr', hinsert⟩
        cases List.mem_singleton.mp hr'
        obtain ⟨active, hactive⟩ := hsame.getElem? hevent
        refine ⟨historyRow found nowMs (event.setActive active), ?_, rfl⟩
        exact List.mem_filterMap.mpr ⟨_, hinsert, by rw [recordedRow, hactive]; rfl⟩
    told := fun i event hevent found' hok hmem => by
      by_cases hserved : server.isSome = true
      · rw [if_pos hserved] at hmem
        obtain ⟨a, ha, htold⟩ := List.mem_filterMap.mp hmem
        obtain ⟨j, other, rfl, hother, hbody⟩ := emittedNotification_eq_some htold
        -- the texts are whole, so they tell the ids
        have hid := makeEventMessage_tells (hledger.texts hserved j other ha hother) hok
          (congrArg UaEvent.message hbody.symm)
        obtain rfl := hsame.index_eq_of_id hids hevent hother hid
        exact ⟨r, List.mem_singleton_self r, ha⟩
      · rw [if_neg hserved] at hmem
        exact absurd hmem List.not_mem_nil
    emitted := fun hserved i event hevent r' hr' hemit => by
      cases List.mem_singleton.mp hr'
      obtain ⟨active, hactive⟩ := hsame.getElem? hevent
      have hok := hledger.texts hserved i _ hemit hactive
      rw [makeEventMessage_congr (rfl : found.nodes = r.model.nodes)] at hok
      refine ⟨hok, ?_⟩
      rw [if_pos hserved]
      refine List.mem_filterMap.mpr ⟨_, hemit, ?_⟩
      rw [emittedNotification, hactive, Option.map_some,
        uaEventOf_congr (rfl : found.nodes = r.model.nodes) event active 0]
      rfl }⟩

/-- **The passes of a run add the rows and notifications of their attempts.** -/
theorem runPasses_added {model : EdgeModel} (hids : (model.events.map (·.id)).Nodup)
    (env : EventEnv τ ρ) :
    ∀ (passes : List Pass) (current : EdgeModel) (store : Store τ) (server : Option (EdgeServer ρ)),
      SameEvents model current →
      ∀ pre post, pre ++ post <+: runPasses env passes current store server →
        ∃ rows new, Added model (afterLast (·.store) store pre)
          (afterLast (·.store) store (pre ++ post)) (afterLast (·.server) server pre)
          (afterLast (·.server) server (pre ++ post)) post rows new := by
  intro passes
  induction passes with
  | nil =>
    intro current store server _ pre post hrun
    obtain ⟨rfl, rfl⟩ := List.append_eq_nil_iff.mp (List.prefix_nil.mp hrun)
    exact ⟨[], [], .nil _ _ _⟩
  | cons pass rest ih =>
    intro current store server hsame pre post hrun
    rw [runPasses] at hrun
    have hfound : SameEvents model (setValues pass.values current) := hsame
    have hkept := edgeEventsEvaluate_definitions env pass.nowMs (setValues pass.values current)
      store server
    have hnext := ih _ (edgeEventsEvaluate env pass.nowMs (setValues pass.values current) store
      server).store (edgeEventsEvaluate env pass.nowMs (setValues pass.values current) store
      server).server (hkept.trans hfound)
    -- the first pass belongs to the stretch, or to what comes before it
    cases pre with
    | nil =>
      cases post with
      | nil => exact ⟨[], [], .nil _ _ _⟩
      | cons first post =>
        obtain ⟨rfl, hlater⟩ := List.cons_prefix_cons.mp hrun
        obtain ⟨rows, new, hadded⟩ := edgeEventsEvaluate_added hids hfound env pass.nowMs store
          server
        obtain ⟨rows', new', hadded'⟩ := hnext [] post hlater
        refine ⟨rows ++ rows', new ++ new', ?_⟩
        rw [List.nil_append, afterLast_cons, afterLast_cons]
        exact hadded.append hadded'
    | cons first pre =>
      obtain ⟨rfl, hlater⟩ := List.cons_prefix_cons.mp hrun
      obtain ⟨rows, new, hadded⟩ := hnext pre post hlater
      refine ⟨rows, new, ?_⟩
      rw [List.cons_append, afterLast_cons, afterLast_cons, afterLast_cons, afterLast_cons]
      exact hadded

/-! ## Attempts

The same, told by the attempts of the passes: an alarm that is latched was tried with success since
it was last inactive. A pass tries an event exactly when it latches it. -/

/-- Since event `i` was last inactive, a pass made the successful attempt `attempt`. -/
def AttemptedSince (results : List (EvalResult τ ρ)) (i : Nat) (attempt : EventAttempt) : Prop :=
  ∃ pre r post, results = pre ++ r :: post ∧ (∀ r' ∈ r :: post, LatchedAt r' i) ∧
    attempt ∈ r.attempts

/-- Every event latched at the end of the last pass was inserted, and emitted if there is a server,
since it was last inactive. -/
def AlarmsAttempted (served : Bool) (results : List (EvalResult τ ρ)) : Prop :=
  ∀ r i, results.getLast? = some r → LatchedAt r i →
    AttemptedSince results i (.insert i .ok) ∧
      (served = true → AttemptedSince results i (.emit i .ok))

/-- Each pass of a run made its attempts on the events that the passes before left, and without a
server its emissions succeeded. -/
theorem runPasses_attempts (env : EventEnv τ ρ) :
    ∀ (passes : List Pass) (model : EdgeModel) (store : Store τ) (server : Option (EdgeServer ρ))
      (pre : List (EvalResult τ ρ)) (r : EvalResult τ ρ),
      pre ++ [r] <+: runPasses env passes model store server →
        PassAttempts 0 (eventsAfter model.events pre) r.model.events r.attempts ∧
          (server = none → ∀ i status, .emit i status ∈ r.attempts → status = .ok) := by
  intro passes
  induction passes with
  | nil => intro model store server pre r hpre; simp [runPasses] at hpre
  | cons pass rest ih =>
    intro model store server pre r hpre
    rw [runPasses] at hpre
    -- the first pass is the one asked about, or it comes before it
    cases pre with
    | nil =>
      cases (List.cons_prefix_cons.mp hpre).1
      refine ⟨edgeEventsEvaluate_attempts env pass.nowMs (setValues pass.values model) store server,
        ?_⟩
      rintro rfl
      exact (edgeEventsEvaluate_emit_ok env _ _ _).2
    | cons first pre =>
      obtain ⟨rfl, hrest⟩ := List.cons_prefix_cons.mp hpre
      obtain ⟨hlater, hemit⟩ := ih _ _ _ pre r hrest
      unfold eventsAfter
      rw [afterLast_cons]
      refine ⟨hlater, ?_⟩
      rintro rfl
      exact hemit (edgeEventsEvaluate_emit_ok env _ _ _).1

theorem AttemptedSince.concat {results : List (EvalResult τ ρ)} {i : Nat}
    {attempt : EventAttempt} (h : AttemptedSince results i attempt) {r : EvalResult τ ρ}
    (hlatched : LatchedAt r i) : AttemptedSince (results ++ [r]) i attempt := by
  obtain ⟨pre, r', post, rfl, hall, hmem⟩ := h
  refine ⟨pre, r', post ++ [r], by simp, fun x hx => ?_, hmem⟩
  rcases List.mem_append.mp (show x ∈ (r' :: post) ++ [r] from hx) with hx | hx
  · exact hall x hx
  · rw [List.mem_singleton.mp hx]; exact hlatched

/-- An attempt since the event was last inactive was made in the last pass, if the event was
inactive before it. -/
theorem AttemptedSince.mem_last {events : List EdgeEvent} {pre : List (EvalResult τ ρ)}
    {r : EvalResult τ ρ} {i : Nat} {attempt : EventAttempt}
    (h : AttemptedSince (pre ++ [r]) i attempt) {event : EdgeEvent}
    (hevent : (eventsAfter events pre)[i]? = some event) (hinactive : event.active = false) :
    attempt ∈ r.attempts := by
  obtain ⟨early, r', post, hsplit, hall, hmem⟩ := h
  cases post using List.reverseRecOn with
  | nil => cases (List.append_inj' hsplit rfl).2; exact hmem
  | append_singleton post last =>
    -- then the event would be latched at the end of the pass before
    have hpre : pre = early ++ r' :: post := by
      rw [← List.cons_append, ← List.append_assoc] at hsplit
      exact (List.append_inj' hsplit rfl).1
    obtain ⟨mid, before, hmid⟩ : ∃ mid before, r' :: post = mid ++ [before] :=
      ⟨_, _, (List.dropLast_append_getLast (List.cons_ne_nil r' post)).symm⟩
    obtain ⟨event', hevent', hactive⟩ := hall before (by
      rw [← List.cons_append, hmid]; simp)
    rw [hpre, hmid, ← List.append_assoc, eventsAfter, afterLast_concat, hevent',
      Option.some.injEq] at hevent
    rw [hevent, hinactive] at hactive
    cases hactive

/-- A pass whose attempts all succeed keeps the alarms accounted for. -/
theorem alarmsAttempted_concat {events : List EdgeEvent} {pre : List (EvalResult τ ρ)}
    {r : EvalResult τ ρ} {served : Bool} (hinit : ∀ event ∈ events, event.active = false)
    (hpass : PassAttempts 0 (eventsAfter events pre) r.model.events r.attempts)
    (hok : ∀ a ∈ r.attempts, a.status = .ok) (h : AlarmsAttempted served pre) :
    AlarmsAttempted served (pre ++ [r]) := by
  intro last i hlast hlatched
  rw [List.getLast?_concat] at hlast
  cases hlast
  obtain ⟨event', hevent', hactive'⟩ := id hlatched
  obtain ⟨event, hevent⟩ : ∃ event, (eventsAfter events pre)[i]? = some event := by
    have hlt := (List.getElem?_eq_some_iff.mp hevent').1
    rw [hpass.length] at hlt
    exact ⟨_, List.getElem?_eq_getElem hlt⟩
  cases hactive : event.active with
  | false =>
    -- it became latched in this pass, which then recorded and emitted it
    obtain ⟨status, hinsert, hemit⟩ := hpass.tried i event event' hevent hevent' hactive hactive'
    rw [Nat.zero_add] at hinsert hemit
    cases hok _ hinsert
    obtain ⟨status', hemit⟩ := hemit rfl
    cases hok _ hemit
    have hone : ∀ r' ∈ [r], LatchedAt r' i := fun r' hr' => by
      rw [List.mem_singleton.mp hr']; exact hlatched
    exact ⟨⟨pre, r, [], rfl, hone, hinsert⟩, fun _ => ⟨pre, r, [], rfl, hone, hemit⟩⟩
  | true =>
    -- it was latched before this pass, and that is accounted for
    cases pre using List.reverseRecOn with
    | nil =>
      have hfalse := hinit event (List.mem_of_getElem? hevent)
      rw [hactive] at hfalse
      cases hfalse
    | append_singleton pre before =>
      rw [eventsAfter, afterLast_concat] at hevent
      obtain ⟨hinsert, hemit⟩ := h before i List.getLast?_concat ⟨event, hevent, hactive⟩
      exact ⟨hinsert.concat hlatched, fun hserved => (hemit hserved).concat hlatched⟩

/-- A failed attempt leaves an alarm latched that is not accounted for. -/
theorem status_ok_of_alarmsAttempted {events : List EdgeEvent} {pre : List (EvalResult τ ρ)}
    {r : EvalResult τ ρ} {served : Bool}
    (hpass : PassAttempts 0 (eventsAfter events pre) r.model.events r.attempts)
    (hunserved : served = false → ∀ i status, .emit i status ∈ r.attempts → status = .ok)
    (h : AlarmsAttempted served (pre ++ [r])) : ∀ a ∈ r.attempts, a.status = .ok := by
  intro a ha
  obtain ⟨k, event, event', hindex, hevent, hevent', hinactive, hactive⟩ := hpass.edge a ha
  rw [Nat.zero_add] at hindex
  obtain ⟨hinsert, hemit⟩ := h r k List.getLast?_concat ⟨event', hevent', hactive⟩
  -- a pass attempts a thing for an event once, so the successful attempt is this one
  have hsame : ∀ b ∈ r.attempts, a.key = b.key → a = b := fun b hb =>
    List.inj_on_of_nodup_map hpass.once ha hb
  cases a with
  | insert i status =>
    cases (show i = k from hindex)
    rw [hsame _ (hinsert.mem_last hevent hinactive) rfl]
    rfl
  | emit i status =>
    cases (show i = k from hindex)
    cases hserved : served with
    | false => exact hunserved hserved k status ha
    | true =>
      rw [hsame _ ((hemit hserved).mem_last hevent hinactive) rfl]
      rfl

/-! ## What the data tell

A row that the history has got since tells a successful insert, whatever the passes did; and where
every attempt succeeded, a successful insert tells a row. -/

section

variable {model : EdgeModel} {store : Store τ} {server : Option (EdgeServer ρ)}
  {results : List (EvalResult τ ρ)}
  (hadded : ∀ pre post, results = pre ++ post → ∃ rows new,
    Added model (afterLast (·.store) store pre) (afterLast (·.store) store results)
      (afterLast (·.server) server pre) (afterLast (·.server) server results) post rows new)
  {i : Nat} {event : EdgeEvent} (hevent : model.events[i]? = some event)

include hadded hevent

theorem attemptedSince_of_recordedSince
    (hahead : ∀ pre post, results = pre ++ post → HistoryAhead (afterLast (·.store) store pre).conn)
    (h : RecordedSince store results i event) : AttemptedSince results i (.insert i .ok) := by
  obtain ⟨pre, post, hsplit, hlatched, rows, hrows, row, hrow, hid⟩ := h
  obtain ⟨rows', new, hpost⟩ := hadded pre post hsplit
  -- none of these rows is from before, even if a transaction was discarded
  have hkept := (hpost.kept _ _ (hahead pre post hsplit).all).view
  have hmem := hkept.subset hrows hrow
  rw [List.nil_append] at hmem
  -- the pass that inserted it, and the ones behind it
  obtain ⟨r, hr, hinsert⟩ := (hpost.row i event hevent).mp ⟨row, hmem, hid⟩
  obtain ⟨early, late, rfl⟩ := List.append_of_mem hr
  refine ⟨pre ++ early, r, late, by rw [hsplit, List.append_assoc], fun r' hr' => ?_, hinsert⟩
  exact hlatched r' (List.mem_append_right early hr')

theorem recordedSince_of_attemptedSince
    (hok : ∀ r ∈ results, ∀ a ∈ r.attempts, a.status = .ok)
    (h : AttemptedSince results i (.insert i .ok)) : RecordedSince store results i event := by
  obtain ⟨pre, r, post, hsplit, hlatched, hinsert⟩ := h
  obtain ⟨rows, new, hpost⟩ := hadded pre (r :: post) hsplit
  have hrow := (hpost.row i event hevent).mpr ⟨r, List.mem_cons_self, hinsert⟩
  have hrows := hpost.history fun r' hr' => hok r' (hsplit ▸ List.mem_append_right pre hr')
  exact ⟨pre, r :: post, hsplit, hlatched, rows, hrows, hrow⟩

theorem attemptedSince_of_emittedSince (h : EmittedSince server results i event) :
    AttemptedSince results i (.emit i .ok) := by
  obtain ⟨pre, post, hsplit, hlatched, new, hnew, found, -, hok, hmem⟩ := h
  obtain ⟨rows, new', hpost⟩ := hadded pre post hsplit
  obtain rfl := List.append_cancel_left (hnew.symm.trans hpost.notified)
  obtain ⟨r, hr, hemit⟩ := hpost.told i event hevent found.model hok hmem
  obtain ⟨early, late, rfl⟩ := List.append_of_mem hr
  refine ⟨pre ++ early, r, late, by rw [hsplit, List.append_assoc], fun r' hr' => ?_, hemit⟩
  exact hlatched r' (List.mem_append_right early hr')

theorem emittedSince_of_attemptedSince (hserved : server.isSome = true)
    (h : AttemptedSince results i (.emit i .ok)) : EmittedSince server results i event := by
  obtain ⟨pre, r, post, hsplit, hlatched, hemit⟩ := h
  obtain ⟨_, _, hpre⟩ := hadded [] results rfl
  obtain ⟨rows, new, hpost⟩ := hadded pre (r :: post) hsplit
  have hserver : (afterLast (·.server) server pre).isSome = true := by
    rw [← hpost.served, hpre.served]
    exact hserved
  obtain ⟨hok, hmem⟩ := hpost.emitted hserver i event hevent r List.mem_cons_self hemit
  exact ⟨pre, r :: post, hsplit, hlatched, new, hpost.notified, r, List.mem_cons_self, hok, hmem⟩

end

/-- **Alarms that are recorded were attempted with success**, and the other way round where every
attempt succeeded. -/
theorem alarmsRecorded_attempted {model : EdgeModel} (hids : (model.events.map (·.id)).Nodup)
    (env : EventEnv τ ρ) {store : Store τ} (hstore : HistoryAhead store.conn)
    (server : Option (EdgeServer ρ)) {passes : List Pass} {results : List (EvalResult τ ρ)}
    (hrun : results <+: runPasses env passes model store server) :
    (AlarmsRecorded model store server results → AlarmsAttempted server.isSome results) ∧
      ((∀ r ∈ results, ∀ a ∈ r.attempts, a.status = .ok) →
        AlarmsAttempted server.isSome results → AlarmsRecorded model store server results) := by
  have hadded : ∀ pre post, results = pre ++ post → ∃ rows new,
      Added model (afterLast (·.store) store pre) (afterLast (·.store) store results)
        (afterLast (·.server) server pre) (afterLast (·.server) server results) post rows new := by
    rintro pre post rfl
    exact runPasses_added hids env passes model store server rfl pre post hrun
  have hahead : ∀ pre post, results = pre ++ post →
      HistoryAhead (afterLast (·.store) store pre).conn := by
    rintro pre post rfl
    obtain ⟨_, _, hpre⟩ := runPasses_added hids env passes model store server rfl [] pre
      ((List.prefix_append pre post).trans hrun)
    exact hpre.ahead hstore
  constructor
  · intro h r i hlast hlatched
    -- a latched event is one of the template
    obtain ⟨event, hevent⟩ : ∃ event, model.events[i]? = some event := by
      obtain ⟨later, hlater, -⟩ := id hlatched
      have hsame := runPasses_sameEvents env passes model store server rfl r
        (hrun.subset (List.mem_of_getLast? hlast))
      obtain ⟨origin, horigin, -⟩ := hsame.origin hlater
      exact ⟨origin, horigin⟩
    obtain ⟨hrow, hnotification⟩ := h r i event hlast hlatched hevent
    exact ⟨attemptedSince_of_recordedSince hadded hevent hahead hrow,
      fun hserved => attemptedSince_of_emittedSince hadded hevent (hnotification hserved)⟩
  · intro hok h r i event hlast hlatched hevent
    obtain ⟨hinsert, hemit⟩ := h r i hlast hlatched
    exact ⟨recordedSince_of_attemptedSince hadded hevent hok hinsert, fun hserved =>
      emittedSince_of_attemptedSince hadded hevent hserved (hemit hserved)⟩

/-! ## The answers of SQLite and open62541

Whether the attempts of a run succeed is decided outside: by what SQLite and open62541 answer to the
calls for the rising edges, one edge after the other, and by the texts. -/

/-- A rising edge, in the model that its pass found. -/
abbrev FoundEdge := EdgeModel × EdgeEvent

/-- The states of SQLite and of open62541; without a server, or with a null `UA_Server`, there is
no state of the latter. -/
abbrev Outside (τ ρ : Type) := τ × Option (Option ρ)

def outsideOf (store : Store τ) (server : Option (EdgeServer ρ)) : Outside τ ρ :=
  (store.env, server.map (·.ua))

/-- The notification of the edge is taken: there is no server, or its message fits and open62541
answers every call for it. -/
def ServerTakes (lib : UaLib ρ) (edge : FoundEdge) : Option (Option ρ) → Prop
  | none => True
  | some none => False
  | some (some ua) => MessageShort edge.1 edge.2 ∧ UaGrants lib edge.1 edge.2 ua

instance (lib : UaLib ρ) (edge : FoundEdge) : DecidablePred (ServerTakes lib edge)
  | none => inferInstanceAs (Decidable True)
  | some none => inferInstanceAs (Decidable False)
  | some (some _) => inferInstanceAs (Decidable (_ ∧ _))

/-- SQLite takes the row of the edge, and the server its notification. -/
def EdgeTaken (env : EventEnv τ ρ) (edge : FoundEdge) (o : Outside τ ρ) : Prop :=
  env.engine.Grants [.prepare, .step] o.1 ∧ ServerTakes env.lib edge o.2

instance (env : EventEnv τ ρ) (edge : FoundEdge) (o : Outside τ ρ) :
    Decidable (EdgeTaken env edge o) := inferInstanceAs (Decidable (_ ∧ _))

/-- The states of both after that. -/
def edgeAfter (env : EventEnv τ ρ) (o : Outside τ ρ) (edge : FoundEdge) : Outside τ ρ :=
  (env.engine.after [.prepare, .step] o.1, o.2.map (Option.map (uaAfter env.lib edge.1 edge.2)))

/-- Both take everything of every edge, one after the other. -/
def EdgesTaken (env : EventEnv τ ρ) : List FoundEdge → Outside τ ρ → Prop
  | [], _ => True
  | edge :: rest, o => EdgeTaken env edge o ∧ EdgesTaken env rest (edgeAfter env o edge)

instance EdgesTaken.decidable (env : EventEnv τ ρ) :
    ∀ (edges : List FoundEdge) (o : Outside τ ρ), Decidable (EdgesTaken env edges o)
  | [], _ => inferInstanceAs (Decidable True)
  | edge :: rest, o =>
    haveI := EdgesTaken.decidable env rest (edgeAfter env o edge)
    inferInstanceAs (Decidable (_ ∧ _))

theorem edgesTaken_append (env : EventEnv τ ρ) (first second : List FoundEdge) (o : Outside τ ρ) :
    EdgesTaken env (first ++ second) o ↔
      EdgesTaken env first o ∧ EdgesTaken env second (first.foldl (edgeAfter env) o) := by
  induction first generalizing o with
  | nil => exact ⟨fun h => ⟨trivial, h⟩, And.right⟩
  | cons edge rest ih =>
    show _ ∧ EdgesTaken env (rest ++ second) _ ↔ (_ ∧ EdgesTaken env rest _) ∧ _
    rw [ih, and_assoc]
    rfl

/-- Latches and the values of other passes do not matter. -/
theorem edgeTaken_congr (env : EventEnv τ ρ) {a b : EdgeModel} (h : a.nodes = b.nodes)
    (event : EdgeEvent) (active : Bool) (o : Outside τ ρ) :
    (EdgeTaken env (a, event.setActive active) o ↔ EdgeTaken env (b, event) o) ∧
      edgeAfter env o (a, event.setActive active) = edgeAfter env o (b, event) := by
  have hevent : uaEventOf a (event.setActive active) = uaEventOf b event :=
    funext fun ns => uaEventOf_congr h event active ns
  have hvalue : eventValue a (event.setActive active) = eventValue b event := by
    unfold eventValue EdgeModel.sourceOf
    rw [h]
    rfl
  have hafter : uaAfter env.lib a (event.setActive active) = uaAfter env.lib b event := by
    funext ua
    unfold uaAfter
    rw [hevent]
  -- row and notification show the event as it fires, with its latch set
  refine ⟨and_congr_right fun _ => ?_, ?_⟩
  · rcases o with ⟨sqlite, _ | _ | ua⟩
    · exact Iff.rfl
    · exact Iff.rfl
    · refine and_congr ?_ ?_
      · unfold MessageShort
        rw [hvalue]
        rfl
      · rw [uaGrants_iff, uaGrants_iff, hevent]
  · unfold edgeAfter
    rw [hafter]

theorem edgesTaken_congr (env : EventEnv τ ρ) {a b : EdgeModel} (h : a.nodes = b.nodes)
    (latches : EdgeEvent → Bool) (events : List EdgeEvent) (o : Outside τ ρ) :
    (EdgesTaken env (events.map fun e => (a, e.setActive (latches e))) o ↔
        EdgesTaken env (events.map fun e => (b, e)) o) ∧
      (events.map fun e => (a, e.setActive (latches e))).foldl (edgeAfter env) o =
        (events.map fun e => (b, e)).foldl (edgeAfter env) o := by
  induction events generalizing o with
  | nil => exact ⟨Iff.rfl, rfl⟩
  | cons event rest ih =>
    obtain ⟨hsame, hafter⟩ := edgeTaken_congr env h event (latches event) o
    rw [List.map_cons, List.map_cons, List.foldl_cons, List.foldl_cons, hafter]
    exact ⟨and_congr hsame (by rw [hafter]; exact (ih _).1), (ih _).2⟩

/-- An insert and an emission of a rising edge succeed exactly if both take it. -/
theorem fired_ok_iff (env : EventEnv τ ρ) {found : EdgeModel} {event : EdgeEvent} {node : EdgeNode}
    (hid : event.assetId.length < edgeMaxIdLen) (hsource : found.sourceOf event = some node)
    (hrises : rises found event = true) (nowMs i : Nat) (s : EvalState τ ρ) :
    ((s.recorded env found nowMs i event).1 = .ok ∧
        ((s.recorded env found nowMs i event).2.emitted env found i event).1 = .ok ↔
          EdgeTaken env (found, event) (outsideOf s.store s.server)) ∧
      (EdgeTaken env (found, event) (outsideOf s.store s.server) →
        outsideOf ((s.recorded env found nowMs i event).2.emitted env found i event).2.store
            ((s.recorded env found nowMs i event).2.emitted env found i event).2.server =
          edgeAfter env (outsideOf s.store s.server) (found, event)) := by
  obtain ⟨hinsert, hsqlite⟩ := insertEventHistory_ok_iff env.engine hrises nowMs s.store
  have hshort : (makeEventMessage found (event.setActive true)).1 = .ok ↔
      MessageShort found event := makeEventMessage_ok_iff hsource
  have hnotification : uaEventOf found (event.setActive true) = uaEventOf found event :=
    funext fun ns => uaEventOf_congr rfl event true ns
  have hgrants (ua : ρ) : UaGrants env.lib found (event.setActive true) ua ↔
      UaGrants env.lib found event ua := by
    rw [uaGrants_iff, uaGrants_iff, hnotification]
  -- the emission sees the server as it is, for a history row does not touch it
  have hserver : ((emitOpcuaEvent env.lib found (event.setActive true) s.server).1 = .ok ↔
        ServerTakes env.lib (found, event) (s.server.map (·.ua))) ∧
      (ServerTakes env.lib (found, event) (s.server.map (·.ua)) →
        (emitOpcuaEvent env.lib found (event.setActive true) s.server).2.map (·.ua) =
          (s.server.map (·.ua)).map (Option.map (uaAfter env.lib found event))) := by
    rcases s.server with _ | ⟨_ | ua, emitted⟩
    · exact ⟨iff_of_true rfl trivial, fun _ => rfl⟩
    · exact ⟨iff_of_false nofun id, False.elim⟩
    · obtain ⟨hemit, ua', emitted', hafter, hua⟩ := emitOpcuaEvent_ok_iff env.lib
        (show (event.setActive true).assetId.length < edgeMaxIdLen from hid) found ua emitted
      rw [hshort, hgrants] at hemit hua
      refine ⟨hemit, fun htakes => ?_⟩
      have hsame : uaAfter env.lib found (event.setActive true) ua =
          uaAfter env.lib found event ua := by
        unfold uaAfter
        rw [hnotification]
      rw [hafter, hua htakes, hsame]
      rfl
  refine ⟨and_congr hinsert hserver.1, fun htaken => ?_⟩
  exact Prod.ext (hsqlite htaken.1) (hserver.2 htaken.2)

/-- What a loop over the rising edges `edges` leaves: no attempt has failed exactly if both take the
edges, and then their states are those after the calls for them. -/
structure TakenLoop (env : EventEnv τ ρ) (edges : List FoundEdge) (s s' : EvalState τ ρ) :
    Prop where
  ok : (∀ a ∈ s'.attempts, a.status = .ok) ↔
    (∀ a ∈ s.attempts, a.status = .ok) ∧ EdgesTaken env edges (outsideOf s.store s.server)
  outside : EdgesTaken env edges (outsideOf s.store s.server) →
    outsideOf s'.store s'.server = edges.foldl (edgeAfter env) (outsideOf s.store s.server)

/-- An edge that both take, before the rest of the loop. -/
theorem TakenLoop.cons {env : EventEnv τ ρ} {edge : FoundEdge} {edges : List FoundEdge} {i : Nat}
    {s s₁ s' : EvalState τ ρ} (h : TakenLoop env edges s₁ s')
    (htaken : EdgeTaken env edge (outsideOf s.store s.server))
    (hattempts : s₁.attempts = s.attempts ++ [.insert i .ok, .emit i .ok])
    (hafter : outsideOf s₁.store s₁.server = edgeAfter env (outsideOf s.store s.server) edge) :
    TakenLoop env (edge :: edges) s s' where
  ok := by
    have hrest := h.ok
    rw [hafter, hattempts] at hrest
    -- the edge at the head was answered, so its two attempts are among the good ones
    rw [hrest, EdgesTaken, and_iff_right htaken]
    refine and_congr_left fun _ => ⟨fun hall a ha => hall a (List.mem_append_left _ ha), ?_⟩
    intro hall a ha
    rcases List.mem_append.mp ha with ha | ha
    · exact hall a ha
    · rcases List.mem_pair.mp ha with rfl | rfl <;> rfl
  outside hedges := by
    rw [List.foldl_cons, ← hafter]
    exact h.outside (hafter ▸ hedges.2)

/-- An edge that is refused ends the loop with a failed attempt. -/
theorem takenLoop_refused {env : EventEnv τ ρ} {edge : FoundEdge} (edges : List FoundEdge)
    {s s' : EvalState τ ρ} (hrefused : ¬ EdgeTaken env edge (outsideOf s.store s.server))
    {a : EventAttempt} (ha : a ∈ s'.attempts) (hfailed : a.status ≠ .ok) :
    TakenLoop env (edge :: edges) s s' where
  ok := iff_of_false (fun hall => hfailed (hall a ha)) fun h => hrefused h.2.1
  outside h := (hrefused h.1).elim

theorem sweep_taken (env : EventEnv τ ρ) {found : EdgeModel} (nowMs : Nat) :
    ∀ (events : List EdgeEvent),
      (∀ event ∈ events, event.assetId.length < edgeMaxIdLen ∧
        ∃ node, found.sourceOf event = some node) →
      ∀ (i : Nat) (s : EvalState τ ρ),
        TakenLoop env ((events.filter (rises found)).map (found, ·)) s
          (sweep (evaluateEvent env found nowMs) i events s).state := by
  intro events
  induction events with
  | nil => intro _ i s; exact ⟨(and_iff_left trivial).symm, fun _ => rfl⟩
  | cons event rest ih =>
    intro hevents i s
    obtain ⟨⟨hid, node, hsource⟩, hrest⟩ := List.forall_mem_cons.mp hevents
    obtain ⟨hrises, hturn⟩ | ⟨hrises, hbad, hturn⟩ | ⟨hrises, hok, hbad, hturn⟩ |
      ⟨hrises, hok, hok', s', hs', hturn⟩ := evaluateEvent_cases env found nowMs i event s
    · -- no edge: the turn asks nothing of the outside
      rw [sweep_cons_next (by rw [hturn]), hturn,
        List.filter_cons_of_neg (by rw [hrises]; exact Bool.false_ne_true)]
      have hlater := ih hrest (i + 1) { s with stats.checkedCount := s.stats.checkedCount + 1 }
      exact ⟨hlater.ok, hlater.outside⟩
    · rw [sweep_cons_exit (by rw [hturn]), hturn, List.filter_cons_of_pos hrises]
      -- the insert is refused, and the loop ends with an edge that was not taken
      refine takenLoop_refused (a := .insert i _) _ (fun htaken => hbad ?_)
        (List.mem_append_right s.attempts (List.mem_singleton_self _)) hbad
      exact ((fired_ok_iff env hid hsource hrises nowMs i s).1.mpr htaken).1
    · rw [sweep_cons_exit (by rw [hturn]), hturn, List.filter_cons_of_pos hrises]
      -- the same for the emission
      refine takenLoop_refused (a := .emit i _) _ (fun htaken => hbad ?_)
        (List.mem_append_right _ (List.mem_singleton_self _)) hbad
      exact ((fired_ok_iff env hid hsource hrises nowMs i s).1.mpr htaken).2
    · obtain ⟨hfired, hafter⟩ := fired_ok_iff env hid hsource hrises nowMs i s
      -- the edge is taken, and the rest starts from what it has left outside
      have htaken := hfired.mp ⟨hok, hok'⟩
      rw [sweep_cons_next (by rw [hturn]), List.filter_cons_of_pos hrises]
      refine (ih hrest (i + 1) _).cons (i := i) htaken ?_ ?_
      · rw [hturn, hs']
        simp only [EvalState.emitted, EvalState.recorded] at hok hok' ⊢
        rw [hok, hok']
        exact List.append_assoc _ _ _
      · rw [hturn, hs']
        exact hafter htaken

/-- The rising edges of a run, each in the model that its pass found. -/
def foundEdges (model : EdgeModel) (before : EdgeEvent → Bool) (passes : List Pass) :
    List FoundEdge :=
  (risingEdges model before passes).flatten.map fun edge =>
    (setValues edge.1.values model, edge.2)

/-- A pass finds the sources of the template's events. -/
theorem LatchedAs.sourceOf {model current : EdgeModel} {before : EdgeEvent → Bool}
    (h : LatchedAs model before current) (values : Nat → EdgeValue) {event : EdgeEvent}
    {node : EdgeNode} (hsource : model.sourceOf event = some node) :
    ∃ found, (setValues values current).sourceOf (event.setActive (before event)) = some found := by
  obtain ⟨found, hfound⟩ : ∃ found, (foundBy values before model).sourceOf
      (event.setActive (before event)) = some found := sourceOf_foundBy hsource
  refine ⟨found, ?_⟩
  unfold EdgeModel.sourceOf at hfound ⊢
  rw [h.nodes]
  exact hfound

/-- One pass of a run: its attempts succeed exactly if both take its rising edges. -/
theorem edgeEventsEvaluate_taken {model current : EdgeModel} {before : EdgeEvent → Bool}
    (h : LatchedAs model before current)
    (hevents : ∀ event ∈ model.events, event.assetId.length < edgeMaxIdLen ∧
      ∃ node, model.sourceOf event = some node)
    (env : EventEnv τ ρ) (pass : Pass) (store : Store τ) (server : Option (EdgeServer ρ)) :
    let r := edgeEventsEvaluate env pass.nowMs (setValues pass.values current) store server
    let edges := (model.events.filter fun e => conditionAt model pass e && !before e).map
      (setValues pass.values model, ·)
    ((∀ a ∈ r.attempts, a.status = .ok) ↔ EdgesTaken env edges (outsideOf store server)) ∧
      (EdgesTaken env edges (outsideOf store server) →
        outsideOf r.store r.server = edges.foldl (edgeAfter env) (outsideOf store server)) := by
  intro r edges
  have hfound : ∀ event ∈ (setValues pass.values current).events,
      event.assetId.length < edgeMaxIdLen ∧
        ∃ node, (setValues pass.values current).sourceOf event = some node := by
    intro event hmem
    rw [show (setValues pass.values current).events = _ from h.events] at hmem
    obtain ⟨event, hevent, rfl⟩ := List.mem_map.mp hmem
    obtain ⟨hid, node, hsource⟩ := hevents event hevent
    exact ⟨hid, h.sourceOf pass.values hsource⟩
  have hloop := sweep_taken env pass.nowMs _ hfound 0 { store, server }
  -- the events that the pass found differ from the template's in their latches
  have hedges : (((setValues pass.values current).events.filter
      (rises (setValues pass.values current))).map (setValues pass.values current, ·)) =
      (model.events.filter fun e => conditionAt model pass e && !before e).map
        fun e => (setValues pass.values current, e.setActive (before e)) := by
    rw [show (setValues pass.values current).events = current.events from rfl, filter_rises h pass,
      List.map_map]
    rfl
  obtain ⟨hsame, hafter⟩ := edgesTaken_congr env (h.nodes pass.values) before
    (model.events.filter fun e => conditionAt model pass e && !before e) (outsideOf store server)
  rw [hedges] at hloop
  refine ⟨hloop.ok.trans ?_, fun htaken => (hloop.outside (hsame.mpr htaken)).trans hafter⟩
  exact (and_iff_right fun a ha => absurd ha List.not_mem_nil).trans hsame

/-- **The attempts of a run all succeed exactly if both take its rising edges.** -/
theorem runPasses_taken {model : EdgeModel}
    (hevents : ∀ event ∈ model.events, event.assetId.length < edgeMaxIdLen ∧
      ∃ node, model.sourceOf event = some node) (env : EventEnv τ ρ) :
    ∀ (passes : List Pass) (before : EdgeEvent → Bool) (current : EdgeModel) (store : Store τ)
      (server : Option (EdgeServer ρ)), LatchedAs model before current →
      ((∀ r ∈ runPasses env passes current store server, ∀ a ∈ r.attempts, a.status = .ok) ↔
        EdgesTaken env (foundEdges model before passes) (outsideOf store server)) := by
  intro passes
  induction passes with
  | nil => intro before current store server _; exact iff_of_true nofun trivial
  | cons pass rest ih =>
    intro before current store server hlatched
    obtain ⟨hfirst, hafter⟩ := edgeEventsEvaluate_taken hlatched hevents env pass store server
    have hedges : foundEdges model before (pass :: rest) =
        ((model.events.filter fun e => conditionAt model pass e && !before e).map
          (setValues pass.values model, ·)) ++ foundEdges model (conditionAt model pass) rest := by
      unfold foundEdges
      rw [risingEdges, List.flatten_cons, List.map_append, List.map_map]
      rfl
    rw [runPasses, List.forall_mem_cons, hedges, edgesTaken_append, ← hfirst]
    -- the later passes start where this one ended
    refine and_congr_right fun hok => ?_
    rw [← hafter (hfirst.mp hok)]
    exact ih _ _ _ _ (edgeEventsEvaluate_effect hlatched hok).2

/-! ## Alarms of a run -/

/-- **An alarm is never latched without its row, and with a server its notification, exactly if
SQLite and open62541 take every rising edge.** For every run on a loaded and wired model. The store
may be in a transaction, whose rows then stand behind those of the file. -/
theorem alarms_recorded_iff (env : EventEnv τ ρ) (file : Option Bytes) (model : EdgeModel)
    (hmodel : LoadedAndWired file model) (store : Store τ)
    (hstore : HistoryAhead store.conn) (server : Option (EdgeServer ρ)) (passes : List Pass) :
    (∀ results, results <+: runPasses env passes model store server →
        AlarmsRecorded model store server results) ↔
      EdgesTaken env (foundEdges model (fun _ => false) passes) (outsideOf store server) := by
  have hattempts := runPasses_attempts env passes model store server
  have htold {results : List (EvalResult τ ρ)}
      (hrun : results <+: runPasses env passes model store server) :=
    alarmsRecorded_attempted hmodel.wired.eventsDistinct env hstore server hrun
  have hevents : ∀ event ∈ model.events, event.assetId.length < edgeMaxIdLen ∧
      ∃ node, model.sourceOf event = some node := by
    intro event hmem
    obtain ⟨node, hsource, -⟩ := hmodel.wired.eventSources event hmem
    exact ⟨(hmodel.wired.events event hmem).assetId, node, hsource⟩
  rw [← runPasses_taken hevents env passes _ model store server hmodel.latchedAs]
  constructor
  · intro h r hr
    obtain ⟨pre, post, hsplit⟩ := List.append_of_mem hr
    have hpre : pre ++ [r] <+: runPasses env passes model store server :=
      ⟨post, by rw [hsplit]; simp⟩
    obtain ⟨hpass, hemit⟩ := hattempts pre r hpre
    refine status_ok_of_alarmsAttempted hpass (fun hunserved => ?_) ((htold hpre).1 (h _ hpre))
    exact hemit (by simpa using hunserved)
  · intro hok results hrun
    refine (htold hrun).2 (fun r hr => hok r (hrun.subset hr)) ?_
    -- over the passes so far
    induction results using List.reverseRecOn with
    | nil => intro r i hlast; cases hlast
    | append_singleton pre r ih =>
      have hpre := (List.prefix_append pre [r]).trans hrun
      exact alarmsAttempted_concat (fun event hmem => (hmodel.wired.events event hmem).active)
        (hattempts pre r hrun).1 (hok r (hrun.subset (by simp))) (ih hpre)

/-- SQLite takes the row, and open62541 the notification: the alarm is latched and recorded. -/
theorem pump_alarms_recorded :
    (runPasses (alarmEnv true) [vibrating] pumpModel emptyStore (some { ua := some () })).map
        (fun r => r.model.events.map (·.active)) = [[true]] ∧
      AlarmsRecorded pumpModel emptyStore (some { ua := some () })
        (runPasses (alarmEnv true) [vibrating] pumpModel emptyStore (some { ua := some () })) := by
  refine ⟨by decide +kernel, ?_⟩
  exact (alarms_recorded_iff (alarmEnv true) (some pumpTemplate) pumpModel
    pumpModel_loadedAndWired emptyStore (historyAhead_outside rfl) (some { ua := some () })
    [vibrating]).mpr
      (by decide +kernel) _ List.prefix_rfl

/-- SQLite refuses the row: the alarm is latched, and the history has no row. -/
theorem alarm_latched_without_record :
    LoadedAndWired (some pumpTemplate) pumpModel ∧
      ¬ AlarmsRecorded pumpModel emptyStore none
        (runPasses (alarmEnv false) [vibrating] pumpModel emptyStore none) := by
  obtain ⟨hlatched, hhistory, hindex⟩ :
      (edgeEventsEvaluate (alarmEnv false) vibrating.nowMs (setValues vibrating.values pumpModel)
          emptyStore none).model.events.map (·.active) = [true] ∧
        historyAfter emptyStore
          (runPasses (alarmEnv false) [vibrating] pumpModel emptyStore none) = [] ∧
        0 < pumpModel.events.length := by
    decide +kernel
  obtain ⟨event, hevent, hactive⟩ := List.map_eq_singleton_iff.mp hlatched
  refine ⟨pumpModel_loadedAndWired, fun h => ?_⟩
  obtain ⟨⟨pre, post, -, -, rows, hrows, row, hrow, -⟩, -⟩ :=
    h _ 0 _ rfl ⟨event, congrArg (·[0]?) hevent, hactive⟩ (List.getElem?_eq_getElem hindex)
  -- the alarm would need a row in a history that is still empty
  rw [hhistory] at hrows
  rw [(List.append_eq_nil_iff.mp hrows.symm).2] at hrow
  exact List.not_mem_nil hrow

end OpcuaEdge
