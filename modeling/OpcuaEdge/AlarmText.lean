import OpcuaEdge.EventHistory
import OpcuaEdge.Lib.FixedText

/-!
# OpcuaEdge — the text of an alarm

`make_event_message` formats the event's id, the source value and the threshold into 192 bytes,
and `%.3f` writes all the digits of a number. The text fits exactly when the id and the two
numbers are short enough (`MessageShort`); where it does not, the emission fails, and
`edge_events_evaluate` leaves its pass (`alarm_text_fits_iff`).
-/

namespace OpcuaEdge

open CStr CLoop Txn

variable {τ ρ : Type}

/-! ## The message

Four texts and three numbers in one buffer. The ids are bounded by their buffers; the value is not,
as `%.3f` writes out all digits of the integer part. -/

/-- The id and the numbers leave room for the rest of the text: 192 bytes hold the terminator, two
blanks, `below` or `above`, and ` threshold `. -/
def MessageShort (model : EdgeModel) (event : EdgeEvent) : Prop :=
  event.id.length + fixed3Width (eventValue model event) + fixed3Width event.threshold ≤ 173

instance (model : EdgeModel) (event : EdgeEvent) : Decidable (MessageShort model event) :=
  inferInstanceAs (Decidable (_ ≤ _))

theorem makeEventMessage_ok_iff {model : EdgeModel} {event : EdgeEvent} {node : EdgeNode}
    (hsource : model.sourceOf event = some node) :
    (makeEventMessage model event).1 = .ok ↔ MessageShort model event := by
  have hword : (if event.condition = .lessThan then lit "below" else lit "above").length = 5 := by
    split_ifs <;> decide
  have hblank : (lit " ").length = 1 := by decide
  have hthreshold : (lit " threshold ").length = 11 := by decide
  unfold makeEventMessage MessageShort eventValue
  simp only [hsource, formatInto_ok_iff, List.length_append, length_formatFixed3, hword, hblank,
    hthreshold, Option.map_some, Option.getD_some]
  unfold edgeEventMessageLen
  omega

/-- **The text of an alarm tells its event.** The numbers, the comparison and `threshold` are the
last four words, so what is in front of them is the id. -/
theorem makeEventMessage_tells {model model' : EdgeModel} {event event' : EdgeEvent}
    (hok : (makeEventMessage model event).1 = .ok) (hok' : (makeEventMessage model' event').1 = .ok)
    (hsame : (makeEventMessage model event).2 = (makeEventMessage model' event').2) :
    event.id = event'.id := by
  have hword (below : Bool) : (32 : UInt8) ∉ (if below then lit "below" else lit "above") := by
    cases below <;> decide
  have hwords (event : EdgeEvent) :
      (32 : UInt8) ∉ (if event.condition = .lessThan then lit "below" else lit "above") := by
    simpa only [decide_eq_true_eq] using hword (decide (event.condition = .lessThan))
  have hthreshold : (32 : UInt8) ∉ lit "threshold" := by decide
  -- a message that was made is its text, cut at the blanks
  have htext : ∀ (model : EdgeModel) (event : EdgeEvent), (makeEventMessage model event).1 = .ok →
      ∃ value, (makeEventMessage model event).2 =
        (((event.id ++ 32 :: (if event.condition = .lessThan then lit "below" else lit "above")) ++
          32 :: formatFixed3 value) ++ 32 :: lit "threshold") ++
            32 :: formatFixed3 event.threshold := by
    intro model event hok
    unfold makeEventMessage at hok ⊢
    cases hsource : model.sourceOf event with
    | none =>
      rw [hsource] at hok
      cases hok
    | some node =>
      rw [hsource] at hok
      dsimp only at hok ⊢
      rw [formatInto_of_lt (formatInto_ok_iff.mp hok)]
      refine ⟨edgeNodeAsDouble node, ?_⟩
      have hblank : lit " " = [32] := by decide
      have hlast : lit " threshold " = 32 :: lit "threshold" ++ [32] := by decide
      simp only [hblank, hlast, List.append_assoc, List.cons_append, List.nil_append]
  obtain ⟨value, hleft⟩ := htext model event hok
  obtain ⟨value', hright⟩ := htext model' event' hok'
  rw [hleft, hright] at hsame
  obtain ⟨hfront, -⟩ := append_cons_inj (blank_not_mem_formatFixed3 _)
    (blank_not_mem_formatFixed3 _) hsame
  obtain ⟨hvalue, -⟩ := append_cons_inj hthreshold hthreshold hfront
  obtain ⟨hcondition, -⟩ := append_cons_inj (blank_not_mem_formatFixed3 _)
    (blank_not_mem_formatFixed3 _) hvalue
  exact (append_cons_inj (hwords event) (hwords event') hcondition).1

/-! ## The emission

The asset's id is short enough for the two texts it goes into, so apart from the message only
open62541 can refuse a notification. -/

/-- open62541's own state after it has taken the notification of the event. -/
def uaAfter (lib : UaLib ρ) (model : EdgeModel) (event : EdgeEvent) (ua : ρ) : ρ :=
  let named := lib.getNamespaceByName ua
  (lib.createEvent (uaEventOf model event (named.1.getD 0)) (lib.setScalar named.2).2).2

/-- open62541, in the state `ua`, answers every call of an emission with success. -/
structure UaGrants (lib : UaLib ρ) (model : EdgeModel) (event : EdgeEvent) (ua : ρ) : Prop where
  getNamespaceByName : (lib.getNamespaceByName ua).1.isSome
  setScalar : (lib.setScalar (lib.getNamespaceByName ua).2).1 = true
  createEvent : (lib.createEvent (uaEventOf model event ((lib.getNamespaceByName ua).1.getD 0))
    (lib.setScalar (lib.getNamespaceByName ua).2).2).1 = true

/-- The calls of open62541 for one notification, one by one. -/
theorem uaGrants_iff (lib : UaLib ρ) (model : EdgeModel) (event : EdgeEvent) (ua : ρ) :
    UaGrants lib model event ua ↔ (lib.getNamespaceByName ua).1.isSome ∧
      (lib.setScalar (lib.getNamespaceByName ua).2).1 = true ∧
      (lib.createEvent (uaEventOf model event ((lib.getNamespaceByName ua).1.getD 0))
        (lib.setScalar (lib.getNamespaceByName ua).2).2).1 = true :=
  ⟨fun ⟨hname, hfield, hcreated⟩ => ⟨hname, hfield, hcreated⟩,
    fun ⟨hname, hfield, hcreated⟩ => ⟨hname, hfield, hcreated⟩⟩

instance (lib : UaLib ρ) (model : EdgeModel) (event : EdgeEvent) (ua : ρ) :
    Decidable (UaGrants lib model event ua) :=
  decidable_of_iff _ (uaGrants_iff lib model event ua).symm

/-- The NodeId of the source fits .. -/
theorem makeEventSourceNodeid_ok {event : EdgeEvent} (hid : event.assetId.length < edgeMaxIdLen) :
    (makeEventSourceNodeid event).1 = .ok := by
  unfold makeEventSourceNodeid
  rw [formatInto_ok_iff, List.length_append, show (lit "asset:").length = 6 from by decide]
  unfold edgeMaxIdLen edgeEventNodeidLen at *
  omega

/-- .. and so does its name. -/
theorem sourceName_ok {event : EdgeEvent} (hid : event.assetId.length < edgeMaxIdLen) :
    (formatInto edgeEventNodeidLen event.assetId).1 = .ok := by
  rw [formatInto_ok_iff]
  unfold edgeMaxIdLen edgeEventNodeidLen at *
  omega

/-- **An emission to a server that is up succeeds exactly if the message fits and open62541 answers
its calls**, and then leaves open62541 in the state after them. The server stays up. -/
theorem emitOpcuaEvent_ok_iff (lib : UaLib ρ) {event : EdgeEvent}
    (hid : event.assetId.length < edgeMaxIdLen) (model : EdgeModel) (ua : ρ)
    (emitted : List UaEvent) :
    ((emitOpcuaEvent lib model event (some { ua := some ua, emitted })).1 = .ok ↔
        (makeEventMessage model event).1 = .ok ∧ UaGrants lib model event ua) ∧
      ∃ ua' emitted', (emitOpcuaEvent lib model event (some { ua := some ua, emitted })).2 =
          some { ua := some ua', emitted := emitted' } ∧
        ((makeEventMessage model event).1 = .ok ∧ UaGrants lib model event ua →
          ua' = uaAfter lib model event ua) := by
  have hsource := makeEventSourceNodeid_ok hid
  have hname := sourceName_ok hid
  rw [uaGrants_iff]
  unfold emitOpcuaEvent uaAfter
  cases hns : (lib.getNamespaceByName ua).1 with
  | none =>
    simp only [hns]
    exact ⟨iff_of_false nofun (by simp), _, _, rfl, fun h => by simp at h⟩
  | some ns =>
    simp only [hns, hsource, hname, ne_eq, not_true_eq_false, false_or, if_false,
      Option.getD_some, Option.isSome_some, true_and]
    -- the text is tested first, so a text that is too long hides what the server would have
    -- answered
    by_cases hmessage : (makeEventMessage model event).1 = .ok
    · cases hfield : (lib.setScalar (lib.getNamespaceByName ua).2).1 with
      | false => simp [hmessage]
      | true =>
        simp only [hmessage, not_true_eq_false, if_false, Bool.true_eq_false, true_and]
        split_ifs with hcreated
        · exact ⟨iff_of_true rfl hcreated, _, _, rfl, fun _ => rfl⟩
        · exact ⟨iff_of_false nofun hcreated, _, _, rfl, fun _ => rfl⟩
    · simp [hmessage]

/-- open62541 answers every call of an emission. -/
structure UaLib.Answers (lib : UaLib ρ) : Prop where
  getNamespaceByName : ∀ ua, (lib.getNamespaceByName ua).1.isSome
  setScalar : ∀ ua, (lib.setScalar ua).1 = true
  createEvent : ∀ event ua, (lib.createEvent event ua).1 = true

/-- A library that answers every call grants every notification. -/
theorem UaLib.Answers.grants {lib : UaLib ρ} (h : lib.Answers) (model : EdgeModel)
    (event : EdgeEvent) (ua : ρ) : UaGrants lib model event ua :=
  ⟨h.getNamespaceByName ua, h.setScalar _, h.createEvent _ _⟩

/-! ## A pass

A pass fails at the first event whose row is refused, whose message is too long or whose
notification is refused. With libraries that answer, only the message is left. -/

/-- A condition that is met has compared two numbers. -/
theorem isNan_of_conditionMet {model : EdgeModel} {event : EdgeEvent}
    (h : eventConditionMet model event = true) :
    (eventValue model event).isNan = false ∧ event.threshold.isNan = false := by
  unfold eventConditionMet at h
  unfold eventValue
  cases hsource : model.sourceOf event with
  | none =>
    rw [hsource] at h
    cases h
  | some node =>
    rw [hsource] at h
    dsimp only [Option.map_some, Option.getD_some] at h ⊢
    -- no comparison with a NaN holds
    cases hcondition : event.condition with
    | greaterThan =>
      rw [hcondition] at h
      exact (Double.isNan_of_lt h).symm
    | lessThan =>
      rw [hcondition] at h
      exact Double.isNan_of_lt h
    | unset =>
      rw [hcondition] at h
      cases h

/-- So the row of a rising event violates no constraint, and whether it is inserted is up to
SQLite. -/
theorem insertEventHistory_ok_iff (engine : Engine τ) {model : EdgeModel} {event : EdgeEvent}
    (hrises : rises model event = true) (nowMs : Nat) (store : Store τ) :
    ((edgeStoreInsertEventHistory engine (event.setActive true) (eventValue model event) nowMs
        store).1 = .ok ↔ engine.Grants [.prepare, .step] store.env) ∧
      (engine.Grants [.prepare, .step] store.env →
        (edgeStoreInsertEventHistory engine (event.setActive true) (eventValue model event) nowMs
          store).2.env = engine.after [.prepare, .step] store.env) := by
  obtain ⟨hvalue, hthreshold⟩ := isNan_of_conditionMet (conditionMet_of_rises hrises).1
  have hrow (db : Db) :
      appendHistory (event.setActive true) (eventValue model event) nowMs db ≠ none := by
    unfold appendHistory
    rw [bindDouble_of_not_nan hvalue, Option.bind_some,
      show (event.setActive true).threshold = event.threshold from rfl,
      bindDouble_of_not_nan hthreshold]
    exact Option.some_ne_none _
  unfold edgeStoreInsertEventHistory
  dsimp only
  split_ifs with hprepare
  · -- the statement could not be prepared
    have hrefused : ¬ engine.Grants [.prepare, .step] store.env := fun h =>
      (of_decide_eq_false hprepare) h.1
    exact ⟨iff_of_false nofun hrefused, fun h => absurd h hrefused⟩
  · have hprepared : (engine.answer .prepare store.env).1 = .ok :=
      of_decide_eq_true (Bool.not_eq_false _ ▸ hprepare)
    by_cases hstep : (engine.answer .step (engine.answer .prepare store.env).2).1 = .ok
    · have hdone : ((store.prepare engine).2.step engine
          (appendHistory (event.setActive true) (eventValue model event) nowMs)).1 = true :=
        Session.step_of_granted hstep (hrow _)
      exact ⟨iff_of_true (by rw [hdone]; rfl) ⟨hprepared, hstep, trivial⟩, fun _ => rfl⟩
    · have hfailed : ((store.prepare engine).2.step engine
          (appendHistory (event.setActive true) (eventValue model event) nowMs)).1 = false :=
        Bool.eq_false_of_not_eq_true fun hdone => hstep (Session.granted_of_step hdone)
      exact ⟨iff_of_false (by rw [hfailed]; nofun) fun h => hstep h.2.1, fun _ => rfl⟩

/-- The server of a pass is up. -/
def ServerUp (s : EvalState τ ρ) : Prop :=
  ∃ ua emitted, s.server = some { ua := some ua, emitted }

/-- One turn: where SQLite and open62541 answer, it goes on unless the event rises with a text that
does not fit, and the server stays up. -/
theorem evaluateEvent_exit_iff {env : EventEnv τ ρ} (hengine : env.engine.NeverRefuses)
    (hlib : env.lib.Answers) {model : EdgeModel} {event : EdgeEvent} {node : EdgeNode}
    (hid : event.assetId.length < edgeMaxIdLen) (hsource : model.sourceOf event = some node)
    (nowMs i : Nat) {s : EvalState τ ρ} (hup : ServerUp s) :
    ((evaluateEvent env model nowMs i event s).exit = none ↔
        (rises model event = true → MessageShort model event)) ∧
      ServerUp (evaluateEvent env model nowMs i event s).state := by
  obtain ⟨ua, emitted, hserver⟩ := hup
  obtain ⟨hemit, ua', emitted', hserver', -⟩ :=
    emitOpcuaEvent_ok_iff env.lib
      (show (event.setActive true).assetId.length < edgeMaxIdLen from hid) model ua emitted
  rw [and_iff_left (hlib.grants _ _ ua)] at hemit
  have hmessage : (makeEventMessage model (event.setActive true)).1 = .ok ↔
      MessageShort model event := makeEventMessage_ok_iff hsource
  rw [hmessage, ← hserver] at hemit
  rw [← hserver] at hserver'
  obtain ⟨hrises, hturn⟩ | ⟨hrises, hbad, hturn⟩ | ⟨hrises, hok, hbad, hturn⟩ |
    ⟨hrises, hok, hok', s', hs', hturn⟩ := evaluateEvent_cases env model nowMs i event s
  · -- no edge, and the turn goes on
    rw [hturn, hrises]
    exact ⟨iff_of_true rfl nofun, ua, emitted, hserver⟩
  · -- the engine refuses no insert
    have hinsert := insertEventHistory_ok_iff env.engine hrises nowMs s.store
    exact absurd (hinsert.1.mpr (hengine.grants _ _)) hbad
  · rw [hturn]
    -- so what ends the loop is a text that does not fit
    exact ⟨iff_of_false nofun fun h => hbad (hemit.mpr (h hrises)), ua', emitted', hserver'⟩
  · rw [hturn, hs']
    exact ⟨iff_of_true rfl fun _ => hemit.mp hok', ua', emitted', hserver'⟩

theorem evaluateEvent_exit_error {env : EventEnv τ ρ} {model : EdgeModel} {nowMs i : Nat}
    {event : EdgeEvent} {s : EvalState τ ρ} {r : EdgeStatus}
    (h : (evaluateEvent env model nowMs i event s).exit = some r) : r = .error := by
  obtain ⟨-, hturn⟩ | ⟨-, -, hturn⟩ | ⟨-, -, -, hturn⟩ | ⟨-, -, -, s', -, hturn⟩ :=
    evaluateEvent_cases env model nowMs i event s
  · rw [hturn] at h
    cases h
  · rw [hturn] at h
    exact (Option.some.inj h).symm
  · rw [hturn] at h
    exact (Option.some.inj h).symm
  · rw [hturn] at h
    cases h

/-- A pass succeeds exactly if the texts of its rising events fit. -/
theorem edgeEventsEvaluate_ok_iff {env : EventEnv τ ρ} (hengine : env.engine.NeverRefuses)
    (hlib : env.lib.Answers) {model : EdgeModel}
    (hids : ∀ event ∈ model.events, event.assetId.length < edgeMaxIdLen)
    (hsources : ∀ event ∈ model.events, ∃ node, model.sourceOf event = some node) (nowMs : Nat)
    (store : Store τ) (ua : ρ) (emitted : List UaEvent) :
    (edgeEventsEvaluate env nowMs model store (some { ua := some ua, emitted })).status = .ok ↔
      ∀ event ∈ model.events, rises model event = true → MessageShort model event := by
  have hexit := sweep_exit_none_iff ServerUp
    (fun event => rises model event = true → MessageShort model event) model.events
    (fun i event hmem s hup => by
      obtain ⟨node, hsource⟩ := hsources event hmem
      exact evaluateEvent_exit_iff hengine hlib (hids event hmem) hsource nowMs i hup)
    0 ({ store, server := some { ua := some ua, emitted } } : EvalState τ ρ) ⟨ua, emitted, rfl⟩
  rw [← hexit]
  unfold edgeEventsEvaluate
  dsimp only
  -- a loop that is ended early is ended with an error
  cases hcase : (sweep (evaluateEvent env model nowMs) 0 model.events
      { store, server := some { ua := some ua, emitted } }).exit with
  | none => exact iff_of_true rfl rfl
  | some r =>
    have herror : r = .error := sweep_exit (· = EdgeStatus.error)
      (fun i event s r => evaluateEvent_exit_error) model.events 0 _ r hcase
    rw [herror]
    exact iff_of_false nofun nofun

/-! ## Templates

The model of a template at a later time: with other values and other latches. What does not depend
on them stays as it was loaded. -/

/-- The template as a pass finds it, with any node values and any latches. -/
def foundBy (values : Nat → EdgeValue) (latches : EdgeEvent → Bool) (model : EdgeModel) :
    EdgeModel :=
  { setValues values model with
    events := model.events.map fun event => event.setActive (latches event) }

theorem sourceOf_foundBy {values : Nat → EdgeValue} {latches : EdgeEvent → Bool}
    {model : EdgeModel} {event : EdgeEvent} {node : EdgeNode}
    (hsource : model.sourceOf event = some node) :
    ∃ node', (foundBy values latches model).sourceOf (event.setActive (latches event)) =
      some node' := by
  obtain ⟨i, hi, hnode⟩ := Option.bind_eq_some_iff.mp hsource
  refine ⟨{ node with value := values i }, ?_⟩
  unfold EdgeModel.sourceOf foundBy setValues EdgeEvent.setActive
  dsimp only
  rw [hi, Option.bind_some, List.getElem?_mapIdx, hnode]
  rfl

/-- **The text of an alarm fits exactly if its id and its two numbers are short enough.** For every
event of an accepted template, all node values and all latches: the message, the emission with a
server that answers, and the pass succeed exactly under this condition. -/
theorem alarm_text_fits_iff (env : EventEnv τ ρ) (hengine : env.engine.NeverRefuses)
    (hlib : env.lib.Answers) (file : Option Bytes) (model : EdgeModel)
    (hmodel : LoadedAndWired file model) (values : Nat → EdgeValue) (latches : EdgeEvent → Bool)
    (nowMs : Nat) (store : Store τ) (ua : ρ) (emitted : List UaEvent) :
    (∀ event ∈ (foundBy values latches model).events,
        ((makeEventMessage (foundBy values latches model) event).1 = .ok ↔
          MessageShort (foundBy values latches model) event) ∧
        ((emitOpcuaEvent env.lib (foundBy values latches model) event
            (some { ua := some ua, emitted })).1 = .ok ↔
          MessageShort (foundBy values latches model) event)) ∧
      ((edgeEventsEvaluate env nowMs (foundBy values latches model) store
          (some { ua := some ua, emitted })).status = .ok ↔
        ∀ event ∈ (foundBy values latches model).events,
          rises (foundBy values latches model) event = true →
            MessageShort (foundBy values latches model) event) := by
  have hids : ∀ event ∈ (foundBy values latches model).events,
      event.assetId.length < edgeMaxIdLen := by
    intro event hmem
    obtain ⟨event, hevent, rfl⟩ := List.mem_map.mp hmem
    exact (hmodel.wired.events event hevent).assetId
  -- the values and the latches change, the ids and the sources do not
  have hsources : ∀ event ∈ (foundBy values latches model).events,
      ∃ node, (foundBy values latches model).sourceOf event = some node := by
    intro event hmem
    obtain ⟨event, hevent, rfl⟩ := List.mem_map.mp hmem
    obtain ⟨node, hsource, -⟩ := hmodel.wired.eventSources event hevent
    exact sourceOf_foundBy hsource
  refine ⟨fun event hmem => ?_,
    edgeEventsEvaluate_ok_iff hengine hlib hids hsources nowMs store ua emitted⟩
  obtain ⟨node, hsource⟩ := hsources event hmem
  have hmessage := makeEventMessage_ok_iff hsource
  have hemit := (emitOpcuaEvent_ok_iff env.lib (hids event hmem) (foundBy values latches model) ua
    emitted).1
  rw [and_iff_left (hlib.grants _ _ ua)] at hemit
  exact ⟨hmessage, hemit.trans hmessage⟩

/-! The pump vibrates, and the text of its alarm fits; a level below a threshold of 201 digits has a
text that does not. -/

/-- The environment of the examples refuses nothing .. -/
theorem alarmEnv_neverRefuses : (alarmEnv true).engine.NeverRefuses := by
  intro op env
  exact if_neg nofun

/-- .. and answers everything. -/
theorem alarmEnv_answers : (alarmEnv true).lib.Answers where
  getNamespaceByName _ := rfl
  setScalar _ := rfl
  createEvent _ _ := rfl

theorem pump_alarm_text_fits :
    (edgeEventsEvaluate (alarmEnv true) 1
      (foundBy (fun _ => { d := .fin 9 }) (fun _ => false) pumpModel) emptyStore
      (some { ua := some () })).status = .ok :=
  (alarm_text_fits_iff (alarmEnv true) alarmEnv_neverRefuses alarmEnv_answers (some pumpTemplate)
    pumpModel pumpModel_loadedAndWired (fun _ => { d := .fin 9 }) (fun _ => false) 1 emptyStore ()
    []).2.mpr (by decide +kernel)

/-- A template with a threshold of two hundred digits. -/
def levelTemplate : Bytes :=
  templateOf [
    "[plant]", "id=p", "name=P",
    "[asset]", "id=a", "type=t", "name=A",
    "[node]", "asset=a", "id=l", "name=L", "data_type=int16", "access=read", "source=modbus",
      "modbus_unit=1", "modbus_register=40001", "scale=1",
    "[event]", "asset=a", "id=low", "source_node=l", "condition=less_than", "threshold=1e200",
      "severity=700"]

/-- Its alarm cannot be emitted, although nothing is refused. -/
theorem level_alarm_text_too_long :
    LoadedAndWired (some levelTemplate) (startupModel (some levelTemplate)) ∧
      (∃ event ∈ (startupModel (some levelTemplate)).events,
        eventValue (startupModel (some levelTemplate)) event = .fin 0 ∧
          (makeEventMessage (startupModel (some levelTemplate)) event).1 = .limit) ∧
      (edgeEventsEvaluate (alarmEnv true) 1 (startupModel (some levelTemplate)) emptyStore
        (some { ua := some () })).status = .error := by
  obtain ⟨haccepted, hresults⟩ : (edgeConfigLoad (some levelTemplate) {}).1 = .ok ∧
      (∃ event ∈ (startupModel (some levelTemplate)).events,
        eventValue (startupModel (some levelTemplate)) event = .fin 0 ∧
          (makeEventMessage (startupModel (some levelTemplate)) event).1 = .limit) ∧
      (edgeEventsEvaluate (alarmEnv true) 1 (startupModel (some levelTemplate)) emptyStore
        (some { ua := some () })).status = .error := by decide +kernel
  exact ⟨loadedAndWired_of_ok haccepted, hresults⟩

end OpcuaEdge
