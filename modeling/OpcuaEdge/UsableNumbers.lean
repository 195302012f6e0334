import OpcuaEdge.Numerals
import OpcuaEdge.Agreement
import OpcuaEdge.Codec
import OpcuaEdge.Lib.NonFiniteText

/-!
# OpcuaEdge — the numbers of a template are usable

`parse_double` takes whatever `strtod` takes, and that includes the words for infinities and NaNs.
A threshold that is no number is never crossed, and a NaN is stored as `NULL`, so that the model
cannot be persisted. Without such a word (`FiniteLines`) every number of an accepted template is
finite and the model reaches an empty store (`numbers_usable_iff`).
-/

namespace OpcuaEdge

open CStr CLoop Txn

variable {τ : Type}

/-! ## Numbers and their lines

A field that has a finite default stays finite unless its last line spells an infinity or a NaN.
Which texts do so is told by `SpellsNonFinite`. -/

/-- A text is parsed as a finite number, or refused, unless it spells something else. -/
theorem parseDouble_fin_iff (text : Bytes) (q : ℚ) :
    (∃ r, (parseDouble text (.fin q)).2 = .fin r) ↔ ¬ SpellsNonFinite text := by
  rw [← strtod_special_iff]
  unfold parseDouble
  dsimp only
  -- a refused text keeps the default q, and spells no such number
  split_ifs with hbad
  · refine iff_of_true ⟨q, rfl⟩ fun h => ?_
    rw [h.inRange, h.converted, h.rest] at hbad
    simp at hbad
  · simp only [not_or, not_not] at hbad
    obtain ⟨hrange, -, hrest⟩ := hbad
    constructor
    · rintro ⟨r, hr⟩ h
      exact h.value r hr
    · intro h
      by_contra hnone
      exact h ⟨hrest, Bool.eq_false_iff.mpr hrange, fun r hr => hnone ⟨r, hr⟩⟩

/-- The last line with this key, if there is one, is no word for an infinity or a NaN. -/
def LineFinite (key : Bytes) (entries : List (Bytes × Bytes)) : Prop :=
  ∀ value, lastValue key entries = some value → ¬ SpellsNonFinite value

/-- The same for a field of a block, whose last line counts. -/
theorem fieldOf_fin_iff (key : Bytes) (q : ℚ) (entries : List (Bytes × Bytes)) :
    (∃ r, fieldOf key (fun value => (parseDouble value (.fin q)).2) (.fin q) entries = .fin r) ↔
      LineFinite key entries := by
  unfold fieldOf LineFinite
  cases lastValue key entries with
  | none => simp
  | some value => simpa using parseDouble_fin_iff value q

/-- No scale and no threshold is a word. -/
structure FiniteLines (blocks : List Block) : Prop where
  nodes : ∀ block ∈ blocksOfKind .node blocks, LineFinite (lit "scale") block.entries
  events : ∀ block ∈ blocksOfKind .event blocks, LineFinite (lit "threshold") block.entries

/-- Startup keeps the numbers that the lines of an accepted file give. -/
theorem fin_iff_of_loadedAndWired {bytes : Bytes} {model : EdgeModel}
    (h : LoadedAndWired (some bytes) model) :
    ((∀ node ∈ model.nodes, ∃ s, node.scale = .fin s) ↔
        ∀ block ∈ blocksOfKind .node (blocksOf (stringsOf bytes)).2,
          LineFinite (lit "scale") block.entries) ∧
      ((∀ event ∈ model.events, ∃ t, event.threshold = .fin t) ↔
        ∀ block ∈ blocksOfKind .event (blocksOf (stringsOf bytes)).2,
          LineFinite (lit "threshold") block.entries) := by
  obtain ⟨loaded, hload, hwire⟩ := h
  have hbuilt := builtFrom_of_ok (congrArg Prod.fst hload)
  obtain ⟨assets, hwired, -⟩ := edgeConfigWireRuntime_ok (edgeConfigLoad_wellFormed _ _ hload)
  cases (Prod.mk.inj (hwire.symm.trans hwired)).2
  rw [hload] at hbuilt
  -- a field is what its last line says, or its default, which is finite
  constructor
  · refine List.forall_mem_map.trans ?_
    refine forall_mem_iff_of_forall₂ (forall₂_of_map_eq hbuilt.nodes) fun block node _ hnode => ?_
    have hscale : node.scale = (nodeOf block.entries).scale :=
      (congrArg EdgeNode.scale hnode).symm
    show (∃ s, node.scale = .fin s) ↔ _
    rw [hscale]
    exact fieldOf_fin_iff (lit "scale") 1 block.entries
  · refine List.forall_mem_map.trans ?_
    refine forall_mem_iff_of_forall₂ (forall₂_of_map_eq hbuilt.events)
      fun block event _ hevent => ?_
    have hthreshold : event.threshold = (eventOf block.entries).threshold :=
      (congrArg EdgeEvent.threshold hevent).symm
    show (∃ t, event.threshold = .fin t) ↔ _
    rw [hthreshold]
    exact fieldOf_fin_iff (lit "threshold") 0 block.entries

/-! ## Persisting

A number that is no NaN can be bound, so with an engine that refuses nothing every part of the
model is persisted. -/

section Willing

variable {engine : Engine τ}

theorem stepTurn_of_neverRefuses (h : engine.NeverRefuses) {change : Db → Option Db}
    (hchange : ∀ db, change db ≠ none) (s : Store τ) : (stepTurn engine change s).2 = none :=
  (stepTurn_exit_iff engine change s).mpr (Session.step_of_neverRefuses h (hchange _))

theorem persistLoop_of_neverRefuses (h : engine.NeverRefuses) {α : Type}
    {turn : α → Store τ → Store τ × Option EdgeStatus} {records : List α}
    (hturn : ∀ a ∈ records, ∀ s, (turn a s).2 = none) (s : Store τ) :
    (persistLoop engine turn records s).1 = .ok := by
  have hprepare := Session.prepare_of_neverRefuses h s
  have hexit := visit_none records (fun _ a ha => hturn a ha) 0 (s.prepare engine).2
  unfold persistLoop
  simp only [hprepare, Bool.true_eq_false, if_false, hexit, Option.getD_none]

theorem persistPlant_of_neverRefuses (h : engine.NeverRefuses) (model : EdgeModel) (s : Store τ) :
    (persistPlant engine model s).1 = .ok := by
  have hprepare := Session.prepare_of_neverRefuses h s
  have hstep : ((s.prepare engine).2.step engine (upsertPlant model)).1 = true :=
    Session.step_of_neverRefuses h (Option.some_ne_none _)
  unfold persistPlant
  simp only [hprepare, Bool.true_eq_false, if_false, hstep]
  rfl

theorem andThen_ok {a b : Store τ → EdgeStatus × Store τ} (ha : ∀ s, (a s).1 = .ok)
    (hb : ∀ s, (b s).1 = .ok) (s : Store τ) : (andThen a b s).1 = .ok := by
  unfold andThen
  simp only [ha, ne_eq, not_true_eq_false, if_false, hb]

theorem bindDouble_fin {d : Double} (h : ∃ q, d = .fin q) : bindDouble d ≠ none := by
  obtain ⟨q, rfl⟩ := h
  exact Option.some_ne_none _

/-- A model with finite numbers and keys that fit is persisted. -/
theorem persistModel_of_neverRefuses (h : engine.NeverRefuses) {model : EdgeModel}
    (hscales : ∀ node ∈ model.nodes, ∃ s, node.scale = .fin s)
    (hthresholds : ∀ event ∈ model.events, ∃ t, event.threshold = .fin t)
    (hkeys : IdentifiersAgree model) {store : Store τ} (htxn : store.conn.txn = none) :
    (edgeStorePersistModel engine model store).1 = .ok := by
  -- only a NaN cannot be bound, and a finite scale is none
  have hnodes : ∀ s, (persistNodes engine model s).1 = .ok :=
    persistLoop_of_neverRefuses h fun node hmem s => by
      unfold keyedTurn
      rw [if_neg (not_not.mpr (hkeys.nodes node hmem).1)]
      refine stepTurn_of_neverRefuses h (fun db hnone => ?_) s
      exact bindDouble_fin (hscales node hmem) (Option.map_eq_none_iff.mp hnone)
  have hevents : ∀ s, (persistEvents engine model s).1 = .ok :=
    persistLoop_of_neverRefuses h fun event hmem s => by
      unfold keyedTurn
      rw [if_neg (not_not.mpr (hkeys.events event hmem).1)]
      refine stepTurn_of_neverRefuses h (fun db hnone => ?_) s
      exact bindDouble_fin (hthresholds event hmem) (Option.map_eq_none_iff.mp hnone)
  have hassets : ∀ s, (persistAssets engine model s).1 = .ok :=
    persistLoop_of_neverRefuses h fun asset _ =>
      stepTurn_of_neverRefuses h fun _ => Option.some_ne_none _
  have hparts : ∀ s, (persistParts engine model s).1 = .ok :=
    andThen_ok (persistPlant_of_neverRefuses h model) <| andThen_ok hassets <|
      andThen_ok hnodes hevents
  have hbegun := Session.begin_of_neverRefuses h htxn
  obtain ⟨-, hbegin⟩ := Session.begin_ok hbegun
  have hwritten := (writes_persistParts engine model _ _ (congrArg Conn.txn hbegin)).2 (hparts _)
  unfold edgeStorePersistModel
  simp only [hbegun, Bool.true_eq_false, if_false, hparts, ne_eq, not_true_eq_false]
  rw [Session.commit_of_neverRefuses h hwritten]
  rfl

end Willing

/-! ## Templates

The condition on the lines of a template, and what follows from it for the nodes and the events of
its model. -/

/-- The condition of the event on a source value `v`, as a comparison of numbers with `t`. -/
def Crosses (event : EdgeEvent) (v t : ℚ) : Prop :=
  event.condition = .greaterThan ∧ t < v ∨ event.condition = .lessThan ∧ v < t

/-- The numbers of the model are finite, and what they are used for works: registers are scaled to
numbers, thresholds are crossed as numbers are, and the model reaches an empty store. -/
structure NumbersUsable (model : EdgeModel) : Prop where
  scales : ∀ node ∈ model.nodes, ∃ s, node.scale = .fin s
  thresholds : ∀ event ∈ model.events, ∃ t, event.threshold = .fin t
  /-- A register is never decoded to a NaN. -/
  scaled : ∀ node ∈ model.nodes, node.dataType = .double → ∀ raw,
    (applyRegistersToNode node raw).value.d.isNan = false
  /-- Nor is it where the product is rounded, which may make an infinity of it. -/
  rounded : ∀ node ∈ model.nodes, node.dataType = .double → ∀ (raw0 : BitVec 16)
    (round : ℚ → Double), (∀ q, (round q).isNan = false) →
      ((Double.ofInt raw0.toInt).mulRounded round (effectiveScale node)).isNan = false
  compared : ∀ event ∈ model.events, ∃ t, event.threshold = .fin t ∧
    ∀ (current : EdgeModel) (source : EdgeNode) (v : ℚ), current.sourceOf event = some source →
      edgeNodeAsDouble source = .fin v →
        (eventConditionMet current event = true ↔ Crosses event v t)
  persisted : ∀ (τ : Type) (engine : Engine τ) (env : τ), engine.NeverRefuses →
    (edgeStorePersistModel engine model { conn := { committed := {} }, env }).1 = .ok

/-- With a finite threshold and a finite value, the condition is a comparison of two rationals. -/
theorem eventConditionMet_iff {current : EdgeModel} {event : EdgeEvent} {source : EdgeNode}
    {v t : ℚ} (ht : event.threshold = .fin t) (hsource : current.sourceOf event = some source)
    (hv : edgeNodeAsDouble source = .fin v) :
    eventConditionMet current event = true ↔ Crosses event v t := by
  unfold eventConditionMet Crosses
  simp only [hsource, ht, hv]
  cases event.condition <;> simp [Double.lt]

/-- **Accepted numbers are usable** exactly where no scale and no threshold is spelled as an
infinity or a NaN. -/
theorem numbers_usable_iff (bytes : Bytes) (model : EdgeModel)
    (h : LoadedAndWired (some bytes) model) :
    NumbersUsable model ↔ FiniteLines (blocksOf (stringsOf bytes)).2 := by
  obtain ⟨hscales, hthresholds⟩ := fin_iff_of_loadedAndWired h
  constructor
  · intro husable
    exact ⟨hscales.mp husable.scales, hthresholds.mp husable.thresholds⟩
  · intro hlines
    have hnodes := hscales.mpr hlines.nodes
    have hevents := hthresholds.mpr hlines.events
    -- decoding, rounding, comparing and storing, each with finite numbers
    refine ⟨hnodes, hevents, ?_, ?_, ?_, ?_⟩
    · intro node hmem htype raw
      obtain ⟨s, hs⟩ := hnodes node hmem
      rw [applyRegistersToNode_double node htype hs raw]
      rfl
    · intro node hmem htype raw0 round hround
      obtain ⟨s, hs⟩ := hnodes node hmem
      rw [effectiveScale_fin hs]
      exact Double.isNan_mulRounded_fin hround _ _
    · intro event hmem
      obtain ⟨t, ht⟩ := hevents event hmem
      exact ⟨t, ht, fun current source v => eventConditionMet_iff ht⟩
    · intro τ engine env hengine
      exact persistModel_of_neverRefuses hengine hnodes hevents h.identifiersAgree rfl

/-- A quick test: no value begins like the word of an infinity or a NaN. -/
theorem lineFinite_of_begins {key : Bytes} {entries : List (Bytes × Bytes)}
    (h : ((lastValue key entries).all fun value => !beginsWord value) = true) :
    LineFinite key entries := by
  intro value hvalue hspells
  rw [hvalue, Option.all_some, hspells.begins] at h
  cases h

theorem pumpModel_numbers : NumbersUsable pumpModel := by
  obtain ⟨hscales, hthresholds⟩ :
      (∀ block ∈ blocksOfKind .node (blocksOf (stringsOf pumpTemplate)).2,
        ((lastValue (lit "scale") block.entries).all fun value => !beginsWord value) = true) ∧
      ∀ block ∈ blocksOfKind .event (blocksOf (stringsOf pumpTemplate)).2,
        ((lastValue (lit "threshold") block.entries).all
          fun value => !beginsWord value) = true := by
    decide +kernel
  exact (numbers_usable_iff pumpTemplate pumpModel pumpModel_loadedAndWired).mpr
    ⟨fun block hmem => lineFinite_of_begins (hscales block hmem),
      fun block hmem => lineFinite_of_begins (hthresholds block hmem)⟩

/-- The pump's vibration with an alarm whose threshold is a NaN. -/
def nanTemplate : Bytes :=
  templateOf [
    "[plant]", "id=xyz_desalination", "name=XYZ Desalination Plant",
    "[asset]", "id=hp_pump_1", "type=hp_pump", "name=HP Pump 1",
    "[node]", "asset=hp_pump_1", "id=vibration", "name=Vibration", "data_type=double",
      "access=read", "source=modbus", "modbus_unit=3", "modbus_register=40006", "scale=0.01",
    "[event]", "asset=hp_pump_1", "id=high_vibration_hp1", "source_node=vibration",
      "condition=greater_than", "threshold=nan", "severity=700"]

/-- The template is accepted, its alarm is never due, and the model cannot be persisted. -/
theorem nan_threshold_accepted :
    LoadedAndWired (some nanTemplate) (startupModel (some nanTemplate)) ∧
      (startupModel (some nanTemplate)).events.map (·.threshold) = [.nan] ∧
      (∀ current event, event.threshold = .nan → eventConditionMet current event = false) ∧
      (edgeStorePersistModel willingEngine (startupModel (some nanTemplate))
        { conn := { committed := {} }, env := () }).1 = .error ∧
      ¬ NumbersUsable (startupModel (some nanTemplate)) := by
  obtain ⟨hok, hthreshold, hrefused⟩ :
      (edgeConfigLoad (some nanTemplate) {}).1 = .ok ∧
      (startupModel (some nanTemplate)).events.map (·.threshold) = [.nan] ∧
      (edgeStorePersistModel willingEngine (startupModel (some nanTemplate))
        { conn := { committed := {} }, env := () }).1 = .error := by
    decide +kernel
  refine ⟨loadedAndWired_of_ok hok, hthreshold, fun current event hnan => ?_, hrefused,
    fun h => ?_⟩
  · -- neither comparison with a NaN holds
    unfold eventConditionMet
    rw [hnan]
    split
    · rfl
    · split
      · rfl
      · cases edgeNodeAsDouble _ <;> rfl
      · rfl
  · have hok := h.persisted Unit willingEngine () willingEngine_neverRefuses
    cases hrefused.symm.trans hok

end OpcuaEdge
