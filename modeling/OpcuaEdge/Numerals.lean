import OpcuaEdge.PhysicalLines
import OpcuaEdge.Lib.DecimalText

/-!
# OpcuaEdge — the integer fields of a template

`parse_u16` and `parse_u32` bound what `strtoul` returns, not what the text denotes. A text between
`-(2 ^ 64 - 1)` and the bound less `2 ^ 64` is negated into the range and accepted; every other text
is treated as its number (`parsesNumber_iff`). The three integer fields of an accepted template are
the numbers of their lines accordingly.
-/

namespace OpcuaEdge

open CStr CLoop

/-! ## One text

The two parsers of integers differ in their bound only. `BoundsStrtoul` says what they have in
common, and the lemmas are about that. -/

/-- The text is accepted exactly if it denotes a number up to `max`, and that number is stored. -/
structure ParsesNumber {β : Type} (parse : Bytes → β → EdgeStatus × β) (toNat : β → Nat)
    (max : Nat) (text : Bytes) : Prop where
  accepts : ∀ old, (parse text old).1 = .ok ↔ ∃ n : Nat, n ≤ max ∧ Denotes text n
  stores : ∀ old, (parse text old).1 = .ok → Denotes text (toNat (parse text old).2)

/-- The text denotes a negative number that differs by `2 ^ 64` from one up to `max`. -/
def WrapsInto (max : Nat) (text : Bytes) : Prop :=
  ∃ v : Nat, 0 < v ∧ v ≤ max ∧ Denotes text ((v : Int) - 2 ^ 64)

/-- A function that accepts what `strtoul` reads as a number up to `max`. -/
def BoundsStrtoul {β : Type} (parse : Bytes → β → EdgeStatus × β) (toNat : β → Nat) (max : Nat) :
    Prop :=
  ∀ text old v, ((parse text old).1 = .ok ∧ toNat (parse text old).2 = v) ↔
    ReadsWhole text v ∧ v ≤ max

theorem boundsStrtoul_of {β : Type} {parse : Bytes → β → EdgeStatus × β} {toNat : β → Nat}
    {max : Nat} (ofNat : Nat → β) (hofNat : ∀ v ≤ max, toNat (ofNat v) = v)
    (hparse : ∀ text old, parse text old =
      if (strtoul text).erange ∨ ¬ (strtoul text).converted ∨ (strtoul text).rest ≠ [] ∨
          max < (strtoul text).value then (.invalid, old)
      else (.ok, ofNat (strtoul text).value)) : BoundsStrtoul parse toNat max := by
  intro text old v
  rw [hparse]
  -- the test of the source is the negation of reading a number in range
  split_ifs with hbad
  · constructor
    · intro h
      cases h.1
    · rintro ⟨hreads, hle⟩
      rw [hreads.inRange, hreads.converted, hreads.rest, hreads.value] at hbad
      exact absurd hle (by simpa using hbad)
  · simp only [not_or, not_not, not_lt] at hbad
    obtain ⟨hrange, hconverted, hrest, hle⟩ := hbad
    rw [hofNat _ hle]
    constructor
    · rintro ⟨-, rfl⟩
      exact ⟨⟨hconverted, hrest, Bool.eq_false_iff.mpr hrange, rfl⟩, hle⟩
    · rintro ⟨hreads, -⟩
      exact ⟨rfl, hreads.value⟩

/-- `parse_u16` is one .. -/
theorem boundsStrtoul_u16 : BoundsStrtoul parseU16 UInt16.toNat 65535 :=
  boundsStrtoul_of Nat.toUInt16 (fun _ hv => Nat.mod_eq_of_lt (Nat.lt_succ_of_le hv))
    fun _ _ => rfl

/-- .. and so is `parse_u32`. -/
theorem boundsStrtoul_u32 : BoundsStrtoul parseU32 UInt32.toNat 4294967295 :=
  boundsStrtoul_of Nat.toUInt32 (fun _ hv => Nat.mod_eq_of_lt (Nat.lt_succ_of_le hv))
    fun _ _ => rfl

section Bounded

variable {β : Type} {parse : Bytes → β → EdgeStatus × β} {toNat : β → Nat} {max : Nat}

/-- An accepted text denotes the stored number, or wraps into it. -/
theorem BoundsStrtoul.denotes (h : BoundsStrtoul parse toNat max) (hmax : max < 2 ^ 64)
    {text : Bytes} {old : β} (hok : (parse text old).1 = .ok) :
    toNat (parse text old).2 ≤ max ∧ (Denotes text (toNat (parse text old).2) ∨
      0 < toNat (parse text old).2 ∧
        Denotes text ((toNat (parse text old).2 : Int) - 2 ^ 64)) := by
  obtain ⟨hreads, hle⟩ := (h text old _).mp ⟨hok, rfl⟩
  exact ⟨hle, (strtoul_value_iff (lt_of_le_of_lt hle hmax)).mp hreads⟩

/-- A text that denotes a number up to the bound, or wraps into one, is accepted. -/
theorem BoundsStrtoul.accepted (h : BoundsStrtoul parse toNat max) (hmax : max < 2 ^ 64)
    {text : Bytes} {v : Nat} (hv : v ≤ max)
    (htext : Denotes text v ∨ 0 < v ∧ Denotes text ((v : Int) - 2 ^ 64)) (old : β) :
    (parse text old).1 = .ok ∧ toNat (parse text old).2 = v :=
  (h text old v).mpr ⟨(strtoul_value_iff (lt_of_le_of_lt hv hmax)).mpr htext, hv⟩

/-- An accepted text denotes its number unless it is one that wraps. -/
theorem BoundsStrtoul.denotes_iff (h : BoundsStrtoul parse toNat max) (hmax : max < 2 ^ 64)
    {text : Bytes} {old : β} (hok : (parse text old).1 = .ok) :
    Denotes text (toNat (parse text old).2) ↔ ¬ WrapsInto max text := by
  obtain ⟨hle, htext⟩ := h.denotes hmax hok
  constructor
  · rintro hdenotes ⟨v, hpos, hv, hwraps⟩
    have hsame := hdenotes.unique hwraps
    omega
  · intro hnone
    exact htext.resolve_right fun hwraps => hnone ⟨_, hwraps.1, hle, hwraps.2⟩

/-- A parser does what it should on every text that does not wrap. -/
theorem parsesNumber_iff [Inhabited β] (h : BoundsStrtoul parse toNat max) (hmax : max < 2 ^ 64)
    (text : Bytes) : ParsesNumber parse toNat max text ↔ ¬ WrapsInto max text := by
  constructor
  · rintro hparses ⟨v, hpos, hv, hwraps⟩
    have hok := (h.accepted hmax hv (.inr ⟨hpos, hwraps⟩) default).1
    obtain ⟨n, -, hn⟩ := (hparses.accepts default).mp hok
    have hsame := hn.unique hwraps
    omega
  · intro hnone
    refine ⟨fun old => ⟨fun hok => ?_, ?_⟩, fun old hok => (h.denotes_iff hmax hok).mpr hnone⟩
    · exact ⟨_, (h.denotes hmax hok).1, (h.denotes_iff hmax hok).mpr hnone⟩
    · rintro ⟨n, hn, hdenotes⟩
      exact (h.accepted hmax hn (.inl hdenotes) old).1

end Bounded

/-! ## Templates

The numbers of a model, each with the line it comes from. -/

/-- The last line with this key denotes the number. -/
def LineDenotes (key : Bytes) (entries : List (Bytes × Bytes)) (n : Nat) : Prop :=
  ∃ value, lastValue key entries = some value ∧ Denotes value n

/-- The value of the last line with this key wraps. -/
def LineWraps (key : Bytes) (max : Nat) (entries : List (Bytes × Bytes)) : Prop :=
  ∃ value, lastValue key entries = some value ∧ WrapsInto max value

/-- The numbers of a node are those of its lines. -/
structure NodeDenoted (block : Block) (node : EdgeNode) : Prop where
  unit : LineDenotes (lit "modbus_unit") block.entries node.modbusUnit.toNat
  register : LineDenotes (lit "modbus_register") block.entries node.modbusRegister.toNat

/-- The number of an event is that of its line. -/
def EventDenoted (block : Block) (event : EdgeEvent) : Prop :=
  LineDenotes (lit "severity") block.entries event.severity.toNat

/-- A line of the node wraps. -/
def NodeWraps (block : Block) : Prop :=
  LineWraps (lit "modbus_unit") 65535 block.entries ∨
    LineWraps (lit "modbus_register") 4294967295 block.entries

/-- A line of the event wraps. -/
def EventWraps (block : Block) : Prop := LineWraps (lit "severity") 65535 block.entries

/-- Every integer field is the number that its line denotes. -/
structure FieldsDenoted (blocks : List Block) (model : EdgeModel) : Prop where
  nodes : List.Forall₂ NodeDenoted (blocksOfKind .node blocks) model.nodes
  events : List.Forall₂ EventDenoted (blocksOfKind .event blocks) model.events

/-- No integer field has a line that wraps. -/
structure NoFieldWraps (blocks : List Block) : Prop where
  nodes : ∀ block ∈ blocksOfKind .node blocks, ¬ NodeWraps block
  events : ∀ block ∈ blocksOfKind .event blocks, ¬ EventWraps block

/-- A field that is not the default has a line, whose value was accepted. -/
theorem lineDenotes_iff {β : Type} {parse : Bytes → β → EdgeStatus × β} {toNat : β → Nat}
    {max : Nat} (h : BoundsStrtoul parse toNat max) (hmax : max < 2 ^ 64) {zero : β}
    (hkept : ∀ text, (parse text zero).1 ≠ .ok → (parse text zero).2 = zero) {key : Bytes}
    {entries : List (Bytes × Bytes)}
    (hne : fieldOf key (fun value => (parse value zero).2) zero entries ≠ zero) :
    LineDenotes key entries (toNat (fieldOf key (fun value => (parse value zero).2) zero entries))
      ↔ ¬ LineWraps key max entries := by
  unfold LineDenotes LineWraps
  unfold fieldOf at hne ⊢
  cases hvalue : lastValue key entries with
  | none =>
    rw [hvalue] at hne
    exact absurd rfl hne
  | some value =>
    rw [hvalue] at hne
    -- a value that differs from the default was accepted by the parser
    have hok : (parse value zero).1 = .ok := by
      by_contra hbad
      exact hne (hkept value hbad)
    simpa using h.denotes_iff hmax hok

/-- A refused text leaves the old number .. -/
theorem parseU16_kept {text : Bytes} {old : UInt16} (h : (parseU16 text old).1 ≠ .ok) :
    (parseU16 text old).2 = old := by
  unfold parseU16 at h ⊢
  dsimp only at h ⊢
  split_ifs at h ⊢
  · rfl
  · exact absurd rfl h

/-- .. with 32 bits as well. -/
theorem parseU32_kept {text : Bytes} {old : UInt32} (h : (parseU32 text old).1 ≠ .ok) :
    (parseU32 text old).2 = old := by
  unfold parseU32 at h ⊢
  dsimp only at h ⊢
  split_ifs at h ⊢
  · rfl
  · exact absurd rfl h

/-- Records and blocks correspond one to one. -/
theorem forall₂_of_map_eq {α β γ : Type} {f : α → γ} {g : β → γ} {as : List α} {bs : List β}
    (h : as.map f = bs.map g) : List.Forall₂ (fun b a => g b = f a) bs as := by
  have heq : List.Forall₂ Eq (bs.map g) (as.map f) := by
    rw [List.forall₂_eq_eq_eq]
    exact h.symm
  exact List.forall₂_map_right_iff.mp (List.forall₂_map_left_iff.mp heq)

/-- A property of the records that can be told from the blocks. -/
theorem forall_mem_iff_of_forall₂ {α β : Type} {R : α → β → Prop} {P : β → Prop} {Q : α → Prop}
    {as : List α} {bs : List β} (hR : List.Forall₂ R as bs)
    (hiff : ∀ a, ∀ b ∈ bs, R a b → (P b ↔ Q a)) : (∀ b ∈ bs, P b) ↔ ∀ a ∈ as, Q a := by
  induction hR with
  | nil => simp
  | cons hab _ ih =>
    rw [List.forall_mem_cons, List.forall_mem_cons, hiff _ _ List.mem_cons_self hab,
      ih fun a b hb => hiff a b (List.mem_cons_of_mem _ hb)]

/-- A property of each pair that depends on the block alone. -/
theorem forall₂_iff {α β : Type} {R P : α → β → Prop} {Q : α → Prop} {as : List α} {bs : List β}
    (hR : List.Forall₂ R as bs) (hiff : ∀ a, ∀ b ∈ bs, R a b → (P a b ↔ Q a)) :
    List.Forall₂ P as bs ↔ ∀ a ∈ as, Q a := by
  induction hR with
  | nil => simp
  | cons hab _ ih =>
    rw [List.forall₂_cons, List.forall_mem_cons, hiff _ _ List.mem_cons_self hab,
      ih fun a b hb => hiff a b (List.mem_cons_of_mem _ hb)]

/-- The numbers of an accepted node are right unless a line wraps. -/
theorem nodeDenoted_iff {block : Block} {node : EdgeNode}
    (hnode : nodeOf block.entries = node.unresolved) (hfields : NodeFields node) :
    NodeDenoted block node ↔ ¬ NodeWraps block := by
  have hunit : node.modbusUnit = (nodeOf block.entries).modbusUnit := by
    rw [hnode]
    rfl
  have hregister : node.modbusRegister = (nodeOf block.entries).modbusRegister := by
    rw [hnode]
    rfl
  have hpos : node.modbusUnit ≠ 0 := fun hzero => by
    have hle := hfields.unit_pos
    rw [hzero] at hle
    exact absurd hle (by decide)
  have hne := hfields.register_ne
  rw [hunit] at hpos
  rw [hregister] at hne
  have hunits := lineDenotes_iff boundsStrtoul_u16 (by decide) (fun _ => parseU16_kept) hpos
  have hregisters := lineDenotes_iff boundsStrtoul_u32 (by decide) (fun _ => parseU32_kept) hne
  -- unit and register, each from its own line
  unfold NodeWraps
  rw [not_or]
  constructor
  · rintro ⟨hu, hr⟩
    rw [hunit] at hu
    rw [hregister] at hr
    exact ⟨hunits.mp hu, hregisters.mp hr⟩
  · rintro ⟨hu, hr⟩
    constructor
    · rw [hunit]
      exact hunits.mpr hu
    · rw [hregister]
      exact hregisters.mpr hr

theorem eventDenoted_iff {block : Block} {event : EdgeEvent}
    (hevent : eventOf block.entries = event.unresolved) (hfields : EventFields event) :
    EventDenoted block event ↔ ¬ EventWraps block := by
  have hseverity : event.severity = (eventOf block.entries).severity := by
    rw [hevent]
    rfl
  have hne := hfields.severity_ne
  unfold EventDenoted
  rw [hseverity] at hne ⊢
  exact lineDenotes_iff boundsStrtoul_u16 (by decide) (fun _ => parseU16_kept) hne

/-- **The numbers of an accepted template** are those of its lines exactly if no line wraps. -/
theorem fieldsDenoted_iff {bytes : Bytes} (hok : (edgeConfigLoad (some bytes) {}).1 = .ok) :
    FieldsDenoted (blocksOf (stringsOf bytes)).2 (edgeConfigLoad (some bytes) {}).2 ↔
      NoFieldWraps (blocksOf (stringsOf bytes)).2 := by
  have hbuilt := builtFrom_of_ok hok
  have hwf := edgeConfigLoad_wellFormed _ _ (edgeConfigLoad_of_ok hok)
  have hnodes : List.Forall₂ NodeDenoted _ _ ↔ ∀ block ∈ _, ¬ NodeWraps block :=
    forall₂_iff (forall₂_of_map_eq hbuilt.nodes)
      fun block node hmem hnode => nodeDenoted_iff hnode (hwf.nodes node hmem)
  have hevents : List.Forall₂ EventDenoted _ _ ↔ ∀ block ∈ _, ¬ EventWraps block :=
    forall₂_iff (forall₂_of_map_eq hbuilt.events)
      fun block event hmem hevent => eventDenoted_iff hevent (hwf.events event hmem)
  exact ⟨fun h => ⟨hnodes.mp h.nodes, hevents.mp h.events⟩,
    fun h => ⟨hnodes.mpr h.nodes, hevents.mpr h.events⟩⟩

/-- **Integer fields hold the number that was written** exactly where the text does not wrap. -/
theorem integer_fields_iff (bytes : Bytes) (hok : (edgeConfigLoad (some bytes) {}).1 = .ok) :
    (∀ text, ParsesNumber parseU16 UInt16.toNat 65535 text ↔ ¬ WrapsInto 65535 text) ∧
      (∀ text, ParsesNumber parseU32 UInt32.toNat 4294967295 text ↔ ¬ WrapsInto 4294967295 text) ∧
      (FieldsDenoted (blocksOf (stringsOf bytes)).2 (edgeConfigLoad (some bytes) {}).2 ↔
        NoFieldWraps (blocksOf (stringsOf bytes)).2) :=
  ⟨parsesNumber_iff boundsStrtoul_u16 (by decide), parsesNumber_iff boundsStrtoul_u32 (by decide),
    fieldsDenoted_iff hok⟩

/-- The last line with this key, if there is one, has no minus. -/
def lineUnsigned (key : Bytes) (entries : List (Bytes × Bytes)) : Bool :=
  (lastValue key entries).all fun value => !(takeSign (value.dropWhile isSpace)).1

/-- A text without a minus does not wrap. -/
theorem not_lineWraps {key : Bytes} {max : Nat} {entries : List (Bytes × Bytes)}
    (h : lineUnsigned key entries = true) (hmax : max < 2 ^ 64) : ¬ LineWraps key max entries := by
  rintro ⟨value, hvalue, v, -, hv, hwraps⟩
  rw [lineUnsigned, hvalue, Option.all_some, Bool.not_eq_true'] at h
  have hz := (denotes_iff.mp hwraps).2.2
  rw [h, if_neg Bool.false_ne_true] at hz
  omega

theorem pumpTemplate_numbers :
    FieldsDenoted (blocksOf (stringsOf pumpTemplate)).2
      (edgeConfigLoad (some pumpTemplate) {}).2 := by
  obtain ⟨hnodes, hevents⟩ :
      (∀ block ∈ blocksOfKind .node (blocksOf (stringsOf pumpTemplate)).2,
        lineUnsigned (lit "modbus_unit") block.entries = true ∧
          lineUnsigned (lit "modbus_register") block.entries = true) ∧
      ∀ block ∈ blocksOfKind .event (blocksOf (stringsOf pumpTemplate)).2,
        lineUnsigned (lit "severity") block.entries = true := by
    decide +kernel
  refine (integer_fields_iff pumpTemplate pumpTemplate_accepted).2.2.mpr ⟨?_, ?_⟩
  · intro block hmem hwraps
    exact hwraps.elim (not_lineWraps (hnodes block hmem).1 (by decide))
      (not_lineWraps (hnodes block hmem).2 (by decide))
  · exact fun block hmem => not_lineWraps (hevents block hmem) (by decide)

/-- `ULONG_MAX` with a minus in front of it. -/
def minusUlongMax : Bytes := lit "-18446744073709551615"

/-- A template whose only node has that unit. -/
def negativeUnitTemplate : Bytes :=
  templateOf ["[plant]", "id=north", "name=North", "[asset]", "id=depot", "type=yard", "name=Depot",
    "[node]", "asset=depot", "id=gate", "name=Gate", "data_type=bool", "access=read_write",
    "source=modbus", "modbus_unit=-18446744073709551615", "modbus_register=40001"]

/-- It is accepted as unit 1. -/
theorem negative_unit_accepted :
    Denotes minusUlongMax (-18446744073709551615) ∧ parseU16 minusUlongMax 0 = (.ok, 1) ∧
      ¬ ParsesNumber parseU16 UInt16.toNat 65535 minusUlongMax ∧
      (edgeConfigLoad (some negativeUnitTemplate) {}).1 = .ok ∧
      (edgeConfigLoad (some negativeUnitTemplate) {}).2.nodes.map (·.modbusUnit) = [1] ∧
      ¬ FieldsDenoted (blocksOf (stringsOf negativeUnitTemplate)).2
        (edgeConfigLoad (some negativeUnitTemplate) {}).2 := by
  -- strtoul takes the minus sign and wraps the digits to 1
  have hdenotes : Denotes minusUlongMax (-18446744073709551615) :=
    ⟨[], lit "-", lit "18446744073709551615", by decide +kernel, nofun, by decide +kernel,
      by decide +kernel, .inl ⟨rfl, by decide +kernel⟩⟩
  have hwraps : WrapsInto 65535 minusUlongMax := ⟨1, by decide, by decide, hdenotes⟩
  obtain ⟨hok, hunits, hblock⟩ :
      (edgeConfigLoad (some negativeUnitTemplate) {}).1 = .ok ∧
      (edgeConfigLoad (some negativeUnitTemplate) {}).2.nodes.map (·.modbusUnit) = [1] ∧
      ∃ block ∈ blocksOfKind .node (blocksOf (stringsOf negativeUnitTemplate)).2,
        lastValue (lit "modbus_unit") block.entries = some minusUlongMax := by
    decide +kernel
  refine ⟨hdenotes, by decide +kernel, fun h => ?_, hok, hunits, fun h => ?_⟩
  · exact (parsesNumber_iff boundsStrtoul_u16 (by decide) _).mp h hwraps
  · obtain ⟨block, hmem, hvalue⟩ := hblock
    exact ((fieldsDenoted_iff hok).mp h).nodes block hmem (.inl ⟨_, hvalue, hwraps⟩)

end OpcuaEdge
