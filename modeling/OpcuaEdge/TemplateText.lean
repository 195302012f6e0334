import OpcuaEdge.Numerals

/-!
# OpcuaEdge — writing a template

The program reads templates and writes none. Here is the writer: one block for the plant and one
for every record, in the order of the model, each with a line for every field (`templateLines`).
What the loader makes of these lines, before it resolves the references, is the model without its
indexes (`readTemplate_templateLines`).

How a double is spelled is a parameter (`Spelling`), as `printf` offers more than one way.

Writer and loader meet level by level:

* a line is split where it was joined (`EntryText.keyValue`);
* a block is found where it was put (`blocksOf_lines`);
* every line is accepted, and the record that its block describes is the one that it was written
  for (`modelOf_templateBlocks`).
-/

namespace OpcuaEdge

open CStr CLoop

/-! ## Lines

An entry is a key and a value, and its line joins them. The conditions below are what the loader
needs to find the same entry again: it cuts a line at its length, at a NUL and at a line feed,
trims its end, and splits it at the first equals sign. -/

/-- A text that can stand behind the key of a line: nothing of it is trimmed or cut off. -/
structure ValueText (text : Bytes) : Prop where
  noNewline : newline ∉ text
  noNul : 0 ∉ text
  noReturn : text.getLast? ≠ some carriageReturn

instance (text : Bytes) : Decidable (ValueText text) :=
  decidable_of_iff (newline ∉ text ∧ 0 ∉ text ∧ text.getLast? ≠ some carriageReturn)
    ⟨fun h => ⟨h.1, h.2.1, h.2.2⟩, fun h => ⟨h.noNewline, h.noNul, h.noReturn⟩⟩

/-- A key of the loader: no key has a byte that would make its line something else. -/
structure KeyText (key : Bytes) : Prop where
  ne_nil : key ≠ []
  noSplit : equalsSign ∉ key
  noNewline : newline ∉ key
  noNul : 0 ∉ key
  begins : key.head? ≠ some 35 ∧ key.head? ≠ some 91
  length : key.length ≤ 15

instance (key : Bytes) : Decidable (KeyText key) :=
  decidable_of_iff (key ≠ [] ∧ equalsSign ∉ key ∧ newline ∉ key ∧ 0 ∉ key ∧
      (key.head? ≠ some 35 ∧ key.head? ≠ some 91) ∧ key.length ≤ 15)
    ⟨fun ⟨h1, h2, h3, h4, h5, h6⟩ => ⟨h1, h2, h3, h4, h5, h6⟩,
      fun h => ⟨h.ne_nil, h.noSplit, h.noNewline, h.noNul, h.begins, h.length⟩⟩

/-- The line that sets a field. -/
def entryLine (entry : Bytes × Bytes) : Bytes := entry.1 ++ equalsSign :: entry.2

/-- A line of a block that the loader reads as its key and its value. -/
structure EntryText (entry : Bytes × Bytes) : Prop where
  key : KeyText entry.1
  value : ValueText entry.2
  fits : (entryLine entry).length ≤ edgeMaxLineLen - 2

instance (entry : Bytes × Bytes) : Decidable (EntryText entry) :=
  decidable_of_iff
    (KeyText entry.1 ∧ ValueText entry.2 ∧ (entryLine entry).length ≤ edgeMaxLineLen - 2)
    ⟨fun h => ⟨h.1, h.2.1, h.2.2⟩, fun h => ⟨h.key, h.value, h.fits⟩⟩

/-- A value that fits into a buffer of the model fits into a line. -/
theorem EntryText.of_length {key value : Bytes} (hkey : KeyText key) (hvalue : ValueText value)
    (hlength : value.length < edgeMaxNameLen) : EntryText (key, value) := by
  refine ⟨hkey, hvalue, ?_⟩
  have hshort := hkey.length
  rw [entryLine, List.length_append, List.length_cons]
  unfold edgeMaxNameLen at hlength
  unfold edgeMaxLineLen
  dsimp only
  omega

/-- A text that does not end in a line break is not trimmed. -/
theorem trimNewline_of_last {text : Bytes}
    (h : ∀ c, text.getLast? = some c → c ≠ newline ∧ c ≠ carriageReturn) :
    trimNewline text = text := by
  unfold trimNewline
  refine List.rdropWhile_eq_self_iff.mpr fun hne htrim => ?_
  obtain ⟨hline, hreturn⟩ := h _ (List.getLast?_eq_some_getLast hne)
  simp [hline, hreturn] at htrim

section Entry

variable {entry : Bytes × Bytes}

/-- The line of an entry is one line of the file .. -/
theorem EntryText.isLine (h : EntryText entry) : IsLine (entryLine entry) where
  length := h.fits
  noNewline := by
    have hsign : newline ≠ equalsSign := by decide
    unfold entryLine
    simp [h.key.noNewline, h.value.noNewline, hsign]
  noNul := by
    have hsign : 0 ≠ equalsSign := by decide
    unfold entryLine
    simp [h.key.noNul, h.value.noNul, hsign]

/-- .. that is not trimmed .. -/
theorem EntryText.trimmed (h : EntryText entry) :
    trimNewline (entryLine entry) = entryLine entry := by
  refine trimNewline_of_last fun c hlast => ⟨?_, ?_⟩
  · rintro rfl
    exact h.isLine.noNewline (List.mem_of_getLast? hlast)
  · rintro rfl
    unfold entryLine at hlast
    -- the last byte is that of the value, or else the equals sign
    rw [List.getLast?_append_cons, List.getLast?_cons] at hlast
    cases hvalue : entry.2.getLast? with
    | none =>
      rw [hvalue] at hlast
      cases hlast
    | some d =>
      rw [hvalue] at hlast
      exact h.value.noReturn (hvalue.trans hlast)

/-- The first byte of the line is that of its key. -/
theorem EntryText.head? (h : EntryText entry) : (entryLine entry).head? = entry.1.head? := by
  obtain ⟨c, rest, hkey⟩ := List.exists_cons_of_ne_nil h.key.ne_nil
  rw [entryLine, hkey]
  rfl

/-- .. and neither a header nor a line that is skipped. -/
theorem EntryText.body (h : EntryText entry) : BodyText (entryLine entry) := by
  obtain ⟨hhash, hbracket⟩ := h.key.begins
  have hne : entryLine entry ≠ [] := List.append_ne_nil_of_left_ne_nil h.key.ne_nil _
  constructor
  · -- every header begins with a bracket
    have hheader : ∀ header : Bytes, header.head? = some 91 → entryLine entry ≠ header := by
      rintro header hhead rfl
      exact hbracket (h.head?.symm.trans hhead)
    unfold headerOf
    rw [if_neg (hheader _ rfl), if_neg (hheader _ rfl), if_neg (hheader _ rfl),
      if_neg (hheader _ rfl)]
  · rw [skipped, h.head?]
    simp [hne, hhash]

/-- **The loader splits a line where the writer joined it.** -/
theorem EntryText.keyValue (h : EntryText entry) : keyValueOf (entryLine entry) = some entry := by
  have hkey : ∀ c ∈ entry.1, decide (c ≠ equalsSign) = true := fun c hc =>
    decide_eq_true fun heq => h.key.noSplit (heq ▸ hc)
  have hsplit : splitAtFirst equalsSign (entryLine entry) = some entry := by
    unfold splitAtFirst entryLine
    rw [List.dropWhile_append_of_pos hkey, List.takeWhile_append_of_pos hkey]
    simp
  unfold keyValueOf
  rw [if_neg (by rw [h.head?]; exact h.key.begins.2), splitKeyValue, hsplit]
  split
  -- an empty key would not be split
  · next heq =>
    cases heq
    exact absurd rfl h.key.ne_nil
  · rfl

end Entry

/-! ## Blocks

A block is written as its header and its lines. It is read back as one because no line of it is a
header, and nothing in it is skipped. -/

/-- The header that begins a block. No block is of kind `none`. -/
def headerLine : EdgeConfigSection → Bytes
  | .none => []
  | .plant => lit "[plant]"
  | .asset => lit "[asset]"
  | .node => lit "[node]"
  | .event => lit "[event]"

/-- A block with its header. -/
def Block.lines (block : Block) : List Bytes := headerLine block.kind :: block.texts

/-- The block that sets these fields. -/
def entryBlock (kind : EdgeConfigSection) (entries : List (Bytes × Bytes)) : Block :=
  { kind, texts := entries.map entryLine }

/-- A block whose lines are read back as they were written. -/
structure WrittenBlock (block : Block) : Prop where
  kind : block.kind ≠ .none
  texts : ∃ entries, block = entryBlock block.kind entries ∧ ∀ entry ∈ entries, EntryText entry

theorem headerOf_headerLine {kind : EdgeConfigSection} (h : kind ≠ .none) :
    headerOf (headerLine kind) = some kind := by
  cases kind with
  | none => exact absurd rfl h
  | plant => rfl
  | asset => rfl
  | node => rfl
  | event => rfl

/-- What the loader needs of a line to take it for itself. -/
structure KeptLine (line : Bytes) : Prop where
  isLine : IsLine line
  trimmed : trimNewline line = line
  kept : skipped line = false

/-- A header is kept as it is .. -/
theorem keptLine_header {kind : EdgeConfigSection} (h : kind ≠ .none) :
    KeptLine (headerLine kind) := by
  cases kind with
  | none => exact absurd rfl h
  | plant => exact ⟨by decide, rfl, rfl⟩
  | asset => exact ⟨by decide, rfl, rfl⟩
  | node => exact ⟨by decide, rfl, rfl⟩
  | event => exact ⟨by decide, rfl, rfl⟩

/-- .. and so are the lines of its block. -/
theorem WrittenBlock.lines {block : Block} (h : WrittenBlock block) :
    ∀ line ∈ block.lines, KeptLine line := by
  obtain ⟨entries, hblock, hentries⟩ := h.texts
  intro line hmem
  rcases List.mem_cons.mp hmem with rfl | htext
  · exact keptLine_header h.kind
  · rw [hblock] at htext
    obtain ⟨entry, hentry, rfl⟩ := List.mem_map.mp htext
    have hline := hentries entry hentry
    exact ⟨hline.isLine, hline.trimmed, hline.body.kept⟩

theorem significant_of_kept {lines : List Bytes} (h : ∀ line ∈ lines, KeptLine line) :
    significant lines = lines := by
  have htrim : lines.map trimNewline = lines :=
    List.map_congr_left (fun line hmem => (h line hmem).trimmed) |>.trans (List.map_id _)
  unfold significant
  rw [htrim]
  refine List.filter_eq_self.mpr fun line hmem => ?_
  rw [(h line hmem).kept]
  rfl

theorem splitBlocks_append {texts : List Bytes} (h : ∀ text ∈ texts, headerOf text = none)
    (rest : List Bytes) :
    splitBlocks (texts ++ rest) = (texts ++ (splitBlocks rest).1, (splitBlocks rest).2) := by
  induction texts with
  | nil => rfl
  | cons text texts ih =>
    obtain ⟨htext, htexts⟩ := List.forall_mem_cons.mp h
    rw [List.cons_append, splitBlocks_text htext, ih htexts]
    rfl

/-- Written blocks are split where they were joined. Induction on the blocks: the header of the
next one ends a block. -/
theorem splitBlocks_lines {blocks : List Block} (h : ∀ block ∈ blocks, WrittenBlock block) :
    splitBlocks (blocks.flatMap Block.lines) = ([], blocks) := by
  induction blocks with
  | nil => rfl
  | cons block rest ih =>
    obtain ⟨hblock, hrest⟩ := List.forall_mem_cons.mp h
    have htexts : ∀ text ∈ block.texts, headerOf text = none := by
      obtain ⟨entries, heq, hentries⟩ := hblock.texts
      rw [heq]
      intro text hmem
      obtain ⟨entry, hentry, rfl⟩ := List.mem_map.mp hmem
      exact (hentries entry hentry).body.noHeader
    rw [List.flatMap_cons, Block.lines, List.cons_append,
      splitBlocks_header (headerOf_headerLine hblock.kind), splitBlocks_append htexts, ih hrest,
      List.append_nil]

/-- **The blocks of the written lines** are the blocks that were written. -/
theorem blocksOf_lines {blocks : List Block} (h : ∀ block ∈ blocks, WrittenBlock block) :
    blocksOf (blocks.flatMap Block.lines) = ([], blocks) := by
  unfold blocksOf
  rw [significant_of_kept fun line hmem => ?_, splitBlocks_lines h]
  obtain ⟨block, hblock, hline⟩ := List.mem_flatMap.mp hmem
  exact (h block hblock).lines line hline

/-- Fields that are accepted whatever the record holds make up an accepted block. -/
theorem foldTexts_accepts {α : Type} {parse : α → Bytes → Bytes → EdgeStatus × α}
    {entries : List (Bytes × Bytes)} (hentries : ∀ entry ∈ entries, EntryText entry)
    (haccepts : ∀ entry ∈ entries, ∀ a, (parse a entry.1 entry.2).1 = .ok) :
    ∀ a, (foldTexts parse (entries.map entryLine) a).isSome = true := by
  induction entries with
  | nil => intro a; rfl
  | cons entry rest ih =>
    intro a
    obtain ⟨hentry, hrest⟩ := List.forall_mem_cons.mp hentries
    obtain ⟨hok, hoks⟩ := List.forall_mem_cons.mp haccepts
    rw [List.map_cons, foldTexts, hentry.keyValue]
    dsimp only
    rw [if_pos (hok a)]
    exact ih hrest hoks _

/-- The entries of a written block are those it was written from. -/
theorem entryBlock_entries {kind : EdgeConfigSection} {entries : List (Bytes × Bytes)}
    (h : ∀ entry ∈ entries, EntryText entry) : (entryBlock kind entries).entries = entries := by
  unfold Block.entries entryBlock
  rw [List.filterMap_map]
  exact (List.filterMap_congr fun entry hmem => (h entry hmem).keyValue).trans (List.filterMap_some)

/-! ## Fields

Each field has its own line, under the key that the loader knows it by. A model has no other fields
that a template could set. -/

/-- The name of a type. No accepted node has the type `unset`. -/
def dataTypeText : EdgeDataType → Bytes
  | .unset => []
  | .bool => lit "bool"
  | .int16 => lit "int16"
  | .int32 => lit "int32"
  | .uint32 => lit "uint32"
  | .double => lit "double"

/-- The name of an access. -/
def accessText (writable : Bool) : Bytes := if writable then lit "read_write" else lit "read"

/-- The name of a condition. No accepted event has the condition `unset`. -/
def conditionText : EdgeEventCondition → Bytes
  | .unset => []
  | .greaterThan => lit "greater_than"
  | .lessThan => lit "less_than"

/-- The texts for the doubles of a model. -/
structure Spelling where
  scale : Double → Bytes
  threshold : Double → Bytes

/-- The lines for the plant. -/
def writtenPlant (model : EdgeModel) : List (Bytes × Bytes) :=
  [(lit "id", model.id), (lit "name", model.name)]

/-- The lines for an asset; the empty parent stands for the plant. -/
def writtenAsset (asset : EdgeAsset) : List (Bytes × Bytes) :=
  [(lit "id", asset.id), (lit "type", asset.type), (lit "name", asset.name),
    (lit "parent", asset.parentId)]

/-- The lines for a node, in the order of the templates of the source. -/
def writtenNode (spelling : Spelling) (node : EdgeNode) : List (Bytes × Bytes) :=
  [(lit "asset", node.assetId), (lit "id", node.id), (lit "name", node.name),
    (lit "data_type", dataTypeText node.dataType), (lit "access", accessText node.writable),
    (lit "source", lit "modbus"), (lit "modbus_unit", decimal node.modbusUnit.toNat),
    (lit "modbus_register", decimal node.modbusRegister.toNat),
    (lit "scale", spelling.scale node.scale)]

/-- The lines for an event. -/
def writtenEvent (spelling : Spelling) (event : EdgeEvent) : List (Bytes × Bytes) :=
  [(lit "asset", event.assetId), (lit "id", event.id), (lit "source_node", event.sourceNodeId),
    (lit "condition", conditionText event.condition),
    (lit "threshold", spelling.threshold event.threshold),
    (lit "severity", decimal event.severity.toNat)]

/-- The blocks of the template: the plant, then all assets, nodes and events. Assets come in the
order of the model, so a parent stays before its children. -/
def templateBlocks (spelling : Spelling) (model : EdgeModel) : List Block :=
  entryBlock .plant (writtenPlant model) ::
    (model.assets.map (entryBlock .asset ∘ writtenAsset) ++
      (model.nodes.map (entryBlock .node ∘ writtenNode spelling) ++
        model.events.map (entryBlock .event ∘ writtenEvent spelling)))

/-- The lines of the template for a model. -/
def templateLines (spelling : Spelling) (model : EdgeModel) : List Bytes :=
  (templateBlocks spelling model).flatMap Block.lines

/-! ## What can be written

A model that the loader has accepted and not yet wired. The texts must be able to stand behind a
key, and the numbers must have a spelling. -/

/-- The fields of the record are as the loader leaves them, and its texts fit into lines. -/
structure AssetWritable (asset : EdgeAsset) : Prop extends AssetFields asset where
  idText : ValueText asset.id
  typeText : ValueText asset.type
  nameText : ValueText asset.name
  parentText : ValueText asset.parentId
  unwired : asset.parent = none ∧ asset.firstNodeIndex = 0 ∧ asset.nodeCount = 0

/-- The same for a node. -/
structure NodeWritable (node : EdgeNode) : Prop extends NodeFields node where
  idText : ValueText node.id
  nameText : ValueText node.name
  assetText : ValueText node.assetId
  unwired : node.asset = none

/-- The same for an event. -/
structure EventWritable (event : EdgeEvent) : Prop extends EventFields event where
  idText : ValueText event.id
  assetText : ValueText event.assetId
  sourceText : ValueText event.sourceNodeId
  unwired : event.asset = none ∧ event.sourceNode = none

/-- The text is read as the number behind this key. -/
structure Spells (key text : Bytes) (d : Double) : Prop where
  entry : EntryText (key, text)
  parse : ∀ old, parseDouble text old = (.ok, d)

/-- The texts of a spelling are read as the numbers of the model. -/
structure Spelling.Covers (spelling : Spelling) (model : EdgeModel) : Prop where
  scales : ∀ node ∈ model.nodes, Spells (lit "scale") (spelling.scale node.scale) node.scale
  thresholds : ∀ event ∈ model.events,
    Spells (lit "threshold") (spelling.threshold event.threshold) event.threshold

/-- The conditions for the whole model, record by record. -/
structure Writable (model : EdgeModel) : Prop where
  id : model.id ≠ [] ∧ model.id.length < edgeMaxIdLen ∧ ValueText model.id
  name : model.name ≠ [] ∧ model.name.length < edgeMaxNameLen ∧ ValueText model.name
  assetCount : model.assets.length ≤ edgeMaxAssets
  nodeCount : model.nodes.length ≤ edgeMaxNodes
  eventCount : model.events.length ≤ edgeMaxEvents
  assets : ∀ asset ∈ model.assets, AssetWritable asset
  nodes : ∀ node ∈ model.nodes, NodeWritable node
  events : ∀ event ∈ model.events, EventWritable event

/-! ### Every line is an entry

The length of a line is bounded by those of its key and its value: a text is shorter than the
longest buffer, and a number in decimal has at most ten digits. -/

theorem lt_nameLen {text : Bytes} (h : text.length < edgeMaxIdLen) :
    text.length < edgeMaxNameLen := h.trans (by decide)

/-- A number in decimal can stand behind a key: all its bytes are digits. -/
theorem valueText_decimal (n : Nat) : ValueText (decimal n) := by
  have hdigit : ∀ c ∈ decimal n, c ≠ newline ∧ c ≠ 0 ∧ c ≠ carriageReturn := by
    intro c hc
    have hd := isDigit_of_mem_decimal hc
    refine ⟨?_, ?_, ?_⟩ <;> rintro rfl <;> cases hd
  exact ⟨fun hc => (hdigit _ hc).1 rfl, fun hc => (hdigit _ hc).2.1 rfl,
    fun hc => (hdigit _ (List.mem_of_getLast? hc)).2.2 rfl⟩

theorem entryText_decimal {key : Bytes} (hkey : KeyText key) {n : Nat} (h : n < 2 ^ 32) :
    EntryText (key, decimal n) := by
  refine .of_length hkey (valueText_decimal n) ?_
  have hlength : (decimal n).length ≤ 10 := by
    unfold decimal
    rw [List.length_map, Nat.length_toDigits_le_iff (by decide) (by decide)]
    omega
  unfold edgeMaxNameLen
  omega

theorem writtenPlant_entries {model : EdgeModel} (h : Writable model) :
    ∀ entry ∈ writtenPlant model, EntryText entry := by
  obtain ⟨-, hid, hidText⟩ := h.id
  obtain ⟨-, hname, hnameText⟩ := h.name
  unfold writtenPlant
  simp only [List.forall_mem_cons, List.not_mem_nil, false_implies, implies_true, and_true]
  exact ⟨.of_length (by decide) hidText (lt_nameLen hid), .of_length (by decide) hnameText hname⟩

theorem writtenAsset_entries {asset : EdgeAsset} (h : AssetWritable asset) :
    ∀ entry ∈ writtenAsset asset, EntryText entry := by
  unfold writtenAsset
  simp only [List.forall_mem_cons, List.not_mem_nil, false_implies, implies_true, and_true]
  exact ⟨.of_length (by decide) h.idText (lt_nameLen h.id),
    .of_length (by decide) h.typeText (lt_nameLen h.type),
    .of_length (by decide) h.nameText h.name,
    .of_length (by decide) h.parentText (lt_nameLen h.parentId)⟩

/-- The lines for a node are entries, if its scale is spelled. -/
theorem writtenNode_entries {spelling : Spelling} {node : EdgeNode} (h : NodeWritable node)
    (hscale : Spells (lit "scale") (spelling.scale node.scale) node.scale) :
    ∀ entry ∈ writtenNode spelling node, EntryText entry := by
  have htype : ∀ t, EntryText (lit "data_type", dataTypeText t) := by
    intro t
    cases t <;> decide
  have haccess : ∀ w, EntryText (lit "access", accessText w) := by decide
  unfold writtenNode
  simp only [List.forall_mem_cons, List.not_mem_nil, false_implies, implies_true, and_true]
  exact ⟨.of_length (by decide) h.assetText (lt_nameLen h.assetId),
    .of_length (by decide) h.idText (lt_nameLen h.id), .of_length (by decide) h.nameText h.name,
    htype _, haccess _, by decide,
    entryText_decimal (by decide) (node.modbusUnit.toNat_lt.trans (by decide)),
    entryText_decimal (by decide) node.modbusRegister.toNat_lt, hscale.entry⟩

/-- The lines for an event are entries, if its threshold is spelled. -/
theorem writtenEvent_entries {spelling : Spelling} {event : EdgeEvent} (h : EventWritable event)
    (hthreshold :
      Spells (lit "threshold") (spelling.threshold event.threshold) event.threshold) :
    ∀ entry ∈ writtenEvent spelling event, EntryText entry := by
  have hcondition : ∀ c, EntryText (lit "condition", conditionText c) := by
    intro c
    cases c <;> decide
  unfold writtenEvent
  simp only [List.forall_mem_cons, List.not_mem_nil, false_implies, implies_true, and_true]
  exact ⟨.of_length (by decide) h.assetText (lt_nameLen h.assetId),
    .of_length (by decide) h.idText (lt_nameLen h.id),
    .of_length (by decide) h.sourceText (lt_nameLen h.sourceNodeId), hcondition _,
    hthreshold.entry, entryText_decimal (by decide) (event.severity.toNat_lt.trans (by decide))⟩

/-! ### Every entry is accepted

Whatever the record held before, each value is accepted. So a block of the writer is accepted line
by line. -/

theorem copyValue_accepts {value : Bytes} {size : Nat} (hne : value ≠ [])
    (hlt : value.length < size) (dst : Bytes) : (copyValue dst size value).1 = .ok := by
  have hfits : ¬ (value.length = 0 ∨ size ≤ value.length) :=
    not_or.mpr ⟨List.length_eq_zero_iff.not.mpr hne, by omega⟩
  rw [copyValue, if_neg hfits]

theorem parseU16_decimal (n : UInt16) (old : UInt16) :
    parseU16 (decimal n.toNat) old = (.ok, n) := by
  obtain ⟨hok, hvalue⟩ := boundsStrtoul_u16.accepted (by decide)
    (Nat.le_of_lt_succ n.toNat_lt) (.inl (denotes_decimal n.toNat)) old
  exact Prod.ext hok (UInt16.toNat_inj.mp hvalue)

theorem parseU32_decimal (n : UInt32) (old : UInt32) :
    parseU32 (decimal n.toNat) old = (.ok, n) := by
  obtain ⟨hok, hvalue⟩ := boundsStrtoul_u32.accepted (by decide)
    (Nat.le_of_lt_succ n.toNat_lt) (.inl (denotes_decimal n.toNat)) old
  exact Prod.ext hok (UInt32.toNat_inj.mp hvalue)

theorem parseDataType_text {t : EdgeDataType} (h : t ≠ .unset) (old : EdgeDataType) :
    parseDataType (dataTypeText t) old = (.ok, t) := by
  cases t with
  | unset => exact absurd rfl h
  | bool => rfl
  | int16 => rfl
  | int32 => rfl
  | uint32 => rfl
  | double => rfl

theorem parseAccess_text (writable old : Bool) :
    parseAccess (accessText writable) old = (.ok, writable) := by
  cases writable <;> rfl

theorem parseCondition_text {c : EdgeEventCondition} (h : c ≠ .unset)
    (old : EdgeEventCondition) : parseCondition (conditionText c) old = (.ok, c) := by
  cases c with
  | unset => exact absurd rfl h
  | greaterThan => rfl
  | lessThan => rfl

theorem writtenPlant_accepted {model : EdgeModel} (h : Writable model) :
    ∀ entry ∈ writtenPlant model, ∀ m, (parsePlantKey m entry.1 entry.2).1 = .ok := by
  unfold writtenPlant parsePlantKey
  simp only [List.forall_mem_cons, List.not_mem_nil, false_implies, implies_true, and_true]
  refine ⟨fun m => ?_, fun m => ?_⟩
  · exact copyValue_accepts h.id.1 h.id.2.1 m.id
  · exact copyValue_accepts h.name.1 h.name.2.1 m.name

theorem writtenAsset_accepted {asset : EdgeAsset} (h : AssetWritable asset) :
    ∀ entry ∈ writtenAsset asset, ∀ a, (parseAssetKey a entry.1 entry.2).1 = .ok := by
  unfold writtenAsset parseAssetKey
  simp only [List.forall_mem_cons, List.not_mem_nil, false_implies, implies_true, and_true]
  refine ⟨fun a => ?_, fun a => ?_, fun a => ?_, fun a => ?_⟩
  · exact copyValue_accepts h.id_ne h.id a.id
  · exact copyValue_accepts h.type_ne h.type a.type
  · exact copyValue_accepts h.name_ne h.name a.name
  · -- an asset without a parent has an empty value
    show (if asset.parentId = [] then (EdgeStatus.ok, { a with parentId := [] })
      else (copyValue a.parentId edgeMaxIdLen asset.parentId).map id fun s =>
        { a with parentId := s }).1 = .ok
    split_ifs with hroot
    · rfl
    · exact copyValue_accepts hroot h.parentId a.parentId

/-- Every line for a node is accepted. The unit is the one number with a range of its own. -/
theorem writtenNode_accepted {spelling : Spelling} {node : EdgeNode} (h : NodeWritable node)
    (hscale : Spells (lit "scale") (spelling.scale node.scale) node.scale) :
    ∀ entry ∈ writtenNode spelling node, ∀ n, (parseNodeKey n entry.1 entry.2).1 = .ok := by
  unfold writtenNode parseNodeKey
  simp only [List.forall_mem_cons, List.not_mem_nil, false_implies, implies_true, and_true]
  refine ⟨fun n => ?_, fun n => ?_, fun n => ?_, fun n => ?_, fun n => ?_, fun n => rfl,
    fun n => ?_, fun n => ?_, fun n => ?_⟩
  · exact copyValue_accepts h.assetId_ne h.assetId n.assetId
  · exact copyValue_accepts h.id_ne h.id n.id
  · exact copyValue_accepts h.name_ne h.name n.name
  · exact congrArg Prod.fst (parseDataType_text h.dataType_set n.dataType)
  · exact congrArg Prod.fst (parseAccess_text node.writable n.writable)
  · -- the unit is checked a second time, against its own range
    show (parseModbusUnit n (decimal node.modbusUnit.toNat)).1 = .ok
    have hunit : ¬ (node.modbusUnit = 0 ∨ 247 < node.modbusUnit) := by
      have hpos := UInt16.le_iff_toNat_le.mp h.unit_pos
      have hle := UInt16.le_iff_toNat_le.mp h.unit
      rw [← UInt16.toNat_inj, UInt16.lt_iff_toNat_lt]
      simp only [UInt16.reduceToNat] at hpos hle ⊢
      omega
    unfold parseModbusUnit
    rw [parseU16_decimal]
    simp only [ne_eq, not_true_eq_false, if_false, if_neg hunit]
  · exact congrArg Prod.fst (parseU32_decimal node.modbusRegister n.modbusRegister)
  · exact congrArg Prod.fst (hscale.parse n.scale)

theorem writtenEvent_accepted {spelling : Spelling} {event : EdgeEvent} (h : EventWritable event)
    (hthreshold :
      Spells (lit "threshold") (spelling.threshold event.threshold) event.threshold) :
    ∀ entry ∈ writtenEvent spelling event, ∀ e, (parseEventKey e entry.1 entry.2).1 = .ok := by
  unfold writtenEvent parseEventKey
  simp only [List.forall_mem_cons, List.not_mem_nil, false_implies, implies_true, and_true]
  refine ⟨fun e => ?_, fun e => ?_, fun e => ?_, fun e => ?_, fun e => ?_, fun e => ?_⟩
  · exact copyValue_accepts h.assetId_ne h.assetId e.assetId
  · exact copyValue_accepts h.id_ne h.id e.id
  · exact copyValue_accepts h.sourceNodeId_ne h.sourceNodeId e.sourceNodeId
  · exact congrArg Prod.fst (parseCondition_text h.condition_set e.condition)
  · exact congrArg Prod.fst (hthreshold.parse e.threshold)
  · exact congrArg Prod.fst (parseU16_decimal event.severity e.severity)

/-! ## Reading what was written

Record by record, and then for the blocks of each kind: what the lines say is the record they were
written for, but for what is resolved and wired later. -/

theorem assetOf_written {asset : EdgeAsset} (h : AssetWritable asset) :
    assetOf (writtenAsset asset) = asset.unresolved := by
  obtain ⟨hparent, hfirst, hcount⟩ := h.unwired
  cases asset
  cases hparent
  cases hfirst
  cases hcount
  rfl

theorem nodeOf_written {spelling : Spelling} {node : EdgeNode} (h : NodeWritable node)
    (hscale : Spells (lit "scale") (spelling.scale node.scale) node.scale) :
    nodeOf (writtenNode spelling node) = node.unresolved := by
  have htype := congrArg Prod.snd (parseDataType_text h.dataType_set .unset)
  have haccess := congrArg Prod.snd (parseAccess_text node.writable false)
  have hunit := congrArg Prod.snd (parseU16_decimal node.modbusUnit 0)
  have hregister := congrArg Prod.snd (parseU32_decimal node.modbusRegister 0)
  have hdouble := congrArg Prod.snd (hscale.parse (.fin 1))
  calc nodeOf (writtenNode spelling node)
      = { assetId := node.assetId, id := node.id, name := node.name
          dataType := (parseDataType (dataTypeText node.dataType) .unset).2
          writable := (parseAccess (accessText node.writable) false).2
          modbusUnit := (parseU16 (decimal node.modbusUnit.toNat) 0).2
          modbusRegister := (parseU32 (decimal node.modbusRegister.toNat) 0).2
          scale := (parseDouble (spelling.scale node.scale) (.fin 1)).2
          assetIndex := edgeInvalidIndex } := rfl
    _ = node.unresolved := by
      rw [htype, haccess, hunit, hregister, hdouble]
      -- no line spells these three fields: they have their defaults before the node is wired
      have hvalue := h.value
      have hpending := h.pendingWrite
      have hasset := h.unwired
      cases node
      cases hvalue
      cases hpending
      cases hasset
      rfl

theorem eventOf_written {spelling : Spelling} {event : EdgeEvent} (h : EventWritable event)
    (hthreshold :
      Spells (lit "threshold") (spelling.threshold event.threshold) event.threshold) :
    eventOf (writtenEvent spelling event) = event.unresolved := by
  have hcondition := congrArg Prod.snd (parseCondition_text h.condition_set .unset)
  have hseverity := congrArg Prod.snd (parseU16_decimal event.severity 0)
  have hdouble := congrArg Prod.snd (hthreshold.parse (.fin 0))
  calc eventOf (writtenEvent spelling event)
      = { assetId := event.assetId, id := event.id, sourceNodeId := event.sourceNodeId
          condition := (parseCondition (conditionText event.condition) .unset).2
          threshold := (parseDouble (spelling.threshold event.threshold) (.fin 0)).2
          severity := (parseU16 (decimal event.severity.toNat) 0).2
          assetIndex := edgeInvalidIndex, sourceNodeIndex := edgeInvalidIndex } := rfl
    _ = event.unresolved := by
      rw [hcondition, hseverity, hdouble]
      -- no line spells the latch, which is open in a loaded event, nor the pointers
      have hactive := h.active
      obtain ⟨hasset, hsource⟩ := h.unwired
      cases event
      cases hactive
      cases hasset
      cases hsource
      rfl

/-- The model without what is resolved after the last line. -/
def EdgeModel.unresolved (model : EdgeModel) : EdgeModel :=
  { model with
    assets := model.assets.map EdgeAsset.unresolved
    nodes := model.nodes.map EdgeNode.unresolved
    events := model.events.map EdgeEvent.unresolved }

@[simp] theorem EdgeModel.unresolved_id (model : EdgeModel) :
    model.unresolved.id = model.id := rfl

@[simp] theorem EdgeModel.unresolved_name (model : EdgeModel) :
    model.unresolved.name = model.name := rfl

section Template

variable {spelling : Spelling} {model : EdgeModel}

theorem blocksOfKind_entryBlocks {α : Type} (kind kind' : EdgeConfigSection)
    (write : α → List (Bytes × Bytes)) (records : List α) :
    blocksOfKind kind (records.map (entryBlock kind' ∘ write)) =
      if kind' = kind then records.map (entryBlock kind' ∘ write) else [] := by
  unfold blocksOfKind
  split_ifs with hkind
  · refine List.filter_eq_self.mpr fun block hmem => ?_
    obtain ⟨_, -, rfl⟩ := List.mem_map.mp hmem
    exact decide_eq_true hkind
  · refine List.filter_eq_nil_iff.mpr fun block hmem => ?_
    obtain ⟨_, -, rfl⟩ := List.mem_map.mp hmem
    exact fun heq => hkind (of_decide_eq_true heq)

/-- The blocks of one kind are those of the records of that kind, in order. -/
theorem blocksOfKind_template (spelling : Spelling) (model : EdgeModel) :
    blocksOfKind .plant (templateBlocks spelling model) =
        [entryBlock .plant (writtenPlant model)] ∧
      blocksOfKind .asset (templateBlocks spelling model) =
        model.assets.map (entryBlock .asset ∘ writtenAsset) ∧
      blocksOfKind .node (templateBlocks spelling model) =
        model.nodes.map (entryBlock .node ∘ writtenNode spelling) ∧
      blocksOfKind .event (templateBlocks spelling model) =
        model.events.map (entryBlock .event ∘ writtenEvent spelling) := by
  have hcons : ∀ (kind : EdgeConfigSection) (block : Block) (blocks : List Block),
      blocksOfKind kind (block :: blocks) = blocksOfKind kind [block] ++ blocksOfKind kind blocks :=
    fun kind block blocks => blocksOfKind_append kind [block] blocks
  unfold templateBlocks
  -- the four kinds stand in four runs, so each filter takes its run and nothing else
  refine ⟨?_, ?_, ?_, ?_⟩ <;>
    rw [hcons, blocksOfKind_append, blocksOfKind_append, blocksOfKind_entryBlocks,
      blocksOfKind_entryBlocks, blocksOfKind_entryBlocks]
  · rfl
  · exact List.append_nil _
  · exact List.append_nil _
  · rfl

/-- The blocks of the template are read back and accepted, one case for each kind. -/
theorem templateBlocks_written (h : Writable model) (hspelling : spelling.Covers model) :
    ∀ block ∈ templateBlocks spelling model, WrittenBlock block ∧ block.accepted = true := by
  unfold templateBlocks
  simp only [List.forall_mem_cons, List.forall_mem_append, List.forall_mem_map,
    Function.comp_apply]
  -- block by block: the texts are written entries, and the parser of the kind takes them
  refine ⟨⟨⟨nofun, _, rfl, writtenPlant_entries h⟩, ?_⟩, fun asset hmem => ?_,
    fun node hmem => ?_, fun event hmem => ?_⟩
  · exact foldTexts_accepts (writtenPlant_entries h) (writtenPlant_accepted h) {}
  · have hentries := writtenAsset_entries (h.assets asset hmem)
    refine ⟨⟨nofun, _, rfl, hentries⟩, ?_⟩
    exact foldTexts_accepts hentries (writtenAsset_accepted (h.assets asset hmem)) newAsset
  · have hscale := hspelling.scales node hmem
    have hentries := writtenNode_entries (h.nodes node hmem) hscale
    refine ⟨⟨nofun, _, rfl, hentries⟩, ?_⟩
    exact foldTexts_accepts hentries (writtenNode_accepted (h.nodes node hmem) hscale) newNode
  · have hthreshold := hspelling.thresholds event hmem
    have hentries := writtenEvent_entries (h.events event hmem) hthreshold
    refine ⟨⟨nofun, _, rfl, hentries⟩, ?_⟩
    exact foldTexts_accepts hentries (writtenEvent_accepted (h.events event hmem) hthreshold)
      newEvent

/-- What these blocks describe is the model they were written for. -/
theorem modelOf_templateBlocks (h : Writable model) (hspelling : spelling.Covers model) :
    modelOf (templateBlocks spelling model) = model.unresolved := by
  obtain ⟨hplant, hassets, hnodes, hevents⟩ := blocksOfKind_template spelling model
  have hentries : plantEntries (templateBlocks spelling model) = writtenPlant model := by
    unfold plantEntries
    rw [hplant, List.flatMap_singleton, entryBlock_entries (writtenPlant_entries h)]
  unfold modelOf EdgeModel.unresolved
  rw [hentries, hassets, hnodes, hevents, List.map_map, List.map_map, List.map_map]
  -- each block describes the record that it was written for
  congr 1
  · refine List.map_congr_left fun asset hmem => ?_
    have hasset := h.assets asset hmem
    simp only [Function.comp_apply, entryBlock_entries (writtenAsset_entries hasset),
      assetOf_written hasset]
  · refine List.map_congr_left fun node hmem => ?_
    have hnode := h.nodes node hmem
    have hscale := hspelling.scales node hmem
    simp only [Function.comp_apply, entryBlock_entries (writtenNode_entries hnode hscale),
      nodeOf_written hnode hscale]
  · refine List.map_congr_left fun event hmem => ?_
    have hevent := h.events event hmem
    have hthreshold := hspelling.thresholds event hmem
    simp only [Function.comp_apply, entryBlock_entries (writtenEvent_entries hevent hthreshold),
      eventOf_written hevent hthreshold]

/-- **The lines of a template are read as the model they were written for**, up to the indexes. -/
theorem readTemplate_templateLines (h : Writable model) (hspelling : spelling.Covers model) :
    (∀ line ∈ templateLines spelling model, IsLine line) ∧
      readTemplate (blocksOf (templateLines spelling model)) = some model.unresolved := by
  have hblocks := templateBlocks_written h hspelling
  have hwritten := fun block hmem => (hblocks block hmem).1
  constructor
  · intro line hmem
    obtain ⟨block, hblock, hline⟩ := List.mem_flatMap.mp hmem
    exact ((hwritten block hblock).lines line hline).isLine
  · obtain ⟨-, hassets, hnodes, hevents⟩ := blocksOfKind_template spelling model
    have hlimits : WithinLimits (templateBlocks spelling model) := by
      constructor
      · rw [hassets, List.length_map]
        exact h.assetCount
      · rw [hnodes, List.length_map]
        exact h.nodeCount
      · rw [hevents, List.length_map]
        exact h.eventCount
    -- accepted block by block, and what is accepted is what the blocks say
    have hsome := (runBlocks_isSome (templateBlocks spelling model) [] withinLimits_nil).mpr
      ⟨fun block hmem => (hblocks block hmem).2, hlimits⟩
    obtain ⟨read, hread⟩ := Option.isSome_iff_exists.mp hsome
    have hmodel := runBlocks_modelOf _ [] read hread
    rw [List.nil_append, modelOf_templateBlocks h hspelling] at hmodel
    unfold templateLines
    rw [blocksOf_lines hwritten, readTemplate, if_pos rfl, ← hmodel]
    exact hread

end Template

end OpcuaEdge
