import OpcuaEdge.WellFormed
import OpcuaEdge.Lib.LineInput

/-!
# OpcuaEdge — a template as a sequence of blocks

The loader is a state machine over lines, with a section code and three record pointers. Here a
template is cut at its headers instead: `splitBlocks` gives what stands before the first header and
the blocks, and `addBlock` reads one block into a model without any of these variables. The two
agree (`runTexts_eq`): a header sets all the variables anew, and until the next one every key goes
to the one record it began.
-/

namespace OpcuaEdge

open CStr CLoop

/-! ## Lines

A file whose lines all fit in the buffer is read line by line. Of these lines only some matter:
blank ones and comments are skipped. -/

/-- A line that fits into the buffer of the loader, without its newline. -/
structure IsLine (line : Bytes) : Prop where
  length : line.length ≤ edgeMaxLineLen - 2
  noNewline : newline ∉ line
  noNul : 0 ∉ line

instance (line : Bytes) : Decidable (IsLine line) :=
  decidable_of_iff (line.length ≤ edgeMaxLineLen - 2 ∧ newline ∉ line ∧ 0 ∉ line)
    ⟨fun h => ⟨h.1, h.2.1, h.2.2⟩, fun h => ⟨h.length, h.noNewline, h.noNul⟩⟩

/-- Blank, or a comment. -/
def skipped (text : Bytes) : Bool := text = [] || text.head? = some 35

/-- The lines that matter, trimmed. -/
def significant (lines : List Bytes) : List Bytes :=
  (lines.map trimNewline).filter fun text => !skipped text

/-- One line of the loader, if it is accepted. -/
def acceptText (text : Bytes) (st : LoadState) : Option LoadState :=
  if (loadText text st).1 = .ok then some (loadText text st).2 else none

/-- The texts in order, up to the first that is not accepted. -/
def runTexts : List Bytes → LoadState → Option LoadState
  | [], st => some st
  | text :: rest, st => (acceptText text st).bind (runTexts rest)

theorem acceptText_skipped {text : Bytes} (h : skipped text = true) (st : LoadState) :
    acceptText text st = some st := by
  have hskip : text = [] ∨ text.head? = some 35 := by simpa [skipped] using h
  have hload : loadText text st = (.ok, st) := if_pos hskip
  unfold acceptText
  rw [hload, if_pos rfl]

/-- Blank lines and comments have no effect. -/
theorem runTexts_significant (lines : List Bytes) :
    ∀ st, runTexts (lines.map trimNewline) st = runTexts (significant lines) st := by
  unfold significant
  induction lines with
  | nil => intro st; rfl
  | cons line rest ih =>
    intro st
    rw [List.map_cons, List.filter_cons]
    cases hskip : skipped (trimNewline line) with
    | true =>
      rw [if_neg (by decide), runTexts, acceptText_skipped hskip]
      exact ih st
    | false =>
      rw [if_pos (by decide), runTexts, runTexts]
      exact congrArg (Option.bind _) (funext ih)

theorem trimNewline_newline (line : Bytes) : trimNewline (line ++ [newline]) = trimNewline line :=
  List.rdropWhile_concat_pos _ _ _ (by decide)

/-- A line is loaded without its line feed .. -/
theorem loadLine_line {line : Bytes} (h : IsLine line) (st : LoadState) :
    loadLine ⟨line ++ [newline], false⟩ st = loadText (trimNewline line) st := by
  have hnul : 0 ∉ line ++ [newline] := by
    rw [List.mem_append]
    rintro (hmem | hmem)
    · exact h.noNul hmem
    · revert hmem
      decide
  unfold loadLine
  dsimp only
  rw [terminated_of_not_mem hnul, trimNewline_newline]
  exact if_neg fun hlong => hlong.2.1 (by simp)

/-- .. and so is a last line that has none. -/
theorem loadLine_last {line : Bytes} (h : IsLine line) (st : LoadState) :
    loadLine ⟨line, true⟩ st = loadText (trimNewline line) st := by
  unfold loadLine
  dsimp only
  rw [terminated_of_not_mem h.noNul]
  exact if_neg fun hlong => nomatch hlong.2.2

/-- One turn of the loop: it goes on exactly if the text is accepted. -/
theorem visit_loadTurn_cons {chunk : Chunk} {text : Bytes}
    (h : ∀ st, loadLine chunk st = loadText text st) (rest : List Chunk) (i : Nat)
    (st st' : LoadState) :
    visit loadTurn i (chunk :: rest) st = (st', none) ↔
      ∃ mid, acceptText text st = some mid ∧ visit loadTurn (i + 1) rest mid = (st', none) := by
  -- an accepted text leaves a state for the rest, any other one ends the loop
  by_cases hok : (loadText text st).1 = .ok
  · have hturn : loadTurn i chunk st = ((loadText text st).2, none) := by
      unfold loadTurn
      rw [h]
      dsimp only
      rw [if_pos hok]
    have haccept : acceptText text st = some (loadText text st).2 := if_pos hok
    rw [visit_cons_next (by rw [hturn]), hturn, haccept]
    simp
  · have hturn : loadTurn i chunk st = ((loadText text st).2, some (loadText text st).1) := by
      unfold loadTurn
      rw [h]
      dsimp only
      rw [if_neg hok]
    have haccept : acceptText text st = none := if_neg hok
    have hexit : (loadTurn i chunk st).2 = some (loadText text st).1 := by rw [hturn]
    rw [visit_cons_exit hexit, haccept]
    simp

/-- **The loop over the file**: it runs to its end exactly if every line is accepted. -/
theorem visit_lineChunks (lines : List Bytes) (h : ∀ line ∈ lines, IsLine line) :
    ∀ (i : Nat) (st st' : LoadState), visit loadTurn i (lineChunks lines) st = (st', none) ↔
      runTexts (lines.map trimNewline) st = some st' := by
  induction lines with
  | nil =>
    intro i st st'
    show (st, none) = (st', none) ↔ some st = some st'
    simp
  | cons line rest ih =>
    obtain ⟨hline, hrest⟩ := List.forall_mem_cons.mp h
    intro i st st'
    rw [List.map_cons, runTexts, Option.bind_eq_some_iff]
    cases rest with
    | nil =>
      show visit loadTurn i (if line = [] then [] else [⟨line, true⟩]) st = (st', none) ↔ _
      split_ifs with hempty
      · -- nothing is read, and the text is blank
        rw [hempty, acceptText_skipped (by decide)]
        show (st, none) = (st', none) ↔ _
        simp [runTexts]
      · rw [visit_loadTurn_cons (loadLine_last hline)]
        exact exists_congr fun mid => and_congr_right fun _ => ih hrest (i + 1) mid st'
    | cons next rest =>
      show visit loadTurn i (⟨line ++ [newline], false⟩ :: lineChunks (next :: rest)) st
        = (st', none) ↔ _
      rw [visit_loadTurn_cons (loadLine_line hline)]
      exact exists_congr fun mid => and_congr_right fun _ => ih hrest (i + 1) mid st'

/-! ## Blocks

A section header and the lines up to the next one. The lines of a block change one record, which
only that block can see. -/

/-- The section that a header begins. -/
def headerOf (text : Bytes) : Option EdgeConfigSection :=
  if text = lit "[plant]" then some .plant
  else if text = lit "[asset]" then some .asset
  else if text = lit "[node]" then some .node
  else if text = lit "[event]" then some .event
  else none

/-- A section of the template, without its header. -/
structure Block where
  kind : EdgeConfigSection
  texts : List Bytes
  deriving DecidableEq

/-- What stands before the first header, and the blocks: each runs from its header to the next. -/
def splitBlocks : List Bytes → List Bytes × List Block
  | [] => ([], [])
  | text :: rest =>
    match headerOf text with
    | some kind => ([], { kind, texts := (splitBlocks rest).1 } :: (splitBlocks rest).2)
    | none => (text :: (splitBlocks rest).1, (splitBlocks rest).2)

/-- A header begins a block. -/
theorem splitBlocks_header {text : Bytes} {kind : EdgeConfigSection}
    (h : headerOf text = some kind) (rest : List Bytes) :
    splitBlocks (text :: rest) =
      ([], { kind, texts := (splitBlocks rest).1 } :: (splitBlocks rest).2) := by
  rw [splitBlocks]
  simp only [h]

theorem splitBlocks_text {text : Bytes} (h : headerOf text = none) (rest : List Bytes) :
    splitBlocks (text :: rest) = (text :: (splitBlocks rest).1, (splitBlocks rest).2) := by
  rw [splitBlocks]
  simp only [h]

/-- The key and the value of a text that is no header. -/
def keyValueOf (text : Bytes) : Option (Bytes × Bytes) :=
  if text.head? = some 91 then none else splitKeyValue text

/-- Reads the texts of a block into one record. -/
def foldTexts {α : Type} (parse : α → Bytes → Bytes → EdgeStatus × α) : List Bytes → α → Option α
  | [], a => some a
  | text :: rest, a =>
    match keyValueOf text with
    | none => none
    | some (key, value) =>
      if (parse a key value).1 = .ok then foldTexts parse rest (parse a key value).2 else none

/-- The asset that a header begins. -/
def newAsset : EdgeAsset := { parentIndex := edgeInvalidIndex }

/-- The node that a header begins. -/
def newNode : EdgeNode := { assetIndex := edgeInvalidIndex, scale := .fin 1 }

/-- The event that a header begins. -/
def newEvent : EdgeEvent :=
  { assetIndex := edgeInvalidIndex, sourceNodeIndex := edgeInvalidIndex }

/-- Reads a block into a model. -/
def addBlock (block : Block) (model : EdgeModel) : Option EdgeModel :=
  match block.kind with
  | .none => none
  | .plant => foldTexts parsePlantKey block.texts model
  | .asset =>
    if edgeMaxAssets ≤ model.assets.length then none
    else (foldTexts parseAssetKey block.texts newAsset).map fun asset =>
      { model with assets := model.assets ++ [asset] }
  | .node =>
    if edgeMaxNodes ≤ model.nodes.length then none
    else (foldTexts parseNodeKey block.texts newNode).map fun node =>
      { model with nodes := model.nodes ++ [node] }
  | .event =>
    if edgeMaxEvents ≤ model.events.length then none
    else (foldTexts parseEventKey block.texts newEvent).map fun event =>
      { model with events := model.events ++ [event] }

/-- The blocks in order, up to the first that is not read. -/
def runBlocks : List Block → EdgeModel → Option EdgeModel
  | [], model => some model
  | block :: rest, model => (addBlock block model).bind (runBlocks rest)

/-- A text of a block: no header, and not skipped. -/
structure BodyText (text : Bytes) : Prop where
  noHeader : headerOf text = none
  kept : skipped text = false

/-- A line of a block that is not skipped is split and parsed. -/
theorem loadText_body {text : Bytes} (h : BodyText text) (st : LoadState) :
    loadText text st =
      match keyValueOf text with
      | none => (.invalid, st)
      | some (key, value) => parseKey st key value := by
  -- neither a comment nor an empty line, and no header: what is left is key=value
  have hkept : ¬ (text = [] ∨ text.head? = some 35) := by
    have hskip := h.kept
    simp only [skipped, Bool.or_eq_false_iff, decide_eq_false_iff_not] at hskip
    exact not_or.mpr hskip
  have hheader := h.noHeader
  unfold headerOf at hheader
  split_ifs at hheader with hplant hasset hnode hevent
  unfold loadText keyValueOf
  rw [if_neg hkept, if_neg hplant, if_neg hasset, if_neg hnode, if_neg hevent]
  split_ifs
  · rfl
  · rfl

/-- **Between two headers** every key goes to one record, which `put` places into the state. -/
theorem runTexts_body {α : Type} (parse : α → Bytes → Bytes → EdgeStatus × α) (put : α → LoadState)
    (hput : ∀ a key value,
      parseKey (put a) key value = ((parse a key value).1, put (parse a key value).2))
    (texts : List Bytes) (h : ∀ text ∈ texts, BodyText text) :
    ∀ a, runTexts texts (put a) = (foldTexts parse texts a).map put := by
  -- the state stays in the image of put, which is what hput says of one key
  induction texts with
  | nil => intro a; rfl
  | cons text rest ih =>
    intro a
    obtain ⟨htext, hrest⟩ := List.forall_mem_cons.mp h
    unfold runTexts foldTexts acceptText
    rw [loadText_body htext]
    cases keyValueOf text with
    | none => rfl
    | some kv =>
      simp only [hput]
      split_ifs
      · exact ih hrest _
      · rfl

/-! Where the record of a block is kept while its keys are read. -/

theorem updateRecord_last {α : Type} (records : List α) (a : α) (f : α → EdgeStatus × α) :
    updateRecord (records ++ [a]) records.length f = ((f a).1, records ++ [(f a).2]) := by
  unfold updateRecord
  rw [List.getElem?_concat_length]
  dsimp only
  rw [List.set_append_right _ _ (Nat.le_refl _), Nat.sub_self]
  rfl

/-- The state within a block of the plant. -/
def plantState (model : EdgeModel) : LoadState := { model, sect := .plant }

/-- The state within a block of an asset: the record is the last one. -/
def assetState (model : EdgeModel) (asset : EdgeAsset) : LoadState :=
  { model := { model with assets := model.assets ++ [asset] }
    sect := .asset
    asset := some model.assets.length }

/-- The state within a block of a node. -/
def nodeState (model : EdgeModel) (node : EdgeNode) : LoadState :=
  { model := { model with nodes := model.nodes ++ [node] }
    sect := .node
    node := some model.nodes.length }

/-- The state within a block of an event. -/
def eventState (model : EdgeModel) (event : EdgeEvent) : LoadState :=
  { model := { model with events := model.events ++ [event] }
    sect := .event
    event := some model.events.length }

/-- A key within a block of an asset goes to that asset .. -/
theorem parseKey_assetState (model : EdgeModel) (asset : EdgeAsset) (key value : Bytes) :
    parseKey (assetState model asset) key value =
      ((parseAssetKey asset key value).1, assetState model (parseAssetKey asset key value).2) := by
  unfold parseKey assetState
  dsimp only
  rw [updateRecord_last]
  rfl

/-- .. one within a block of a node to that node .. -/
theorem parseKey_nodeState (model : EdgeModel) (node : EdgeNode) (key value : Bytes) :
    parseKey (nodeState model node) key value =
      ((parseNodeKey node key value).1, nodeState model (parseNodeKey node key value).2) := by
  unfold parseKey nodeState
  dsimp only
  rw [updateRecord_last]
  rfl

/-- .. and one within a block of an event to that event. -/
theorem parseKey_eventState (model : EdgeModel) (event : EdgeEvent) (key value : Bytes) :
    parseKey (eventState model event) key value =
      ((parseEventKey event key value).1, eventState model (parseEventKey event key value).2) := by
  unfold parseKey eventState
  dsimp only
  rw [updateRecord_last]
  rfl

/-- A header that begins a record is accepted if there is room for it. -/
theorem acceptText_record {header : Bytes} (begin : LoadState → EdgeStatus × LoadState)
    {kind : EdgeConfigSection} {full : Prop} [Decidable full] {st begun : LoadState}
    (hload : loadText header st =
      if (begin st).1 ≠ .ok then begin st else (.ok, { (begin st).2 with sect := kind }))
    (hbegin : begin st = if full then (.limit, st) else (.ok, begun)) :
    acceptText header st = if full then none else some { begun with sect := kind } := by
  unfold acceptText
  by_cases hfull : full
  · rw [if_pos hfull] at hbegin ⊢
    rw [hload, hbegin]
    rfl
  · rw [if_neg hfull] at hbegin ⊢
    rw [hload, hbegin]
    rfl

/-- A header `[asset]` begins one, if there is room .. -/
theorem acceptText_asset (st : LoadState) :
    acceptText (lit "[asset]") st =
      if edgeMaxAssets ≤ st.model.assets.length then none
      else some (assetState st.model newAsset) :=
  acceptText_record beginAsset rfl rfl

/-- .. `[node]` a node .. -/
theorem acceptText_node (st : LoadState) :
    acceptText (lit "[node]") st =
      if edgeMaxNodes ≤ st.model.nodes.length then none
      else some (nodeState st.model newNode) :=
  acceptText_record beginNode rfl rfl

/-- .. and `[event]` an event. -/
theorem acceptText_event (st : LoadState) :
    acceptText (lit "[event]") st =
      if edgeMaxEvents ≤ st.model.events.length then none
      else some (eventState st.model newEvent) :=
  acceptText_record beginEvent rfl rfl

/-- The header of a record and the keys that fill it. -/
theorem runTexts_record {α : Type} {parse : α → Bytes → Bytes → EdgeStatus × α}
    {put : α → LoadState} {new : α} {header : Bytes} {full : Prop} [Decidable full]
    {st : LoadState} (haccept : acceptText header st = if full then none else some (put new))
    (hput : ∀ a key value,
      parseKey (put a) key value = ((parse a key value).1, put (parse a key value).2))
    {texts : List Bytes} (htexts : ∀ text ∈ texts, BodyText text) :
    (runTexts (header :: texts) st).map (·.model) =
      if full then none else (foldTexts parse texts new).map fun a => (put a).model := by
  rw [runTexts, haccept]
  split_ifs with hfull
  · rfl
  · rw [Option.bind_some, runTexts_body parse put hput texts htexts, Option.map_map]
    rfl

/-- **A whole block**: its header forgets the section before it, and its keys fill the record that
the header began. -/
theorem runTexts_block {header : Bytes} {kind : EdgeConfigSection}
    (hheader : headerOf header = some kind) {texts : List Bytes}
    (htexts : ∀ text ∈ texts, BodyText text) (st : LoadState) :
    (runTexts (header :: texts) st).map (·.model) = addBlock { kind, texts } st.model := by
  unfold headerOf at hheader
  -- one case per header: each opens its own record and then takes the body
  split_ifs at hheader with hplant hasset hnode hevent
  · cases hheader
    have haccept : acceptText (lit "[plant]") st = some (plantState st.model) := rfl
    rw [hplant, runTexts, haccept, Option.bind_some,
      runTexts_body parsePlantKey plantState (fun _ _ _ => rfl) texts htexts, Option.map_map]
    exact Option.map_id_apply
  · cases hheader
    rw [hasset]
    exact runTexts_record (acceptText_asset st) (parseKey_assetState st.model) htexts
  · cases hheader
    rw [hnode]
    exact runTexts_record (acceptText_node st) (parseKey_nodeState st.model) htexts
  · cases hheader
    rw [hevent]
    exact runTexts_record (acceptText_event st) (parseKey_eventState st.model) htexts

/-- Within a block there are no headers, and nothing is skipped. -/
theorem splitBlocks_body (texts : List Bytes) (h : ∀ text ∈ texts, skipped text = false) :
    ∀ text ∈ (splitBlocks texts).1, BodyText text := by
  induction texts with
  | nil => intro text hmem; cases hmem
  | cons first rest ih =>
    obtain ⟨hfirst, hrest⟩ := List.forall_mem_cons.mp h
    cases hheader : headerOf first with
    | some kind =>
      rw [splitBlocks_header hheader]
      intro text hmem
      cases hmem
    | none =>
      rw [splitBlocks_text hheader]
      exact List.forall_mem_cons.mpr ⟨⟨hheader, hfirst⟩, ih hrest⟩

/-- **The state machine reads block by block.** -/
theorem runTexts_eq (texts : List Bytes) (h : ∀ text ∈ texts, skipped text = false) :
    ∀ st, (runTexts texts st).map (·.model) =
      ((runTexts (splitBlocks texts).1 st).map (·.model)).bind
        (runBlocks (splitBlocks texts).2) := by
  induction texts with
  | nil => intro st; rfl
  | cons text rest ih =>
    intro st
    obtain ⟨htext, hrest⟩ := List.forall_mem_cons.mp h
    have hbody := splitBlocks_body rest hrest
    have hnext : (runTexts (text :: rest) st).map (·.model) =
        (acceptText text st).bind fun mid =>
          ((runTexts (splitBlocks rest).1 mid).map (·.model)).bind
            (runBlocks (splitBlocks rest).2) := by
      rw [runTexts, Option.map_bind]
      exact congrArg _ (funext fun mid => ih hrest mid)
    rw [hnext]
    -- a header closes the block before it and opens one, any other text belongs to the open block
    cases hheader : headerOf text with
    | none =>
      rw [splitBlocks_text hheader, runTexts, Option.map_bind, Option.bind_assoc]
      rfl
    | some kind =>
      rw [splitBlocks_header hheader]
      show _ = (addBlock { kind, texts := (splitBlocks rest).1 } st.model).bind _
      rw [← runTexts_block hheader hbody, runTexts, Option.map_bind, Option.bind_assoc]
      rfl

/-! ## Whole templates

The loader on a file, in three steps: cut it into blocks, read the blocks, and validate what was
read. -/

/-- Nothing but skipped lines may come before the first header. -/
theorem runTexts_preamble (texts : List Bytes) (h : ∀ text ∈ texts, BodyText text)
    (model : EdgeModel) :
    runTexts texts { model } = if texts = [] then some { model } else none := by
  -- outside a section every key is refused, and there is no record to fill
  let refuse : Unit → Bytes → Bytes → EdgeStatus × Unit := fun _ _ _ => (.invalid, ())
  have hbody := runTexts_body refuse (fun _ => { model }) (fun _ _ _ => rfl) texts h ()
  rw [hbody]
  cases texts with
  | nil => rfl
  | cons text rest =>
    rw [if_neg (List.cons_ne_nil text rest), foldTexts]
    cases keyValueOf text <;> rfl

/-- The preamble and the blocks of a template. -/
def blocksOf (lines : List Bytes) : List Bytes × List Block := splitBlocks (significant lines)

/-- The model that the lines of a template describe, before it is validated. -/
def readTemplate (template : List Bytes × List Block) : Option EdgeModel :=
  if template.1 = [] then runBlocks template.2 {} else none

theorem significant_kept (lines : List Bytes) :
    ∀ text ∈ significant lines, skipped text = false := by
  intro text hmem
  have hkept := (List.mem_filter.mp hmem).2
  rwa [Bool.not_eq_true'] at hkept

theorem runTexts_template (lines : List Bytes) :
    (runTexts (lines.map trimNewline) { model := {} }).map (·.model) =
      readTemplate (blocksOf lines) := by
  have hkept := significant_kept lines
  rw [runTexts_significant, runTexts_eq _ hkept,
    runTexts_preamble _ (splitBlocks_body _ hkept)]
  unfold readTemplate blocksOf
  split_ifs <;> rfl

/-- What `edge_config_load` does after the last line. -/
def finishLoad (model : EdgeModel) : EdgeStatus × EdgeModel :=
  if validateRequiredFields model ≠ .ok ∨ validateDuplicates model ≠ .ok then (.invalid, model)
  else
    let v := validateAndResolveReferences model
    if v.1 ≠ .ok then (.invalid, v.2) else (.ok, v.2)

theorem chunks_lines {lines : List Bytes} (h : ∀ line ∈ lines, IsLine line) :
    chunks (edgeMaxLineLen - 1) (joinLines lines) = lineChunks lines := by
  refine chunks_joinLines fun line hmem => ⟨?_, (h line hmem).noNewline⟩
  have hlength : line.length ≤ 510 := (h line hmem).length
  show line.length < 511
  omega

/-- Where the line loop comes to the end, the validation decides .. -/
theorem edgeConfigLoad_done {bytes : Bytes} {st : LoadState}
    (h : visit loadTurn 0 (chunks (edgeMaxLineLen - 1) bytes) { model := {} } = (st, none)) :
    edgeConfigLoad (some bytes) {} = finishLoad st.model := by
  unfold edgeConfigLoad
  dsimp only
  rw [h]
  rfl

/-- .. and where it does not, the load has failed. -/
theorem edgeConfigLoad_stopped {bytes : Bytes} {st : LoadState} {status : EdgeStatus}
    (h : visit loadTurn 0 (chunks (edgeMaxLineLen - 1) bytes) { model := {} } = (st, some status)) :
    edgeConfigLoad (some bytes) {} = (status, st.model) := by
  unfold edgeConfigLoad
  dsimp only
  rw [h]

/-- **The loader on a file of lines**: its blocks decide. -/
theorem edgeConfigLoad_lines {lines : List Bytes} (h : ∀ line ∈ lines, IsLine line)
    {model : EdgeModel} (hread : readTemplate (blocksOf lines) = some model) :
    edgeConfigLoad (some (joinLines lines)) {} = finishLoad model := by
  rw [← runTexts_template, Option.map_eq_some_iff] at hread
  obtain ⟨st, hrun, rfl⟩ := hread
  have hloop := (visit_lineChunks lines h 0 _ _).mpr hrun
  rw [← chunks_lines h] at hloop
  exact edgeConfigLoad_done hloop

/-- Where a file is accepted the loop has run to its end. -/
theorem visit_of_ok {bytes : Bytes} (hok : (edgeConfigLoad (some bytes) {}).1 = .ok) :
    ∃ st, visit loadTurn 0 (chunks (edgeMaxLineLen - 1) bytes) { model := {} } = (st, none) ∧
      edgeConfigLoad (some bytes) {} = finishLoad st.model := by
  cases hloop : visit loadTurn 0 (chunks (edgeMaxLineLen - 1) bytes) { model := {} } with
  | mk st exit =>
    cases exit with
    | none => exact ⟨st, rfl, edgeConfigLoad_done hloop⟩
    | some status =>
      rw [edgeConfigLoad_stopped hloop] at hok
      exact absurd hok (loadLines_exit (congrArg Prod.snd hloop))

theorem readTemplate_of_ok {lines : List Bytes} (h : ∀ line ∈ lines, IsLine line)
    (hok : (edgeConfigLoad (some (joinLines lines)) {}).1 = .ok) :
    ∃ model, readTemplate (blocksOf lines) = some model := by
  obtain ⟨st, hloop, -⟩ := visit_of_ok hok
  rw [chunks_lines h, visit_lineChunks lines h] at hloop
  refine ⟨st.model, ?_⟩
  rw [← runTexts_template, hloop]
  rfl

end OpcuaEdge
