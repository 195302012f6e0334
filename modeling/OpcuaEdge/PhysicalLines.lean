import OpcuaEdge.Records

/-!
# OpcuaEdge — the loader sees the lines of the file

The loader takes every buffer of `fgets` for a line unless its length says that the line went on
(`RefusedAsLong`). The length is that of the C string, so a NUL among the first 511 bytes of an
over-long line hides that it went on, and its next bytes are taken for a line of their own.

For any file, the strings that the loader sees make up a template of blocks as in `Blocks`, and an
accepted model is built from these (`builtFrom_of_ok`).
-/

namespace OpcuaEdge

open CStr CLoop

/-! ## Buffers

The loader reads with `fgets` into a buffer and tells an over-long line by a full one without a
newline. A NUL in the file hides from it how full the buffer is. -/

/-- The test by which the loader knows an over-long line. -/
def RefusedAsLong (chunk : Chunk) : Prop :=
  (terminated chunk.bytes).length = edgeMaxLineLen - 1 ∧
    (terminated chunk.bytes).getLast? ≠ some newline ∧ chunk.eof = false

instance (chunk : Chunk) : Decidable (RefusedAsLong chunk) := by
  unfold RefusedAsLong
  infer_instance

/-- A line as the loader sees it: up to its first NUL, and trimmed. -/
def lineText (line : Bytes) : Bytes := trimNewline (terminated line)

/-- A buffer known as over-long is refused unread. -/
theorem loadLine_refused {chunk : Chunk} (h : RefusedAsLong chunk) (st : LoadState) :
    loadLine chunk st = (.limit, st) := if_pos h

theorem loadLine_taken {chunk : Chunk} (h : ¬ RefusedAsLong chunk) (st : LoadState) :
    loadLine chunk st = loadText (lineText chunk.bytes) st := if_neg h

/-- The buffer that holds a line and its newline. -/
def wholeLine (line : Bytes) : Chunk := ⟨line ++ [newline], false⟩

/-- The buffers of whole lines and one that is filled before its line ends. -/
def buffersUpTo (lines : List Bytes) (head : Bytes) : List Chunk :=
  lines.map wholeLine ++ [⟨head, false⟩]

theorem length_buffersUpTo (lines : List Bytes) (head : Bytes) :
    (buffersUpTo lines head).length = lines.length + 1 := by
  rw [buffersUpTo, List.length_append, List.length_map, List.length_singleton]

/-- A line that fits is never taken for an over-long one. -/
theorem not_refused_line {line : Bytes} (h : ShortLine (edgeMaxLineLen - 1) line) :
    ¬ RefusedAsLong (wholeLine line) := by
  rintro ⟨hlength, hlast, -⟩
  dsimp only [wholeLine] at hlength hlast
  by_cases hnul : 0 ∈ line
  · have hshort := h.length
    have hcut := length_terminated_lt hnul
    rw [terminated_append_of_mem hnul] at hlength
    omega
  · rw [terminated_of_not_mem (by simpa [newline] using hnul)] at hlast
    exact hlast (by simp)

/-- Nor is the last line of a file, which needs no newline. -/
theorem not_refused_last (line : Bytes) : ¬ RefusedAsLong ⟨line, true⟩ := fun h => nomatch h.2.2

/-- Of a full buffer the test sees that it is full only if there is no NUL in it. -/
theorem refused_full_iff {head : Bytes} (hlen : head.length = edgeMaxLineLen - 1)
    (hline : newline ∉ head) : RefusedAsLong ⟨head, false⟩ ↔ 0 ∉ head := by
  constructor
  · rintro ⟨hlength, -, -⟩ hnul
    have hcut := length_terminated_lt hnul
    dsimp only at hlength
    omega
  · intro hnul
    unfold RefusedAsLong
    dsimp only
    rw [terminated_of_not_mem hnul]
    exact ⟨hlen, fun hlast => hline (List.mem_of_getLast? hlast), rfl⟩

theorem lineText_newline (line : Bytes) : lineText (line ++ [newline]) = lineText line := by
  unfold lineText
  by_cases hnul : 0 ∈ line
  · rw [terminated_append_of_mem hnul]
  · rw [terminated_of_not_mem (by simpa [newline] using hnul), terminated_of_not_mem hnul,
      trimNewline_newline]

/-! ## The loop over any file

The loop is the acceptance of the buffers' texts one after the other, as long as no buffer is
refused. -/

theorem runTexts_append (first second : List Bytes) :
    ∀ st, runTexts (first ++ second) st = (runTexts first st).bind (runTexts second) := by
  induction first with
  | nil => intro st; rfl
  | cons text first ih =>
    intro st
    rw [List.cons_append, runTexts, runTexts, Option.bind_assoc]
    exact congrArg _ (funext ih)

/-- The loop runs to its end exactly if it refuses no buffer as too long and accepts every text. -/
theorem visit_loadTurn_iff (buffers : List Chunk) :
    ∀ (i : Nat) (st st' : LoadState), visit loadTurn i buffers st = (st', none) ↔
      (∀ chunk ∈ buffers, ¬ RefusedAsLong chunk) ∧
        runTexts (buffers.map fun chunk => lineText chunk.bytes) st = some st' := by
  induction buffers with
  | nil =>
    intro i st st'
    show (st, none) = (st', none) ↔ _ ∧ some st = some st'
    simp
  | cons chunk rest ih =>
    intro i st st'
    rw [List.forall_mem_cons]
    -- a refused buffer ends the loop, any other one is accepted as its text
    by_cases hlong : RefusedAsLong chunk
    · have hexit : (loadTurn i chunk st).2 = some .limit := by
        unfold loadTurn
        rw [loadLine_refused hlong]
        rfl
      rw [visit_cons_exit hexit]
      exact ⟨fun h => (nomatch h), fun h => absurd hlong h.1.1⟩
    · rw [visit_loadTurn_cons (loadLine_taken hlong), List.map_cons, runTexts,
        Option.bind_eq_some_iff]
      constructor
      · rintro ⟨mid, haccept, hvisit⟩
        obtain ⟨hnone, hrun⟩ := (ih (i + 1) mid st').mp hvisit
        exact ⟨⟨hlong, hnone⟩, mid, haccept, hrun⟩
      · rintro ⟨⟨-, hnone⟩, mid, haccept, hrun⟩
        exact ⟨mid, haccept, (ih (i + 1) mid st').mpr ⟨hnone, hrun⟩⟩

/-- The buffers that `fgets` delivers of a file. -/
def buffersOf (bytes : Bytes) : List Chunk := chunks (edgeMaxLineLen - 1) bytes

/-- The strings the loader sees of a file, one for each buffer. -/
def stringsOf (bytes : Bytes) : List Bytes :=
  (buffersOf bytes).map fun chunk => terminated chunk.bytes

/-- **Every accepted file** is a template of blocks, whatever bytes it holds. -/
theorem builtFrom_of_ok {bytes : Bytes} (hok : (edgeConfigLoad (some bytes) {}).1 = .ok) :
    BuiltFrom (blocksOf (stringsOf bytes)).2 (edgeConfigLoad (some bytes) {}).2 := by
  obtain ⟨st, hloop, hload⟩ := visit_of_ok hok
  have hread : readTemplate (blocksOf (stringsOf bytes)) = some st.model := by
    have hrun := ((visit_loadTurn_iff _ _ _ _).mp hloop).2
    rw [← runTexts_template, stringsOf, List.map_map]
    exact congrArg (Option.map _) hrun
  rw [hload] at hok ⊢
  exact BuiltFrom.of_readTemplate hread hok

/-! ## Where the strings begin

Behind an over-long line that was not noticed, the next string starts in the middle of it. So the
question is what stops the loader there. -/

/-- What has been read before the buffer at `i`. -/
def bytesBefore (bytes : Bytes) (i : Nat) : Bytes := ((buffersOf bytes).take i).flatMap (·.bytes)

/-- A place in the file, by what stands before it. -/
def AtLineStart (before : Bytes) : Prop := before = [] ∨ before.getLast? = some newline

theorem atLineStart_endedLines (lines : List Bytes) : AtLineStart (endedLines lines) := by
  induction lines using List.reverseRecOn with
  | nil => exact .inl rfl
  | append_singleton lines line _ => exact .inr (by simp [endedLines])

/-- The loop gets to the buffer at `i`. -/
structure Reaches (bytes : Bytes) (i : Nat) (chunk : Chunk) : Prop where
  buffer : (buffersOf bytes)[i]? = some chunk
  before : (visit loadTurn 0 ((buffersOf bytes).take i) { model := {} }).2 = none

/-- A buffer that the loader takes for a line, and trims and reads, be it as a blank one or as a
comment. -/
def TakenAsLine (chunk : Chunk) : Prop := ¬ RefusedAsLong chunk

/-- Read as a header or as a key and its value: neither blank nor a comment. -/
def Interpreted (chunk : Chunk) : Prop :=
  TakenAsLine chunk ∧ skipped (lineText chunk.bytes) = false

/-- A file with an over-long line is refused, and every buffer that is `used` starts a line. -/
structure SeesLines (used : Chunk → Prop) (bytes : Bytes) : Prop where
  overlong : (∃ line ∈ bytes.splitOn newline, edgeMaxLineLen - 2 < line.length) →
    (edgeConfigLoad (some bytes) {}).1 ≠ .ok
  starts : ∀ i chunk, Reaches bytes i chunk → used chunk → AtLineStart (bytesBefore bytes i)

/-- As many bytes of one line as `fgets` delivers at a time. -/
structure FullBuffer (head : Bytes) : Prop where
  length : head.length = edgeMaxLineLen - 1
  noNewline : newline ∉ head

/-- The first over-long line of the file begins with `head`, which holds a NUL; `rest` follows. The
lines before it are accepted, and so is what stands before the NUL, which makes the state `st`. -/
structure PassesHead (bytes head rest : Bytes) (st : LoadState) : Prop where
  full : FullBuffer head
  nul : 0 ∈ head
  accepted : ∃ lines, (∀ line ∈ lines, ShortLine (edgeMaxLineLen - 1) line) ∧
    bytes = endedLines lines ++ (head ++ rest) ∧
    runTexts (lines.map lineText ++ [lineText head]) { model := {} } = some st

/-- Where the loader passes the head of an over-long line, it is stopped right behind it: by another
full buffer without a NUL, or, at the end of the file, by the validation. -/
def StoppedBehindHead (bytes : Bytes) : Prop :=
  ∀ head rest st, PassesHead bytes head rest st →
    if rest = [] then (finishLoad st.model).1 ≠ .ok
    else ∃ more tail, rest = more ++ tail ∧ FullBuffer more ∧ 0 ∉ more

theorem buffersOf_endedLines {lines : List Bytes}
    (h : ∀ line ∈ lines, ShortLine (edgeMaxLineLen - 1) line) (rest : Bytes) :
    buffersOf (endedLines lines ++ rest)
      = lines.map wholeLine ++ buffersOf rest :=
  chunks_endedLines h rest

/-- The head of an over-long line is a buffer of its own. -/
theorem buffersOf_full {head : Bytes} (h : FullBuffer head) (rest : Bytes) :
    buffersOf (head ++ rest) = ⟨head, false⟩ :: buffersOf rest :=
  chunks_full (by decide) h.length h.noNewline rest

/-- Up to the first buffer behind whole lines, every buffer starts a line. -/
theorem atLineStart_of_le {lines : List Bytes} {rest : Bytes}
    (h : ∀ line ∈ lines, ShortLine (edgeMaxLineLen - 1) line) {i : Nat} (hi : i ≤ lines.length) :
    AtLineStart (bytesBefore (endedLines lines ++ rest) i) := by
  have hbefore : bytesBefore (endedLines lines ++ rest) i = endedLines (lines.take i) := by
    rw [bytesBefore, buffersOf_endedLines h, List.take_append_of_le_length (by simpa using hi),
      ← List.map_take, List.flatMap_map]
    rfl
  rw [hbefore]
  exact atLineStart_endedLines _

theorem texts_buffersUpTo (lines : List Bytes) (head : Bytes) :
    (buffersUpTo lines head).map (fun chunk => lineText chunk.bytes)
      = lines.map lineText ++ [lineText head] := by
  rw [buffersUpTo, List.map_append, List.map_map]
  refine congrArg (· ++ _) (List.map_congr_left fun line _ => ?_)
  exact lineText_newline line

/-- Of these buffers the test can only refuse the last one. -/
theorem not_refused_buffersUpTo {lines : List Bytes}
    (h : ∀ line ∈ lines, ShortLine (edgeMaxLineLen - 1) line) {head : Bytes}
    (hhead : FullBuffer head) :
    (∀ chunk ∈ buffersUpTo lines head, ¬ RefusedAsLong chunk) ↔ 0 ∈ head := by
  -- the lines before are short; only the full buffer itself can be refused
  have hlast := refused_full_iff hhead.length hhead.noNewline
  constructor
  · intro hnone
    have htaken := hnone _ (List.mem_append_right _ (List.mem_singleton_self _))
    rwa [hlast, not_not] at htaken
  · intro hnul chunk hmem
    rw [buffersUpTo, List.mem_append, List.mem_map, List.mem_singleton] at hmem
    cases hmem with
    | inl hline =>
      obtain ⟨line, hline, rfl⟩ := hline
      exact not_refused_line (h line hline)
    | inr heq =>
      rw [heq, hlast, not_not]
      exact hnul

/-- The loop passes these buffers exactly if it accepts all their texts and the test overlooks the
last one. -/
theorem visit_buffersUpTo_iff {lines : List Bytes}
    (h : ∀ line ∈ lines, ShortLine (edgeMaxLineLen - 1) line) {head : Bytes}
    (hhead : FullBuffer head) (st : LoadState) :
    visit loadTurn 0 (buffersUpTo lines head) { model := {} } = (st, none) ↔
      0 ∈ head ∧ runTexts (lines.map lineText ++ [lineText head]) { model := {} } = some st := by
  rw [visit_loadTurn_iff, texts_buffersUpTo, not_refused_buffersUpTo h hhead]

/-- A loop that passes some buffers passes the first of them. -/
theorem visit_prefix {first buffers : List Chunk} (hfirst : first <+: buffers) {st' : LoadState}
    (h : visit loadTurn 0 buffers { model := {} } = (st', none)) :
    ∃ st, visit loadTurn 0 first { model := {} } = (st, none) := by
  obtain ⟨rest, rfl⟩ := hfirst
  obtain ⟨hnone, hrun⟩ := (visit_loadTurn_iff _ _ _ _).mp h
  rw [List.map_append, runTexts_append, Option.bind_eq_some_iff] at hrun
  obtain ⟨st, hrun, -⟩ := hrun
  exact ⟨st, (visit_loadTurn_iff _ _ _ _).mpr
    ⟨fun chunk hmem => hnone chunk (List.mem_append_left _ hmem), hrun⟩⟩

/-- A loop that gets to a buffer has passed the ones before it. -/
theorem Reaches.passes {bytes : Bytes} {i : Nat} {chunk : Chunk} (h : Reaches bytes i chunk)
    (first : List Chunk) (hfirst : first <+: buffersOf bytes) (hlen : first.length ≤ i) :
    ∃ st, visit loadTurn 0 first { model := {} } = (st, none) :=
  visit_prefix (List.prefix_take_iff.mpr ⟨hfirst, hlen⟩) (Prod.ext rfl h.before)

/-- The buffers of a file whose first over-long line begins with `head`. -/
theorem buffersOf_head {lines : List Bytes}
    (h : ∀ line ∈ lines, ShortLine (edgeMaxLineLen - 1) line) {head : Bytes}
    (hhead : FullBuffer head) (rest : Bytes) :
    buffersOf (endedLines lines ++ (head ++ rest)) = buffersUpTo lines head ++ buffersOf rest := by
  rw [buffersOf_endedLines h, buffersOf_full hhead, buffersUpTo, List.append_assoc]
  rfl

theorem length_buffersOf_last {line : Bytes} (h : ShortLine (edgeMaxLineLen - 1) line) :
    (buffersOf line).length ≤ 1 := by
  by_cases hempty : line = []
  · rw [hempty]
    exact Nat.zero_le 1
  · have hbuffers : buffersOf line = [⟨line, true⟩] := chunks_last h hempty
    rw [hbuffers]
    rfl

/-- What is stopped behind the head of an over-long line is stopped before a string that does not
start a line. -/
theorem StoppedBehindHead.starts {bytes : Bytes} (h : StoppedBehindHead bytes) {i : Nat}
    {chunk : Chunk} (hreach : Reaches bytes i chunk) (htaken : TakenAsLine chunk) :
    AtLineStart (bytesBefore bytes i) := by
  obtain ⟨lines, tail, hlines, rfl, hcases⟩ := exists_lines (edgeMaxLineLen - 1) bytes
  by_cases hi : i ≤ lines.length
  · exact atLineStart_of_le hlines hi
  exfalso
  obtain ⟨hlt, hget⟩ := List.getElem?_eq_some_iff.mp hreach.buffer
  cases hcases with
  | inl hshort =>
    have hlast := length_buffersOf_last hshort
    rw [buffersOf_endedLines hlines, List.length_append, List.length_map] at hlt
    omega
  | inr hlong =>
    obtain ⟨head, rest, rfl, hlength, hline⟩ := hlong
    have hhead : FullBuffer head := ⟨hlength, hline⟩
    have hbuffers := buffersOf_head hlines hhead rest
    obtain ⟨st, hvisit⟩ := hreach.passes (buffersUpTo lines head) ⟨buffersOf rest, hbuffers.symm⟩
      (by rw [length_buffersUpTo]; omega)
    obtain ⟨hnul, hrun⟩ := (visit_buffersUpTo_iff hlines hhead st).mp hvisit
    have hstop := h head rest st ⟨hhead, hnul, lines, hlines, rfl, hrun⟩
    split_ifs at hstop with hrest
    · have hnone : (buffersOf []).length = 0 := rfl
      rw [hbuffers, hrest, List.length_append, length_buffersUpTo, hnone] at hlt
      omega
    · obtain ⟨more, tail, rfl, hmore, hclean⟩ := hstop
      have hrefused := (refused_full_iff hmore.length hmore.noNewline).mpr hclean
      rw [buffersOf_full hmore] at hbuffers
      -- the buffer behind the head is either the one that is taken or one before it
      by_cases hnext : i = (buffersUpTo lines head).length
      · have hlast := hreach.buffer
        rw [hbuffers, hnext, List.getElem?_append_right le_rfl, Nat.sub_self] at hlast
        exact htaken (Option.some.inj hlast ▸ hrefused)
      · obtain ⟨st', hvisit'⟩ := hreach.passes (buffersUpTo lines head ++ [⟨more, false⟩])
          ⟨buffersOf tail, by rw [hbuffers, List.append_assoc]; rfl⟩
          (by
            rw [length_buffersUpTo] at hnext
            rw [List.length_append, length_buffersUpTo, List.length_singleton]
            omega)
        exact ((visit_loadTurn_iff _ _ _ _).mp hvisit').1 _
          (List.mem_append_right _ (List.mem_singleton_self _)) hrefused

/-- A line that is over-long is one of the lines of the file, and the other way around. -/
theorem exists_overlong {lines : List Bytes}
    (h : ∀ line ∈ lines, ShortLine (edgeMaxLineLen - 1) line) {head : Bytes}
    (hhead : FullBuffer head) (rest : Bytes) :
    ∃ line ∈ (endedLines lines ++ (head ++ rest)).splitOn newline,
      edgeMaxLineLen - 2 < line.length := by
  obtain ⟨line, hmem, hle⟩ := exists_splitOn_append hhead.noNewline rest
  rw [splitOn_endedLines fun line hline => (h line hline).noNewline]
  refine ⟨line, List.mem_append_right _ hmem, ?_⟩
  have hlength := hhead.length
  show 510 < line.length
  have hfull : edgeMaxLineLen - 1 = 511 := rfl
  omega

theorem not_overlong {lines : List Bytes} {tail : Bytes}
    (h : ∀ line ∈ lines, ShortLine (edgeMaxLineLen - 1) line)
    (htail : ShortLine (edgeMaxLineLen - 1) tail) :
    ¬ ∃ line ∈ (endedLines lines ++ tail).splitOn newline, edgeMaxLineLen - 2 < line.length := by
  rw [splitOn_endedLines fun line hline => (h line hline).noNewline,
    List.splitOn_eq_singleton htail.noNewline]
  rintro ⟨line, hmem, hlong⟩
  have hshort : ShortLine (edgeMaxLineLen - 1) line := by
    rw [List.mem_append, List.mem_singleton] at hmem
    exact hmem.elim (h line) fun heq => heq ▸ htail
  have hlength : line.length < 511 := hshort.length
  have hlong : 510 < line.length := hlong
  omega

/-- The loader that passes the last bytes of a file has read the model it goes on to validate. -/
theorem PassesHead.load_eq {bytes head : Bytes} {st : LoadState}
    (h : PassesHead bytes head [] st) : edgeConfigLoad (some bytes) {} = finishLoad st.model := by
  obtain ⟨lines, hlines, rfl, hrun⟩ := h.accepted
  have hvisit := (visit_buffersUpTo_iff hlines h.full st).mpr ⟨h.nul, hrun⟩
  have hbuffers := buffersOf_head hlines h.full []
  rw [show buffersOf [] = [] from rfl, List.append_nil (buffersUpTo lines head)] at hbuffers
  rw [← hbuffers] at hvisit
  exact edgeConfigLoad_done hvisit

/-- Where every passed head is stopped, a file with an over-long line is refused. -/
theorem StoppedBehindHead.overlong {bytes : Bytes} (h : StoppedBehindHead bytes)
    (hlong : ∃ line ∈ bytes.splitOn newline, edgeMaxLineLen - 2 < line.length) :
    (edgeConfigLoad (some bytes) {}).1 ≠ .ok := by
  intro hok
  obtain ⟨st, hloop, -⟩ := visit_of_ok hok
  change visit loadTurn 0 (buffersOf bytes) _ = _ at hloop
  obtain ⟨lines, tail, hlines, rfl, hcases⟩ := exists_lines (edgeMaxLineLen - 1) bytes
  -- the lines fit, or the first one that does not has a head
  cases hcases with
  | inl hshort => exact not_overlong hlines hshort hlong
  | inr hfull =>
    obtain ⟨head, rest, rfl, hlength, hline⟩ := hfull
    have hhead : FullBuffer head := ⟨hlength, hline⟩
    have hbuffers := buffersOf_head hlines hhead rest
    obtain ⟨st', hvisit⟩ := visit_prefix ⟨buffersOf rest, hbuffers.symm⟩ hloop
    obtain ⟨hnul, hrun⟩ := (visit_buffersUpTo_iff hlines hhead st').mp hvisit
    have hpass : PassesHead _ head rest st' := ⟨hhead, hnul, lines, hlines, rfl, hrun⟩
    have hstop := h head rest st' hpass
    split_ifs at hstop with hrest
    · subst hrest
      rw [hpass.load_eq] at hok
      exact hstop hok
    · -- the buffer behind the head is full and without a NUL, so it is refused
      obtain ⟨more, tail, rfl, hmore, hclean⟩ := hstop
      rw [buffersOf_full hmore] at hbuffers
      refine ((visit_loadTurn_iff _ _ _ _).mp hloop).1 ⟨more, false⟩ ?_
        ((refused_full_iff hmore.length hmore.noNewline).mpr hclean)
      rw [hbuffers]
      exact List.mem_append_right _ List.mem_cons_self

/-- What `fgets` delivers first is taken for a line, unless it is full and holds no NUL. -/
theorem first_buffer {bytes : Bytes} (hne : bytes ≠ []) :
    ∃ chunk more, buffersOf bytes = chunk :: more ∧
      (RefusedAsLong chunk → ∃ head tail, bytes = head ++ tail ∧ FullBuffer head ∧ 0 ∉ head) := by
  obtain ⟨lines, tail, hlines, rfl, hcases⟩ := exists_lines (edgeMaxLineLen - 1) bytes
  -- a whole line first, or else a short last line or a full buffer
  cases lines with
  | cons line lines =>
    refine ⟨wholeLine line, lines.map wholeLine ++ buffersOf tail, ?_, fun hlong => ?_⟩
    · rw [buffersOf_endedLines hlines, List.map_cons]
      rfl
    · exact absurd hlong (not_refused_line (hlines line List.mem_cons_self))
  | nil =>
    cases hcases with
    | inl hshort =>
      exact ⟨⟨tail, true⟩, [], chunks_last hshort hne, fun hlong =>
        absurd hlong (not_refused_last tail)⟩
    | inr hfull =>
      obtain ⟨head, rest, rfl, hlength, hline⟩ := hfull
      have hhead : FullBuffer head := ⟨hlength, hline⟩
      exact ⟨⟨head, false⟩, buffersOf rest, buffersOf_full hhead rest, fun hlong =>
        ⟨head, rest, rfl, hhead, (refused_full_iff hlength hline).mp hlong⟩⟩

/-- Right behind the head of an over-long line no line starts. -/
theorem not_atLineStart_head {lines : List Bytes}
    (h : ∀ line ∈ lines, ShortLine (edgeMaxLineLen - 1) line) {head : Bytes}
    (hhead : FullBuffer head) (rest : Bytes) :
    ¬ AtLineStart (bytesBefore (endedLines lines ++ (head ++ rest)) (lines.length + 1)) := by
  have hbefore : bytesBefore (endedLines lines ++ (head ++ rest)) (lines.length + 1)
      = endedLines lines ++ head := by
    rw [bytesBefore, buffersOf_head h hhead, List.take_left' (length_buffersUpTo lines head),
      buffersUpTo, List.flatMap_append, List.flatMap_map, List.flatMap_singleton]
    rfl
  have hne : head ≠ [] := by
    intro hnil
    have hlength := hhead.length
    rw [hnil] at hlength
    cases hlength
  rw [hbefore]
  -- what stands before is not empty and does not end in a newline
  rintro (hnil | hlast)
  · exact hne (List.append_eq_nil_iff.mp hnil).2
  · rw [List.getLast?_append_of_ne_nil _ hne] at hlast
    exact hhead.noNewline (List.mem_of_getLast? hlast)

/-- The other direction: what the loader reads behind a passed head would not start a line. -/
theorem StoppedBehindHead.of_seesLines {bytes : Bytes} (h : SeesLines TakenAsLine bytes) :
    StoppedBehindHead bytes := by
  intro head rest st hpass
  obtain ⟨lines, hlines, rfl, hrun⟩ := hpass.accepted
  split_ifs with hrest
  · subst hrest
    rw [← hpass.load_eq]
    exact h.overlong (exists_overlong hlines hpass.full [])
  · obtain ⟨chunk, more, hfirst, hrefused⟩ := first_buffer hrest
    have hbuffers := buffersOf_head hlines hpass.full rest
    have hreach : Reaches (endedLines lines ++ (head ++ rest)) (lines.length + 1) chunk := by
      constructor
      · rw [hbuffers, ← length_buffersUpTo lines head, List.getElem?_append_right le_rfl,
          Nat.sub_self, hfirst]
        rfl
      · rw [hbuffers, List.take_left' (length_buffersUpTo lines head),
          (visit_buffersUpTo_iff hlines hpass.full st).mpr ⟨hpass.nul, hrun⟩]
    -- the buffer behind a full one starts inside a line, so it must be the refused kind
    by_cases hlong : RefusedAsLong chunk
    · exact hrefused hlong
    · exact absurd (h.starts _ chunk hreach hlong) (not_atLineStart_head hlines hpass.full rest)

/-- **The loader sees the lines of the file and nothing else** exactly where it is stopped right
behind the head of an over-long line whenever it passes that head. -/
theorem sees_lines_iff (bytes : Bytes) :
    (SeesLines TakenAsLine bytes ↔ StoppedBehindHead bytes) ∧
      (StoppedBehindHead bytes → SeesLines Interpreted bytes) :=
  ⟨⟨StoppedBehindHead.of_seesLines, fun h => ⟨h.overlong, fun _ _ => h.starts⟩⟩,
    fun h => ⟨h.overlong, fun _ _ hreach hused => h.starts hreach hused.1⟩⟩

/-- A template with an over-long remark that holds a NUL and, 511 bytes on, a register. -/
def remarkTemplate : Bytes :=
  templateOf ["[plant]", "id=north", "name=North", "[asset]", "id=depot", "type=yard", "name=Depot",
      "[node]", "asset=depot", "id=gate", "name=Gate", "data_type=bool", "access=read_write",
      "source=modbus", "modbus_unit=1", "modbus_register=40001"] ++
    (lit "# the gate" ++ 0 :: List.replicate 500 120) ++ templateOf ["modbus_register=40010"]

/-- The template is accepted, and the node has the register of the remark. -/
theorem remark_read_as_key :
    (edgeConfigLoad (some remarkTemplate) {}).1 = .ok ∧
      (edgeConfigLoad (some remarkTemplate) {}).2.nodes.map (·.modbusRegister) = [40010] ∧
      (buffersOf remarkTemplate)[17]?.map (fun chunk => lineText chunk.bytes)
        = some (lit "modbus_register=40010") ∧
      bytesBefore remarkTemplate 17 ++ lit "modbus_register=40010" ++ [newline] = remarkTemplate ∧
      (bytesBefore remarkTemplate 17).getLast? = some 120 ∧
      ¬ SeesLines Interpreted remarkTemplate := by
  obtain ⟨hlong, hok, hregister, htext, hsplit, hlast⟩ :
      (∃ line ∈ remarkTemplate.splitOn newline, edgeMaxLineLen - 2 < line.length) ∧
      (edgeConfigLoad (some remarkTemplate) {}).1 = .ok ∧
      (edgeConfigLoad (some remarkTemplate) {}).2.nodes.map (·.modbusRegister) = [40010] ∧
      (buffersOf remarkTemplate)[17]?.map (fun chunk => lineText chunk.bytes)
        = some (lit "modbus_register=40010") ∧
      bytesBefore remarkTemplate 17 ++ lit "modbus_register=40010" ++ [newline] = remarkTemplate ∧
      (bytesBefore remarkTemplate 17).getLast? = some 120 := by
    decide +kernel
  -- the long line was accepted, which reading line by line forbids
  exact ⟨hok, hregister, htext, hsplit, hlast, fun h => h.overlong hlong hok⟩

end OpcuaEdge
