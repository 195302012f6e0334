import OpcuaEdge.Lib.CString

/-!
# Files with arbitrary lines, read by `fgets`

A file is a sequence of lines that fit into the buffer, then either one more such line without its
newline or a line that does not fit (`exists_lines`). For each of the three `chunks` says what the
next call delivers: the line with its newline, the line with the end of the file, or as many bytes
as the buffer takes.
-/

namespace CStr

theorem terminated_append_of_mem {a : Bytes} (h : 0 ∈ a) (b : Bytes) :
    terminated (a ++ b) = terminated a := by
  unfold terminated
  rw [List.takeWhile_append, if_neg]
  intro hall
  have hself := List.takeWhile_eq_self_iff.mp
    ((List.takeWhile_prefix fun c : UInt8 => decide (c ≠ 0)).eq_of_length hall)
  exact of_decide_eq_true (hself 0 h) rfl

theorem terminated_of_not_mem {a : Bytes} (h : 0 ∉ a) : terminated a = a := by
  refine List.takeWhile_eq_self_iff.mpr fun c hc => decide_eq_true fun hzero => ?_
  rw [hzero] at hc
  exact h hc

theorem length_terminated_lt {a : Bytes} (h : 0 ∈ a) : (terminated a).length < a.length := by
  have hcut : terminated a <+: a := List.takeWhile_prefix _
  refine lt_of_le_of_ne hcut.length_le fun hlength => ?_
  have hself := List.takeWhile_eq_self_iff.mp (hcut.eq_of_length hlength)
  exact of_decide_eq_true (hself 0 h) rfl

/-! ## Lines of a file

A file is cut at its line feeds. Lines that end in one come first, and the last line is what is
left, which may be empty. -/

/-- A line that `fgets` delivers whole, with room for its newline. -/
structure ShortLine (n : Nat) (line : Bytes) : Prop where
  length : line.length < n
  noNewline : newline ∉ line

/-- Lines, each with its newline. -/
def endedLines (lines : List Bytes) : Bytes := lines.flatMap (· ++ [newline])

theorem endedLines_cons (line : Bytes) (lines : List Bytes) (rest : Bytes) :
    endedLines (line :: lines) ++ rest = line ++ newline :: (endedLines lines ++ rest) := by
  simp [endedLines]

/-- What follows the last newline before an over-long line is short, or begins with as many bytes as
fit. -/
theorem exists_lines (n : Nat) (bytes : Bytes) :
    ∃ lines tail, (∀ line ∈ lines, ShortLine n line) ∧ bytes = endedLines lines ++ tail ∧
      (ShortLine n tail ∨
        ∃ head rest, tail = head ++ rest ∧ head.length = n ∧ newline ∉ head) := by
  induction hlength : bytes.length using Nat.strong_induction_on generalizing bytes with
  | _ k ih =>
    let line := bytes.takeWhile (· ≠ newline)
    have hline : newline ∉ line := fun hmem => by
      have hne := List.mem_takeWhile_imp hmem
      exact of_decide_eq_true hne rfl
    have hsplit : line ++ bytes.dropWhile (· ≠ newline) = bytes :=
      List.takeWhile_append_dropWhile
    -- the first line fits, and the rest is shorter; or it is the head of a long line
    by_cases hfits : line.length < n
    · cases hrest : bytes.dropWhile (· ≠ newline) with
      | nil =>
        rw [hrest, List.append_nil] at hsplit
        exact ⟨[], bytes, by simp, rfl, .inl (hsplit ▸ ⟨hfits, hline⟩)⟩
      | cons c rest =>
        have hc : c = newline := by
          have hne : bytes.dropWhile (· ≠ newline) ≠ [] := by
            rw [hrest]
            exact List.cons_ne_nil _ _
          have hhead := List.head_dropWhile_not (fun c => decide (c ≠ newline)) hne
          simp only [hrest, List.head_cons] at hhead
          simpa using hhead
        rw [hrest, hc] at hsplit
        have hshorter : rest.length < k := by
          rw [← hlength, ← hsplit, List.length_append, List.length_cons]
          omega
        obtain ⟨lines, tail, hlines, htail, hcases⟩ := ih _ hshorter rest rfl
        refine ⟨line :: lines, tail, List.forall_mem_cons.mpr ⟨⟨hfits, hline⟩, hlines⟩, ?_, hcases⟩
        rw [endedLines_cons, ← htail, hsplit]
    · refine ⟨[], bytes, by simp, rfl, .inr ⟨line.take n, line.drop n ++
        bytes.dropWhile (· ≠ newline), ?_, ?_, fun hmem => hline (List.mem_of_mem_take hmem)⟩⟩
      · rw [← List.append_assoc, List.take_append_drop, hsplit]
      · rw [List.length_take]
        omega

theorem splitOn_endedLines {lines : List Bytes} (h : ∀ line ∈ lines, newline ∉ line)
    (rest : Bytes) :
    (endedLines lines ++ rest).splitOn newline = lines ++ rest.splitOn newline := by
  induction lines with
  | nil => rfl
  | cons line lines ih =>
    obtain ⟨hline, hlines⟩ := List.forall_mem_cons.mp h
    rw [endedLines_cons, List.splitOn_append_cons_self_of_not_mem hline, ih hlines]
    rfl

/-- What precedes the first newline belongs to one line. -/
theorem exists_splitOn_append {head : Bytes} (h : newline ∉ head) (rest : Bytes) :
    ∃ line ∈ (head ++ rest).splitOn newline, head.length ≤ line.length := by
  by_cases hrest : newline ∈ rest
  · obtain ⟨a, b, rfl, ha⟩ := List.eq_append_cons_of_mem hrest
    have hboth : newline ∉ head ++ a := by
      rw [List.mem_append]
      exact fun hmem => hmem.elim h ha
    refine ⟨head ++ a, ?_, by rw [List.length_append]; omega⟩
    rw [← List.append_assoc, List.splitOn_append_cons_self_of_not_mem hboth]
    exact List.mem_cons_self
  · have hboth : newline ∉ head ++ rest := by
      rw [List.mem_append]
      exact fun hmem => hmem.elim h hrest
    refine ⟨head ++ rest, ?_, by rw [List.length_append]; omega⟩
    rw [List.splitOn_eq_singleton hboth]
    exact List.mem_singleton_self _

/-! ## What the loop reads

`fgets` reads up to a line feed or until its buffer is full. The lemmas give one case each, then
the loop over them. -/

/-- Bytes without a newline that fit are delivered, and the call goes on behind them. -/
theorem fgets_skip {n : Nat} {line : Bytes} (hlen : line.length ≤ n) (hline : newline ∉ line)
    (rest : Bytes) :
    fgets n (line ++ rest) =
      (line ++ (fgets (n - line.length) rest).1, (fgets (n - line.length) rest).2) := by
  induction line generalizing n with
  | nil => rfl
  | cons c line ih =>
    obtain ⟨m, rfl⟩ : ∃ m, n = m + 1 := ⟨n - 1, by rw [List.length_cons] at hlen; omega⟩
    rw [List.mem_cons, not_or] at hline
    rw [List.cons_append, fgets, if_neg (Ne.symm hline.1),
      ih (Nat.le_of_succ_le_succ hlen) hline.2, List.length_cons, Nat.add_sub_add_right]
    rfl

/-- A line that fits is read with its line feed, and the end of the file is not noticed. -/
theorem fgets_line {n : Nat} {line : Bytes} (hlen : line.length < n) (hline : newline ∉ line)
    (rest : Bytes) : fgets n (line ++ newline :: rest) = (line ++ [newline], false, rest) := by
  obtain ⟨m, hm⟩ : ∃ m, n - line.length = m + 1 := ⟨n - line.length - 1, by omega⟩
  rw [fgets_skip hlen.le hline, hm, fgets, if_pos rfl]

/-- A last line without a line feed is read to the end of the file. -/
theorem fgets_last {n : Nat} {line : Bytes} (hlen : line.length < n) (hline : newline ∉ line) :
    fgets n line = (line, true, []) := by
  obtain ⟨m, hm⟩ : ∃ m, n - line.length = m + 1 := ⟨n - line.length - 1, by omega⟩
  have hread := fgets_skip hlen.le hline []
  rw [hm, fgets, List.append_nil] at hread
  exact hread

theorem fgets_full {n : Nat} {head : Bytes} (hlen : head.length = n) (hline : newline ∉ head)
    (rest : Bytes) : fgets n (head ++ rest) = (head, false, rest) := by
  rw [fgets_skip hlen.le hline, hlen, Nat.sub_self, fgets, List.append_nil]

theorem fgetsLoop_nil (n fuel : Nat) : fgetsLoop n fuel [] = [] := by
  have hread : (fgets n []).1 = [] := by cases n <;> rfl
  cases fuel with
  | zero => rfl
  | succ fuel =>
    rw [fgetsLoop]
    exact if_pos hread

theorem fgets_append (n : Nat) (bytes : Bytes) :
    (fgets n bytes).1 ++ (fgets n bytes).2.2 = bytes := by
  induction n, bytes using fgets.induct with
  | case1 rest => rfl
  | case2 n => rfl
  | case3 n rest => rw [fgets, if_pos rfl]; rfl
  | case4 n c rest hc ih =>
    rw [fgets, if_neg hc]
    exact congrArg (c :: ·) ih

/-- Something is read as long as something is left .. -/
theorem fgets_ne_nil {n : Nat} (hn : 0 < n) {bytes : Bytes} (h : bytes ≠ []) :
    (fgets n bytes).1 ≠ [] := by
  obtain ⟨m, rfl⟩ : ∃ m, n = m + 1 := ⟨n - 1, by omega⟩
  obtain ⟨c, rest, rfl⟩ := List.exists_cons_of_ne_nil h
  rw [fgets]
  split_ifs <;> exact List.cons_ne_nil _ _

/-- .. so that less is left, and the loop ends. -/
theorem length_fgets_rest {n : Nat} (hn : 0 < n) {bytes : Bytes} (h : bytes ≠ []) :
    (fgets n bytes).2.2.length < bytes.length := by
  have hpos := List.length_pos_iff.mpr (fgets_ne_nil hn h)
  have hsum := congrArg List.length (fgets_append n bytes)
  rw [List.length_append] at hsum
  omega

/-- The bytes `fgets` delivers hold a newline only at their end, and fewer of them than fit when
the file ended. -/
theorem fgets_spec (n : Nat) (bytes : Bytes) :
    newline ∉ (fgets n bytes).1.dropLast ∧ (fgets n bytes).1.length ≤ n ∧
      ((fgets n bytes).2.1 = true → (fgets n bytes).1.length < n) := by
  induction n, bytes using fgets.induct with
  | case1 rest => exact ⟨nofun, le_rfl, nofun⟩
  | case2 n => exact ⟨nofun, Nat.zero_le _, fun _ => Nat.succ_pos n⟩
  | case3 n rest =>
    rw [fgets, if_pos rfl]
    exact ⟨nofun, Nat.succ_le_succ (Nat.zero_le n), nofun⟩
  | case4 n c rest hc ih =>
    obtain ⟨hline, hle, hlast⟩ := ih
    rw [fgets, if_neg hc]
    refine ⟨fun hmem => ?_, Nat.succ_le_succ hle, fun heof => Nat.succ_lt_succ (hlast heof)⟩
    dsimp only at hmem
    -- what precedes the last byte is the byte that was read, and what precedes the last of the
    -- rest
    cases hrest : (fgets n rest).1 with
    | nil =>
      rw [hrest] at hmem
      cases hmem
    | cons d more =>
      rw [hrest, List.dropLast_cons_cons, ← hrest, List.mem_cons] at hmem
      rcases hmem with rfl | hmem
      · exact hc rfl
      · exact hline hmem

/-- Each chunk is what one `fgets` reads of some rest of the file. -/
theorem exists_fgets_of_mem (n : Nat) :
    ∀ (fuel : Nat) (bytes : Bytes) (chunk : Chunk), chunk ∈ fgetsLoop n fuel bytes →
      ∃ rest, chunk = ⟨(fgets n rest).1, (fgets n rest).2.1⟩ := by
  intro fuel
  induction fuel with
  | zero => intro bytes chunk hmem; cases hmem
  | succ fuel ih =>
    intro bytes chunk hmem
    rw [fgetsLoop] at hmem
    split_ifs at hmem
    · cases hmem
    · rcases List.mem_cons.mp hmem with rfl | hmem
      · exact ⟨bytes, rfl⟩
      · exact ih _ chunk hmem

/-- The loop makes the same turns for every bound that is large enough. -/
theorem fgetsLoop_eq {n : Nat} (hn : 0 < n) :
    ∀ (fuel : Nat) (bytes : Bytes), bytes.length ≤ fuel →
      fgetsLoop n fuel bytes = chunks n bytes := by
  -- the bound in `chunks` shrinks with the bytes, so compare two bounds
  suffices hboth : ∀ (fuel fuel' : Nat) (bytes : Bytes), bytes.length ≤ fuel →
      bytes.length ≤ fuel' → fgetsLoop n fuel bytes = fgetsLoop n fuel' bytes from
    fun fuel bytes hle => hboth fuel _ bytes hle le_rfl
  intro fuel
  induction fuel with
  | zero =>
    intro fuel' bytes hle _
    rw [List.length_eq_zero_iff.mp (Nat.le_zero.mp hle), fgetsLoop_nil, fgetsLoop_nil]
  | succ fuel ih =>
    intro fuel' bytes hle hle'
    by_cases hempty : bytes = []
    · rw [hempty, fgetsLoop_nil, fgetsLoop_nil]
    · have hpos := List.length_pos_iff.mpr hempty
      obtain ⟨fuel', rfl⟩ : ∃ m, fuel' = m + 1 := ⟨fuel' - 1, by omega⟩
      have hread := fgets_ne_nil hn hempty
      have hshorter := length_fgets_rest hn hempty
      rw [fgetsLoop, fgetsLoop, if_neg hread, if_neg hread, ih fuel' _ (by omega) (by omega)]

theorem chunks_nil (n : Nat) : chunks n [] = [] := rfl

theorem chunks_cons {n : Nat} (hn : 0 < n) {bytes : Bytes} (h : bytes ≠ []) :
    chunks n bytes = ⟨(fgets n bytes).1, (fgets n bytes).2.1⟩ :: chunks n (fgets n bytes).2.2 := by
  have hshorter := length_fgets_rest hn h
  have hpos := List.length_pos_iff.mpr h
  rw [← fgetsLoop_eq hn bytes.length bytes le_rfl,
    show bytes.length = (bytes.length - 1) + 1 by omega, fgetsLoop, if_neg (fgets_ne_nil hn h),
    fgetsLoop_eq hn _ _ (by omega)]

/-- A short last line is one chunk, at whose end the end of the file is noticed. -/
theorem chunks_last {n : Nat} {line : Bytes} (h : ShortLine n line) (hne : line ≠ []) :
    chunks n line = [⟨line, true⟩] := by
  have hn : 0 < n := lt_of_le_of_lt (Nat.zero_le _) h.length
  rw [chunks_cons hn hne, fgets_last h.length h.noNewline, chunks_nil]

/-- A line longer than the buffer is read in pieces, the first of them full. -/
theorem chunks_full {n : Nat} (hn : 0 < n) {head : Bytes} (hlen : head.length = n)
    (hline : newline ∉ head) (rest : Bytes) :
    chunks n (head ++ rest) = ⟨head, false⟩ :: chunks n rest := by
  have hne : head ++ rest ≠ [] := by
    intro hnil
    rw [(List.append_eq_nil_iff.mp hnil).1] at hlen
    exact absurd hlen hn.ne
  rw [chunks_cons hn hne, fgets_full hlen hline]

/-- Short lines are read one by one, each with its line feed. -/
theorem chunks_endedLines {n : Nat} {lines : List Bytes} (h : ∀ line ∈ lines, ShortLine n line)
    (rest : Bytes) :
    chunks n (endedLines lines ++ rest)
      = lines.map (fun line => ⟨line ++ [newline], false⟩) ++ chunks n rest := by
  induction lines with
  | nil => rfl
  | cons line lines ih =>
    obtain ⟨hline, hlines⟩ := List.forall_mem_cons.mp h
    have hn : 0 < n := lt_of_le_of_lt (Nat.zero_le _) hline.length
    rw [endedLines_cons, chunks_cons hn (by simp), fgets_line hline.length hline.noNewline]
    exact congrArg (List.cons _) (ih hlines)

/-- **Short lines** that newlines separate are delivered one by one. -/
theorem chunks_joinLines {n : Nat} {lines : List Bytes} (h : ∀ line ∈ lines, ShortLine n line) :
    chunks n (joinLines lines) = lineChunks lines := by
  induction lines with
  | nil => rfl
  | cons line rest ih =>
    obtain ⟨hline, hrest⟩ := List.forall_mem_cons.mp h
    -- only the last line comes without a newline, and an empty one is no buffer
    cases rest with
    | nil =>
      show chunks n line = if line = [] then [] else [⟨line, true⟩]
      split_ifs with hempty
      · rw [hempty, chunks_nil]
      · exact chunks_last hline hempty
    | cons next rest =>
      have hn : 0 < n := lt_of_le_of_lt (Nat.zero_le _) hline.length
      show chunks n (line ++ newline :: joinLines (next :: rest)) = _
      rw [chunks_cons hn (by simp), fgets_line hline.length hline.noNewline, ih hrest]
      rfl

end CStr
