import Mathlib.Logic.Function.Basic
import Mathlib.Tactic.SplitIfs

/-!
# Scan cycles

A controller that mirrors remote cells. It shows a client an image of every cell; the client may
overwrite the image of a cell, which is then due. A cycle sends the cells that are due and reads all
of them back. Between cycles the remote side may move by itself.

What a client can rely on: the last value it wrote to a cell before a cycle is what the cycle sends,
whatever moved meanwhile (`run_delivers`); a cell that is not due is never written
(`cycle_remote_of_not_due`); and a cycle after a cycle changes nothing (`cycle_cycle`).
-/

namespace ScanCycle

variable {ι V R : Type*}

/-- How cells are written and read: `accepts` says which values a client may write. -/
structure Cells (ι V R : Type*) where
  accepts : ι → V → Bool
  encode : ι → V → R
  decode : ι → R → V

/-- What the remote side holds, what is shown of it, and what waits to be sent. -/
@[ext] structure State (ι V R : Type*) where
  remote : ι → R
  image : ι → V
  due : ι → Bool

/-- A client writes a cell, the remote side moves, or a cycle runs. -/
inductive Step (ι V R : Type*) where
  | write (i : ι) (v : V)
  | move (remote : ι → R)
  | cycle

/-- The remote cells after what is due was sent. -/
def sent (c : Cells ι V R) (s : State ι V R) (i : ι) : R :=
  if s.due i then c.encode i (s.image i) else s.remote i

/-- The client's write to cell `i`. -/
def written [DecidableEq ι] (c : Cells ι V R) (s : State ι V R) (i : ι) (v : V) : State ι V R :=
  if c.accepts i v then
    { s with image := Function.update s.image i v, due := Function.update s.due i true }
  else s

/-- A cycle sends what waits, and shows what it finds. -/
def cycled (c : Cells ι V R) (s : State ι V R) : State ι V R where
  remote := sent c s
  image i := c.decode i (sent c s i)
  due _ := false

/-- One step. -/
def step [DecidableEq ι] (c : Cells ι V R) (s : State ι V R) : Step ι V R → State ι V R
  | .write i v => written c s i v
  | .move remote => { s with remote }
  | .cycle => cycled c s

/-- A sequence of steps. -/
def run [DecidableEq ι] (c : Cells ι V R) (steps : List (Step ι V R)) (s : State ι V R) :
    State ι V R := steps.foldl (step c) s

/-- The step neither ends the cycle nor has a write to cell `i` accepted. -/
def Step.Leaves (c : Cells ι V R) (i : ι) : Step ι V R → Prop
  | .write j v => j = i → c.accepts j v = false
  | .move _ => True
  | .cycle => False

variable [DecidableEq ι] {c : Cells ι V R} {s : State ι V R} {i : ι}

/-- A step that leaves a cell alone keeps its image and what waits for it .. -/
theorem step_leaves {op : Step ι V R} (h : op.Leaves c i) :
    (step c s op).image i = s.image i ∧ (step c s op).due i = s.due i := by
  cases op with
  | move remote => exact ⟨rfl, rfl⟩
  | cycle => exact h.elim
  | write j v =>
    show (written c s j v).image i = s.image i ∧ (written c s j v).due i = s.due i
    unfold written
    split_ifs with haccepts
    · -- another cell was written
      have hne : i ≠ j := fun hij => by
        rw [h hij.symm] at haccepts
        cases haccepts
      exact ⟨Function.update_of_ne hne _ _, Function.update_of_ne hne _ _⟩
    · exact ⟨rfl, rfl⟩

/-- .. and so does a sequence of such steps. -/
theorem run_leaves {steps : List (Step ι V R)} (h : ∀ op ∈ steps, op.Leaves c i) :
    (run c steps s).image i = s.image i ∧ (run c steps s).due i = s.due i := by
  induction steps generalizing s with
  | nil => exact ⟨rfl, rfl⟩
  | cons op rest ih =>
    obtain ⟨hop, hrest⟩ := List.forall_mem_cons.mp h
    obtain ⟨himage, hdue⟩ := step_leaves (s := s) hop
    obtain ⟨himage', hdue'⟩ := ih (s := step c s op) hrest
    exact ⟨himage'.trans himage, hdue'.trans hdue⟩

/-- **The last value written before a cycle is what the cycle sends and shows**, however the remote
side moved meanwhile. -/
theorem run_delivers {v : V} (haccepts : c.accepts i v = true) {steps : List (Step ι V R)}
    (h : ∀ op ∈ steps, op.Leaves c i) :
    (run c (.write i v :: steps ++ [.cycle]) s).remote i = c.encode i v ∧
      (run c (.write i v :: steps ++ [.cycle]) s).image i = c.decode i (c.encode i v) := by
  have hwritten : (written c s i v).image i = v ∧ (written c s i v).due i = true := by
    unfold written
    rw [if_pos haccepts]
    exact ⟨Function.update_self _ _ _, Function.update_self _ _ _⟩
  obtain ⟨himage, hdue⟩ := run_leaves (s := step c s (.write i v)) h
  -- nothing in between touched the slot, so the cycle still sends what was written
  have hsent : sent c (run c steps (step c s (.write i v))) i = c.encode i v := by
    unfold sent
    rw [hdue, himage]
    show (if (written c s i v).due i = true then c.encode i ((written c s i v).image i) else _) = _
    rw [hwritten.1, hwritten.2, if_pos rfl]
  have hrun : run c (.write i v :: steps ++ [.cycle]) s =
      cycled c (run c steps (step c s (.write i v))) := by
    unfold run
    rw [List.foldl_append]
    rfl
  rw [hrun]
  exact ⟨hsent, congrArg (c.decode i) hsent⟩

omit [DecidableEq ι] in
/-- A cycle sends nothing to a cell for which nothing waits. -/
theorem cycle_remote_of_not_due (h : s.due i = false) : (cycled c s).remote i = s.remote i := by
  show sent c s i = s.remote i
  unfold sent
  rw [h]
  exact if_neg Bool.false_ne_true

omit [DecidableEq ι] in
/-- **A cycle after a cycle changes nothing.** -/
theorem cycle_cycle : cycled c (cycled c s) = cycled c s := by
  have hsent : sent c (cycled c s) = sent c s :=
    funext fun i => cycle_remote_of_not_due (c := c) (s := cycled c s) (i := i) rfl
  unfold cycled at hsent ⊢
  rw [hsent]

end ScanCycle
