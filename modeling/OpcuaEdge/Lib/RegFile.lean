import Mathlib.Data.List.Pairwise
import Mathlib.Tactic.SplitIfs

/-!
# Banks of registers

A `RegFile` maps a bank and an address to a register. `read` and `write` move a run of registers
at once. Two slots that do not overlap do not see each other's writes, so a batch of writes to
pairwise disjoint slots leaves in each slot what was written there (`read_writeAll_mem`) and
everything else as it was (`read_writeAll_of_apart`). A run that overlaps a slot sees the write
(`exists_read_write_of_not_apart`).
-/

/-- Registers of type `ω` in banks named by `κ`. -/
def RegFile (κ ω : Type*) := κ → Int → ω

namespace RegFile

variable {κ ω : Type*}

/-- A run of registers and the values to go there. -/
structure Slot (κ ω : Type*) where
  bank : κ
  start : Int
  values : List ω

/-- `n` registers from `start` on lie apart from the slot. -/
def Slot.Apart (slot : Slot κ ω) (bank : κ) (start : Int) (n : Nat) : Prop :=
  slot.bank = bank → slot.start + slot.values.length ≤ start ∨ start + n ≤ slot.start

/-- A run of registers. -/
def read (m : RegFile κ ω) (bank : κ) (start : Int) (n : Nat) : List ω :=
  (List.range n).map fun k : Nat => m bank (start + k)

@[simp] theorem length_read (m : RegFile κ ω) (bank : κ) (start : Int) (n : Nat) :
    (m.read bank start n).length = n := by
  simp [read]

variable [DecidableEq κ]

/-- The registers of a slot are replaced by its values. -/
def write (m : RegFile κ ω) (slot : Slot κ ω) : RegFile κ ω := fun bank a =>
  if bank = slot.bank ∧ slot.start ≤ a then
    (slot.values[(a - slot.start).toNat]?).getD (m bank a)
  else m bank a

/-- What was written is read back. -/
theorem read_write_self (m : RegFile κ ω) (slot : Slot κ ω) :
    (m.write slot).read slot.bank slot.start slot.values.length = slot.values := by
  refine List.ext_getElem (by simp) fun k hk hk' => ?_
  have hle : slot.start ≤ slot.start + (k : Int) := by omega
  have hindex : (slot.start + (k : Int) - slot.start).toNat = k := by omega
  simp only [read, write, List.getElem_map, List.getElem_range, hle, hindex, and_self, if_true,
    List.getElem?_eq_getElem hk', Option.getD_some]

/-- A write is not seen apart from its slot. -/
theorem read_write_of_apart (m : RegFile κ ω) {slot : Slot κ ω} {bank : κ} {start : Int} {n : Nat}
    (h : slot.Apart bank start n) : (m.write slot).read bank start n = m.read bank start n := by
  refine List.map_congr_left fun k hk => ?_
  rw [List.mem_range] at hk
  unfold write
  split_ifs with hin
  · -- inside the bank and not below the slot, so the run lies behind it
    rcases h hin.1.symm with hbehind | hbefore
    · rw [List.getElem?_eq_none (by omega), Option.getD_none]
    · omega
  · rfl

/-- A run of registers that does not lie apart from the slot shows one of the values written. -/
theorem exists_read_write_of_not_apart (m : RegFile κ ω) {slot : Slot κ ω} {bank : κ} {start : Int}
    {n : Nat} (hn : 0 < n) (hvalues : 0 < slot.values.length) (h : ¬ slot.Apart bank start n) :
    ∃ k : Nat, ∃ v ∈ slot.values, ((m.write slot).read bank start n)[k]? = some v := by
  unfold Slot.Apart at h
  simp only [Classical.not_imp, not_or, Int.not_le] at h
  obtain ⟨hbank, hend, hbegin⟩ := h
  -- the later of the two starts lies in both runs
  obtain ⟨a, hslot, hslotEnd, hrun, hrunEnd⟩ : ∃ a : Int, slot.start ≤ a ∧
      a < slot.start + slot.values.length ∧ start ≤ a ∧ a < start + n :=
    ⟨max slot.start start, by omega, by omega, by omega, by omega⟩
  have hindex : (a - slot.start).toNat < slot.values.length := by omega
  refine ⟨(a - start).toNat, slot.values[(a - slot.start).toNat], List.getElem_mem hindex, ?_⟩
  have hat : start + ((a - start).toNat : Int) = a := by omega
  have hlt : (a - start).toNat < n := by omega
  rw [read, List.getElem?_map, List.getElem?_range hlt, Option.map_some, hat, ← hbank, write,
    if_pos ⟨rfl, hslot⟩, List.getElem?_eq_getElem hindex, Option.getD_some]

/-- A batch of writes, in order. -/
def writeAll (m : RegFile κ ω) (slots : List (Slot κ ω)) : RegFile κ ω := slots.foldl write m

/-- Writing slots that are apart from a run does not show in it. -/
theorem read_writeAll_of_apart (m : RegFile κ ω) {slots : List (Slot κ ω)} {bank : κ}
    {start : Int} {n : Nat} (h : ∀ slot ∈ slots, slot.Apart bank start n) :
    (m.writeAll slots).read bank start n = m.read bank start n := by
  induction slots generalizing m with
  | nil => rfl
  | cons slot rest ih =>
    obtain ⟨hslot, hrest⟩ := List.forall_mem_cons.mp h
    exact (ih (m.write slot) hrest).trans (read_write_of_apart m hslot)

/-- **Each slot of a batch of disjoint writes holds what was written there.** -/
theorem read_writeAll_mem (m : RegFile κ ω) {slots : List (Slot κ ω)}
    (h : slots.Pairwise fun a b => b.Apart a.bank a.start a.values.length) {slot : Slot κ ω}
    (hmem : slot ∈ slots) :
    (m.writeAll slots).read slot.bank slot.start slot.values.length = slot.values := by
  induction slots generalizing m with
  | nil => cases hmem
  | cons first rest ih =>
    obtain ⟨hfirst, hrest⟩ := List.pairwise_cons.mp h
    rcases List.mem_cons.mp hmem with rfl | hmem
    · exact (read_writeAll_of_apart (m.write slot) hfirst).trans (read_write_self m slot)
    · exact ih (m.write first) hrest hmem

end RegFile

