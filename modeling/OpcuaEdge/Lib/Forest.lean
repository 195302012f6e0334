import Mathlib.Order.WellFounded

/-!
# Forests given by a parent function

`parent` names the parent of every key that has one. It is `Rooted` if nothing is its own ancestor
and every chain of parents ends. A batch of keys that is rooted in itself may overwrite the parents
of its members: no mixture of old and new parents closes a circle, because a chain that has come
into the batch stays there.
-/

namespace Forest

variable {κ : Type*}

/-- `p` is the parent of `c`. -/
def ParentOf (parent : κ → Option κ) (p c : κ) : Prop := parent c = some p

/-- Going up from any node ends: there is no circle, and no endless chain. -/
def Rooted (parent : κ → Option κ) : Prop := WellFounded (ParentOf parent)

theorem rooted_none : Rooted fun _ : κ => none :=
  ⟨fun c => Acc.intro c fun _ h => nomatch h⟩

/-- Within the batch, parents are in the batch and have a smaller rank. -/
structure RootedBatch (parent : κ → Option κ) (batch : κ → Prop) (rank : κ → ℕ) : Prop where
  closed : ∀ c p, batch c → parent c = some p → batch p
  decreases : ∀ c p, batch c → parent c = some p → rank p < rank c

/-- Going up from an element of the batch ends. Induction on its rank: the parent has a lower one,
or is from before the batch. -/
theorem RootedBatch.acc {parent : κ → Option κ} {batch : κ → Prop} {rank : κ → ℕ}
    (h : RootedBatch parent batch rank) :
    ∀ (n : ℕ) (c : κ), batch c → rank c = n → Acc (ParentOf parent) c := by
  intro n
  induction n using Nat.strongRecOn with
  | _ n ih =>
    intro c hc hrank
    refine Acc.intro c fun p hp => ih (rank p) ?_ p (h.closed c p hc hp) rfl
    rw [← hrank]
    exact h.decreases c p hc hp

/-- **Overwriting the parents of a batch that is rooted in itself keeps a forest.** -/
theorem Rooted.overwrite {old new : κ → Option κ} (h : Rooted old) {batch : κ → Prop}
    {rank : κ → ℕ} (hbatch : RootedBatch new batch rank)
    (hothers : ∀ c, ¬ batch c → new c = old c) : Rooted new := by
  refine ⟨fun c => h.induction c fun c ih => ?_⟩
  by_cases hc : batch c
  · exact hbatch.acc (rank c) c hc rfl
  · refine Acc.intro c fun p hp => ih p ?_
    exact (hothers c hc).symm.trans hp

end Forest
