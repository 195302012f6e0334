import Mathlib.Data.List.Basic
import Mathlib.Data.Sum.Basic

/-!
# `while` loops

One turn of a `while` either leaves the loop with a result or goes on in another state. `While` is
the run of such a loop to its end, with the states it went on from; a loop that never ends has no
run. A run is unique (`While.unique`), and there is one wherever a variant decreases
(`exists_while`).
-/

namespace CLoop

variable {σ ρ : Type*} {turn : σ → ρ ⊕ σ}

/-- The loop, entered in a state, makes its turns in the listed ones and ends with a result. -/
inductive While (turn : σ → ρ ⊕ σ) : σ → List σ → ρ → Prop
  | leave {s r} (h : turn s = .inl r) : While turn s [] r
  | next {s s' visited r} (h : turn s = .inr s') (hrest : While turn s' visited r) :
      While turn s (s :: visited) r

theorem While.unique {s : σ} {visited visited' : List σ} {r r' : ρ} (h : While turn s visited r)
    (h' : While turn s visited' r') : visited = visited' ∧ r = r' := by
  induction h generalizing visited' with
  | leave hturn =>
    cases h' with
    | leave hturn' => exact ⟨rfl, Sum.inl.inj (hturn.symm.trans hturn')⟩
    | next hturn' _ => cases hturn.symm.trans hturn'
  | next hturn _ ih =>
    cases h' with
    | leave hturn' => cases hturn.symm.trans hturn'
    | next hturn' hrest' =>
      cases hturn.symm.trans hturn'
      obtain ⟨hvisited, hr⟩ := ih hrest'
      exact ⟨congrArg _ hvisited, hr⟩

/-- The loop goes on from every state it visits. -/
theorem While.goes_on {s : σ} {visited : List σ} {r : ρ} (h : While turn s visited r) :
    ∀ t ∈ visited, ∃ t', turn t = .inr t' := by
  induction h with
  | leave _ => exact List.forall_mem_nil _
  | next h _ ih => exact List.forall_mem_cons.mpr ⟨⟨_, h⟩, ih⟩

/-- **The rule for `while`**: a loop whose turns keep an invariant and decrease a variant ends. The
variant decreases from one visited state to the next, so there are no more turns than its value at
the start. -/
theorem exists_while (Inv : σ → Prop) (variant : σ → Nat)
    (hturn : ∀ s s', Inv s → turn s = .inr s' → Inv s' ∧ variant s' < variant s) :
    ∀ s, Inv s → ∃ visited r, While turn s visited r ∧
      (∀ t ∈ visited, Inv t ∧ variant t ≤ variant s) ∧
      visited.Pairwise (fun t t' => variant t' < variant t) ∧ visited.length ≤ variant s := by
  intro s
  -- on the variant, which every turn that goes on makes smaller
  induction hn : variant s using Nat.strongRecOn generalizing s with
  | ind n ih =>
    intro hs
    cases h : turn s with
    | inl r => exact ⟨[], r, .leave h, List.forall_mem_nil _, List.Pairwise.nil, Nat.zero_le _⟩
    | inr s' =>
      obtain ⟨hs', hlt⟩ := hturn s s' hs h
      obtain ⟨visited, r, hrun, hvisited, hpairwise, hlength⟩ := ih _ (hn ▸ hlt) s' rfl hs'
      refine ⟨s :: visited, r, .next h hrun, ?_, ?_, ?_⟩
      · refine List.forall_mem_cons.mpr ⟨⟨hs, Nat.le_of_eq hn⟩, fun t ht => ?_⟩
        have hle := (hvisited t ht).2
        exact ⟨(hvisited t ht).1, by omega⟩
      · refine List.Pairwise.cons (fun t ht => ?_) hpairwise
        exact Nat.lt_of_le_of_lt (hvisited t ht).2 hlt
      · rw [List.length_cons]
        omega

/-- What every turn keeps holds where the loop is left. -/
theorem While.leaves {s : σ} {visited : List σ} {r : ρ} (h : While turn s visited r)
    (Inv : σ → Prop) (hturn : ∀ s s', Inv s → turn s = .inr s' → Inv s') (hs : Inv s) :
    ∃ t, Inv t ∧ turn t = .inl r := by
  induction h with
  | leave h => exact ⟨_, hs, h⟩
  | next h _ ih => exact ih (hturn _ _ hs h)

/-- What every turn keeps, with the states visited so far at hand. -/
theorem While.traced {s : σ} {visited : List σ} {r : ρ} (h : While turn s visited r)
    (Inv : List σ → σ → Prop)
    (hturn : ∀ before s s', Inv before s → turn s = .inr s' → Inv (before ++ [s]) s') :
    ∀ before, Inv before s → ∃ t, Inv (before ++ visited) t ∧ turn t = .inl r := by
  induction h with
  | leave h =>
    intro before hs
    exact ⟨_, by rwa [List.append_nil], h⟩
  | next h _ ih =>
    intro before hs
    obtain ⟨t, ht, hleave⟩ := ih _ (hturn before _ _ hs h)
    rw [List.append_assoc] at ht
    exact ⟨t, ht, hleave⟩

end CLoop
