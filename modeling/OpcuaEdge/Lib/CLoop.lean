import Mathlib.Data.List.Basic
import Mathlib.Data.List.Forall2
import Mathlib.Data.List.Induction
import Mathlib.Tactic.Linarith

/-!
# Counted loops over an array, with early return

A C loop `for(i = 0; i < count; i++)` over an array of records does three things per turn: it
rewrites the record at `i`, it updates the variables around the loop, and it may leave the
enclosing function with a `return`. `sweep` is that loop over the list of the array's live
elements; `visit` is the read-only variant. Both hand the index to the body and stop at the
first turn that exits, leaving the elements after it as they were.

The rules below are what the proofs of a loop need: what one turn preserves, the whole loop
preserves (`sweep_state`, `visit_state`), and a loop that ran to its end ran its body on every
element (`sweep_complete`).

* `sweep_simulates` relates two loops turn by turn, and `sweep_eq_map` a loop to the map of its
  body, where no turn exits;
* `sweep_map_inverse` undoes such a map with another one;
* `visit_log` is for bodies that make a call in every turn: the calls are those of the elements, up
  to the first that fails.
-/

namespace CLoop

variable {ρ α σ : Type*}

/-- What one turn of a loop body leaves behind: the element as rewritten, the surrounding
state, and `exit = some r` when the turn ended in `return r`. -/
structure Turn (ρ α σ : Type*) where
  elem : α
  state : σ
  exit : Option ρ := none

/-- The loop over a list of elements, the first of which has index `i`. -/
def sweep (body : Nat → α → σ → Turn ρ α σ) : Nat → List α → σ → Turn ρ (List α) σ
  | _, [], s => { elem := [], state := s }
  | i, a :: rest, s =>
    let t := body i a s
    match t.exit with
    | some r => { elem := t.elem :: rest, state := t.state, exit := some r }
    | none =>
      let u := sweep body (i + 1) rest t.state
      { elem := t.elem :: u.elem, state := u.state, exit := u.exit }

/-- The loop that only reads its elements. -/
def visit (body : Nat → α → σ → σ × Option ρ) : Nat → List α → σ → σ × Option ρ
  | _, [], s => (s, none)
  | i, a :: rest, s =>
    let t := body i a s
    match t.2 with
    | some r => (t.1, some r)
    | none => visit body (i + 1) rest t.1

/-! ## Unfolding equations

A loop by its first turn: it ends the loop, or the rest follows. -/

section Sweep

variable {body : Nat → α → σ → Turn ρ α σ}

@[simp] theorem sweep_nil (i : Nat) (s : σ) :
    sweep body i [] s = { elem := [], state := s } := rfl

theorem sweep_cons_exit {i : Nat} {a : α} {rest : List α} {s : σ} {r : ρ}
    (h : (body i a s).exit = some r) :
    sweep body i (a :: rest) s
      = { elem := (body i a s).elem :: rest, state := (body i a s).state, exit := some r } := by
  rw [sweep]
  simp only [h]

theorem sweep_cons_next {i : Nat} {a : α} {rest : List α} {s : σ}
    (h : (body i a s).exit = none) :
    sweep body i (a :: rest) s
      = { elem := (body i a s).elem :: (sweep body (i + 1) rest (body i a s).state).elem
          state := (sweep body (i + 1) rest (body i a s).state).state
          exit := (sweep body (i + 1) rest (body i a s).state).exit } := by
  rw [sweep]
  simp only [h]

/-! ## What every turn preserves

The rules of induction for loops. A property that every turn preserves is one of the whole loop, of
its state, of its elements or of its end. -/

/-- A property of the surrounding state that the turn of every element preserves holds after the
loop. -/
theorem sweep_state_mem (Inv : σ → Prop) :
    ∀ (l : List α), (∀ i, ∀ a ∈ l, ∀ s, Inv s → Inv (body i a s).state) →
      ∀ (i : Nat) (s : σ), Inv s → Inv (sweep body i l s).state := by
  intro l
  induction l with
  | nil => intro _ i s hs; exact hs
  | cons a rest ih =>
    intro hbody i s hs
    have ha := hbody i a List.mem_cons_self s hs
    cases hexit : (body i a s).exit with
    | some r => rw [sweep_cons_exit hexit]; exact ha
    | none =>
      rw [sweep_cons_next hexit]
      exact ih (fun i b hb => hbody i b (List.mem_cons_of_mem _ hb)) (i + 1) _ ha

/-- A property of the surrounding state that every turn preserves holds after the loop. -/
theorem sweep_state (Inv : σ → Prop)
    (hbody : ∀ i a s, Inv s → Inv (body i a s).state) (l : List α) (i : Nat) (s : σ)
    (hs : Inv s) : Inv (sweep body i l s).state :=
  sweep_state_mem Inv l (fun i a _ => hbody i a) i s hs

/-- A property that the turns which go on preserve holds after a loop that ran to its end; after one
that was left early, what its last turn establishes does. -/
theorem sweep_cases (Inv Out : σ → Prop)
    (hnext : ∀ i a s, Inv s → (body i a s).exit = none → Inv (body i a s).state)
    (hout : ∀ i a s r, Inv s → (body i a s).exit = some r → Out (body i a s).state) :
    ∀ (l : List α) (i : Nat) (s : σ), Inv s →
      Inv (sweep body i l s).state ∨ Out (sweep body i l s).state := by
  intro l
  induction l with
  | nil => intro i s hs; exact .inl hs
  | cons a rest ih =>
    intro i s hs
    cases hexit : (body i a s).exit with
    | some r => rw [sweep_cons_exit hexit]; exact .inr (hout i a s r hs hexit)
    | none => rw [sweep_cons_next hexit]; exact ih (i + 1) _ (hnext i a s hs hexit)

/-- A projection of the elements that every turn keeps is kept by the loop. -/
theorem sweep_map {β : Type*} (f : α → β) (hbody : ∀ i a s, f (body i a s).elem = f a) :
    ∀ (l : List α) (i : Nat) (s : σ), (sweep body i l s).elem.map f = l.map f := by
  intro l
  induction l with
  | nil => intro i s; rfl
  | cons a rest ih =>
    intro i s
    cases hexit : (body i a s).exit with
    | some r => rw [sweep_cons_exit hexit, List.map_cons, List.map_cons, hbody]
    | none => rw [sweep_cons_next hexit, List.map_cons, List.map_cons, hbody, ih]

/-- A property of the elements that every turn preserves holds of all of them after the loop. -/
theorem sweep_forall (P : α → Prop) (hbody : ∀ i a s, P a → P (body i a s).elem) :
    ∀ (l : List α) (i : Nat) (s : σ), (∀ a ∈ l, P a) → ∀ a ∈ (sweep body i l s).elem, P a := by
  intro l
  induction l with
  | nil => intro i s _ a ha; cases ha
  | cons b rest ih =>
    intro i s hl
    obtain ⟨hb, hrest⟩ := List.forall_mem_cons.mp hl
    cases hexit : (body i b s).exit with
    | some r =>
      rw [sweep_cons_exit hexit]
      exact List.forall_mem_cons.mpr ⟨hbody i b s hb, hrest⟩
    | none =>
      rw [sweep_cons_next hexit]
      exact List.forall_mem_cons.mpr ⟨hbody i b s hb, ih (i + 1) _ hrest⟩

theorem length_sweep (body : Nat → α → σ → Turn ρ α σ) (l : List α) (i : Nat) (s : σ) :
    (sweep body i l s).elem.length = l.length := by
  have hmap : (sweep body i l s).elem.map (fun _ => ()) = l.map fun _ => () :=
    sweep_map (fun _ => ()) (fun _ _ _ => rfl) l i s
  simpa using congrArg List.length hmap

/-- A loop exits only with what one of its turns exits with. -/
theorem sweep_exit (Q : ρ → Prop) (hbody : ∀ i a s r, (body i a s).exit = some r → Q r) :
    ∀ (l : List α) (i : Nat) (s : σ) (r : ρ), (sweep body i l s).exit = some r → Q r := by
  intro l
  induction l with
  | nil => intro i s r h; cases h
  | cons a rest ih =>
    intro i s r h
    cases hexit : (body i a s).exit with
    | some r' =>
      rw [sweep_cons_exit hexit] at h
      cases h
      exact hbody i a s r hexit
    | none =>
      rw [sweep_cons_next hexit] at h
      exact ih (i + 1) _ r h

/-- **A loop that ran to its end ran its body on every element.** The `k`-th element of the
result is what the body made of the `k`-th element, in a turn that did not exit. -/
theorem sweep_complete :
    ∀ (l : List α) (i : Nat) (s : σ), (sweep body i l s).exit = none →
      ∀ (k : Nat) (a : α), l[k]? = some a →
        ∃ t, (body (i + k) a t).exit = none
          ∧ (sweep body i l s).elem[k]? = some (body (i + k) a t).elem := by
  intro l
  induction l with
  | nil => intro i s _ k a hk; simp at hk
  | cons b rest ih =>
    intro i s hdone k a hk
    cases hexit : (body i b s).exit with
    | some r => rw [sweep_cons_exit hexit] at hdone; cases hdone
    | none =>
      rw [sweep_cons_next hexit] at hdone ⊢
      -- the element is the first one, or one of the rest
      cases k with
      | zero =>
        simp only [List.getElem?_cons_zero, Option.some.injEq] at hk
        subst hk
        exact ⟨s, hexit, rfl⟩
      | succ k =>
        rw [List.getElem?_cons_succ] at hk
        obtain ⟨t, ht, hget⟩ := ih (i + 1) _ hdone k a hk
        rw [show i + 1 + k = i + (k + 1) from by omega] at ht hget
        exact ⟨t, ht, by rw [List.getElem?_cons_succ]; exact hget⟩

/-- The same, read from the result: every element of it was made by a turn that did not exit. -/
theorem exists_of_sweep_complete {l : List α} {i : Nat} {s : σ}
    (hdone : (sweep body i l s).exit = none) {k : Nat} {b : α}
    (hget : (sweep body i l s).elem[k]? = some b) :
    ∃ a t, l[k]? = some a ∧ (body (i + k) a t).exit = none ∧ b = (body (i + k) a t).elem := by
  have hk : k < l.length := by
    rw [← length_sweep body l i s]
    exact (List.getElem?_eq_some_iff.mp hget).1
  obtain ⟨t, hexit, helem⟩ := sweep_complete l i s hdone k _ (List.getElem?_eq_getElem hk)
  exact ⟨_, t, List.getElem?_eq_getElem hk, hexit, Option.some.inj (hget.symm.trans helem)⟩

/-- A property of the surrounding state that the turns which go on preserve holds after a loop that
ran to its end. -/
theorem sweep_state_complete (Inv : σ → Prop)
    (hbody : ∀ i a s, Inv s → (body i a s).exit = none → Inv (body i a s).state) :
    ∀ (l : List α) (i : Nat) (s : σ), Inv s → (sweep body i l s).exit = none →
      Inv (sweep body i l s).state := by
  intro l
  induction l with
  | nil => intro i s hs _; exact hs
  | cons a rest ih =>
    intro i s hs hdone
    cases hexit : (body i a s).exit with
    | some r =>
      rw [sweep_cons_exit hexit] at hdone
      cases hdone
    | none =>
      rw [sweep_cons_next hexit] at hdone ⊢
      exact ih (i + 1) _ (hbody i a s hs hexit) hdone

/-- A loop that, as long as `Inv` holds of its state, keeps `Inv`, never exits and rewrites every
element by `f`, is a map. -/
theorem sweep_eq_map (body : Nat → α → σ → Turn ρ α σ) (f : α → α) (Inv : σ → Prop) :
    ∀ (l : List α) (i : Nat) (s : σ), Inv s →
      (∀ a ∈ l, ∀ i s, Inv s →
        (body i a s).exit = none ∧ (body i a s).elem = f a ∧ Inv (body i a s).state) →
      (sweep body i l s).exit = none ∧ (sweep body i l s).elem = l.map f
        ∧ Inv (sweep body i l s).state := by
  intro l
  induction l with
  | nil => intro i s hs _; exact ⟨rfl, rfl, hs⟩
  | cons a rest ih =>
    intro i s hs h
    obtain ⟨ha, hrest⟩ := List.forall_mem_cons.mp h
    obtain ⟨hexit, helem, hstate⟩ := ha i s hs
    obtain ⟨hexit', helem', hstate'⟩ := ih (i + 1) (body i a s).state hstate hrest
    rw [sweep_cons_next hexit]
    exact ⟨hexit', by rw [helem', helem, List.map_cons], hstate'⟩

/-- A loop whose turns, as long as `Inv` holds of its state, go on exactly for the elements with
`P`, runs to its end exactly if all elements have `P`. -/
theorem sweep_exit_none_iff (Inv : σ → Prop) (P : α → Prop) :
    ∀ (l : List α),
      (∀ i, ∀ a ∈ l, ∀ s, Inv s →
        ((body i a s).exit = none ↔ P a) ∧ Inv (body i a s).state) →
      ∀ (i : Nat) (s : σ), Inv s → ((sweep body i l s).exit = none ↔ ∀ a ∈ l, P a) := by
  intro l
  induction l with
  | nil => intro _ i s _; exact iff_of_true rfl (List.forall_mem_nil _)
  | cons a rest ih =>
    intro hbody i s hs
    obtain ⟨hgoes, hstate⟩ := hbody i a List.mem_cons_self s hs
    rw [List.forall_mem_cons, ← hgoes]
    -- an exit here is an element that fails P, and the rest is not reached
    cases hexit : (body i a s).exit with
    | some r =>
      rw [sweep_cons_exit hexit]
      exact iff_of_false nofun (fun h => nomatch h.1)
    | none =>
      have hrest := ih (fun i b hb => hbody i b (List.mem_cons_of_mem _ hb)) (i + 1) _ hstate
      rw [sweep_cons_next hexit, hrest]
      exact (and_iff_right rfl).symm

/-- A relation between every element and what its turn makes of it. -/
theorem sweep_forall₂ (Inv : σ → Prop) (R : α → α → Prop) (hrefl : ∀ a, R a a) :
    ∀ (l : List α),
      (∀ i, ∀ a ∈ l, ∀ s, Inv s → Inv (body i a s).state ∧ R a (body i a s).elem) →
      ∀ (i : Nat) (s : σ), Inv s → List.Forall₂ R l (sweep body i l s).elem := by
  intro l
  induction l with
  | nil => intro _ i s _; exact .nil
  | cons a rest ih =>
    intro hbody i s hs
    obtain ⟨hstate, helem⟩ := hbody i a List.mem_cons_self s hs
    cases hexit : (body i a s).exit with
    | some r =>
      rw [sweep_cons_exit hexit]
      -- the elements behind the exit are untouched, which hrefl covers
      exact .cons helem (List.forall₂_same.mpr fun b _ => hrefl b)
    | none =>
      rw [sweep_cons_next hexit]
      exact .cons helem (ih (fun i b hb => hbody i b (List.mem_cons_of_mem _ hb)) (i + 1) _ hstate)

/-- A loop that rewrites every `g b` to `b` and never exits gives back what `g` was mapped over. -/
theorem sweep_map_inverse (g : α → α) :
    ∀ (l : List α) (i : Nat) (s : σ),
      (∀ k b, l[k]? = some b → ∀ s,
        (body (i + k) (g b) s).exit = none ∧ (body (i + k) (g b) s).elem = b) →
      (sweep body i (l.map g) s).exit = none ∧ (sweep body i (l.map g) s).elem = l := by
  intro l
  induction l with
  | nil => intro i s _; exact ⟨rfl, rfl⟩
  | cons b rest ih =>
    intro i s hbody
    obtain ⟨hexit, helem⟩ := hbody 0 b rfl s
    rw [Nat.add_zero] at hexit helem
    -- the index of the body moves on with the list
    obtain ⟨hexit', helem'⟩ := ih (i + 1) (body i (g b) s).state fun k c hget t => by
      rw [show i + 1 + k = i + (k + 1) from by omega]
      exact hbody (k + 1) c hget t
    rw [List.map_cons, sweep_cons_next hexit]
    exact ⟨hexit', by rw [helem', helem]⟩

/-- Two loops over the same elements whose turns agree, as long as their states are related. -/
theorem sweep_simulates {τ : Type*} {body' : Nat → α → τ → Turn ρ α τ} (R : σ → τ → Prop)
    (hbody : ∀ i a s t, R s t →
      (body i a s).elem = (body' i a t).elem ∧ (body i a s).exit = (body' i a t).exit ∧
        R (body i a s).state (body' i a t).state) :
    ∀ (l : List α) (i : Nat) (s : σ) (t : τ), R s t →
      (sweep body i l s).elem = (sweep body' i l t).elem ∧
        (sweep body i l s).exit = (sweep body' i l t).exit ∧
        R (sweep body i l s).state (sweep body' i l t).state := by
  intro l
  induction l with
  | nil => intro i s t hst; exact ⟨rfl, rfl, hst⟩
  | cons a rest ih =>
    intro i s t hst
    obtain ⟨helem, hexit, hstate⟩ := hbody i a s t hst
    -- both loops end here, or both go on
    cases hcase : (body i a s).exit with
    | some r =>
      rw [sweep_cons_exit hcase, sweep_cons_exit (hexit.symm.trans hcase), helem]
      exact ⟨rfl, rfl, hstate⟩
    | none =>
      obtain ⟨helem', hexit', hstate'⟩ := ih (i + 1) _ _ hstate
      rw [sweep_cons_next hcase, sweep_cons_next (hexit.symm.trans hcase), helem, helem']
      exact ⟨rfl, hexit', hstate'⟩

/-- Two bodies that do the same on the elements of a list make the same loop over it. -/
theorem sweep_congr {body' : Nat → α → σ → Turn ρ α σ} :
    ∀ (l : List α), (∀ i, ∀ a ∈ l, ∀ s, body i a s = body' i a s) →
      ∀ (i : Nat) (s : σ), sweep body i l s = sweep body' i l s := by
  intro l
  induction l with
  | nil => intro _ i s; rfl
  | cons a rest ih =>
    intro hbody i s
    have ha : body i a s = body' i a s := hbody i a List.mem_cons_self s
    have hrest := ih fun i b hmem => hbody i b (List.mem_cons_of_mem _ hmem)
    cases hexit : (body i a s).exit with
    | some r => rw [sweep_cons_exit hexit, sweep_cons_exit (ha ▸ hexit), ha]
    | none => rw [sweep_cons_next hexit, sweep_cons_next (ha ▸ hexit), ha, hrest]

end Sweep

section Visit

variable {body : Nat → α → σ → σ × Option ρ}

theorem visit_cons_exit {i : Nat} {a : α} {rest : List α} {s : σ} {r : ρ}
    (h : (body i a s).2 = some r) :
    visit body i (a :: rest) s = ((body i a s).1, some r) := by
  rw [visit]
  simp only [h]

theorem visit_cons_next {i : Nat} {a : α} {rest : List α} {s : σ}
    (h : (body i a s).2 = none) :
    visit body i (a :: rest) s = visit body (i + 1) rest (body i a s).1 := by
  rw [visit]
  simp only [h]

/-- A property of the surrounding state that every turn preserves holds after the loop. -/
theorem visit_state (Inv : σ → Prop) (hbody : ∀ i a s, Inv s → Inv (body i a s).1) :
    ∀ (l : List α) (i : Nat) (s : σ), Inv s → Inv (visit body i l s).1 := by
  intro l
  induction l with
  | nil => intro i s hs; exact hs
  | cons a rest ih =>
    intro i s hs
    cases hexit : (body i a s).2 with
    | some r => rw [visit_cons_exit hexit]; exact hbody i a s hs
    | none => rw [visit_cons_next hexit]; exact ih (i + 1) _ (hbody i a s hs)

/-- A property that every turn which goes on preserves holds after a loop that ran to its
end. -/
theorem visit_complete (Inv : σ → Prop)
    (hbody : ∀ i a s, Inv s → (body i a s).2 = none → Inv (body i a s).1) :
    ∀ (l : List α) (i : Nat) (s : σ), Inv s → (visit body i l s).2 = none →
      Inv (visit body i l s).1 := by
  intro l
  induction l with
  | nil => intro i s hs _; exact hs
  | cons a rest ih =>
    intro i s hs hdone
    cases hexit : (body i a s).2 with
    | some r => rw [visit_cons_exit hexit] at hdone; cases hdone
    | none =>
      rw [visit_cons_next hexit] at hdone ⊢
      exact ih (i + 1) _ (hbody i a s hs hexit) hdone

/-- A loop that ran to its end had a turn that went on for every element. -/
theorem exists_of_visit_complete {a : α} :
    ∀ (l : List α) (i : Nat) (s : σ), (visit body i l s).2 = none → a ∈ l →
      ∃ j t, (body j a t).2 = none := by
  intro l
  induction l with
  | nil => intro i s _ ha; cases ha
  | cons b rest ih =>
    intro i s hdone ha
    cases hexit : (body i b s).2 with
    | some r => rw [visit_cons_exit hexit] at hdone; cases hdone
    | none =>
      rw [visit_cons_next hexit] at hdone
      rcases List.mem_cons.mp ha with rfl | ha
      · exact ⟨i, s, hexit⟩
      · exact ih (i + 1) _ hdone ha

/-- A loop none of whose turns exits runs to its end. -/
theorem visit_none_at :
    ∀ (l : List α) (i : Nat) (s : σ),
      (∀ k a, l[k]? = some a → ∀ s, (body (i + k) a s).2 = none) →
      (visit body i l s).2 = none := by
  intro l
  induction l with
  | nil => intro i s _; rfl
  | cons a rest ih =>
    intro i s hbody
    have hfirst : (body i a s).2 = none := hbody 0 a rfl s
    rw [visit_cons_next hfirst]
    refine ih (i + 1) _ fun k b hget => ?_
    rw [show i + 1 + k = i + (k + 1) from by omega]
    exact hbody (k + 1) b hget

theorem visit_none (l : List α) (hbody : ∀ i, ∀ a ∈ l, ∀ s, (body i a s).2 = none) (i : Nat)
    (s : σ) : (visit body i l s).2 = none :=
  visit_none_at l i s fun k a hget => hbody (i + k) a (List.mem_of_getElem? hget)

/-- A loop exits only with what the turn of one of its elements exits with. -/
theorem visit_exit_mem (Q : ρ → Prop) :
    ∀ (l : List α), (∀ i, ∀ a ∈ l, ∀ s r, (body i a s).2 = some r → Q r) →
      ∀ (i : Nat) (s : σ) (r : ρ), (visit body i l s).2 = some r → Q r := by
  intro l
  induction l with
  | nil => intro _ i s r h; cases h
  | cons a rest ih =>
    intro hbody i s r h
    cases hexit : (body i a s).2 with
    | some r' =>
      rw [visit_cons_exit hexit] at h
      cases h
      exact hbody i a List.mem_cons_self s r hexit
    | none =>
      rw [visit_cons_next hexit] at h
      exact ih (fun i b hmem => hbody i b (List.mem_cons_of_mem _ hmem)) (i + 1) _ r h

/-- What a loop ends with is what one of its turns ended with. -/
theorem visit_exit (Q : ρ → Prop) (hbody : ∀ i a s r, (body i a s).2 = some r → Q r)
    (l : List α) (i : Nat) (s : σ) (r : ρ) (h : (visit body i l s).2 = some r) : Q r :=
  visit_exit_mem Q l (fun i a _ => hbody i a) i s r h

/-- A loop that makes one call per turn, logs it with its answer and goes on exactly when the
answer is yes: if all answers were, it ran to its end and made the call of every element, in
order. -/
theorem visit_log {β : Type*} (log : σ → List (β × Bool)) (call : Nat → α → β) :
    ∀ (l : List α) (i : Nat) (s : σ),
      (∀ a ∈ l, ∀ i s, ∃ answer, log (body i a s).1 = log s ++ [(call i a, answer)]
        ∧ (answer = true → (body i a s).2 = none)) →
      ∃ made, log (visit body i l s).1 = log s ++ made
        ∧ ((∀ c ∈ made, c.2 = true) → (visit body i l s).2 = none
          ∧ made.map Prod.fst = (l.zipIdx i).map fun p => call p.2 p.1) := by
  intro l
  induction l with
  | nil => intro i s _; exact ⟨[], (List.append_nil _).symm, fun _ => ⟨rfl, rfl⟩⟩
  | cons a rest ih =>
    intro i s h
    obtain ⟨ha, hrest⟩ := List.forall_mem_cons.mp h
    obtain ⟨answer, hlog, hnext⟩ := ha i s
    -- a turn whose call was answered goes on, so an end means a refusal
    cases hexit : (body i a s).2 with
    | some r =>
      rw [visit_cons_exit hexit]
      refine ⟨[(call i a, answer)], hlog, fun hyes => ?_⟩
      rw [hnext (hyes _ (List.mem_singleton_self _))] at hexit
      cases hexit
    | none =>
      rw [visit_cons_next hexit]
      obtain ⟨made, hmade, hall⟩ := ih (i + 1) (body i a s).1 hrest
      refine ⟨(call i a, answer) :: made, ?_, fun hyes => ?_⟩
      · rw [hmade, hlog, List.append_assoc, List.singleton_append]
      · obtain ⟨hdone, hcalls⟩ := hall fun c hc => hyes c (List.mem_cons_of_mem _ hc)
        exact ⟨hdone, by rw [List.map_cons, hcalls, List.zipIdx_cons, List.map_cons]⟩

end Visit

end CLoop
