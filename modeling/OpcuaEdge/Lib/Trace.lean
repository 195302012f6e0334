import Mathlib.Data.List.Basic

/-!
# What a run gives out

A run applies a step function to a list of actions; `collect` gathers what the steps give out, in
order. Where a run is simulated by another, both give out the same (`collect_simulated`).
-/

namespace Trace

variable {S T α β : Type*}

/-- What the actions give out, each in the state it finds. -/
def collect (step : S → α → S) (out : S → α → List β) : List α → S → List β
  | [], _ => []
  | a :: rest, s => out s a ++ collect step out rest (step s a)

/-- What a run gives out can be read off a run that it commutes with. -/
theorem collect_simulated {step : S → α → S} (step' : T → α → T) (out : T → α → List β)
    (abs : S → T) (Inv : S → Prop) (hinv : ∀ s a, Inv s → Inv (step s a))
    (hstep : ∀ s a, Inv s → abs (step s a) = step' (abs s) a) (actions : List α) :
    ∀ s, Inv s → collect step (fun s => out (abs s)) actions s =
      collect step' out actions (abs s) := by
  induction actions with
  | nil => intro s _; rfl
  | cons a rest ih =>
    intro s hs
    rw [collect, collect, ih _ (hinv s a hs), hstep s a hs]

end Trace
