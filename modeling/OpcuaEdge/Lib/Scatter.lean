import Mathlib.Data.List.Basic

/-!
# Loops that rewrite what their elements point to

A loop goes over a list of records, each of which may point to an element of an array, and rewrites
that element. What the rewriting keeps of an element the loop keeps of the array (`map_scatter`).
An element that no record points to stays as it was (`scatter_other`); where no two records point
to the same one, an element is rewritten by the record that points to it and by no other
(`scatter_target`).
-/

namespace Scatter

variable {α β γ : Type*}

/-- The loop: each record in turn rewrites the element it points to. `target` is `none` for a
record that points nowhere, and an index beyond the list rewrites nothing. -/
def scatter (target : β → Option Nat) (f : β → α → α) (records : List β) (l : List α) : List α :=
  records.foldl
    (fun l b =>
      match target b with
      | none => l
      | some i => l.modify i (f b)) l

variable {target : β → Option Nat} {f : β → α → α}

/-- A loop over no records rewrites nothing. -/
@[simp] theorem scatter_nil (l : List α) : scatter target f [] l = l := rfl

/-- A record that points nowhere leaves the loop to the records after it. -/
theorem scatter_cons_none {b : β} (h : target b = none) (rest : List β) (l : List α) :
    scatter target f (b :: rest) l = scatter target f rest l := by
  rw [scatter, List.foldl_cons]
  simp only [h]
  rfl

/-- A record that points to `i` rewrites that element first; the records after it see the result. -/
theorem scatter_cons_some {b : β} {i : Nat} (h : target b = some i) (rest : List β) (l : List α) :
    scatter target f (b :: rest) l = scatter target f rest (l.modify i (f b)) := by
  rw [scatter, List.foldl_cons]
  simp only [h]
  rfl

/-- What the rewriting of an element keeps is kept of all elements, wherever the element is. -/
theorem map_modify {g : α → γ} {r : α → α} (h : ∀ a, g (r a) = g a) (i : Nat) (l : List α) :
    (l.modify i r).map g = l.map g := by
  apply List.ext_getElem?
  intro j
  rw [List.getElem?_map, List.getElem?_map, List.getElem?_modify]
  split_ifs
  · rw [Option.map_eq_map, Option.map_map]
    exact congrArg (Option.map · l[j]?) (funext h)
  · rw [Option.map_eq_map, Option.map_id']

/-- What the rewriting of an element keeps, the loop keeps of all elements. -/
theorem map_scatter (g : α → γ) (h : ∀ b a, g (f b a) = g a) (records : List β) :
    ∀ l : List α, (scatter target f records l).map g = l.map g := by
  induction records with
  | nil => intro l; rfl
  | cons b rest ih =>
    intro l
    cases hb : target b with
    | none => rw [scatter_cons_none hb, ih]
    | some i => rw [scatter_cons_some hb, ih, map_modify (h b)]

/-- An element that no record points to stays as it was. Induction on the records, over any list:
each turn changes the list that the next one starts from. -/
theorem scatter_other {i : Nat} (records : List β) :
    ∀ l : List α, (∀ b ∈ records, target b ≠ some i) →
      (scatter target f records l)[i]? = l[i]? := by
  induction records with
  | nil => intro l _; rfl
  | cons b rest ih =>
    intro l h
    obtain ⟨hfirst, hrest⟩ := List.forall_mem_cons.mp h
    cases hb : target b with
    | none => rw [scatter_cons_none hb, ih l hrest]
    | some j =>
      have hne : j ≠ i := fun heq => hfirst (hb.trans (congrArg some heq))
      rw [scatter_cons_some hb, ih _ hrest, List.getElem?_modify_ne _ _ hne]

/-- Where no two records point to the same element, an element is rewritten by the record that
points to it, and once. -/
theorem scatter_target {b : β} {i : Nat} (hb : target b = some i) (records : List β) :
    ∀ l : List α, (records.filterMap target).Nodup → b ∈ records →
      (scatter target f records l)[i]? = l[i]?.map (f b) := by
  induction records with
  | nil => intro l _ hmem; cases hmem
  | cons c rest ih =>
    intro l hnodup hmem
    rcases List.mem_cons.mp hmem with rfl | hlater
    · -- the rest points elsewhere
      rw [List.filterMap_cons_some hb, List.nodup_cons] at hnodup
      have hother : ∀ d ∈ rest, target d ≠ some i := by
        intro d hd hsame
        exact hnodup.1 (List.mem_filterMap.mpr ⟨d, hd, hsame⟩)
      rw [scatter_cons_some hb, scatter_other rest _ hother, List.getElem?_modify_eq]
      rfl
    · cases hc : target c with
      | none =>
        rw [List.filterMap_cons_none hc] at hnodup
        rw [scatter_cons_none hc, ih l hnodup hlater]
      | some j =>
        rw [List.filterMap_cons_some hc, List.nodup_cons] at hnodup
        have hne : j ≠ i := by
          rintro rfl
          exact hnodup.1 (List.mem_filterMap.mpr ⟨b, hlater, hb⟩)
        rw [scatter_cons_some hc, ih _ hnodup.2 hlater, List.getElem?_modify_ne _ _ hne]

end Scatter
