import OpcuaEdge.WellFormed
import OpcuaEdge.Lib.CWhile
import Mathlib.Logic.Relation

/-!
# OpcuaEdge — the parent chains

The second loop of `validate_and_resolve_references` follows the parents of every asset and looks
for a cycle. The first loop has only let parents pass that stand before their children
(`ParentsBefore`), so every walk goes down to the root and the check never finds anything
(`cycle_check_dead`). A cyclic template is refused by the first loop.
-/

namespace OpcuaEdge

open CStr CLoop

/-! ## The `while` of the check

The check walks from an asset to its parents. As the source bounds the walk by a count of hops
only, it is modelled as a relation, with the array accesses it makes. -/

/-- How the walk of one asset ends: at the root, in the error branch, or outside the array. -/
inductive ChainExit where
  | root
  | cycle
  | outOfBounds
  deriving DecidableEq

/-- One turn of the `while`, on `cursor` and `hops`. -/
def chainTurn (assets : List EdgeAsset) (i : Nat) (s : Nat × Nat) : ChainExit ⊕ (Nat × Nat) :=
  if s.1 = edgeInvalidIndex then .inl .root
  else if s.1 = i ∨ assets.length < s.2 then .inl .cycle
  else
    match assets[s.1]? with
    | none => .inl .outOfBounds
    | some asset => .inr (asset.parentIndex, s.2 + 1)

/-- A turn that goes on has looked at an asset of the array and gone to its parent. -/
theorem chainTurn_next {assets : List EdgeAsset} {i : Nat} {s s' : Nat × Nat}
    (h : chainTurn assets i s = .inr s') :
    s.1 ≠ edgeInvalidIndex ∧ s.1 ≠ i ∧ s.2 ≤ assets.length ∧
      ∃ asset, assets[s.1]? = some asset ∧ s' = (asset.parentIndex, s.2 + 1) := by
  unfold chainTurn at h
  split_ifs at h with hroot hcycle
  rw [not_or, not_lt] at hcycle
  cases hget : assets[s.1]? with
  | none =>
    rw [hget] at h
    cases h
  | some asset =>
    rw [hget] at h
    exact ⟨hroot, hcycle.1, hcycle.2, asset, rfl, (Sum.inr.inj h).symm⟩

/-- A turn inside the array that the check lets pass goes on. -/
theorem chainTurn_inside {assets : List EdgeAsset} {i : Nat} {s : Nat × Nat}
    (hroot : s.1 ≠ edgeInvalidIndex) (hother : s.1 ≠ i) (hhops : s.2 ≤ assets.length)
    (hlt : s.1 < assets.length) : ∃ s', chainTurn assets i s = .inr s' := by
  refine ⟨(assets[s.1].parentIndex, s.2 + 1), ?_⟩
  unfold chainTurn
  rw [if_neg hroot, if_neg (by omega), List.getElem?_eq_getElem hlt]

/-- `parentChain` computes how the walk ends as soon as its fuel exceeds the turns. -/
theorem parentChain_of_while {assets : List EdgeAsset} {i : Nat} {s : Nat × Nat}
    {visited : List (Nat × Nat)} {exit : ChainExit} (h : While (chainTurn assets i) s visited exit)
    (hinside : exit ≠ .outOfBounds) :
    ∀ fuel, visited.length < fuel →
      parentChain assets i fuel s.1 s.2 = if exit = .root then .ok else .invalid := by
  induction h with
  | @leave s exit hturn =>
    intro fuel hfuel
    obtain ⟨fuel, rfl⟩ : ∃ m, fuel = m + 1 := ⟨fuel - 1, by omega⟩
    unfold chainTurn at hturn
    rw [parentChain]
    by_cases hroot : s.1 = edgeInvalidIndex
    · rw [if_pos hroot] at hturn ⊢
      cases hturn
      rfl
    rw [if_neg hroot] at hturn ⊢
    by_cases hcycle : s.1 = i ∨ assets.length < s.2
    · rw [if_pos hcycle] at hturn ⊢
      cases hturn
      rfl
    -- inside the array the loop would go on
    rw [if_neg hcycle] at hturn
    cases hget : assets[s.1]? with
    | none =>
      rw [hget] at hturn
      exact absurd (Sum.inl.inj hturn).symm hinside
    | some asset =>
      rw [hget] at hturn
      cases hturn
  | next hturn _ ih =>
    intro fuel hfuel
    rw [List.length_cons] at hfuel
    obtain ⟨fuel, rfl⟩ : ∃ m, fuel = m + 1 := ⟨fuel - 1, by omega⟩
    obtain ⟨hroot, hother, hhops, asset, hget, rfl⟩ := chainTurn_next hturn
    rw [parentChain, if_neg hroot, if_neg (by omega), hget]
    exact ih hinside fuel (by omega)

/-- The walk always ends, and `asset_count + 2` turns are enough to compute how. -/
theorem parentChain_adequate (assets : List EdgeAsset) (i cursor : Nat) :
    ∃ visited exit, While (chainTurn assets i) (cursor, 0) visited exit ∧
      (exit ≠ .outOfBounds → parentChain assets i (assets.length + 2) cursor 0 =
        if exit = .root then .ok else .invalid) := by
  have hhop : ∀ s s', True → chainTurn assets i s = .inr s' →
      True ∧ assets.length + 1 - s'.2 < assets.length + 1 - s.2 := by
    intro s s' _ h
    obtain ⟨-, -, hhops, _, -, rfl⟩ := chainTurn_next h
    exact ⟨trivial, by dsimp only; omega⟩
  obtain ⟨visited, exit, hrun, -, -, hlength⟩ :=
    exists_while (fun _ => True) (fun s => assets.length + 1 - s.2) hhop (cursor, 0) trivial
  refine ⟨visited, exit, hrun, fun hinside => ?_⟩
  exact parentChain_of_while hrun hinside _ (by dsimp only at hlength; omega)

/-! ## Parents before their children

The loop before the check looks for a parent among the assets before its child. So each step of a
walk goes down in the array. -/

/-- What the first loop leaves behind: a parent is missing or stands before its child. -/
def ParentsBefore (assets : List EdgeAsset) : Prop :=
  ∀ (i : Nat) (asset : EdgeAsset), assets[i]? = some asset →
    asset.parentIndex = edgeInvalidIndex ∨ asset.parentIndex < i

theorem parentsBefore_of_resolved {model : EdgeModel} (hdone : (resolveAssets model).exit = none) :
    ParentsBefore (resolveAssets model).elem := by
  intro i asset hget
  obtain ⟨hroot, hparent⟩ := resolveAssets_parents hdone hget
  by_cases h : asset.parentId = [] ∨ asset.parentId = model.id
  · exact .inl (hroot.mpr h)
  · exact .inr (hparent h).1

/-- The walk from an asset goes down through indexes before it and ends at the root, after at most
as many hops as there are assets before it. -/
def WalksDown (assets : List EdgeAsset) (i : Nat) (asset : EdgeAsset) : Prop :=
  ∃ visited, While (chainTurn assets i) (asset.parentIndex, 0) visited .root ∧
    (visited.map Prod.fst).Pairwise (· > ·) ∧ (∀ s ∈ visited, s.1 < i) ∧ visited.length ≤ i

/-- The cursor is at the root, or it and the hops made stay below the index of the asset. -/
def Below (i : Nat) (s : Nat × Nat) : Prop := s.1 = edgeInvalidIndex ∨ s.1 + s.2 < i

/-- How far the cursor is from the root. -/
def height (s : Nat × Nat) : Nat := if s.1 = edgeInvalidIndex then 0 else s.1 + 1

/-- One hop: the cursor goes down by at least as much as the hops go up. -/
theorem ParentsBefore.hop {assets : List EdgeAsset} (h : ParentsBefore assets) {i : Nat}
    {s s' : Nat × Nat} (hbelow : Below i s) (hturn : chainTurn assets i s = .inr s') :
    Below i s' ∧ height s' < height s := by
  obtain ⟨hroot, -, -, asset, hget, rfl⟩ := chainTurn_next hturn
  have hsum := hbelow.resolve_left hroot
  unfold Below height
  rw [if_neg hroot]
  dsimp only
  rcases h _ asset hget with hparent | hparent
  · rw [if_pos hparent]
    exact ⟨.inl hparent, Nat.succ_pos _⟩
  · refine ⟨.inr (by omega), ?_⟩
    split_ifs <;> omega

/-- A walk from any asset ends, at the root, within the array. -/
theorem ParentsBefore.walksDown {assets : List EdgeAsset} (h : ParentsBefore assets) {i : Nat}
    {asset : EdgeAsset} (hget : assets[i]? = some asset) : WalksDown assets i asset := by
  have hi := (List.getElem?_eq_some_iff.mp hget).1
  have hstart : Below i (asset.parentIndex, 0) := h i asset hget
  have hheight : height (asset.parentIndex, 0) ≤ i := by
    unfold height
    dsimp only
    rcases h i asset hget with hroot | hlt
    · rw [if_pos hroot]
      exact Nat.zero_le _
    · split_ifs <;> omega
  obtain ⟨visited, exit, hrun, hvisited, hpairwise, hlength⟩ :=
    exists_while (Below i) height (fun s s' => h.hop) _ hstart
  -- a state that goes on is inside the array, and its height is its index
  have hinside : ∀ s ∈ visited, s.1 + s.2 < i ∧ height s = s.1 + 1 := by
    intro s hs
    obtain ⟨s', hturn⟩ := hrun.goes_on s hs
    have hroot := (chainTurn_next hturn).1
    exact ⟨(hvisited s hs).1.resolve_left hroot, if_neg hroot⟩
  have hexit : exit = .root := by
    obtain ⟨s, hbelow, hleave⟩ := hrun.leaves (Below i) (fun s s' hs ht => (h.hop hs ht).1) hstart
    by_cases hroot : s.1 = edgeInvalidIndex
    · rw [chainTurn, if_pos hroot] at hleave
      exact (Sum.inl.inj hleave).symm
    · have hsum := hbelow.resolve_left hroot
      have hother : s.1 ≠ i := by omega
      have hlt : s.1 < assets.length := by omega
      obtain ⟨s', hnext⟩ := chainTurn_inside hroot hother (by omega) hlt
      cases hnext.symm.trans hleave
  subst hexit
  refine ⟨visited, hrun, ?_, fun s hs => by have hsum := (hinside s hs).1; omega, by omega⟩
  rw [List.pairwise_map]
  refine hpairwise.imp_of_mem fun {s t} hs ht hlt => ?_
  rw [(hinside s hs).2, (hinside t ht).2] at hlt
  show t.1 < s.1
  omega

/-- The check passes every asset. -/
theorem ParentsBefore.check {assets : List EdgeAsset} (h : ParentsBefore assets) :
    (visit (checkParentChain assets) 0 assets ()).2 = none := by
  refine visit_none_at assets 0 () fun i asset hget _ => ?_
  rw [Nat.zero_add]
  obtain ⟨visited, hrun, -, -, hlength⟩ := h.walksDown hget
  obtain ⟨visited', exit, hrun', hchain⟩ :=
    parentChain_adequate assets i asset.parentIndex
  obtain ⟨-, rfl⟩ := hrun.unique hrun'
  rw [if_pos rfl] at hchain
  unfold checkParentChain
  rw [if_pos (hchain (by decide))]

/-! ## Cyclic templates

In a cycle one asset names a parent that does not come before it, which the first loop refuses. -/

/-- The template names `b` as the parent of `a`. -/
structure NamesParent (model : EdgeModel) (a b : EdgeAsset) : Prop where
  child : a ∈ model.assets
  parent : b ∈ model.assets
  named : ¬ (a.parentId = [] ∨ a.parentId = model.id)
  id : b.id = a.parentId

/-- Some asset is its own ancestor. -/
def CyclicParents (model : EdgeModel) : Prop :=
  ∃ asset, Relation.TransGen (NamesParent model) asset asset

/-- An asset is found by its own id. -/
theorem findAsset_self {model : EdgeModel} (hnodup : (model.assets.map (·.id)).Nodup) {i : Nat}
    {asset : EdgeAsset} (hget : model.assets[i]? = some asset) : findAsset model asset.id = i := by
  unfold findAsset
  cases hfind : model.assets.findIdx? fun a => a.id = asset.id with
  | none =>
    have hnot := List.findIdx?_eq_none_iff.mp hfind asset (List.mem_of_getElem? hget)
    exact absurd rfl (of_decide_eq_false hnot)
  | some j =>
    obtain ⟨hj, hid, -⟩ := List.findIdx?_eq_some_iff_getElem.mp hfind
    exact asset_index_unique hnodup ⟨_, List.getElem?_eq_getElem hj, of_decide_eq_true hid⟩
      ⟨asset, hget, rfl⟩

/-- Behind a completed first loop a named parent is found before its child. -/
theorem NamesParent.found_before {model : EdgeModel}
    (hnodup : (model.assets.map (·.id)).Nodup) (hdone : (resolveAssets model).exit = none)
    {a b : EdgeAsset} (h : NamesParent model a b) :
    findAsset model b.id < findAsset model a.id := by
  obtain ⟨i, hget⟩ := List.mem_iff_getElem?.mp h.child
  have hi : i < (resolveAssets model).elem.length :=
    (List.getElem?_eq_some_iff.mp hget).1.trans_eq (length_sweep _ _ _ _).symm
  obtain ⟨a', s, hget', hexit, -⟩ :=
    exists_of_sweep_complete hdone (List.getElem?_eq_getElem hi)
  cases Option.some.inj (hget.symm.trans hget')
  rw [h.id, findAsset_self hnodup hget]
  unfold resolveParent at hexit
  simp only [Nat.zero_add, if_neg h.named] at hexit
  split_ifs at hexit with hbad
  omega

/-- Where the first loop passes, no asset is its own ancestor. -/
theorem not_cyclicParents {model : EdgeModel} (hnodup : (model.assets.map (·.id)).Nodup)
    (hdone : (resolveAssets model).exit = none) : ¬ CyclicParents model := by
  rintro ⟨asset, hcycle⟩
  -- going to the parent goes down in the array
  have hdown : Relation.TransGen (· > ·) (findAsset model asset.id) (findAsset model asset.id) :=
    Relation.TransGen.lift (r := NamesParent model) (fun a : EdgeAsset => findAsset model a.id)
      (fun _ _ h => h.found_before hnodup hdone) _ _ hcycle
  rw [Relation.transGen_eq_self] at hdown
  exact absurd hdown (Nat.lt_irrefl _)

/-- The first loop refuses every cyclic template whose ids are distinct. -/
theorem resolveAssets_of_cyclic {model : EdgeModel} (hok : validateDuplicates model = .ok)
    (hcyclic : CyclicParents model) : (resolveAssets model).exit = some .invalid := by
  cases hexit : (resolveAssets model).exit with
  | none => exact absurd hcyclic (not_cyclicParents (distinct_of_ok hok).1 hexit)
  | some status => rw [resolveAssets_exit hexit]

/-! ## Loading without the check

The loader with the check left out is the same function. -/

/-- `validate_and_resolve_references` without its second loop. -/
def resolveUnchecked (model : EdgeModel) : EdgeStatus × EdgeModel :=
  let model₁ := { model with assets := (resolveAssets model).elem }
  match (resolveAssets model).exit with
  | some status => (status, model₁)
  | none =>
    let model₂ := { model₁ with nodes := (resolveNodes model₁).elem }
    match (resolveNodes model₁).exit with
    | some status => (status, model₂)
    | none =>
      ((resolveEvents model₂).exit.getD .ok,
        { model₂ with events := (resolveEvents model₂).elem })

/-- `edge_config_load` with another resolver. -/
def edgeConfigLoadWith (resolve : EdgeModel → EdgeStatus × EdgeModel) (file : Option Bytes)
    (model : EdgeModel) : EdgeStatus × EdgeModel :=
  match file with
  | none => (.error, model)
  | some bytes =>
    let r := visit loadTurn 0 (chunks (edgeMaxLineLen - 1) bytes) { model := model }
    match r.2 with
    | some status => (status, r.1.model)
    | none =>
      if validateRequiredFields r.1.model ≠ .ok ∨ validateDuplicates r.1.model ≠ .ok then
        (.invalid, r.1.model)
      else
        let v := resolve r.1.model
        if v.1 ≠ .ok then (.invalid, v.2) else (.ok, v.2)

theorem edgeConfigLoad_eq : edgeConfigLoad = edgeConfigLoadWith validateAndResolveReferences := rfl

/-- The resolver of the source is the one without the check. -/
theorem validateAndResolveReferences_eq : validateAndResolveReferences = resolveUnchecked := by
  funext model
  unfold validateAndResolveReferences resolveUnchecked
  cases hexit : (resolveAssets model).exit with
  | some status => rfl
  | none =>
    have hcheck := (parentsBefore_of_resolved hexit).check
    dsimp only
    cases hchain : (visit (checkParentChain (resolveAssets model).elem) 0
        (resolveAssets model).elem ()).2 with
    | some status => cases hchain.symm.trans hcheck
    | none => rfl

/-- **The cycle check is dead**: behind the first loop every walk goes down to the root without an
access outside the array, the first loop refuses every cycle, and the loader without the check is
the same loader. -/
theorem cycle_check_dead (model : EdgeModel) (file : Option Bytes) :
    ((resolveAssets model).exit = none →
      (∀ (i : Nat) (asset : EdgeAsset), (resolveAssets model).elem[i]? = some asset →
          WalksDown (resolveAssets model).elem i asset) ∧
        (visit (checkParentChain (resolveAssets model).elem) 0 (resolveAssets model).elem ()).2
          = none) ∧
      (validateDuplicates model = .ok → CyclicParents model →
        (resolveAssets model).exit = some .invalid) ∧
      validateAndResolveReferences model = resolveUnchecked model ∧
      edgeConfigLoad file {} = edgeConfigLoadWith resolveUnchecked file {} := by
  refine ⟨fun hdone => ?_, resolveAssets_of_cyclic, ?_, ?_⟩
  · have hbefore := parentsBefore_of_resolved hdone
    exact ⟨fun i asset hget => hbefore.walksDown hget, hbefore.check⟩
  · rw [validateAndResolveReferences_eq]
  · rw [edgeConfigLoad_eq, validateAndResolveReferences_eq]

/-- A train with a pump on it and a motor on the pump: the walk of the motor has two hops. -/
def motorModel : EdgeModel where
  id := lit "plant"
  assets :=
    [{ id := lit "train", parentId := lit "plant" },
     { id := lit "pump", parentId := lit "train" },
     { id := lit "motor", parentId := lit "pump" }]

/-- A train and a pump that name each other. -/
def loopModel : EdgeModel where
  id := lit "plant"
  assets :=
    [{ id := lit "train", parentId := lit "pump" },
     { id := lit "pump", parentId := lit "train" }]

theorem cycle_check_dead_motor :
    WalksDown (resolveAssets motorModel).elem 2
        { id := lit "motor", parentId := lit "pump", parentIndex := 1 } ∧
      (resolveAssets loopModel).exit = some .invalid := by
  have hup : NamesParent loopModel loopModel.assets[0] loopModel.assets[1] :=
    ⟨List.getElem_mem _, List.getElem_mem _, by decide +kernel, by decide +kernel⟩
  have hdown : NamesParent loopModel loopModel.assets[1] loopModel.assets[0] :=
    ⟨List.getElem_mem _, List.getElem_mem _, by decide +kernel, by decide +kernel⟩
  exact ⟨((cycle_check_dead motorModel none).1 (by decide +kernel)).1 2 _ (by decide +kernel),
    (cycle_check_dead loopModel none).2.1 (by decide +kernel) ⟨_, .tail (.single hup) hdown⟩⟩

end OpcuaEdge
