import Mathlib.Data.List.AList

/-!
# Batches of upserts into a keyed table

`upsertAll` writes the row of every element of a batch under the element's key, overwriting what
was there. A later batch overwrites an earlier one, so what a key finds in the end is what the
last batch that has the key wrote for it.
-/

namespace Upsert

variable {κ α ρ : Type*} [DecidableEq κ] {key : α → κ} {row : α → ρ}

/-- A batch of upserts: each entry sets the row of its key, and of two entries with one key the
later one stands. -/
def upsertAll (key : α → κ) (row : α → ρ) (batch : List α) (table : AList fun _ : κ => ρ) :
    AList fun _ : κ => ρ :=
  batch.foldl (fun table a => table.insert (key a) (row a)) table

@[simp] theorem upsertAll_cons (a : α) (batch : List α) (table : AList fun _ : κ => ρ) :
    upsertAll key row (a :: batch) table =
      upsertAll key row batch (table.insert (key a) (row a)) := rfl

theorem lookup_upsertAll_of_ne {k : κ} {batch : List α} (h : ∀ a ∈ batch, key a ≠ k) :
    ∀ table : AList fun _ : κ => ρ, (upsertAll key row batch table).lookup k = table.lookup k := by
  induction batch with
  | nil => intro table; rfl
  | cons a batch ih =>
    intro table
    obtain ⟨ha, hbatch⟩ := List.forall_mem_cons.mp h
    rw [upsertAll_cons, ih hbatch, AList.lookup_insert_ne (Ne.symm ha)]

/-- The keys of a table after a batch: those of the batch and those before it. -/
theorem mem_upsertAll {k : κ} {batch : List α} :
    ∀ table : AList fun _ : κ => ρ,
      k ∈ upsertAll key row batch table ↔ (∃ a ∈ batch, key a = k) ∨ k ∈ table := by
  induction batch with
  | nil => intro table; simp [upsertAll]
  | cons a batch ih =>
    intro table
    rw [upsertAll_cons, ih, AList.mem_insert, List.exists_mem_cons_iff]
    simp only [eq_comm, or_left_comm, or_assoc]

/-- The only element with its key finds its own row. -/
theorem lookup_upsertAll_of_filter {k : κ} {a : α} {batch : List α}
    (h : batch.filter (key · = k) = [a]) :
    ∀ table : AList fun _ : κ => ρ, (upsertAll key row batch table).lookup k = some (row a) := by
  induction batch with
  | nil => cases h
  | cons b batch ih =>
    intro table
    rw [upsertAll_cons]
    by_cases hb : key b = k
    · rw [List.filter_cons_of_pos (by simpa using hb), List.cons.injEq] at h
      obtain ⟨rfl, hrest⟩ := h
      have hne : ∀ a ∈ batch, key a ≠ k := by simpa using List.filter_eq_nil_iff.mp hrest
      rw [lookup_upsertAll_of_ne hne, hb, AList.lookup_insert]
    · rw [List.filter_cons_of_neg (by simpa using hb)] at h
      exact ih h _

/-- What a key finds after a batch was written by it or was there before. -/
theorem lookup_upsertAll_cases {k : κ} {r : ρ} {batch : List α} :
    ∀ table : AList fun _ : κ => ρ, (upsertAll key row batch table).lookup k = some r →
      (∃ a ∈ batch, key a = k ∧ row a = r) ∨ table.lookup k = some r := by
  induction batch with
  | nil => intro table h; exact .inr h
  | cons a batch ih =>
    intro table h
    rcases ih _ h with ⟨b, hb, hrow⟩ | hfound
    · exact .inl ⟨b, List.mem_cons_of_mem _ hb, hrow⟩
    · by_cases ha : key a = k
      · subst ha
        rw [AList.lookup_insert, Option.some.injEq] at hfound
        exact .inl ⟨a, List.mem_cons_self, rfl, hfound⟩
      · rw [AList.lookup_insert_ne (Ne.symm ha)] at hfound
        exact .inr hfound

/-- With distinct keys every element finds its own row, and the keys outside the batch find what
they found before. -/
theorem lookup_upsertAll_iff {k : κ} {r : ρ} {batch : List α} (h : (batch.map key).Nodup)
    (table : AList fun _ : κ => ρ) :
    (upsertAll key row batch table).lookup k = some r ↔
      (∃ a ∈ batch, key a = k ∧ row a = r) ∨
        (∀ a ∈ batch, key a ≠ k) ∧ table.lookup k = some r := by
  induction batch generalizing table with
  | nil => simp [upsertAll]
  | cons a batch ih =>
    rw [List.map_cons, List.nodup_cons] at h
    rw [upsertAll_cons, ih h.2]
    -- the entry itself has the key, and then no later one has
    by_cases ha : key a = k
    · subst ha
      have hne : ∀ b ∈ batch, key b ≠ key a := fun b hb heq => h.1 (heq ▸ List.mem_map_of_mem hb)
      simp only [AList.lookup_insert, Option.some.injEq, List.exists_mem_cons_iff,
        List.forall_mem_cons]
      constructor
      · rintro (⟨b, hb, heq, -⟩ | ⟨-, hr⟩)
        · exact absurd heq (hne b hb)
        · exact .inl (.inl ⟨trivial, hr⟩)
      · rintro ((⟨-, hr⟩ | ⟨b, hb, heq, -⟩) | ⟨hself, -⟩)
        · exact .inr ⟨hne, hr⟩
        · exact absurd heq (hne b hb)
        · exact absurd rfl hself.1
    · rw [AList.lookup_insert_ne (Ne.symm ha)]
      simp only [List.exists_mem_cons_iff, List.forall_mem_cons, ha, false_and, false_or, ne_eq,
        not_false_eq_true, true_and]

/-- **An upsert-only writer leaves exactly the batch behind just when the table held no other
keys.** -/
theorem upsertAll_exact_iff {batch : List α} (h : (batch.map key).Nodup)
    (table : AList fun _ : κ => ρ) :
    (∀ k r, (upsertAll key row batch table).lookup k = some r ↔
        ∃ a ∈ batch, key a = k ∧ row a = r) ↔
      ∀ k ∈ table, ∃ a ∈ batch, key a = k := by
  constructor
  · intro hexact k hk
    obtain ⟨r, hr⟩ := Option.isSome_iff_exists.mp (AList.lookup_isSome.mpr hk)
    by_contra hnone
    have hne : ∀ a ∈ batch, key a ≠ k := fun a ha heq => hnone ⟨a, ha, heq⟩
    obtain ⟨a, ha, heq, -⟩ := (hexact k r).mp ((lookup_upsertAll_iff h table).mpr (.inr ⟨hne, hr⟩))
    exact hne a ha heq
  · intro honly k r
    rw [lookup_upsertAll_iff h table]
    refine ⟨?_, .inl⟩
    rintro (hrow | ⟨hne, hr⟩)
    · exact hrow
    · -- a key outside the batch would have been in the table before
      obtain ⟨a, ha, heq⟩ := honly k (AList.lookup_isSome.mp (by rw [hr]; rfl))
      exact absurd heq (hne a ha)

/-- A loop that upserts into one table of a record, a row per element, upserts the batch. -/
theorem foldl_upsert {δ : Type*} (get : δ → AList fun _ : κ => ρ)
    (set : (AList fun _ : κ => ρ) → δ → δ) (hget : ∀ t d, get (set t d) = t)
    (hset : ∀ t u d, set t (set u d) = set t d) (hid : ∀ d, set (get d) d = d) (batch : List α) :
    ∀ d, batch.foldl (fun d a => set ((get d).insert (key a) (row a)) d) d
      = set (upsertAll key row batch (get d)) d := by
  induction batch with
  | nil => intro d; exact (hid d).symm
  | cons a batch ih =>
    intro d
    rw [List.foldl_cons, ih, hget, hset, upsertAll_cons]

/-! ## Several batches

A snapshot is one batch for each entry of an outer table, for example the settings of each asset. -/

variable {β : Type*} {batch : β → List α} {rowAt : β → α → ρ}

/-- The batches one after the other, each with its own way to make rows. -/
def upsertBatches (key : α → κ) (rowAt : β → α → ρ) (batch : β → List α) (batches : List β)
    (table : AList fun _ : κ => ρ) : AList fun _ : κ => ρ :=
  batches.foldl (fun table b => upsertAll key (rowAt b) (batch b) table) table

theorem lookup_upsertBatches_of_ne {k : κ} {batches : List β}
    (h : ∀ b ∈ batches, ∀ a ∈ batch b, key a ≠ k) :
    ∀ table : AList fun _ : κ => ρ,
      (upsertBatches key rowAt batch batches table).lookup k = table.lookup k := by
  induction batches with
  | nil => intro table; rfl
  | cons b batches ih =>
    intro table
    obtain ⟨hb, hbatches⟩ := List.forall_mem_cons.mp h
    exact (ih hbatches _).trans (lookup_upsertAll_of_ne hb table)

/-- **The last batch that has the key wins.** -/
theorem lookup_upsertBatches_of_last {k : κ} {a : α} {pre post : List β} {b : β}
    (hlater : ∀ b' ∈ post, ∀ a' ∈ batch b', key a' ≠ k)
    (honly : (batch b).filter (key · = k) = [a]) (table : AList fun _ : κ => ρ) :
    (upsertBatches key rowAt batch (pre ++ b :: post) table).lookup k = some (rowAt b a) := by
  unfold upsertBatches
  rw [List.foldl_append, List.foldl_cons]
  exact (lookup_upsertBatches_of_ne hlater _).trans (lookup_upsertAll_of_filter honly _)

end Upsert
