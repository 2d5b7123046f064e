import Mathlib.Data.List.Nodup

/-!
# Tables with a primary key

A table is a list of rows whose keys are distinct; the distinctness is a field,
so every operation below carries the proof that it keeps the constraint. The
lemmas describe an operation by the keys and the rows it leaves.
-/

namespace Foundation

/-- Rows of type `ρ` with distinct keys of type `κ`. -/
structure KeyedTable (ρ : Type*) (κ : Type*) (key : ρ → κ) where
  rows : List ρ
  /-- No two rows share a key. -/
  distinct : (rows.map key).Nodup

namespace KeyedTable

variable {ρ κ : Type*} {key : ρ → κ}

/-- The table without rows. -/
def empty : KeyedTable ρ κ key where
  rows := []
  distinct := by simp

/-- Some row has the given key. -/
def Has (table : KeyedTable ρ κ key) (wanted : κ) : Prop :=
  ∃ row ∈ table.rows, key row = wanted

theorem has_iff_mem_keys
    (table : KeyedTable ρ κ key)
    (wanted : κ) :
    table.Has wanted ↔ wanted ∈ table.rows.map key := by
  simp [Has]

/-- Two rows of a table with one key are the same row. -/
theorem row_unique
    (table : KeyedTable ρ κ key)
    {first second : ρ}
    (firstIn : first ∈ table.rows)
    (secondIn : second ∈ table.rows)
    (sameKey : key first = key second) :
    first = second :=
  List.inj_on_of_nodup_map table.distinct firstIn secondIn sameKey

variable [DecidableEq κ]

/-- In a list with distinct keys, one row has the key of a row. -/
theorem filter_key_eq_singleton
    {rows : List ρ}
    {row : ρ}
    (distinct : (rows.map key).Nodup)
    (present : row ∈ rows) :
    rows.filter (fun other => key other = key row) = [row] := by
  induction rows with
  | nil => cases present
  | cons head rest inductionHypothesis =>
      rw [List.map_cons, List.nodup_cons] at distinct
      rcases List.mem_cons.mp present with rfl | later
      · have none : rest.filter (fun other => key other = key row) = [] := by
          rw [List.filter_eq_nil_iff]
          intro other otherIn same
          exact distinct.1 (of_decide_eq_true same ▸ List.mem_map_of_mem otherIn)
        simp [none]
      · have different : key head ≠ key row := fun same =>
          distinct.1 (same ▸ List.mem_map_of_mem later)
        simpa [different] using inductionHypothesis distinct.2 later

instance (table : KeyedTable ρ κ key) (wanted : κ) : Decidable (table.Has wanted) :=
  decidable_of_iff _ (table.has_iff_mem_keys wanted).symm

/-- Change the row with the given key by a function that keeps keys. -/
def modify
    (table : KeyedTable ρ κ key)
    (wanted : κ)
    (change : ρ → ρ)
    (keeps : ∀ row, key (change row) = key row) : KeyedTable ρ κ key where
  rows := table.rows.map fun row => if key row = wanted then change row else row
  distinct := by
    have same : (table.rows.map fun row =>
        if key row = wanted then change row else row).map key =
        table.rows.map key := by
      rw [List.map_map]
      apply List.map_congr_left
      intro row _
      simp only [Function.comp_apply]
      split <;> simp [keeps]
    rw [same]
    exact table.distinct

/-- Insert a row, or change the row that already has its key. -/
def upsert
    (table : KeyedTable ρ κ key)
    (row : ρ)
    (onConflict : ρ → ρ)
    (keeps : ∀ row, key (onConflict row) = key row) : KeyedTable ρ κ key :=
  if taken : table.Has (key row) then table.modify (key row) onConflict keeps
  else
    { rows := table.rows ++ [row]
      distinct := by
        rw [has_iff_mem_keys] at taken
        rw [List.map_append, List.nodup_append]
        refine ⟨table.distinct, by simp, ?_⟩
        intro first firstIn second secondIn
        simp only [List.map_cons, List.map_nil, List.mem_singleton] at secondIn
        rintro rfl
        exact taken (secondIn ▸ firstIn) }

/-- Delete the row with the given key. -/
def erase (table : KeyedTable ρ κ key) (wanted : κ) : KeyedTable ρ κ key where
  rows := table.rows.filter fun row => key row ≠ wanted
  distinct := table.distinct.sublist (List.filter_sublist.map key)

theorem mem_modify_rows
    {table : KeyedTable ρ κ key}
    {wanted : κ}
    {change : ρ → ρ}
    {keeps : ∀ row, key (change row) = key row}
    {row : ρ} :
    row ∈ (table.modify wanted change keeps).rows ↔
      (row ∈ table.rows ∧ key row ≠ wanted) ∨
        ∃ old ∈ table.rows, key old = wanted ∧ change old = row := by
  simp only [modify, List.mem_map]
  constructor
  · rintro ⟨old, oldIn, rfl⟩
    split
    · next sameKey => exact Or.inr ⟨old, oldIn, sameKey, rfl⟩
    · next otherKey => exact Or.inl ⟨oldIn, otherKey⟩
  · rintro (⟨rowIn, otherKey⟩ | ⟨old, oldIn, sameKey, rfl⟩)
    · exact ⟨row, rowIn, if_neg otherKey⟩
    · exact ⟨old, oldIn, if_pos sameKey⟩

@[simp] theorem has_modify
    (table : KeyedTable ρ κ key)
    (wanted other : κ)
    (change : ρ → ρ)
    (keeps : ∀ row, key (change row) = key row) :
    (table.modify wanted change keeps).Has other ↔ table.Has other := by
  simp only [Has, mem_modify_rows]
  constructor
  · rintro ⟨row, ⟨rowIn, _⟩ | ⟨old, oldIn, _, rfl⟩, rfl⟩
    · exact ⟨row, rowIn, rfl⟩
    · exact ⟨old, oldIn, (keeps old).symm⟩
  · rintro ⟨row, rowIn, rfl⟩
    by_cases same : key row = wanted
    · exact ⟨change row, Or.inr ⟨row, rowIn, same, rfl⟩, keeps row⟩
    · exact ⟨row, Or.inl ⟨rowIn, same⟩, rfl⟩

@[simp] theorem has_upsert
    (table : KeyedTable ρ κ key)
    (row : ρ)
    (onConflict : ρ → ρ)
    (keeps : ∀ row, key (onConflict row) = key row)
    (other : κ) :
    (table.upsert row onConflict keeps).Has other ↔
      other = key row ∨ table.Has other := by
  unfold upsert
  split
  · next taken =>
      rw [has_modify]
      constructor
      · exact Or.inr
      · rintro (rfl | present)
        · exact taken
        · exact present
  · simp only [Has, List.mem_append, List.mem_singleton]
    constructor
    · rintro ⟨found, present | rfl, rfl⟩
      · exact Or.inr ⟨found, present, rfl⟩
      · exact Or.inl rfl
    · rintro (rfl | ⟨found, present, rfl⟩)
      · exact ⟨row, Or.inr rfl, rfl⟩
      · exact ⟨found, Or.inl present, rfl⟩

/-- Every row after an upsert is the new row, an old row under another key, or
the changed row under its key. -/
theorem mem_upsert_rows
    {table : KeyedTable ρ κ key}
    {row found : ρ}
    {onConflict : ρ → ρ}
    {keeps : ∀ row, key (onConflict row) = key row}
    (present : found ∈ (table.upsert row onConflict keeps).rows) :
    found ∈ table.rows ∨ (found = row ∧ ¬ table.Has (key row)) ∨
      ∃ old ∈ table.rows, key old = key row ∧ onConflict old = found := by
  unfold upsert at present
  split at present
  · rcases mem_modify_rows.mp present with ⟨rowIn, _⟩ | changed
    · exact Or.inl rowIn
    · exact Or.inr (Or.inr changed)
  · next free =>
      rcases List.mem_append.mp present with rowIn | isNew
      · exact Or.inl rowIn
      · exact Or.inr (Or.inl ⟨List.mem_singleton.mp isNew, free⟩)

/-- An upsert leaves the rows under other keys. -/
theorem mem_upsert_rows_of_ne
    {table : KeyedTable ρ κ key}
    {row found : ρ}
    {onConflict : ρ → ρ}
    {keeps : ∀ row, key (onConflict row) = key row}
    (present : found ∈ table.rows)
    (different : key found ≠ key row) :
    found ∈ (table.upsert row onConflict keeps).rows := by
  unfold upsert
  split
  · exact mem_modify_rows.mpr (Or.inl ⟨present, different⟩)
  · exact List.mem_append_left _ present

/-- After an upsert the key has the new row, or what has become of the old one. -/
theorem exists_mem_upsert_rows
    (table : KeyedTable ρ κ key)
    (row : ρ)
    (onConflict : ρ → ρ)
    (keeps : ∀ row, key (onConflict row) = key row) :
    ∃ found ∈ (table.upsert row onConflict keeps).rows, key found = key row ∧
      (found = row ∨ table.Has (key row) ∧ ∃ old, onConflict old = found) := by
  unfold upsert
  split
  · next taken =>
      obtain ⟨old, present, same⟩ := taken
      refine ⟨onConflict old, mem_modify_rows.mpr (Or.inr ⟨old, present, same, rfl⟩), ?_, ?_⟩
      · rw [keeps, same]
      · exact Or.inr ⟨⟨old, present, same⟩, old, rfl⟩
  · exact ⟨row, List.mem_append_right _ (List.mem_singleton_self row), rfl, Or.inl rfl⟩

@[simp] theorem mem_erase_rows
    {table : KeyedTable ρ κ key}
    {wanted : κ}
    {row : ρ} :
    row ∈ (table.erase wanted).rows ↔ row ∈ table.rows ∧ key row ≠ wanted := by
  simp [erase]

@[simp] theorem has_erase
    (table : KeyedTable ρ κ key)
    (wanted other : κ) :
    (table.erase wanted).Has other ↔ table.Has other ∧ other ≠ wanted := by
  simp only [Has, mem_erase_rows]
  constructor
  · rintro ⟨row, ⟨rowIn, different⟩, rfl⟩
    exact ⟨⟨row, rowIn, rfl⟩, different⟩
  · rintro ⟨⟨row, rowIn, rfl⟩, different⟩
    exact ⟨row, ⟨rowIn, different⟩, rfl⟩

/-- The row with a key. -/
def lookup (table : KeyedTable ρ κ key) (wanted : κ) : Option ρ :=
  table.rows.find? fun row => key row = wanted

theorem lookup_eq_some_iff
    {table : KeyedTable ρ κ key}
    {wanted : κ}
    {row : ρ} :
    table.lookup wanted = some row ↔ row ∈ table.rows ∧ key row = wanted := by
  constructor
  · intro found
    exact ⟨List.mem_of_find?_eq_some found, of_decide_eq_true (List.find?_some found :)⟩
  · rintro ⟨present, rfl⟩
    cases found : table.lookup (key row) with
    | none => exact absurd (decide_eq_true rfl) (List.find?_eq_none.mp found row present)
    | some other =>
        have sameKey : key other = key row := of_decide_eq_true (List.find?_some found :)
        rw [table.row_unique (List.mem_of_find?_eq_some found) present sameKey]

theorem lookup_modify
    (table : KeyedTable ρ κ key)
    (wanted other : κ)
    (change : ρ → ρ)
    (keeps : ∀ row, key (change row) = key row) :
    (table.modify wanted change keeps).lookup other =
      if other = wanted then (table.lookup other).map change else table.lookup other := by
  ext row
  rw [lookup_eq_some_iff, mem_modify_rows]
  split_ifs with same
  · subst same
    simp only [Option.map_eq_some_iff, lookup_eq_some_iff]
    constructor
    · rintro ⟨⟨_, different⟩ | ⟨old, present, sameKey, rfl⟩, isKey⟩
      · exact absurd isKey different
      · exact ⟨old, ⟨present, sameKey⟩, rfl⟩
    · rintro ⟨old, ⟨present, sameKey⟩, rfl⟩
      exact ⟨Or.inr ⟨old, present, sameKey, rfl⟩, (keeps old).trans sameKey⟩
  · rw [lookup_eq_some_iff]
    constructor
    · rintro ⟨⟨present, _⟩ | ⟨old, _, sameKey, rfl⟩, isKey⟩
      · exact ⟨present, isKey⟩
      · exact absurd (isKey.symm.trans ((keeps old).trans sameKey)) same
    · rintro ⟨present, isKey⟩
      exact ⟨Or.inl ⟨present, fun sameKey => same (isKey.symm.trans sameKey)⟩, isKey⟩

theorem lookup_erase (table : KeyedTable ρ κ key) (wanted other : κ) :
    (table.erase wanted).lookup other = if other = wanted then none else table.lookup other := by
  ext row
  rw [lookup_eq_some_iff, mem_erase_rows]
  split_ifs with same
  · subst same
    simp
  · rw [lookup_eq_some_iff]
    constructor
    · exact fun found => ⟨found.1.1, found.2⟩
    · exact fun found => ⟨⟨found.1, fun sameKey => same (found.2.symm.trans sameKey)⟩, found.2⟩

theorem lookup_eq_none_iff
    {table : KeyedTable ρ κ key}
    {wanted : κ} :
    table.lookup wanted = none ↔ ¬ table.Has wanted := by
  simp [lookup, Has]

theorem lookup_upsert
    (table : KeyedTable ρ κ key)
    (row : ρ)
    (onConflict : ρ → ρ)
    (keeps : ∀ row, key (onConflict row) = key row)
    (other : κ) :
    (table.upsert row onConflict keeps).lookup other =
      if other = key row then some (((table.lookup other).map onConflict).getD row)
      else table.lookup other := by
  unfold upsert
  split
  · next taken =>
      rw [lookup_modify]
      split_ifs with same
      · subst same
        obtain ⟨old, found⟩ := Option.ne_none_iff_exists'.mp (mt lookup_eq_none_iff.mp
          (not_not.mpr taken))
        simp [found]
      · rfl
  · next free =>
      have absent := lookup_eq_none_iff.mpr free
      split_ifs with same
      · subst same
        rw [absent, Option.map_none, Option.getD_none, lookup_eq_some_iff]
        exact ⟨List.mem_append_right _ (List.mem_singleton_self row), rfl⟩
      · ext found
        simp only [lookup_eq_some_iff, List.mem_append, List.mem_singleton]
        constructor
        · rintro ⟨present | rfl, rfl⟩
          · exact ⟨present, rfl⟩
          · exact absurd rfl same
        · rintro ⟨present, isKey⟩
          exact ⟨Or.inl present, isKey⟩

end KeyedTable

end Foundation
