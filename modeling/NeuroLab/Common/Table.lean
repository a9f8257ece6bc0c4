import Mathlib.Data.List.Nodup

/-!
# Tables with a primary key

A table is a list of rows, in insertion order, whose keys are distinct. The
operations are the SQL statements a program issues against such a table: an
`INSERT ... ON CONFLICT DO NOTHING`, an `UPDATE ... WHERE` that leaves the key
alone, a `DELETE ... WHERE` and the lookup of one key. Each of them keeps the
keys distinct, so a table with two rows of one key cannot be built, and each
comes with the lemma that says what a lookup sees afterwards.
-/

namespace NeuroLab.Common

variable {ρ κ : Type*}

/-- Rows of type `ρ` with distinct primary keys. -/
structure Table (key : ρ → κ) where
  rows : List ρ
  nodup : (rows.map key).Nodup

namespace Table

variable {key : ρ → κ}

/-- The table of a freshly created schema. -/
def empty : Table key := ⟨[], List.nodup_nil⟩

/-- `UPDATE ... SET ... WHERE`, for an assignment that does not touch the key. -/
def update (t : Table key) (sel : ρ → Bool) (set : ρ → ρ) (hset : ∀ r, key (set r) = key r) :
    Table key :=
  ⟨t.rows.map fun r => if sel r then set r else r, by
    have hkeys : (t.rows.map fun r => if sel r then set r else r).map key = t.rows.map key := by
      rw [List.map_map]
      refine List.map_congr_left fun r _ => ?_
      by_cases hr : sel r <;> simp [hr, hset]
    rw [hkeys]
    exact t.nodup⟩

/-- `DELETE ... WHERE`. -/
def delete (t : Table key) (sel : ρ → Bool) : Table key :=
  ⟨t.rows.filter fun r => !sel r, (List.filter_sublist.map key).nodup t.nodup⟩

/-- Two stored rows with one key are the same row. -/
theorem eq_of_key_eq (t : Table key) {r r' : ρ} (hr : r ∈ t.rows) (hr' : r' ∈ t.rows)
    (h : key r = key r') : r = r' :=
  List.inj_on_of_nodup_map t.nodup hr hr' h

variable [DecidableEq κ]

/-- The row stored under a key. -/
def find? (t : Table key) (k : κ) : Option ρ :=
  t.rows.find? fun r => decide (key r = k)

/-- `INSERT ... ON CONFLICT (key) DO NOTHING`. -/
def insert (t : Table key) (row : ρ) : Table key :=
  if h : key row ∈ t.rows.map key then t
  else ⟨t.rows ++ [row], by
    rw [List.map_append, List.nodup_append]
    refine ⟨t.nodup, List.nodup_singleton _, ?_⟩
    rintro a ha b hb rfl
    exact h ((List.mem_singleton.mp hb) ▸ ha)⟩

/-- A key is absent exactly when no stored row carries it. -/
theorem find?_eq_none_iff (t : Table key) (k : κ) :
    t.find? k = none ↔ ∀ r ∈ t.rows, key r ≠ k := by
  simp [find?]

/-- A lookup returns the stored row of that key, and finds every stored row. -/
theorem find?_eq_some_iff (t : Table key) (k : κ) (r : ρ) :
    t.find? k = some r ↔ r ∈ t.rows ∧ key r = k := by
  have sound : ∀ r', t.find? k = some r' → r' ∈ t.rows ∧ key r' = k := fun r' h =>
    ⟨List.mem_of_find?_eq_some h, by simpa using List.find?_some h⟩
  refine ⟨sound r, fun ⟨hr, hkey⟩ => ?_⟩
  cases h : t.find? k with
  | none => exact absurd hkey ((t.find?_eq_none_iff k).mp h r hr)
  | some r' =>
    obtain ⟨hr', hkey'⟩ := sound r' h
    rw [t.eq_of_key_eq hr' hr (hkey'.trans hkey.symm)]

@[simp] theorem find?_empty (k : κ) : (empty : Table key).find? k = none := rfl

/-- The row found under a key carries that key. -/
theorem key_of_find? {t : Table key} {k : κ} {r : ρ} (h : t.find? k = some r) : key r = k :=
  ((t.find?_eq_some_iff k r).mp h).2

/-- After a conflict-tolerant insertion the old row wins, and the new row is seen otherwise. -/
theorem find?_insert (t : Table key) (row : ρ) (k : κ) :
    (t.insert row).find? k = (t.find? k).or (if key row = k then some row else none) := by
  unfold insert
  split
  next h =>
    obtain ⟨old, hold, hkey⟩ := List.mem_map.mp h
    by_cases hk : key row = k
    · have hfound := (t.find?_eq_some_iff k old).mpr ⟨hold, hkey.trans hk⟩
      rw [hfound, Option.some_or]
    · simp [hk]
  next h =>
    by_cases hk : key row = k <;> simp [find?, List.find?_append, hk]

/-- An update rewrites the selected rows in place. -/
@[simp] theorem find?_update (t : Table key) (sel : ρ → Bool) (set : ρ → ρ)
    (hset : ∀ r, key (set r) = key r) (k : κ) :
    (t.update sel set hset).find? k = (t.find? k).map fun r => if sel r then set r else r := by
  have hpred : ((fun r => decide (key r = k)) ∘ fun r => if sel r then set r else r) =
      fun r => decide (key r = k) := by
    funext r
    by_cases hr : sel r <;> simp [hr, hset]
  simp only [find?, update, List.find?_map, hpred]

/-- A deletion hides the selected rows. -/
theorem find?_delete (t : Table key) (sel : ρ → Bool) (k : κ) :
    (t.delete sel).find? k = (t.find? k).filter fun r => !sel r := by
  cases h : t.find? k with
  | none =>
    rw [Option.filter_none, find?_eq_none_iff]
    intro r hr
    exact (t.find?_eq_none_iff k).mp h r (List.mem_of_mem_filter hr)
  | some r =>
    obtain ⟨hmem, hkey⟩ := (t.find?_eq_some_iff k r).mp h
    by_cases hr : sel r
    · simp only [Option.filter_some, hr, Bool.not_true, Bool.false_eq_true, if_false]
      rw [find?_eq_none_iff]
      rintro r' hr' rfl
      obtain ⟨hmem', hsel'⟩ := List.mem_filter.mp hr'
      rw [t.eq_of_key_eq hmem hmem' hkey] at hr
      simp [hr] at hsel'
    · simp only [Option.filter_some, hr, Bool.not_false, if_true]
      exact (find?_eq_some_iff _ k r).mpr ⟨List.mem_filter.mpr ⟨hmem, by simp [hr]⟩, hkey⟩

/-- Row membership is lookup of the row's own key. -/
theorem mem_rows_iff (t : Table key) (r : ρ) : r ∈ t.rows ↔ t.find? (key r) = some r := by
  simp [find?_eq_some_iff]

end Table

end NeuroLab.Common
