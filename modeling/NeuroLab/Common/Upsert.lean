import NeuroLab.Common.Table

/-!
# Upserts and second unique keys

`INSERT ... ON CONFLICT (key) DO UPDATE SET ...` against the primary key of a table, and
tables that carry a second unique key, the one their upserts conflict on. The second key
is distinct on the stored rows by construction; an insertion under a used primary key
fails. Each operation comes with what a lookup sees afterwards.
-/

namespace NeuroLab.Common

variable {ρ κ ι : Type*} {key : ρ → κ} {alt : ρ → ι} [DecidableEq κ] [DecidableEq ι]

namespace Table

/-- `INSERT ... ON CONFLICT (key) DO UPDATE SET ...`, for an assignment that leaves the key alone. -/
def upsert (t : Table key) (row : ρ) (set : ρ → ρ) (hset : ∀ r, key (set r) = key r) : Table key :=
  if key row ∈ t.rows.map key then t.update (fun r => decide (key r = key row)) set hset else t.insert row

/-- A key is found exactly if a stored row carries it. -/
theorem mem_keys_iff (t : Table key) (k : κ) : k ∈ t.rows.map key ↔ (t.find? k).isSome := by
  rw [← not_iff_not, Option.not_isSome_iff_eq_none, find?_eq_none_iff]
  simp

/-- An upsert touches one key: the stored row is assigned, or the new row is stored. -/
theorem find?_upsert (t : Table key) (row : ρ) (set : ρ → ρ) (hset : ∀ r, key (set r) = key r) (k : κ) :
    (t.upsert row set hset).find? k =
      if key row = k then some (((t.find? k).map set).getD row) else t.find? k := by
  unfold upsert
  by_cases hmem : key row ∈ t.rows.map key
  · rw [if_pos hmem, find?_update]
    cases hk : t.find? k with
    | none =>
      have hne : key row ≠ k := by
        intro heq
        have hsome := (t.mem_keys_iff _).mp hmem
        rw [heq, hk] at hsome
        cases hsome
      rw [if_neg hne, Option.map_none]
    | some r =>
      have hr : key r = k := key_of_find? hk
      by_cases hrow : key row = k
      · simp [hr, hrow]
      · simp [hr, hrow, Ne.symm hrow]
  · rw [if_neg hmem, find?_insert]
    have hnone : t.find? (key row) = none := by
      rw [← Option.not_isSome_iff_eq_none, ← t.mem_keys_iff]
      exact hmem
    by_cases hrow : key row = k
    · subst hrow
      simp [hnone]
    · simp [hrow]

end Table

/-- A table with a second unique key. -/
structure Indexed (key : ρ → κ) (alt : ρ → ι) extends Table key where
  altNodup : (rows.map alt).Nodup

namespace Indexed

/-- The table of a freshly created schema. -/
def empty : Indexed key alt := ⟨.empty, List.nodup_nil⟩

/-- The row a second key is taken by. -/
def taken? (t : Indexed key alt) (i : ι) : Option ρ := t.rows.find? fun r => decide (alt r = i)

/-- `UPDATE ... SET ... WHERE`, for an assignment that leaves both keys alone. -/
def update (t : Indexed key alt) (sel : ρ → Bool) (set : ρ → ρ) (hkey : ∀ r, key (set r) = key r)
    (halt : ∀ r, alt (set r) = alt r) : Indexed key alt :=
  ⟨t.toTable.update sel set hkey, by
    have hkeys : ((t.toTable.update sel set hkey).rows.map alt) = t.rows.map alt := by
      rw [Table.update, List.map_map]
      refine List.map_congr_left fun r _ => ?_
      by_cases hr : sel r <;> simp [hr, halt]
    rw [hkeys]
    exact t.altNodup⟩

/-- `DELETE ... WHERE`. -/
def delete (t : Indexed key alt) (sel : ρ → Bool) : Indexed key alt :=
  ⟨t.toTable.delete sel, (List.filter_sublist.map alt).nodup t.altNodup⟩

/-- Store a row neither of whose keys is taken. -/
def append (t : Indexed key alt) (row : ρ) (hkey : key row ∉ t.rows.map key) (halt : alt row ∉ t.rows.map alt) :
    Indexed key alt :=
  ⟨t.toTable.insert row, by
    have hrows : (t.toTable.insert row).rows = t.rows ++ [row] := by rw [Table.insert, dif_neg hkey]
    rw [hrows, List.map_append, List.nodup_append]
    refine ⟨t.altNodup, List.nodup_singleton _, ?_⟩
    rintro a ha b hb rfl
    exact halt ((List.mem_singleton.mp hb) ▸ ha)⟩

/-- `INSERT ... ON CONFLICT (alt) DO UPDATE SET ... WHERE ... RETURNING`: the table and the row returned,
if any. Two rows may not share a primary key. -/
def upsert (t : Indexed key alt) (row : ρ) (sel : ρ → Bool) (set : ρ → ρ) (hkey : ∀ r, key (set r) = key r)
    (halt : ∀ r, alt (set r) = alt r) : Option (Indexed key alt × Option ρ) :=
  match t.taken? (alt row) with
  | some r =>
    if sel r then some (t.update (fun r' => decide (key r' = key r)) set hkey halt, some (set r))
    else some (t, none)
  | none =>
    if h : key row ∉ t.rows.map key ∧ alt row ∉ t.rows.map alt then some (t.append row h.1 h.2, some row)
    else none

/-- `INSERT ... ON CONFLICT (alt) DO NOTHING RETURNING`. -/
def insertNew (t : Indexed key alt) (row : ρ) : Option (Indexed key alt × Option ρ) :=
  t.upsert row (fun _ => false) (fun r => r) (fun _ => rfl) fun _ => rfl

omit [DecidableEq κ] in
/-- A second key is free exactly when no stored row carries it. -/
theorem taken?_eq_none_iff (t : Indexed key alt) (i : ι) : t.taken? i = none ↔ i ∉ t.rows.map alt := by
  simp [taken?]

/-- The row that takes a second key is stored and carries it. -/
theorem taken?_eq_some {t : Indexed key alt} {i : ι} {r : ρ} (h : t.taken? i = some r) :
    t.find? (key r) = some r ∧ alt r = i :=
  ⟨(t.mem_rows_iff r).mp (List.mem_of_find?_eq_some h), by simpa using List.find?_some h⟩

omit [DecidableEq ι] in
@[simp] theorem find?_empty (k : κ) : (empty : Indexed key alt).find? k = none := rfl

omit [DecidableEq ι] in
/-- An update rewrites the selected rows in place. -/
theorem find?_update (t : Indexed key alt) (sel : ρ → Bool) (set : ρ → ρ) (hkey : ∀ r, key (set r) = key r)
    (halt : ∀ r, alt (set r) = alt r) (k : κ) :
    (t.update sel set hkey halt).find? k = (t.find? k).map fun r => if sel r then set r else r :=
  t.toTable.find?_update sel set hkey k

omit [DecidableEq κ] [DecidableEq ι] in
/-- A table is its rows. -/
theorem eq_of_rows {t t' : Indexed key alt} (h : t.rows = t'.rows) : t = t' := by
  obtain ⟨⟨rows, _⟩, _⟩ := t
  obtain ⟨⟨rows', _⟩, _⟩ := t'
  cases h
  rfl

omit [DecidableEq κ] [DecidableEq ι] in
/-- An update that selects no row keeps the table. -/
theorem update_eq_self (t : Indexed key alt) (sel : ρ → Bool) (set : ρ → ρ) (hkey : ∀ r, key (set r) = key r)
    (halt : ∀ r, alt (set r) = alt r) (h : ∀ r ∈ t.rows, sel r = false) : t.update sel set hkey halt = t := by
  refine eq_of_rows ?_
  change t.rows.map _ = _
  conv_rhs => rw [← List.map_id t.rows]
  refine List.map_congr_left fun r hr => ?_
  rw [h r hr]
  rfl

omit [DecidableEq κ] in
/-- A stored row takes its second key. -/
theorem taken?_of_mem (t : Indexed key alt) {r : ρ} (h : r ∈ t.rows) : t.taken? (alt r) = some r := by
  cases htaken : t.taken? (alt r) with
  | none => exact absurd (List.mem_map_of_mem h) ((t.taken?_eq_none_iff _).mp htaken)
  | some r' =>
    have hr' : r' ∈ t.rows ∧ alt r' = alt r := ⟨List.mem_of_find?_eq_some htaken, by simpa using List.find?_some htaken⟩
    rw [List.inj_on_of_nodup_map t.altNodup hr'.1 h hr'.2]

/-- A row found under its primary key takes its second key. -/
theorem taken?_of_find? {t : Indexed key alt} {k : κ} {r : ρ} (h : t.find? k = some r) : t.taken? (alt r) = some r :=
  t.taken?_of_mem ((t.find?_eq_some_iff k r).mp h).1

omit [DecidableEq ι] in
/-- An update of one key, the only one it selects. -/
theorem find?_update_one (t : Indexed key alt) (sel : ρ → Bool) (set : ρ → ρ) (hkey : ∀ r, key (set r) = key r)
    (halt : ∀ r, alt (set r) = alt r) {k : κ} {r : ρ} (hr : t.find? k = some r) (hsel : sel r = true)
    (honly : ∀ r, sel r = true → key r = k) (k' : κ) :
    (t.update sel set hkey halt).find? k' = if k = k' then some (set r) else t.find? k' := by
  rw [find?_update]
  by_cases hk : k = k'
  · subst hk
    simp [hr, hsel]
  · rw [if_neg hk]
    cases hother : t.find? k' with
    | none => rfl
    | some r' =>
      have hne : ¬sel r' = true := fun h => hk ((honly r' h).symm.trans (Table.key_of_find? hother))
      simp [hne]

omit [DecidableEq ι] in
/-- An update of one key under a condition keeps a table whose row does not meet it. -/
theorem update_guarded_of_none (t : Indexed key alt) (p : ρ → Bool) (set : ρ → ρ) (hkey : ∀ r, key (set r) = key r)
    (halt : ∀ r, alt (set r) = alt r) {k : κ} (h : (t.find? k).filter (fun r => decide (key r = k) && p r) = none) :
    t.update (fun r => decide (key r = k) && p r) set hkey halt = t := by
  refine update_eq_self _ _ _ _ _ fun r hr => ?_
  by_cases hk : key r = k
  · have hfound := (t.mem_rows_iff r).mp hr
    rw [hk] at hfound
    rw [hfound, Option.filter_eq_none_iff] at h
    exact (Bool.not_eq_true _).mp (h r rfl)
  · rw [decide_eq_false hk, Bool.false_and]

omit [DecidableEq ι] in
/-- An update of one key under a condition sets the row that meets it. -/
theorem find?_update_guarded (t : Indexed key alt) (p : ρ → Bool) (set : ρ → ρ) (hkey : ∀ r, key (set r) = key r)
    (halt : ∀ r, alt (set r) = alt r) {k : κ} {r : ρ}
    (h : (t.find? k).filter (fun r => decide (key r = k) && p r) = some r) :
    t.find? k = some r ∧ key r = k ∧ p r = true ∧
      ∀ k', (t.update (fun r => decide (key r = k) && p r) set hkey halt).find? k' =
        if k = k' then some (set r) else t.find? k' := by
  obtain ⟨hfound, hsel⟩ := Option.filter_eq_some_iff.mp h
  obtain ⟨hk, hp⟩ := Bool.and_eq_true_iff.mp hsel
  have honly : ∀ r', (decide (key r' = k) && p r') = true → key r' = k := fun r' h' =>
    of_decide_eq_true (Bool.and_eq_true_iff.mp h').1
  exact ⟨hfound, of_decide_eq_true hk, hp, t.find?_update_one _ set hkey halt hfound hsel honly⟩

/-- Under two free keys an upsert stores the new row. -/
theorem upsert_of_free (t : Indexed key alt) {row : ρ} (sel : ρ → Bool) (set : ρ → ρ) (hkey : ∀ r, key (set r) = key r)
    (halt : ∀ r, alt (set r) = alt r) (hfree : t.find? (key row) = none) (htaken : t.taken? (alt row) = none) :
    ∃ t', t.upsert row sel set hkey halt = some (t', some row) ∧
      ∀ k, t'.find? k = if key row = k then some row else t.find? k := by
  have hkeys : key row ∉ t.rows.map key := by
    rw [t.mem_keys_iff, hfree]
    exact Bool.false_ne_true
  have hboth := And.intro hkeys ((t.taken?_eq_none_iff _).mp htaken)
  refine ⟨t.append row hboth.1 hboth.2, ?_, fun k => ?_⟩
  · unfold upsert
    rw [htaken]
    exact dif_pos hboth
  · change (t.toTable.insert row).find? k = _
    rw [Table.find?_insert]
    by_cases hk : key row = k
    · subst hk
      simp [hfree]
    · simp [hk]

/-- A row that conflicts and is selected is assigned. -/
theorem upsert_of_taken (t : Indexed key alt) {row r : ρ} {sel : ρ → Bool} (set : ρ → ρ)
    (hkey : ∀ r, key (set r) = key r) (halt : ∀ r, alt (set r) = alt r) (htaken : t.taken? (alt row) = some r)
    (hsel : sel r = true) :
    ∃ t', t.upsert row sel set hkey halt = some (t', some (set r)) ∧
      ∀ k, t'.find? k = if key r = k then some (set r) else t.find? k := by
  refine ⟨t.update (fun r' => decide (key r' = key r)) set hkey halt, ?_, ?_⟩
  · unfold upsert
    rw [htaken]
    exact if_pos hsel
  · exact t.find?_update_one _ set hkey halt (taken?_eq_some htaken).1 (decide_eq_true rfl)
      fun r' h => of_decide_eq_true h

/-- An upsert under a free primary key returns a row, unless the row in conflict is not selected. -/
theorem exists_upsert (t : Indexed key alt) {row : ρ} (sel : ρ → Bool) (set : ρ → ρ) (hkey : ∀ r, key (set r) = key r)
    (halt : ∀ r, alt (set r) = alt r) (hfree : t.find? (key row) = none)
    (hsel : ∀ r, t.taken? (alt row) = some r → sel r = true) :
    ∃ t' r, t.upsert row sel set hkey halt = some (t', some r) := by
  cases htaken : t.taken? (alt row) with
  | none =>
    obtain ⟨t', hupsert, -⟩ := t.upsert_of_free sel set hkey halt hfree htaken
    exact ⟨t', row, hupsert⟩
  | some r =>
    obtain ⟨t', hupsert, -⟩ := t.upsert_of_taken set hkey halt htaken (hsel r htaken)
    exact ⟨t', set r, hupsert⟩

/-- A row is inserted at the end, or the row it runs into is kept. -/
theorem insertNew_cases {t t' : Indexed key alt} {row : ρ} {returned : Option ρ}
    (h : t.insertNew row = some (t', returned)) :
    ((t.taken? (alt row)).isSome ∧ t' = t ∧ returned = none) ∨
      (t.taken? (alt row) = none ∧ key row ∉ t.rows.map key ∧ t'.rows = t.rows ++ [row] ∧ returned = some row) := by
  unfold insertNew upsert at h
  split at h
  next r htaken =>
    cases h
    exact Or.inl ⟨by rw [htaken]; rfl, rfl, rfl⟩
  next htaken =>
    split at h
    next hkeys =>
      cases h
      refine Or.inr ⟨htaken, hkeys.1, ?_, rfl⟩
      change (t.toTable.insert row).rows = _
      rw [Table.insert, dif_neg hkeys.1]
    next => cases h

/-- What an upsert does, as seen by lookups. -/
inductive Upserted (t : Indexed key alt) (row : ρ) (sel : ρ → Bool) (set : ρ → ρ) :
    Indexed key alt → Option ρ → Prop
  | updated {t' : Indexed key alt} {r : ρ} : t.taken? (alt row) = some r → sel r = true →
      (∀ k, t'.find? k = if key r = k then some (set r) else t.find? k) → Upserted t row sel set t' (some (set r))
  | kept {r : ρ} : t.taken? (alt row) = some r → sel r = false → Upserted t row sel set t none
  | inserted {t' : Indexed key alt} : t.taken? (alt row) = none → t.find? (key row) = none →
      (∀ k, t'.find? k = if key row = k then some row else t.find? k) → Upserted t row sel set t' (some row)

/-- An upsert updates the row in conflict, keeps it, or stores a new row. -/
theorem upsert_cases {t t' : Indexed key alt} {row : ρ} {sel : ρ → Bool} {set : ρ → ρ}
    {hkey : ∀ r, key (set r) = key r} {halt : ∀ r, alt (set r) = alt r} {returned : Option ρ}
    (h : t.upsert row sel set hkey halt = some (t', returned)) : Upserted t row sel set t' returned := by
  cases htaken : t.taken? (alt row) with
  | some r =>
    cases hsel : sel r with
    | true =>
      obtain ⟨t₁, hupsert, hfind⟩ := t.upsert_of_taken set hkey halt htaken hsel
      cases hupsert.symm.trans h
      exact .updated htaken hsel hfind
    | false =>
      rw [upsert, htaken] at h
      simp only [hsel] at h
      cases h
      exact .kept htaken hsel
  | none =>
    cases hfree : t.find? (key row) with
    | some r =>
      have hkeys : key row ∈ t.rows.map key := (t.mem_keys_iff _).mpr (by rw [hfree]; rfl)
      rw [upsert, htaken] at h
      simp [hkeys] at h
    | none =>
      obtain ⟨t₁, hupsert, hfind⟩ := t.upsert_of_free sel set hkey halt hfree htaken
      cases hupsert.symm.trans h
      exact .inserted htaken hfree hfind

/-- An upsert that returned no row kept the table. -/
theorem Upserted.eq_of_none {t t' : Indexed key alt} {row : ρ} {sel : ρ → Bool} {set : ρ → ρ}
    (h : Upserted t row sel set t' none) : t' = t := by
  cases h
  rfl

/-- The stored rows after an upsert: the row in conflict assigned, the new row, or a row as it was. -/
theorem Upserted.find? {t t' : Indexed key alt} {row r : ρ} {sel : ρ → Bool} {set : ρ → ρ} {returned : Option ρ}
    (h : Upserted t row sel set t' returned) {k : κ} (hr : t'.find? k = some r) :
    t.find? k = some r ∨ returned = some r := by
  cases h with
  | updated _ _ hfind =>
    rw [hfind] at hr
    split at hr
    · exact Or.inr hr
    · exact Or.inl hr
  | kept => exact Or.inl hr
  | inserted _ _ hfind =>
    rw [hfind] at hr
    split at hr
    · exact Or.inr hr
    · exact Or.inl hr

/-- A stored row survives an upsert, perhaps assigned. -/
theorem Upserted.kept_or_set {t t' : Indexed key alt} {row r : ρ} {sel : ρ → Bool} {set : ρ → ρ}
    {returned : Option ρ} (h : Upserted t row sel set t' returned) {k : κ} (hr : t.find? k = some r) :
    t'.find? k = some r ∨ t'.find? k = some (set r) := by
  cases h with
  | updated htaken _ hfind =>
    rw [hfind]
    split
    · next hk =>
      rw [← hk, (taken?_eq_some htaken).1] at hr
      exact Or.inr (congrArg (some ∘ set) (Option.some.inj hr))
    · exact Or.inl hr
  | kept => exact Or.inl hr
  | inserted _ hnone hfind =>
    rw [hfind]
    split
    · next hk =>
      rw [← hk, hnone] at hr
      cases hr
    · exact Or.inl hr

/-- A stored row that is not selected survives an upsert as it is. -/
theorem Upserted.kept_of_not_sel {t t' : Indexed key alt} {row r : ρ} {sel : ρ → Bool} {set : ρ → ρ}
    {returned : Option ρ} (h : Upserted t row sel set t' returned) {k : κ} (hr : t.find? k = some r)
    (hsel : sel r = false) : t'.find? k = some r := by
  cases h with
  | updated htaken hsel' hfind =>
    rw [hfind]
    split
    · next hk =>
      rw [← hk, (taken?_eq_some htaken).1] at hr
      cases hr
      rw [hsel'] at hsel
      cases hsel
    · exact hr
  | kept => exact hr
  | inserted _ hnone hfind =>
    rw [hfind]
    split
    · next hk =>
      rw [← hk, hnone] at hr
      cases hr
    · exact hr

/-- What holds of the stored rows holds after an upsert, if it holds of the new row and of the row assigned. -/
theorem Upserted.forall {t t' : Indexed key alt} {row : ρ} {sel : ρ → Bool} {set : ρ → ρ} {returned : Option ρ}
    {P : ρ → Prop} (h : Upserted t row sel set t' returned) (keep : ∀ k r, t.find? k = some r → P r) (hrow : P row)
    (hset : ∀ r, t.taken? (alt row) = some r → P (set r)) : ∀ k r, t'.find? k = some r → P r := by
  intro k r hr
  cases h with
  | updated htaken _ hfind =>
    rw [hfind] at hr
    split at hr
    · cases hr
      exact hset _ htaken
    · exact keep k r hr
  | kept => exact keep k r hr
  | inserted _ _ hfind =>
    rw [hfind] at hr
    split at hr
    · cases hr
      exact hrow
    · exact keep k r hr

/-- After an upsert a key is found if it was, or if it is the key of the row returned. -/
theorem Upserted.isSome_find? {t t' : Indexed key alt} {row r : ρ} {sel : ρ → Bool} {set : ρ → ρ}
    (h : Upserted t row sel set t' (some r)) (hset : ∀ r, key (set r) = key r) (k : κ) :
    (t'.find? k).isSome = (decide (key r = k) || (t.find? k).isSome) := by
  generalize hreturned : some r = returned at h
  cases h with
  | @updated _ r₀ _ _ hfind =>
    cases hreturned
    rw [hfind, hset]
    by_cases hk : key r₀ = k <;> simp [hk]
  | kept => cases hreturned
  | inserted _ _ hfind =>
    cases hreturned
    rw [hfind]
    by_cases hk : key row = k <;> simp [hk]

/-- The row an upsert returns is stored. -/
theorem Upserted.find?_returned {t t' : Indexed key alt} {row r : ρ} {sel : ρ → Bool} {set : ρ → ρ}
    (h : Upserted t row sel set t' (some r)) (hset : ∀ r, key (set r) = key r) : t'.find? (key r) = some r := by
  generalize hreturned : some r = returned at h
  cases h with
  | updated _ _ hfind =>
    cases hreturned
    rw [hfind, hset, if_pos rfl]
  | kept => cases hreturned
  | inserted _ _ hfind =>
    cases hreturned
    rw [hfind, if_pos rfl]

/-- The row an upsert returns has the alternative key of the row that was given. -/
theorem Upserted.alt_returned {t t' : Indexed key alt} {row r : ρ} {sel : ρ → Bool} {set : ρ → ρ}
    (h : Upserted t row sel set t' (some r)) (hset : ∀ r, alt (set r) = alt r) : alt r = alt row := by
  generalize hreturned : some r = returned at h
  cases h with
  | updated htaken _ _ =>
    cases hreturned
    exact (hset _).trans (taken?_eq_some htaken).2
  | kept => cases hreturned
  | inserted _ _ _ =>
    cases hreturned
    rfl

/-- An upsert leaves other keys than that of the row it returns. -/
theorem Upserted.find?_of_ne {t t' : Indexed key alt} {row r : ρ} {sel : ρ → Bool} {set : ρ → ρ}
    (h : Upserted t row sel set t' (some r)) (hset : ∀ r, key (set r) = key r) (k : κ) (hk : k ≠ key r) :
    t'.find? k = t.find? k := by
  generalize hreturned : some r = returned at h
  cases h with
  | updated _ _ hfind =>
    cases hreturned
    rw [hset] at hk
    rw [hfind, if_neg hk.symm]
  | kept => cases hreturned
  | inserted _ _ hfind =>
    cases hreturned
    rw [hfind, if_neg hk.symm]

end Indexed

end NeuroLab.Common
