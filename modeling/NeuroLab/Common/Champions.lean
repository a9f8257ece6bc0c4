import Mathlib.Data.List.Dedup
import Mathlib.Data.List.MinMax

/-!
# The best item of each key

A fold that keeps one item for each key, and replaces it only by a later one of a higher rank,
keeps for each key the first item of the highest rank. Where the items of a key have one image,
the images of what is kept do not depend on the order of the items.
-/

namespace NeuroLab.Common

variable {α β κ ρ : Type} [DecidableEq κ] [LinearOrder ρ] (key : α → κ) (rank : α → ρ)

/-- One step of the fold. -/
def keepBest (kept : List α) (a : α) : List α :=
  match kept.find? fun previous => key previous = key a with
  | none => kept ++ [a]
  | some previous => if rank previous < rank a then kept.map fun b => if key b = key a then a else b else kept

/-- What the fold keeps. -/
def champions (items : List α) : List α := items.foldl (keepBest key rank) []

/-- The first item of the highest rank among those of a key. -/
def champion (items : List α) (k : κ) : Option α := (items.filter fun a => key a = k).argmax rank

variable {key rank}

theorem key_of_find? {kept : List α} {k : κ} {a : α} (h : (kept.find? fun b => key b = k) = some a) : key a = k := by
  have hfound := List.find?_some h
  exact of_decide_eq_true hfound

theorem champions_concat (items : List α) (a : α) :
    champions key rank (items ++ [a]) = keepBest key rank (champions key rank items) a :=
  List.foldl_concat (keepBest key rank) [] a items

/-! ## One item for each key -/

theorem map_key_replace (kept : List α) (a : α) :
    (kept.map fun b => if key b = key a then a else b).map key = kept.map key := by
  rw [List.map_map]
  apply List.map_congr_left
  intro b _
  by_cases h : key b = key a
  · exact (congrArg key (if_pos h)).trans h.symm
  · exact congrArg key (if_neg h)

theorem nodup_keepBest {kept : List α} (h : (kept.map key).Nodup) (a : α) : ((keepBest key rank kept a).map key).Nodup := by
  unfold keepBest
  split
  · rename_i hnone
    rw [List.map_append, List.map_singleton]
    refine List.nodup_append.mpr ⟨h, List.nodup_singleton _, ?_⟩
    rintro k hk _ hmem rfl
    rw [List.mem_singleton] at hmem
    obtain ⟨b, hb, rfl⟩ := List.mem_map.mp hk
    exact of_decide_eq_false (Bool.eq_false_iff.mpr (List.find?_eq_none.mp hnone b hb)) hmem
  · split
    · rwa [map_key_replace]
    · exact h

theorem nodup_champions (items : List α) : ((champions key rank items).map key).Nodup := by
  induction items using List.reverseRecOn with
  | nil => exact List.nodup_nil
  | append_singleton items a ih =>
    rw [champions_concat]
    exact nodup_keepBest ih a

/-- What a step leaves for a key. -/
theorem find?_keepBest (kept : List α) (a : α) (k : κ) :
    (keepBest key rank kept a).find? (fun b => key b = k) =
      if key a = k then
        match kept.find? fun b => key b = k with
        | none => some a
        | some previous => if rank previous < rank a then some a else some previous
      else kept.find? fun b => key b = k := by
  unfold keepBest
  by_cases hk : key a = k
  · subst hk
    rw [if_pos rfl]
    cases hfind : kept.find? fun b => key b = key a with
    | none => simp [List.find?_append, hfind]
    | some previous =>
      have hprevious := key_of_find? hfind
      simp only
      split
      · have hcomp : ((fun b => decide (key b = key a)) ∘ fun b => if key b = key a then a else b) =
            fun b => decide (key b = key a) := by
          funext b
          by_cases h : key b = key a <;> simp [h]
        rw [List.find?_map, hcomp, hfind, Option.map_some, if_pos hprevious]
      · exact hfind
  · rw [if_neg hk]
    split
    · rw [List.find?_append]
      simp [hk]
    · split
      · have hcomp : ((fun b => decide (key b = k)) ∘ fun b => if key b = key a then a else b) = fun b => decide (key b = k) := by
          funext b
          by_cases h : key b = key a
          · simp [h, hk]
          · simp [h]
        rw [List.find?_map, hcomp]
        cases hfind : kept.find? fun b => key b = k with
        | none => rfl
        | some b =>
          have hb := key_of_find? hfind
          rw [Option.map_some, if_neg fun h => hk (h.symm.trans hb)]
      · rfl

/-- The fold keeps the first item of the highest rank. -/
theorem find?_champions (items : List α) (k : κ) :
    (champions key rank items).find? (fun a => key a = k) = champion key rank items k := by
  induction items using List.reverseRecOn with
  | nil => rfl
  | append_singleton items a ih =>
    rw [champions_concat, find?_keepBest, ih, champion, champion, List.filter_append]
    by_cases hk : key a = k
    · rw [if_pos hk, List.filter_singleton, decide_eq_true hk, Bool.cond_true, List.argmax_concat]
      cases (items.filter fun a => key a = k).argmax rank <;> rfl
    · rw [if_neg hk, List.filter_singleton, decide_eq_false hk, Bool.cond_false, List.append_nil]

theorem champion_mem {items : List α} {k : κ} {a : α} (h : champion key rank items k = some a) : a ∈ items ∧ key a = k := by
  obtain ⟨hmem, hkey⟩ := List.mem_filter.mp (List.argmax_mem h)
  exact ⟨hmem, of_decide_eq_true hkey⟩

theorem champion_eq_none_iff {items : List α} {k : κ} : champion key rank items k = none ↔ k ∉ items.map key := by
  rw [champion, List.argmax_eq_none, List.filter_eq_nil_iff, List.mem_map]
  simp only [decide_eq_true_eq, not_exists, not_and]

theorem mem_keys_champions {items : List α} {k : κ} : k ∈ (champions key rank items).map key ↔ k ∈ items.map key := by
  have hkept : champion key rank items k = none ↔ k ∉ (champions key rank items).map key := by
    rw [← find?_champions, List.find?_eq_none, List.mem_map]
    simp only [decide_eq_true_eq, not_exists, not_and]
  exact not_iff_not.mp (hkept.symm.trans champion_eq_none_iff)

/-- A list without repeated keys is what its keys find in it. -/
theorem eq_filterMap_find? {kept : List α} (h : (kept.map key).Nodup) :
    kept = (kept.map key).filterMap fun k => kept.find? fun a => key a = k := by
  induction kept with
  | nil => rfl
  | cons a kept ih =>
    rw [List.map_cons, List.nodup_cons] at h
    have hhead : ((a :: kept).find? fun b => key b = key a) = some a := List.find?_cons_of_pos (decide_eq_true rfl)
    rw [List.map_cons, List.filterMap_cons_some (f := fun k => (a :: kept).find? fun b => key b = k) hhead]
    congr 1
    refine (ih h.2).trans (List.filterMap_congr fun k hk => ?_)
    have hne : ¬key a = k := fun heq => h.1 (heq ▸ hk)
    exact (List.find?_cons_of_neg (by rwa [decide_eq_true_eq])).symm

theorem keys_champions_perm (items : List α) : ((champions key rank items).map key).Perm (items.map key).dedup :=
  (List.perm_ext_iff_of_nodup (nodup_champions items) (List.nodup_dedup _)).mpr fun k => by
    rw [mem_keys_champions, List.mem_dedup]

/-- What is kept is the best item of each key. -/
theorem champions_perm (items : List α) :
    (champions key rank items).Perm ((items.map key).dedup.filterMap (champion key rank items)) := by
  have hnodup : ((champions key rank items).map key).Nodup := nodup_champions items
  have heq := eq_filterMap_find? hnodup
  simp only [find?_champions] at heq
  rw [heq]
  exact (keys_champions_perm items).filterMap _

/-- What is kept was given. -/
theorem mem_of_mem_champions {items : List α} {a : α} (h : a ∈ champions key rank items) : a ∈ items := by
  rw [(champions_perm items).mem_iff, List.mem_filterMap] at h
  obtain ⟨k, -, hk⟩ := h
  exact (champion_mem hk).1

/-! ## Independence of the order -/

/-- The images of the best items do not depend on the order, where those of a key have one image. -/
theorem map_champions_perm {items items' : List α} (hperm : items.Perm items') (f : α → β)
    (hf : ∀ a ∈ items, ∀ b ∈ items, key a = key b → f a = f b) :
    ((champions key rank items).map f).Perm ((champions key rank items').map f) := by
  have himage : ∀ k, (champion key rank items k).map f = (champion key rank items' k).map f := by
    intro k
    have hnone : champion key rank items k = none ↔ champion key rank items' k = none := by
      rw [champion_eq_none_iff, champion_eq_none_iff, (hperm.map key).mem_iff]
    cases h : champion key rank items k with
    | none => rw [hnone.mp h]
    | some a =>
      cases h' : champion key rank items' k with
      | none =>
        rw [hnone.mpr h'] at h
        cases h
      | some b =>
        obtain ⟨ha, hka⟩ := champion_mem h
        obtain ⟨hb, hkb⟩ := champion_mem h'
        exact congrArg some (hf a ha b (hperm.mem_iff.mpr hb) (hka.trans hkb.symm))
  have hmap : ∀ items : List α, (((items.map key).dedup.filterMap (champion key rank items)).map f) =
      (items.map key).dedup.filterMap fun k => (champion key rank items k).map f :=
    fun items => List.map_filterMap
  refine ((champions_perm items).map f).trans (List.Perm.trans ?_ ((champions_perm items').map f).symm)
  rw [hmap, hmap, show (fun k => (champion key rank items k).map f) = fun k => (champion key rank items' k).map f from funext himage]
  exact ((hperm.map key).dedup).filterMap _

end NeuroLab.Common
