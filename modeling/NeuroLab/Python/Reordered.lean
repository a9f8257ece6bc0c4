import Mathlib.Data.List.Perm.Basic
import NeuroLab.Python.JsonRoundTrip

/-!
# Objects up to the order of their members

A store may give an object back with its members in another order, at every level.
Such a value is still plain, no deeper, and holds the same atoms under the same keys.
-/

namespace NeuroLab.Python

namespace Json

mutual

/-- The second value is the first one with the members of its objects rearranged. -/
inductive Reordered : Json → Json → Prop
  | same (v : Json) : Reordered v v
  | arr {vs ws : List Json} : ReorderedItems vs ws → Reordered (.arr vs) (.arr ws)
  | obj {fs gs hs : List (Str × Json)} :
      ReorderedFields fs gs → gs.Perm hs → Reordered (.obj fs) (.obj hs)

/-- Item by item. -/
inductive ReorderedItems : List Json → List Json → Prop
  | nil : ReorderedItems [] []
  | cons {v w : Json} {vs ws : List Json} :
      Reordered v w → ReorderedItems vs ws → ReorderedItems (v :: vs) (w :: ws)

/-- Member by member, under the same key. -/
inductive ReorderedFields : List (Str × Json) → List (Str × Json) → Prop
  | nil : ReorderedFields [] []
  | cons (k : Str) {v w : Json} {fs gs : List (Str × Json)} :
      Reordered v w → ReorderedFields fs gs → ReorderedFields ((k, v) :: fs) ((k, w) :: gs)

end

theorem plainFields_iff (fs : List (Str × Json)) :
    plainFields fs = true ↔ ∀ f ∈ fs, f.2.plain = true := by
  induction fs with
  | nil => simp [plainFields]
  | cons f fs ih => simp [plainFields, ih]

theorem depthFields_le_iff (fs : List (Str × Json)) (d : ℕ) :
    depthFields fs ≤ d ↔ ∀ f ∈ fs, f.2.depth ≤ d := by
  induction fs with
  | nil => simp [depthFields]
  | cons f fs ih => simp [depthFields, ih]

/-- Rearranging the members changes no key. -/
theorem ReorderedFields.keys : ∀ {fs gs : List (Str × Json)},
    ReorderedFields fs gs → gs.map Prod.fst = fs.map Prod.fst
  | [], _, .nil => rfl
  | _ :: _, _, .cons _ _ h => by rw [List.map_cons, List.map_cons, h.keys]

/-- Each member has its counterpart. -/
theorem ReorderedFields.mem : ∀ {fs gs : List (Str × Json)} {k : Str} {v : Json},
    ReorderedFields fs gs → (k, v) ∈ fs → ∃ w, Reordered v w ∧ (k, w) ∈ gs
  | _ :: _, _, k, v, .cons l hv h, hmem => by
    rcases List.mem_cons.mp hmem with heq | hmem
    · obtain ⟨rfl, rfl⟩ := Prod.mk.inj heq
      exact ⟨_, hv, List.mem_cons_self⟩
    · obtain ⟨w, hw, hmem'⟩ := h.mem hmem
      exact ⟨w, hw, List.mem_cons_of_mem _ hmem'⟩

mutual

/-- A rearranged value is plain and no deeper. -/
theorem Reordered.preserves : ∀ {v w : Json}, Reordered v w → v.plain = true →
    w.plain = true ∧ w.depth ≤ v.depth
  | .arr vs, _, .arr h, hv => by
    have := h.preserves hv
    exact ⟨this.1, Nat.add_le_add_right this.2 1⟩
  | .obj fs, _, @Reordered.obj _ gs hs h hperm, hv => by
    simp only [plain, Bool.and_eq_true, decide_eq_true_eq] at hv
    obtain ⟨hplain, hdepth⟩ := h.preserves hv.2
    have hnodup : (hs.map Prod.fst).Nodup :=
      (hperm.map Prod.fst).nodup_iff.mp (h.keys ▸ hv.1)
    have hplain' : plainFields hs = true := (plainFields_iff hs).mpr fun f hf =>
      (plainFields_iff gs).mp hplain f (hperm.mem_iff.mpr hf)
    have hdepth' : depthFields hs ≤ depthFields fs := (depthFields_le_iff hs _).mpr fun f hf =>
      (depthFields_le_iff gs _).mp hdepth f (hperm.mem_iff.mpr hf)
    exact ⟨by simp [plain, hnodup, hplain'], Nat.add_le_add_right hdepth' 1⟩
  | _, _, .same _, hv => ⟨hv, le_rfl⟩

theorem ReorderedItems.preserves : ∀ {vs ws : List Json}, ReorderedItems vs ws →
    plainItems vs = true → plainItems ws = true ∧ depthItems ws ≤ depthItems vs
  | [], _, .nil, h => ⟨h, le_rfl⟩
  | _ :: _, _, .cons hv hvs, h => by
    simp only [plainItems, Bool.and_eq_true] at h ⊢
    have hhead := hv.preserves h.1
    have htail := hvs.preserves h.2
    exact ⟨⟨hhead.1, htail.1⟩, max_le_max hhead.2 htail.2⟩

theorem ReorderedFields.preserves : ∀ {fs gs : List (Str × Json)}, ReorderedFields fs gs →
    plainFields fs = true → plainFields gs = true ∧ depthFields gs ≤ depthFields fs
  | [], _, .nil, h => ⟨h, le_rfl⟩
  | (_, _) :: _, _, .cons _ hv hvs, h => by
    simp only [plainFields, Bool.and_eq_true] at h ⊢
    have hhead := hv.preserves h.1
    have htail := hvs.preserves h.2
    exact ⟨⟨hhead.1, htail.1⟩, max_le_max hhead.2 htail.2⟩

end

/-- Under distinct keys a lookup finds exactly the members. -/
theorem get?_eq_some_iff {fs : List (Str × Json)} (h : (fs.map Prod.fst).Nodup) (k : Str) (v : Json) :
    get? fs k = some v ↔ (k, v) ∈ fs := by
  induction fs with
  | nil => simp [get?]
  | cons f fs ih =>
    obtain ⟨l, w⟩ := f
    rw [List.map_cons, List.nodup_cons] at h
    by_cases hl : l = k
    · subst hl
      have hnot : (l, v) ∉ fs := fun hmem => h.1 (List.mem_map.mpr ⟨_, hmem, rfl⟩)
      simp [get?, hnot, eq_comm]
    · have hcons : get? ((l, w) :: fs) k = get? fs k := by simp [get?, hl]
      rw [hcons, ih h.2, List.mem_cons]
      exact ⟨Or.inr, fun hmem => hmem.resolve_left fun heq => hl (Prod.mk.inj heq).1.symm⟩

/-- Rearranging an object keeps it one, and its texts under their keys. -/
theorem Reordered.texts {fs : List (Str × Json)} {w : Json} (h : Reordered (.obj fs) w)
    (hnodup : (fs.map Prod.fst).Nodup) :
    ∃ hs, w = .obj hs ∧ ∀ k s, get? fs k = some (.str s) → get? hs k = some (.str s) := by
  cases h with
  | same => exact ⟨fs, rfl, fun _ _ hk => hk⟩
  | @obj _ gs hs hfields hperm =>
    have hnodup' : (hs.map Prod.fst).Nodup := (hperm.map Prod.fst).nodup_iff.mp (hfields.keys ▸ hnodup)
    refine ⟨hs, rfl, fun k s hk => ?_⟩
    obtain ⟨v, hv, hmem⟩ := hfields.mem ((get?_eq_some_iff hnodup k _).mp hk)
    cases hv with
    | same => exact (get?_eq_some_iff hnodup' k _).mpr (hperm.mem_iff.mp hmem)

end Json

end NeuroLab.Python
