import Mathlib.Algebra.BigOperators.Group.List.Basic
import Mathlib.Algebra.Order.Group.Defs
import Mathlib.Algebra.Order.Group.Basic
import Mathlib.Data.List.Induction
import Mathlib.Order.Bounds.Basic

/-!
# Sums with a floor

A level that moves by given steps and never falls below zero. The level reached is the greatest
sum of the last steps, over all numbers of them, so it is above zero exactly if some last steps
rise in sum, whatever happened before them.
-/

namespace NeuroLab.Common

variable {α : Type*} [AddCommGroup α] [LinearOrder α]

/-- The level after the steps. -/
def floored (steps : List α) : α := steps.foldl (fun level step => max 0 (level + step)) 0

theorem floored_nil : floored ([] : List α) = 0 := rfl

theorem floored_concat (steps : List α) (step : α) : floored (steps ++ [step]) = max 0 (floored steps + step) := by
  rw [floored, List.foldl_concat, ← floored]

/-- The level is the sum of some last steps. -/
theorem exists_sum_eq_floored (steps : List α) : ∃ last, last <:+ steps ∧ last.sum = floored steps := by
  induction steps using List.reverseRecOn with
  | nil => exact ⟨[], List.suffix_rfl, rfl⟩
  | append_singleton steps step ih =>
    obtain ⟨last, hlast, hsum⟩ := ih
    rw [floored_concat]
    rcases le_total (floored steps + step) 0 with hfloor | hfloor
    · exact ⟨[], List.nil_suffix, by rw [max_eq_left hfloor, List.sum_nil]⟩
    · refine ⟨last ++ [step], List.suffix_concat_iff.mpr (Or.inr ⟨last, rfl, hlast⟩), ?_⟩
      rw [List.sum_append, List.sum_singleton, hsum, max_eq_right hfloor]

variable [IsOrderedAddMonoid α]

/-- The level is at least the sum of any last steps. -/
theorem sum_le_floored {steps last : List α} (h : last <:+ steps) : last.sum ≤ floored steps := by
  induction steps using List.reverseRecOn generalizing last with
  | nil => rw [List.suffix_nil.mp h, List.sum_nil, floored_nil]
  | append_singleton steps step ih =>
    rw [floored_concat]
    rcases List.suffix_concat_iff.mp h with rfl | ⟨last, rfl, hlast⟩
    · rw [List.sum_nil]
      exact le_max_left _ _
    · rw [List.sum_append, List.sum_singleton]
      exact (add_le_add_left (ih hlast) step).trans (le_max_right _ _)

/-- The level is the greatest sum of last steps. -/
theorem isGreatest_floored (steps : List α) :
    IsGreatest {sum | ∃ last, last <:+ steps ∧ last.sum = sum} (floored steps) :=
  ⟨exists_sum_eq_floored steps, by rintro _ ⟨last, hlast, rfl⟩; exact sum_le_floored hlast⟩

/-- The level is above zero if some last steps rise. -/
theorem floored_pos_iff {steps : List α} : 0 < floored steps ↔ ∃ last, last <:+ steps ∧ 0 < last.sum := by
  rw [lt_isLUB_iff (isGreatest_floored steps).isLUB]
  constructor
  · rintro ⟨_, ⟨last, hlast, rfl⟩, hrise⟩
    exact ⟨last, hlast, hrise⟩
  · rintro ⟨last, hlast, hrise⟩
    exact ⟨_, ⟨last, hlast, rfl⟩, hrise⟩

end NeuroLab.Common
