import Mathlib.Algebra.Order.Monoid.Defs
import Mathlib.Algebra.Order.Group.Nat

/-!
# Programs with a state and exceptions

How a program runs, construct by construct, and what a run costs: given a measure of the state
that the operations raise, a program costs at most an amount if a run from any state raises the
measure by no more, whether it returns or ends with an exception.
-/

namespace NeuroLab.Common

variable {σ ε α β R : Type}

/-- A program with a state that an exception leaves as it is. -/
abbrev Program (σ ε α : Type) := ExceptT ε (StateM σ) α

namespace Program

/-! ## Runs -/

/-- The result and the state behind a run. -/
def outcome (x : Program σ ε α) (s : σ) : Except ε α × σ := x.run.run s

/-- The state behind a run. -/
def after (x : Program σ ε α) (s : σ) : σ := (x.outcome s).2

variable (x : Program σ ε α) (f : α → Program σ ε β) (handler : ε → Program σ ε α) (s : σ)

@[simp] theorem outcome_pure (a : α) : (pure a : Program σ ε α).outcome s = (.ok a, s) := rfl

@[simp] theorem outcome_throw (e : ε) : (throw e : Program σ ε α).outcome s = (.error e, s) := rfl

@[simp] theorem outcome_get : (get : Program σ ε σ).outcome s = (.ok s, s) := rfl

@[simp] theorem outcome_modify (g : σ → σ) : (modify g : Program σ ε PUnit).outcome s = (.ok ⟨⟩, g s) := rfl

theorem outcome_bind :
    (x >>= f).outcome s =
      match x.outcome s with
      | (.ok a, s') => (f a).outcome s'
      | (.error e, s') => (.error e, s') := by
  unfold outcome
  rw [ExceptT.run_bind, StateT.run_bind]
  rcases x.run.run s with ⟨result | result, s'⟩ <;> rfl

theorem outcome_tryCatch :
    (tryCatch x handler).outcome s =
      match x.outcome s with
      | (.ok a, s') => (.ok a, s')
      | (.error e, s') => (handler e).outcome s' := by
  unfold outcome
  rw [ExceptT.run_tryCatch, StateT.run_bind]
  rcases x.run.run s with ⟨result | result, s'⟩ <;> rfl

variable {x f handler s} {s' : σ} {a : α} {e : ε}

theorem outcome_bind_of_ok (h : x.outcome s = (.ok a, s')) : (x >>= f).outcome s = (f a).outcome s' := by
  rw [outcome_bind, h]

theorem outcome_tryCatch_of_error (h : x.outcome s = (.error e, s')) :
    (tryCatch x handler).outcome s = (handler e).outcome s' := by
  rw [outcome_tryCatch, h]

theorem outcome_tryCatch_of_ok (h : x.outcome s = (.ok a, s')) : (tryCatch x handler).outcome s = (.ok a, s') := by
  rw [outcome_tryCatch, h]

/-- A sequence returns what its second part returns behind the first. -/
theorem outcome_bind_eq_ok_iff {b : β} {s'' : σ} :
    (x >>= f).outcome s = (.ok b, s'') ↔ ∃ a s', x.outcome s = (.ok a, s') ∧ (f a).outcome s' = (.ok b, s'') := by
  rw [outcome_bind]
  rcases x.outcome s with ⟨result, s'⟩
  cases result with
  | error e =>
    constructor
    · intro h
      cases h
    · rintro ⟨a, s', h, -⟩
      cases h
  | ok a =>
    constructor
    · exact fun h => ⟨a, s', rfl, h⟩
    · rintro ⟨a', s', h, hf⟩
      cases h
      exact hf

end Program

/-! ## Costs -/

variable [AddCommMonoid R] [PartialOrder R]

/-- A run from any state raises the measure by at most an amount. -/
def Costs (μ : σ → R) (x : Program σ ε α) (c : R) : Prop := ∀ s, μ (x.after s) ≤ μ s + c

namespace Costs

variable {μ : σ → R} {x : Program σ ε α} {f : α → Program σ ε β} {c d : R}

theorem of_pure (a : α) : Costs μ (pure a : Program σ ε α) 0 := fun s => (add_zero (μ s)).ge

theorem of_throw (e : ε) : Costs μ (throw e : Program σ ε α) 0 := fun s => (add_zero (μ s)).ge

theorem of_get : Costs μ (get : Program σ ε σ) 0 := fun s => (add_zero (μ s)).ge

theorem of_modify {g : σ → σ} (hg : ∀ s, μ (g s) ≤ μ s + c) : Costs μ (modify g : Program σ ε PUnit) c := hg

variable [IsOrderedAddMonoid R]

theorem mono (hx : Costs μ x c) (h : c ≤ d) : Costs μ x d :=
  fun s => (hx s).trans (by gcongr)

/-- A second part may not run, so that its cost must not be negative. -/
theorem bind (hx : Costs μ x c) (hf : ∀ a, Costs μ (f a) d) (hd : 0 ≤ d) : Costs μ (x >>= f) (c + d) := by
  intro s
  have hfirst := hx s
  unfold Program.after at hfirst ⊢
  rw [Program.outcome_bind]
  generalize x.outcome s = outcome at hfirst ⊢
  obtain ⟨result, s'⟩ := outcome
  cases result with
  | error e => exact hfirst.trans (by gcongr; exact le_add_of_nonneg_right hd)
  | ok a =>
    calc μ ((f a).after s') ≤ μ s' + d := hf a s'
      _ ≤ μ s + c + d := by gcongr
      _ = μ s + (c + d) := add_assoc _ _ _

/-- A first part that costs nothing. -/
theorem bind_of_free (hx : Costs μ x 0) (hf : ∀ a, Costs μ (f a) d) (hd : 0 ≤ d) : Costs μ (x >>= f) d :=
  (hx.bind hf hd).mono (zero_add d).le

/-- A second part that costs nothing. -/
theorem bind_free (hx : Costs μ x c) (hf : ∀ a, Costs μ (f a) 0) : Costs μ (x >>= f) c :=
  (hx.bind hf le_rfl).mono (add_zero c).le

theorem tryCatch {handler : ε → Program σ ε α} (hx : Costs μ x c) (hhandler : ∀ e, Costs μ (handler e) d) (hd : 0 ≤ d) :
    Costs μ (tryCatch x handler) (c + d) := by
  intro s
  have hbody := hx s
  unfold Program.after at hbody ⊢
  rw [Program.outcome_tryCatch]
  generalize x.outcome s = outcome at hbody ⊢
  obtain ⟨result, s'⟩ := outcome
  cases result with
  | ok a => exact hbody.trans (by gcongr; exact le_add_of_nonneg_right hd)
  | error e =>
    calc μ ((handler e).after s') ≤ μ s' + d := hhandler e s'
      _ ≤ μ s + c + d := by gcongr
      _ = μ s + (c + d) := add_assoc _ _ _

end Costs

end NeuroLab.Common
