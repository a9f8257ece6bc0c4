import NeuroLab.Common.Transition

/-!
# Schedules

What a system can be led to: the actions of a schedule, taken one after the other, are all enabled
and end in a state.
-/

namespace NeuroLab.Common.System

variable {σ α : Type*} {M : System σ α}

/-- The history of executed actions is theirs. -/
theorem moves_of_execute {h : History σ α} {s : σ} {actions : List α} {r : History σ α × σ}
    (hr : M.execute h s actions = some r) : r.1.map Prod.snd = actions.reverse ++ h.map Prod.snd := by
  induction actions generalizing h s with
  | nil =>
    rw [execute, Option.some.injEq] at hr
    subst hr
    rfl
  | cons a rest ih =>
    obtain ⟨s', -, hrest⟩ := Option.bind_eq_some_iff.mp hr
    rw [ih hrest, List.map_cons, List.reverse_cons, List.append_assoc]
    rfl

/-- A test of the result of executed actions is passed by the end of a run of these actions. -/
theorem exists_run_moves (M : System σ α) (actions : List α) (test : σ → Bool)
    (h : ((M.execute [] M.init actions).any fun r => test r.2) = true) :
    ∃ h s, M.Run h s ∧ h.map Prod.snd = actions.reverse ∧ test s = true := by
  obtain ⟨r, hr, htest⟩ := (Option.any_eq_true _ _).mp h
  refine ⟨r.1, r.2, Run.start.execute actions hr, ?_, htest⟩
  rw [moves_of_execute hr, List.map_nil, List.append_nil]

/-- The actions lead from a state to another one. -/
inductive Leads (M : System σ α) : σ → List α → σ → Prop
  | done (s : σ) : Leads M s [] s
  | next {s s' s'' : σ} {a : α} {rest : List α} : M.step s a = some s' → Leads M s' rest s'' → Leads M s (a :: rest) s''

namespace Leads

variable {s s' s'' : σ} {actions actions' : List α} {a : α}

theorem single (h : M.step s a = some s') : M.Leads s [a] s' := .next h (.done s')

theorem append (h : M.Leads s actions s') (h' : M.Leads s' actions' s'') : M.Leads s (actions ++ actions') s'' := by
  induction h with
  | done s => exact h'
  | next hstep _ ih => exact .next hstep (ih h')

end Leads

end NeuroLab.Common.System
