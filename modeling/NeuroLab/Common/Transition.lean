import Mathlib.Data.Nat.Notation
import Mathlib.Order.SetNotation

/-!
# Deterministic systems driven by an environment

A system has one initial state and a partial step function; the action chosen by
the environment carries every nondeterministic choice (who moves, what a remote
call answers, which identifier is drawn). A run is recorded as the list of the
states passed through, each with the action taken there, most recent first. State
predicates of a run, conditions on its steps and facts about its past are then
predicates of that list.
-/

namespace NeuroLab.Common

/-- A partial step function with its initial state. -/
structure System (σ α : Type*) where
  init : σ
  step : σ → α → Option σ

/-- The states left behind by a run, each with the action taken there, most recent first. -/
abbrev History (σ α : Type*) := List (σ × α)

/-- A history around two of its positions, the later one nearer to the front. -/
theorem History.around {σ α : Type*} (h : History σ α) {i j : ℕ} (hij : i < j) (hj : j < h.length) :
    h = h.take i ++ h[i] :: ((h.drop (i + 1)).take (j - (i + 1)) ++ h[j] :: h.drop (j + 1)) := by
  have hrest : (h.drop (i + 1)).take (j - (i + 1)) ++ h[j] :: h.drop (j + 1) = h.drop (i + 1) := by
    have hdrop : h[j] :: h.drop (j + 1) = (h.drop (i + 1)).drop (j - (i + 1)) := by
      rw [List.getElem_cons_drop, List.drop_drop]
      congr 1
      omega
    rw [hdrop, List.take_append_drop]
  rw [hrest, List.getElem_cons_drop, List.take_append_drop]

namespace System

variable {σ α : Type*} (M : System σ α)

/-- The finite runs from the initial state. -/
inductive Run : History σ α → σ → Prop
  | start : Run [] M.init
  | step {h : History σ α} {s s' : σ} {a : α} :
      Run h s → M.step s a = some s' → Run ((s, a) :: h) s'

/-- A state in which some run ends. -/
def Reachable (s : σ) : Prop := ∃ h, M.Run h s

/-- Every step of the history was taken under the condition. -/
def AllSteps (G : σ → α → Prop) (h : History σ α) : Prop := ∀ x ∈ h, G x.1 x.2

/-- The predicate holds in every state passed through and in the last one. -/
def AllStates (P : σ → Prop) (h : History σ α) (s : σ) : Prop := P s ∧ ∀ x ∈ h, P x.1

/-- The predicate holds of every state together with the history that led to it. -/
def Throughout (P : History σ α → σ → Prop) : History σ α → σ → Prop
  | [], s => P [] s
  | (s₀, a) :: h, s => P ((s₀, a) :: h) s ∧ Throughout P h s₀

/-- Every step was taken under the condition, which may look at the history before it. -/
def Always (G : History σ α → σ → α → Prop) : History σ α → Prop
  | [] => True
  | (s, a) :: h => G h s a ∧ Always G h

instance decidableAllSteps (G : σ → α → Prop) [∀ s a, Decidable (G s a)] (h : History σ α) :
    Decidable (AllSteps G h) :=
  inferInstanceAs (Decidable (∀ x ∈ h, G x.1 x.2))

instance decidableAlways (G : History σ α → σ → α → Prop) [∀ h s a, Decidable (G h s a)] :
    ∀ h, Decidable (Always G h)
  | [] => isTrue trivial
  | (s, a) :: h =>
    have := decidableAlways G h
    inferInstanceAs (Decidable (G h s a ∧ Always G h))

/-- Take the given actions in order, failing if one of them is not enabled. -/
def execute : History σ α → σ → List α → Option (History σ α × σ)
  | h, s, [] => some (h, s)
  | h, s, a :: rest => (M.step s a).bind fun s' => execute ((s, a) :: h) s' rest

variable {M}

@[simp] theorem allSteps_nil (G : σ → α → Prop) : AllSteps G [] := fun _ h => nomatch h

@[simp] theorem allSteps_cons (G : σ → α → Prop) (s : σ) (a : α) (h : History σ α) :
    AllSteps G ((s, a) :: h) ↔ G s a ∧ AllSteps G h := by
  simp [AllSteps]

theorem allStates_cons (P : σ → Prop) (s s' : σ) (a : α) (h : History σ α) :
    AllStates P ((s, a) :: h) s' ↔ P s' ∧ AllStates P h s := by
  simp [AllStates]

/-- A history leads to one state. -/
theorem Run.unique {h : History σ α} {s s' : σ} (run : M.Run h s) (run' : M.Run h s') : s = s' := by
  cases run with
  | start =>
    cases run'
    rfl
  | step _ hstep =>
    cases run' with
    | step _ hstep' => exact Option.some.inj (hstep.symm.trans hstep')

/-- An executed list of actions extends a run. -/
theorem Run.execute {h : History σ α} {s : σ} (run : M.Run h s) (actions : List α)
    {r : History σ α × σ} (hr : M.execute h s actions = some r) : M.Run r.1 r.2 := by
  induction actions generalizing h s with
  | nil =>
    rw [System.execute, Option.some.injEq] at hr
    exact hr ▸ run
  | cons a rest ih =>
    obtain ⟨s', hs', hrest⟩ := Option.bind_eq_some_iff.mp hr
    exact ih (run.step hs') hrest

/-- A test of the result of executed actions is passed by the end of a run. -/
theorem exists_run (M : System σ α) (actions : List α) (test : History σ α → σ → Bool)
    (h : ((M.execute [] M.init actions).any fun r => test r.1 r.2) = true) :
    ∃ h s, M.Run h s ∧ test h s = true := by
  obtain ⟨r, hr, htest⟩ := (Option.any_eq_true _ _).mp h
  exact ⟨r.1, r.2, Run.start.execute actions hr, htest⟩

/-- A fact about the past and the present that holds at the start and survives every step
taken under the condition holds along every run whose steps all meet the condition. -/
theorem Run.history_invariant {G : σ → α → Prop} {P : History σ α → σ → Prop}
    (init : P [] M.init)
    (next : ∀ h s a s', M.Run h s → P h s → G s a → M.step s a = some s' → P ((s, a) :: h) s')
    {h : History σ α} {s : σ} (run : M.Run h s) (guard : AllSteps G h) : P h s := by
  induction run with
  | start => exact init
  | step run hstep ih =>
    rw [allSteps_cons] at guard
    exact next _ _ _ _ run (ih guard.2) guard.1 hstep

/-- The state-predicate form of `history_invariant`. -/
theorem Run.guarded_invariant {G : σ → α → Prop} {P : σ → Prop} (init : P M.init)
    (next : ∀ s a s', P s → G s a → M.step s a = some s' → P s')
    {h : History σ α} {s : σ} (run : M.Run h s) (guard : AllSteps G h) : P s :=
  run.history_invariant (P := fun _ s => P s) init (fun _ s a s' _ => next s a s') guard

/-- An inductive invariant holds in every state a run ends in. -/
theorem Run.invariant {P : σ → Prop} (init : P M.init)
    (next : ∀ s a s', P s → M.step s a = some s' → P s')
    {h : History σ α} {s : σ} (run : M.Run h s) : P s :=
  run.guarded_invariant (G := fun _ _ => True) init (fun s a s' hs _ => next s a s' hs)
    fun _ _ => trivial

/-- Where each step preserves a predicate exactly under a condition, the predicate holds throughout
a run exactly when every step was taken under the condition. -/
theorem Run.throughout_iff_always {P : History σ α → σ → Prop} {G : History σ α → σ → α → Prop}
    (init : P [] M.init)
    (next : ∀ h s a s', M.Run h s → P h s → M.step s a = some s' → (P ((s, a) :: h) s' ↔ G h s a))
    {h : History σ α} {s : σ} (run : M.Run h s) : Throughout P h s ↔ Always G h := by
  have last : ∀ h s, Throughout P h s → P h s := by
    intro h s hP
    cases h with
    | nil => exact hP
    | cons x h => exact hP.1
  induction run with
  | start => exact ⟨fun _ => trivial, fun _ => init⟩
  | step run hstep ih =>
    constructor
    · intro hP
      exact ⟨(next _ _ _ _ run (last _ _ hP.2) hstep).mp hP.1, ih.mp hP.2⟩
    · intro hG
      have hbefore := ih.mpr hG.2
      exact ⟨(next _ _ _ _ run (last _ _ hbefore) hstep).mpr hG.1, hbefore⟩

/-- The form of `throughout_iff_always` for a predicate and a condition that ignore the past. -/
theorem Run.allStates_iff_allSteps {P : σ → Prop} {G : σ → α → Prop} (init : P M.init)
    (next : ∀ h s a s', M.Run h s → P s → M.step s a = some s' → (P s' ↔ G s a))
    {h : History σ α} {s : σ} (run : M.Run h s) : AllStates P h s ↔ AllSteps G h := by
  induction run with
  | start => exact ⟨fun _ => allSteps_nil G, fun _ => ⟨init, fun _ hx => nomatch hx⟩⟩
  | step run hstep ih =>
    rw [allStates_cons, allSteps_cons]
    constructor
    · intro hP
      exact ⟨(next _ _ _ _ run hP.2.1 hstep).mp hP.1, ih.mp hP.2⟩
    · intro hG
      have hbefore := ih.mpr hG.2
      exact ⟨(next _ _ _ _ run hbefore.1 hstep).mpr hG.1, hbefore⟩

/-- The states passed through are themselves ends of runs. -/
theorem Run.split {h later earlier : History σ α} {s s₁ : σ} {a : α} (run : M.Run h s)
    (hsplit : h = later ++ (s₁, a) :: earlier) :
    ∃ s₂, M.Run earlier s₁ ∧ M.step s₁ a = some s₂ ∧ M.Run ((s₁, a) :: earlier) s₂ := by
  induction run generalizing later with
  | start => simp at hsplit
  | step run hstep ih =>
    cases later with
    | nil =>
      obtain ⟨⟨rfl, rfl⟩, rfl⟩ : (_ = s₁ ∧ _ = a) ∧ _ = earlier := by simpa using hsplit
      exact ⟨_, run, hstep, run.step hstep⟩
    | cons x later =>
      exact ih (List.cons.inj hsplit).2

/-- A transitive relation that every step respects holds between each state passed through and the last one. -/
theorem Run.related {R : σ → σ → Prop} (trans : ∀ s₁ s₂ s₃, R s₁ s₂ → R s₂ s₃ → R s₁ s₃)
    (next : ∀ s a s', M.step s a = some s' → R s s') {h : History σ α} {s : σ} (run : M.Run h s) :
    ∀ x ∈ h, R x.1 s := by
  induction run with
  | start => exact fun x hx => nomatch hx
  | @step h s s' a run hstep ih =>
    intro x hx
    rcases List.mem_cons.mp hx with rfl | hx
    · exact next s a s' hstep
    · exact trans _ _ _ (ih x hx) (next s a s' hstep)

/-- Every entry of the history is a step that was taken. -/
theorem Run.step_of_mem {h : History σ α} {s : σ} (run : M.Run h s) {x : σ × α} (hx : x ∈ h) :
    ∃ earlier s', M.Run earlier x.1 ∧ M.step x.1 x.2 = some s' := by
  obtain ⟨later, earlier, hsplit⟩ := List.append_of_mem hx
  obtain ⟨s', hearlier, hstep, _⟩ := run.split hsplit
  exact ⟨earlier, s', hearlier, hstep⟩

/-- Every state of the history satisfies an invariant of all runs. -/
theorem Run.allStates {P : σ → Prop} (hP : ∀ h s, M.Run h s → P s)
    {h : History σ α} {s : σ} (run : M.Run h s) : AllStates P h s := by
  refine ⟨hP h s run, fun x hx => ?_⟩
  obtain ⟨_, _, hearlier, _⟩ := run.step_of_mem hx
  exact hP _ _ hearlier

end System

end NeuroLab.Common
