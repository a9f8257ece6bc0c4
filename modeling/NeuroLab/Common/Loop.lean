import NeuroLab.Common.Program

/-!
# Loops

A `while` whose body may end it with an exception, and the rule for its total correctness: where
every round keeps an invariant and lowers a measure, the loop ends within as many rounds as the
measure has at its start, and beyond them the number of rounds makes no difference.
-/

namespace NeuroLab.Common

variable {σ ε α : Type}

/-- A run returned, or ended with an exception, as the two postconditions say. -/
def Meets (Q : α → σ → Prop) (E : ε → σ → Prop) : Except ε α × σ → Prop
  | (.ok a, s) => Q a s
  | (.error e, s) => E e s

/-- `while goesOn: body`, cut off behind so many rounds: nothing where it has not ended by then. -/
def loop (goesOn : σ → Bool) (body : Program σ ε Unit) : ℕ → σ → Option (Except ε Unit × σ)
  | 0, s => if goesOn s then none else some (.ok (), s)
  | rounds + 1, s =>
    if goesOn s then
      match body.outcome s with
      | (.ok _, s') => loop goesOn body rounds s'
      | (.error e, s') => some (.error e, s')
    else some (.ok (), s)

variable {goesOn : σ → Bool} {body : Program σ ε Unit} {s s' : σ} {rounds : ℕ}

theorem loop_of_stopped (h : goesOn s = false) : loop goesOn body rounds s = some (.ok (), s) := by
  cases rounds <;> simp [loop, h]

theorem loop_of_ok (h : goesOn s = true) (hbody : body.outcome s = (.ok (), s')) :
    loop goesOn body (rounds + 1) s = loop goesOn body rounds s' := by
  rw [loop, if_pos h, hbody]

theorem loop_of_error {e : ε} (h : goesOn s = true) (hbody : body.outcome s = (.error e, s')) :
    loop goesOn body (rounds + 1) s = some (.error e, s') := by
  rw [loop, if_pos h, hbody]

variable {I : σ → Prop} {E : ε → σ → Prop} {μ : σ → ℕ}

/-- A loop whose rounds keep an invariant and lower a measure ends, with the invariant or by an exception. -/
theorem exists_loop (hpositive : ∀ s, I s → goesOn s = true → 0 < μ s)
    (hround : ∀ s, I s → goesOn s = true → Meets (fun _ s' => I s' ∧ μ s' < μ s) E (body.outcome s)) (hs : I s) :
    ∃ outcome, (∀ rounds, μ s ≤ rounds → loop goesOn body rounds s = some outcome) ∧
      Meets (fun _ s' => I s' ∧ goesOn s' = false) E outcome := by
  induction hmeasure : μ s using Nat.strong_induction_on generalizing s with
  | h n ih =>
    subst hmeasure
    cases hgoesOn : goesOn s with
    | false => exact ⟨(.ok (), s), fun rounds _ => loop_of_stopped hgoesOn, hs, hgoesOn⟩
    | true =>
      have hpos := hpositive s hs hgoesOn
      have hmeets := hround s hs hgoesOn
      -- A loop that goes on has a round left.
      have hrounds : ∀ rounds, μ s ≤ rounds → ∃ left, rounds = left + 1 := fun rounds hle =>
        Nat.exists_eq_add_one.mpr (hpos.trans_le hle)
      rcases hbody : body.outcome s with ⟨e | _, s'⟩
      · rw [hbody] at hmeets
        refine ⟨(.error e, s'), fun rounds hle => ?_, hmeets⟩
        obtain ⟨left, rfl⟩ := hrounds rounds hle
        exact loop_of_error hgoesOn hbody
      · rw [hbody] at hmeets
        obtain ⟨hs', hlower⟩ := hmeets
        obtain ⟨outcome, hloop, houtcome⟩ := ih (μ s') hlower hs' rfl
        refine ⟨outcome, fun rounds hle => ?_, houtcome⟩
        obtain ⟨left, rfl⟩ := hrounds rounds hle
        rw [loop_of_ok hgoesOn hbody]
        exact hloop left (by omega)

end NeuroLab.Common
