import NeuroLab.ControlPlane.Execution

/-!
# The attempt ledger and the task table

`record_completion` settles the row if it is under the lease, and the attempt if it is
in flight. The two tables agree along a run exactly when each completion finds both of
these or neither: a stale lease still finds its attempt in flight, and a lease whose
attempt a duplicate has doubted still finds its row.
-/

namespace NeuroLab.ControlPlane

open Python Common

variable {env : Env} {s s' : State} {a : Action} {h : History State Action}

/-- The attempt of a lease is in flight. -/
def Inflight (s : State) (T E : Uuid) : Prop := ∃ r, s.attempt T E = some r ∧ r.status = .inflight

/-- The attempt of a lease is completed. -/
def Completed (s : State) (T E : Uuid) : Prop := ∃ r, s.attempt T E = some r ∧ r.status = .completed

/-- A task has succeeded. -/
def Succeeded (s : State) (T : Uuid) : Prop := ∃ r, s.task T = some r ∧ r.status = .succeeded

/-- A task is running under a lease. -/
def Leased (s : State) (T E : Uuid) : Prop := ∃ r, s.task T = some r ∧ leasedBy E r = true

/-- A task has succeeded exactly when a single attempt of it is completed, that of the lease its row
stores, and no other task has a completed attempt. -/
structure LedgerAgrees (s : State) : Prop where
  succeeded_iff : ∀ T r, s.task T = some r →
    (r.status = .succeeded ↔ ∃ E, r.executionId = some E ∧ ∀ X, Completed s T X ↔ X = E)
  settled : ∀ T X, Completed s T X → Succeeded s T

/-- Completions that find their row under the lease exactly when their attempt is in flight. -/
def CompletionFenced (env : Env) (s : State) (a : Action) : Prop :=
  ∀ T E c, a.tx? env s = some (.recordCompletion T E c) → (Leased s T E ↔ Inflight s T E)

instance (s : State) (T E : Uuid) : Decidable (Inflight s T E) :=
  decidable_of_iff ((s.attempt T E).any fun r => decide (r.status = .inflight)) (by
    simp [Inflight, Option.any_eq_true])

instance (s : State) (T E : Uuid) : Decidable (Completed s T E) :=
  decidable_of_iff ((s.attempt T E).any fun r => decide (r.status = .completed)) (by
    simp [Completed, Option.any_eq_true])

instance (s : State) (T E : Uuid) : Decidable (Leased s T E) :=
  decidable_of_iff ((s.task T).any (leasedBy E)) (Option.any_eq_true _ _)

/-- Whether a step is a fenced completion or none. -/
def completionFenced (env : Env) (s : State) (a : Action) : Bool :=
  match a.tx? env s with
  | some (.recordCompletion T E _) => decide (Leased s T E ↔ Inflight s T E)
  | _ => true

theorem completionFenced_iff (env : Env) (s : State) (a : Action) :
    completionFenced env s a = true ↔ CompletionFenced env s a := by
  constructor
  · intro h T E c htx
    rw [completionFenced, htx] at h
    exact of_decide_eq_true h
  · intro h
    unfold completionFenced
    split
    · next T E c htx => exact decide_eq_true (h T E c htx)
    · rfl

instance (env : Env) (s : State) (a : Action) : Decidable (CompletionFenced env s a) :=
  decidable_of_iff _ (completionFenced_iff env s a)

/-- It is enough to know the attempts of succeeded rows. -/
theorem LedgerAgrees.of_succeeded (settled : ∀ T X, Completed s T X → Succeeded s T)
    (forward : ∀ T r, s.task T = some r → r.status = .succeeded →
      ∃ E, r.executionId = some E ∧ ∀ X, Completed s T X ↔ X = E) : LedgerAgrees s where
  settled := settled
  succeeded_iff T r hr := by
    refine ⟨forward T r hr, fun hsingle => ?_⟩
    obtain ⟨E, -, hcompleted⟩ := hsingle
    obtain ⟨r', hr', hsucceeded⟩ := settled T E ((hcompleted E).mpr rfl)
    rw [hr] at hr'
    cases hr'
    exact hsucceeded

/-- What a completion does to its row and its attempt. -/
theorem step_completion (h : step env s a = some s') {T E : Uuid} {c : Completion}
    (htx : a.tx? env s = some (.recordCompletion T E c)) :
    (∃ model result, s'.task T = (s.task T).map fun r =>
        if leasedBy E r then r.succeed s.clock model result else r) ∧
      s'.attempt T E = (s.attempt T E).map fun r =>
        if r.status = .inflight then r.conclude .completed s.clock none else r := by
  rcases step_db h with ⟨tx, reply, htx', hexec⟩ | ⟨hnone, -⟩
  · rw [htx] at htx'
    cases htx'
    have hcompletion := exec_recordCompletion hexec
    exact ⟨hcompletion.1, hcompletion.2.1⟩
  · rw [htx] at hnone
    cases hnone

/-- An attempt found completed was so before, or was in flight and is completed by the step. -/
theorem step_completed (h : step env s a = some s') (T X : Uuid) :
    Completed s' T X ↔ Completed s T X ∨
      Inflight s T X ∧ ∃ c, a.tx? env s = some (.recordCompletion T X c) := by
  constructor
  · intro hcompleted
    obtain ⟨r, hr, hstatus⟩ := hcompleted
    rcases step_attempt h T X with heq | ⟨tx, htx, hmove⟩
    · exact Or.inl ⟨r, heq ▸ hr, hstatus⟩
    · generalize hold : s.attempt T X = old at hmove
      rw [hr] at hmove
      cases hmove with
      | keep => exact Or.inl ⟨r, hold, hstatus⟩
      | start _ hinflight => cases hinflight.symm.trans hstatus
      | doubt => cases hstatus
      | @complete c r' hinflight => exact Or.inr ⟨⟨r', hold, hinflight⟩, c, htx⟩
      | fail => cases hstatus
  · intro hcases
    rcases hcases with ⟨r, hr, hstatus⟩ | ⟨⟨r, hr, hstatus⟩, c, htx⟩
    · refine ⟨r, ?_, hstatus⟩
      rcases step_attempt h T X with heq | ⟨tx, -, hmove⟩
      · exact heq.trans hr
      · rw [hr] at hmove
        generalize s'.attempt T X = new at hmove
        cases hmove with
        | keep => rfl
        | doubt _ hinflight => cases hinflight.symm.trans hstatus
        | complete hinflight => cases hinflight.symm.trans hstatus
        | fail _ hinflight => cases hinflight.symm.trans hstatus
    · refine ⟨r.conclude .completed s.clock none, ?_, rfl⟩
      rw [(step_completion h htx).2, hr, Option.map_some, if_pos hstatus]

/-- A completion under the lease of the row makes the task succeed. -/
theorem succeeded_of_leased (h : step env s a = some s') {T E : Uuid} {c : Completion}
    (htx : a.tx? env s = some (.recordCompletion T E c)) (hleased : Leased s T E) :
    ∃ r, s'.task T = some r ∧ r.status = .succeeded ∧ r.executionId = some E := by
  obtain ⟨r, hr, hlease⟩ := hleased
  obtain ⟨model, result, hrow⟩ := (step_completion h htx).1
  refine ⟨r.succeed s.clock model result, ?_, rfl, (leasedBy_iff.mp hlease).2⟩
  rw [hrow, hr, Option.map_some, if_pos hlease]

/-- A running row is not a succeeded one. -/
theorem not_succeeded_of_leased {T E : Uuid} (hleased : Leased s T E) : ¬ Succeeded s T := by
  intro hsucceeded
  obtain ⟨r, hr, hlease⟩ := hleased
  obtain ⟨r', hr', hstatus⟩ := hsucceeded
  rw [hr] at hr'
  cases hr'
  cases (leasedBy_iff.mp hlease).1.symm.trans hstatus

/-- A task that has succeeded stays so. -/
theorem step_succeeded_stable (run : (system env).Run h s) (hstep : step env s a = some s') {T : Uuid}
    (hsucceeded : Succeeded s T) : Succeeded s' T := by
  obtain ⟨r, hr, hstatus⟩ := hsucceeded
  have hrun : (system env).Run ([] ++ (s, a) :: h) s' := run.step hstep
  exact ⟨r, terminal_row_unchanged hrun hr (by rw [hstatus]; rfl), hstatus⟩

/-- A fenced step keeps the two tables in agreement. -/
theorem LedgerAgrees.next (run : (system env).Run h s) (hs : LedgerAgrees s)
    (hfenced : CompletionFenced env s a) (hstep : step env s a = some s') : LedgerAgrees s' := by
  refine .of_succeeded (fun T X hcompleted => ?_) fun T r' hr' hsucceeded => ?_
  · rcases (step_completed hstep T X).mp hcompleted with hbefore | ⟨hinflight, c, htx⟩
    · exact step_succeeded_stable run hstep (hs.settled T X hbefore)
    · obtain ⟨r, hr, hstatus, -⟩ := succeeded_of_leased hstep htx ((hfenced T X c htx).mpr hinflight)
      exact ⟨r, hr, hstatus⟩
  · rcases step_succeeded hstep hr' hsucceeded with hsame | ⟨r, E, c, hr, hlease, hE, htx⟩
    · obtain ⟨E, hE, hsingle⟩ := (hs.succeeded_iff T r' hsame).mp hsucceeded
      refine ⟨E, hE, fun X => ?_⟩
      rw [step_completed hstep T X, ← hsingle X]
      refine or_iff_left_of_imp fun hcompletion => ?_
      obtain ⟨hinflight, c, htx⟩ := hcompletion
      have hleased := (hfenced T X c htx).mpr hinflight
      exact absurd ⟨r', hsame, hsucceeded⟩ (not_succeeded_of_leased hleased)
    · have hleased : Leased s T E := ⟨r, hr, hlease⟩
      refine ⟨E, hE, fun X => ?_⟩
      rw [step_completed hstep T X]
      constructor
      · intro hcases
        rcases hcases with hbefore | ⟨-, c', htx'⟩
        · exact absurd (hs.settled T X hbefore) (not_succeeded_of_leased hleased)
        · rw [htx] at htx'
          cases htx'
          rfl
      · intro hX
        subst hX
        exact Or.inr ⟨(hfenced T X c htx).mp hleased, c, htx⟩

/-- Only a fenced step leads from agreement to agreement. -/
theorem CompletionFenced.of_agrees (hs : LedgerAgrees s) (hs' : LedgerAgrees s')
    (hstep : step env s a = some s') : CompletionFenced env s a := by
  intro T E c htx
  constructor
  · intro hleased
    obtain ⟨r', hr', hsucceeded, hE⟩ := succeeded_of_leased hstep htx hleased
    obtain ⟨E', hE', hsingle⟩ := (hs'.succeeded_iff T r' hr').mp hsucceeded
    have hsame : E = E' := Option.some.inj (hE.symm.trans hE')
    rcases (step_completed hstep T E).mp ((hsingle E).mpr hsame) with hbefore | ⟨hinflight, -⟩
    · exact absurd (hs.settled T E hbefore) (not_succeeded_of_leased hleased)
    · exact hinflight
  · intro hinflight
    have hcompleted := (step_completed hstep T E).mpr (Or.inr ⟨hinflight, c, htx⟩)
    obtain ⟨r', hr', hsucceeded⟩ := hs'.settled T E hcompleted
    rcases step_succeeded hstep hr' hsucceeded with hsame | ⟨r, E', c', hr, hlease, -, htx'⟩
    · -- the row had succeeded under a lease whose attempt was completed, not in flight
      obtain ⟨E₀, hE₀, hsingle⟩ := (hs.succeeded_iff T r' hsame).mp hsucceeded
      obtain ⟨E₁, hE₁, hsingle'⟩ := (hs'.succeeded_iff T r' hr').mp hsucceeded
      have hE : E = E₀ := ((hsingle' E).mp hcompleted).trans (Option.some.inj (hE₁.symm.trans hE₀))
      obtain ⟨r₁, hr₁, hstatus₁⟩ := (hsingle E).mpr hE
      obtain ⟨r₂, hr₂, hstatus₂⟩ := hinflight
      rw [hr₁] at hr₂
      cases hr₂
      cases hstatus₁.symm.trans hstatus₂
    · rw [htx] at htx'
      cases htx'
      exact ⟨r, hr, hlease⟩

/-- **The ledger agrees with the tasks exactly when completions are fenced.** Along a run every state
has a succeeded task exactly where it has a single completed attempt, that of the lease in the row,
and no completed attempt elsewhere, if and only if every completion of the run found its row under
its lease exactly when it found its attempt in flight. -/
theorem ledger_agrees_iff (run : (system env).Run h s) :
    System.AllStates LedgerAgrees h s ↔ System.AllSteps (CompletionFenced env) h := by
  refine run.allStates_iff_allSteps ?_ fun h s a s' run hs hstep => ?_
  · refine .of_succeeded (fun T X hcompleted => ?_) fun T r hr => ?_
    · obtain ⟨r, hr, -⟩ := hcompleted
      cases hr
    · cases hr
  · exact ⟨fun hs' => .of_agrees hs hs' hstep, fun hfenced => hs.next run hfenced hstep⟩

/-- In the completed sample run the completion is fenced. -/
theorem ledger_agrees_iff_completed :
    ∃ h s, (system Sample.env).Run h s ∧ Completed s Sample.task 2 ∧ System.AllStates LedgerAgrees h s := by
  obtain ⟨h, s, run, htest⟩ := System.exists_run (system Sample.env) Sample.completed
    (fun h (s : State) => h.all (fun x => decide (CompletionFenced Sample.env x.1 x.2)) &&
      decide (Completed s Sample.task 2)) (by decide +kernel)
  obtain ⟨hfenced, hcompleted⟩ := Bool.and_eq_true_iff.mp htest
  have fenced : System.AllSteps (CompletionFenced Sample.env) h := fun x hx =>
    of_decide_eq_true (List.all_eq_true.mp hfenced x hx)
  exact ⟨h, s, run, of_decide_eq_true hcompleted, (ledger_agrees_iff run).mpr fenced⟩

/-- A stale lease completes its attempt while the task runs under the next one. -/
theorem completed_while_running : ¬ ∀ h s, (system Sample.env).Run h s → LedgerAgrees s := by
  obtain ⟨h, s, run, htest⟩ := System.exists_run (system Sample.env)
    (Sample.reclaimed ++ [Sample.go 0 0, Sample.go 0 0,
      .work 0 0 (.responded (Sample.body (.obj []))), Sample.go 0 0])
    (fun _ (s : State) => decide (Completed s Sample.task 2) && decide (Leased s Sample.task 4))
    (by decide +kernel)
  obtain ⟨hcompleted, hleased⟩ := Bool.and_eq_true_iff.mp htest
  intro agrees
  exact not_succeeded_of_leased (of_decide_eq_true hleased)
    ((agrees h s run).settled Sample.task 2 (of_decide_eq_true hcompleted))

end NeuroLab.ControlPlane
