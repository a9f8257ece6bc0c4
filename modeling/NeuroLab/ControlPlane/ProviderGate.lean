import NeuroLab.ControlPlane.Execution

/-!
# The gate in front of the provider

A lease enters the provider operation after its receipt is in the table. `claim_task`
looks for an attempt in flight before it leases a row, and this is the whole gate: an
attempt that was concluded no longer closes it, and `record_provider_attempt` does not
ask whether its lease is still the one of the row. In the runs where neither happens a
task has a single attempt, and at most one lease enters.
-/

namespace NeuroLab.ControlPlane

open Python Common

variable {env : Env} {s s' : State} {a : Action} {h : History State Action}

/-- The lease that enters `gigachat.complete` or `gigachat.embed` in a step. -/
def Action.enters? (env : Env) (s : State) : Action → Option Lease
  | .work w _ .done => match s.workers w with
    | .operate d l => match route env.py d.payload with
      | .call _ => some l
      | _ => none
    | _ => none
  | _ => none

/-- A lease has entered the provider operation in the past. -/
def Entered (env : Env) (h : History State Action) (l : Lease) : Prop :=
  ∃ x ∈ h, x.2.enters? env x.1 = some l

/-- At most one lease of each task has entered the provider operation. -/
def EnteredOnce (env : Env) (h : History State Action) : Prop :=
  ∀ T E₁ E₂, Entered env h (T, E₁) → Entered env h (T, E₂) → E₁ = E₂

/-- Steps at which the gate holds: an attempt is recorded under the lease its row stores, and a
lease is handed out for a task without any attempt. -/
structure GateHolds (env : Env) (s : State) (a : Action) : Prop where
  record : ∀ T E payload, a.tx? env s = some (.recordProviderAttempt T E payload) →
    ∃ r, s.task T = some r ∧ leasedBy E r = true
  grant : ∀ T E, a.grant? env s = some (T, E) → ∀ X, s.attempt T X = none

/-- Whether a step keeps the gate. -/
def gateHolds (env : Env) (s : State) (a : Action) : Bool :=
  (match a.tx? env s with
    | some (.recordProviderAttempt T E _) => (s.task T).any (leasedBy E)
    | _ => true) &&
  (a.grant? env s).all fun lease => s.store.db.attempts.rows.all fun r => decide (r.taskId ≠ lease.1)

theorem gateHolds_iff (env : Env) (s : State) (a : Action) : gateHolds env s a = true ↔ GateHolds env s a := by
  rw [gateHolds, Bool.and_eq_true]
  constructor
  · intro h
    refine ⟨fun T E payload htx => ?_, fun T E hgrant X => ?_⟩
    · rw [htx] at h
      exact (Option.any_eq_true _ _).mp h.1
    · rw [hgrant, Option.all_some, List.all_eq_true] at h
      rw [State.attempt, Table.find?_eq_none_iff]
      intro r hr hkey
      have hne := of_decide_eq_true (h.2 r hr)
      exact hne (Prod.mk.inj hkey).1
  · intro h
    constructor
    · split
      · next T E payload htx => exact (Option.any_eq_true _ _).mpr (h.record T E payload htx)
      · rfl
    · cases hgrant : a.grant? env s with
      | none => rfl
      | some lease =>
        rw [Option.all_some, List.all_eq_true]
        intro r hr
        refine decide_eq_true fun hT => ?_
        have hnone := h.grant lease.1 lease.2 hgrant r.executionId
        exact (Table.find?_eq_none_iff _ _).mp hnone r hr (by rw [AttemptRow.key, hT])

instance (env : Env) (s : State) (a : Action) : Decidable (GateHolds env s a) :=
  decidable_of_iff _ (gateHolds_iff env s a)

/-! ## One attempt -/

/-- A task has at most one attempt, and a running task none but that of its lease. -/
structure SingleAttempt (s : State) : Prop where
  unique : ∀ T E X, (s.attempt T E).isSome → (s.attempt T X).isSome → E = X
  current : ∀ T r E X, s.task T = some r → leasedBy E r = true → (s.attempt T X).isSome → X = E

/-- A leased row has no attempt but its own, whether it is new or old. -/
theorem SingleAttempt.own (hs : SingleAttempt s) (guard : GateHolds env s a) {T E X : Uuid} {r : TaskRow}
    (hr : s.task T = some r) (hlease : leasedBy E r = true)
    (hX : (s.attempt T X).isSome ∨ ∃ payload, a.tx? env s = some (.recordProviderAttempt T X payload)) :
    X = E := by
  rcases hX with hold | ⟨payload, htx⟩
  · exact hs.current T r E X hr hlease hold
  · obtain ⟨r', hr', hlease'⟩ := guard.record T X payload htx
    have hsame : r = r' := Option.some.inj (hr.symm.trans hr')
    rw [← hsame] at hlease'
    have hX := (leasedBy_iff.mp hlease').2
    have hE := (leasedBy_iff.mp hlease).2
    exact Option.some.inj (hX.symm.trans hE)

/-- A step through the gate keeps attempts single. -/
theorem SingleAttempt.next (hs : SingleAttempt s) (guard : GateHolds env s a)
    (h : step env s a = some s') : SingleAttempt s' where
  unique T E X hE hX := by
    have fresh : ∀ {Y payload}, a.tx? env s = some (.recordProviderAttempt T Y payload) →
        ∀ {Z}, (s'.attempt T Z).isSome → Z = Y := by
      intro Y payload htx Z hZ
      obtain ⟨r, hr, hlease⟩ := guard.record T Y payload htx
      exact hs.own guard hr hlease (step_attempt_new h hZ)
    rcases step_attempt_new h hE with hE' | ⟨payload, htx⟩
    · rcases step_attempt_new h hX with hX' | ⟨payload, htx⟩
      · exact hs.unique T E X hE' hX'
      · exact fresh htx hE
    · exact (fresh htx hX).symm
  current T r E X hr hlease hX := by
    rcases step_leased h hr hlease with hbefore | hgrant
    · exact hs.own guard hbefore hlease (step_attempt_new h hX)
    · obtain ⟨_, _, -, -, hattempts, -⟩ := step_grant h hgrant
      have hnone := guard.grant T E hgrant X
      rw [State.attempt, hattempts, show s.store.db.attempts.find? (T, X) = none from hnone] at hX
      cases hX

/-- A lease enters from the stage behind its receipt. -/
theorem recorded?_of_enters? {l : Lease} (h : a.enters? env s = some l) :
    ∃ w, (s.workers w).recorded? = some l := by
  unfold Action.enters? at h
  split at h
  · next w fresh =>
    split at h
    · next d l' hw =>
      split at h
      · cases h
        exact ⟨w, by rw [hw]; rfl⟩
      · cases h
    · cases h
  · cases h

/-- Behind its entry a lease has its attempt in the table. -/
theorem attempt_of_entered (run : (system env).Run h s) {T E : Uuid} (hE : Entered env h (T, E)) :
    (s.attempt T E).isSome := by
  induction run with
  | start =>
    obtain ⟨x, hx, -⟩ := hE
    cases hx
  | step run hstep ih =>
    refine step_attempt_isSome hstep ?_
    obtain ⟨x, hx, henters⟩ := hE
    rcases List.mem_cons.mp hx with rfl | hx
    · obtain ⟨w, hw⟩ := recorded?_of_enters? henters
      exact (run_leases run).recorded w T E hw
    · exact ih ⟨x, hx, henters⟩

/-- **At most one provider execution.** In every run whose steps keep the gate, at most one lease
of each task enters the provider operation. -/
theorem entered_once_of_gate (run : (system env).Run h s) (guard : System.AllSteps (GateHolds env) h) :
    EnteredOnce env h := by
  have hsingle : SingleAttempt s := by
    refine run.guarded_invariant ⟨?_, ?_⟩ (fun _ _ _ hs hguard hstep => hs.next hguard hstep) guard
    · intro T E X hE
      cases hE
    · intro T r E X hr
      cases hr
  intro T E₁ E₂ h₁ h₂
  exact hsingle.unique T E₁ E₂ (attempt_of_entered run h₁) (attempt_of_entered run h₂)

/-- A delivery that is executed without interference keeps the gate and enters once. -/
theorem entered_once_of_gate_completed :
    ∃ h s, (system Sample.env).Run h s ∧ System.AllSteps (GateHolds Sample.env) h ∧
      Entered Sample.env h (Sample.task, 2) ∧ EnteredOnce Sample.env h := by
  obtain ⟨h, s, run, htest⟩ := System.exists_run (system Sample.env) Sample.completed
    (fun h _ => h.all (fun x => decide (GateHolds Sample.env x.1 x.2)) &&
      h.any fun x => decide (x.2.enters? Sample.env x.1 = some (Sample.task, 2))) (by decide +kernel)
  obtain ⟨hgate, hentered⟩ := Bool.and_eq_true_iff.mp htest
  have guard : System.AllSteps (GateHolds Sample.env) h := fun x hx =>
    of_decide_eq_true (List.all_eq_true.mp hgate x hx)
  obtain ⟨x, hx, henters⟩ := List.any_eq_true.mp hentered
  exact ⟨h, s, run, guard, ⟨x, hx, of_decide_eq_true henters⟩, entered_once_of_gate run guard⟩

/-- Worker 0 pauses with its lease until worker 1 has recovered the task and holds another; both then
record an attempt and enter. -/
theorem entered_twice :
    ¬ ∀ h s, (system Sample.env).Run h s → EnteredOnce Sample.env h := by
  obtain ⟨h, s, run, htest⟩ := System.exists_run (system Sample.env)
    (Sample.reclaimed ++ [Sample.go 0 0, Sample.go 0 0, Sample.go 1 0, Sample.go 1 0])
    (fun h _ => h.any (fun x => decide (x.2.enters? Sample.env x.1 = some (Sample.task, 2))) &&
      h.any fun x => decide (x.2.enters? Sample.env x.1 = some (Sample.task, 4))) (by decide +kernel)
  obtain ⟨hfirst, hsecond⟩ := Bool.and_eq_true_iff.mp htest
  obtain ⟨x, hx, hx'⟩ := List.any_eq_true.mp hfirst
  obtain ⟨y, hy, hy'⟩ := List.any_eq_true.mp hsecond
  intro once
  have hsame := once h s run Sample.task 2 4 ⟨x, hx, of_decide_eq_true hx'⟩ ⟨y, hy, of_decide_eq_true hy'⟩
  exact absurd hsame (by decide)

end NeuroLab.ControlPlane
