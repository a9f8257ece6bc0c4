import NeuroLab.ControlPlane.Execution

/-!
# Cost receipts

A completion writes its receipt in the transaction that settles the row, and only a
lease whose attempt is in the table comes to a completion. So every success has its
receipt and every receipt has its attempt. A response that cannot be read, or whose
completion cannot be written, is recorded as a failure instead, and then the attempt
is concluded without a receipt.
-/

namespace NeuroLab.ControlPlane

open Python Common

variable {env : Env} {s s' : State} {a : Action} {h : History State Action}

/-! ## Every success is paid for -/

/-- A completion leaves its receipt. -/
theorem cost_of_completion (h : step env s a = some s') {T E : Uuid} {c : Completion}
    (htx : a.tx? env s = some (.recordCompletion T E c)) : (s'.cost T E).isSome := by
  rcases step_db h with ⟨tx, reply, htx', hexec⟩ | ⟨hnone, -⟩
  · rw [htx] at htx'
    cases htx'
    exact (exec_recordCompletion hexec).2.2
  · rw [htx] at hnone
    cases hnone

/-- A receipt was there before, unless the step completes its lease. -/
theorem step_cost_new (h : step env s a = some s') {T E : Uuid} (hcost : (s'.cost T E).isSome) :
    (s.cost T E).isSome ∨ s.cost T E = none ∧ ∃ c, a.tx? env s = some (.recordCompletion T E c) := by
  rcases step_cost h T E with heq | ⟨tx, htx, hmove⟩
  · exact Or.inl (heq ▸ hcost)
  · generalize s.cost T E = old at hmove
    generalize s'.cost T E = new at hmove hcost
    cases hmove with
    | keep => exact Or.inl hcost
    | write => exact Or.inr ⟨rfl, _, htx⟩

/-- No step takes a receipt away. -/
theorem step_cost_isSome (h : step env s a = some s') {T E : Uuid} (hcost : (s.cost T E).isSome) :
    (s'.cost T E).isSome := by
  obtain ⟨c, hc⟩ := Option.isSome_iff_exists.mp hcost
  rw [step_cost_stable h hc]
  rfl

/-- A succeeded row has the receipt of its lease. -/
theorem run_paid (run : (system env).Run h s) (T : Uuid) : ∀ r, s.task T = some r →
    r.status = .succeeded → ∃ E, r.executionId = some E ∧ (s.cost T E).isSome := by
  refine run.invariant (P := fun s => ∀ r, s.task T = some r → r.status = .succeeded →
    ∃ E, r.executionId = some E ∧ (s.cost T E).isSome) ?_ ?_
  · intro r hr
    cases hr
  · intro s a s' hs hstep r hr hsucceeded
    rcases step_succeeded hstep hr hsucceeded with hbefore | ⟨_, E, c, -, -, hE, htx⟩
    · obtain ⟨E, hE, hcost⟩ := hs r hbefore hsucceeded
      exact ⟨E, hE, step_cost_isSome hstep hcost⟩
    · exact ⟨E, hE, cost_of_completion hstep htx⟩

/-- A receipt was written when its attempt was already in the table. -/
theorem run_receipt (run : (system env).Run h s) (T E : Uuid) (hcost : (s.cost T E).isSome) :
    ∃ x ∈ h, (x.1.attempt T E).isSome ∧ x.1.cost T E = none := by
  induction run with
  | start => cases hcost
  | step run hstep ih =>
    rcases step_cost_new hstep hcost with hbefore | ⟨hnone, c, htx⟩
    · obtain ⟨x, hx, hwritten⟩ := ih hbefore
      exact ⟨x, List.mem_cons_of_mem _ hx, hwritten⟩
    · obtain ⟨w, d, fresh, outcome, -, hw⟩ := worker_of_completion htx
      have hattempt := (run_leases run).recorded w T E (by rw [hw]; rfl)
      exact ⟨_, List.mem_cons_self, hattempt, hnone⟩

/-- **Every success is paid for exactly once.** In every run, each succeeded task has exactly one
receipt under its id and the lease it stores, and each receipt was written when the attempt of its
lease was already in the table, where it still is. -/
theorem success_paid_once (run : (system env).Run h s) :
    (∀ r ∈ s.store.db.tasks.rows, r.status = .succeeded → ∃! c, c ∈ s.store.db.costs.rows ∧
      c.taskId = r.id ∧ some c.executionId = r.executionId) ∧
    ∀ c ∈ s.store.db.costs.rows, (s.attempt c.taskId c.executionId).isSome ∧
      ∃ x ∈ h, (x.1.attempt c.taskId c.executionId).isSome ∧ x.1.cost c.taskId c.executionId = none := by
  constructor
  · intro r hr hsucceeded
    obtain ⟨E, hE, hcost⟩ := run_paid run r.id r ((Table.mem_rows_iff _ r).mp hr) hsucceeded
    obtain ⟨c, hc⟩ := Option.isSome_iff_exists.mp hcost
    obtain ⟨hmem, hkey⟩ := (Table.find?_eq_some_iff _ _ _).mp hc
    obtain ⟨hT, hE'⟩ := Prod.mk.inj hkey
    refine ⟨c, ⟨hmem, hT, by rw [hE', hE]⟩, ?_⟩
    intro c' hc'
    obtain ⟨hmem', hT', hE''⟩ := hc'
    have hsame : c'.executionId = E := Option.some.inj (hE''.trans hE)
    exact Table.eq_of_key_eq _ hmem' hmem (by rw [hkey, CostRow.key, hT', hsame])
  · intro c hc
    obtain ⟨x, hx, hattempt, hnone⟩ := run_receipt run c.taskId c.executionId
      (Option.isSome_iff_exists.mpr ⟨c, (Table.mem_rows_iff _ c).mp hc⟩)
    exact ⟨attempt_of_mem run hx hattempt, x, hx, hattempt, hnone⟩

/-- The completed sample task has its receipt. -/
theorem success_paid_once_completed :
    ∃ h s r, (system Sample.env).Run h s ∧ s.task Sample.task = some r ∧ r.status = .succeeded ∧
      ∃! c, c ∈ s.store.db.costs.rows ∧ c.taskId = r.id ∧ some c.executionId = r.executionId := by
  obtain ⟨h, s, run, htest⟩ := System.exists_run (system Sample.env) Sample.completed
    (Sample.inStatus .succeeded) (by decide +kernel)
  obtain ⟨r, hr, hsucceeded⟩ := Sample.inStatus_iff htest
  have hmem := ((Table.find?_eq_some_iff _ _ _).mp hr).1
  exact ⟨h, s, r, run, hr, hsucceeded, (success_paid_once run).1 r hmem hsucceeded⟩

/-! ## No response is free -/

/-- The lease whose provider call returns a response in a step. -/
def Action.responds? (s : State) : Action → Option Lease
  | .work w _ (.responded _) => match s.workers w with
    | .call _ l _ => some l
    | _ => none
  | _ => none

/-- The provider call of a lease has returned a response in the past. -/
def Responded (h : History State Action) (l : Lease) : Prop := ∃ x ∈ h, x.2.responds? x.1 = some l

/-- Some worker stands between its outcome and the database write of it. -/
def Writing (s : State) (l : Lease) : Prop := ∃ w, (s.workers w).writing? = some l

/-- The attempt of a lease is visibly unresolved. -/
def Unresolved (s : State) (T E : Uuid) : Prop :=
  ∃ r, s.attempt T E = some r ∧ (r.status = .inflight ∨ r.status = .outcomeUnknown)

theorem responded_cons {l : Lease} :
    Responded ((s, a) :: h) l ↔ a.responds? s = some l ∨ Responded h l := by
  simp [Responded]

/-- No lease whose call returned a response appears free. -/
def NoneFree (h : History State Action) (s : State) : Prop :=
  ∀ T E, Responded h (T, E) → Writing s (T, E) ∨ (s.cost T E).isSome ∨ Unresolved s T E

/-- Steps that conclude no responded lease as failed while its attempt is in flight without a receipt. -/
def FailsUnanswered (env : Env) (h : History State Action) (s : State) (a : Action) : Prop :=
  ∀ T E exc, a.tx? env s = some (.recordFailed T E exc) → Responded h (T, E) →
    (s.cost T E).isSome ∨ ∀ r, s.attempt T E = some r → r.status ≠ .inflight

/-- A lease answers from the stage of its call. -/
theorem call_of_responds? {l : Lease} (h : a.responds? s = some l) :
    ∃ w d op fresh body, a = .work w fresh (.responded body) ∧ s.workers w = .call d l op := by
  unfold Action.responds? at h
  split at h
  · next w fresh body =>
    split at h
    · next d l' op hw =>
      cases h
      exact ⟨w, d, op, fresh, body, rfl, hw⟩
    · cases h
  · cases h

/-- A responded lease has its attempt in the table. -/
theorem attempt_of_responded (run : (system env).Run h s) {T E : Uuid} (hE : Responded h (T, E)) :
    (s.attempt T E).isSome := by
  obtain ⟨x, hx, hresponds⟩ := hE
  obtain ⟨w, d, op, _, _, -, hw⟩ := call_of_responds? hresponds
  obtain ⟨earlier, _, run', -⟩ := run.step_of_mem hx
  exact attempt_of_mem run hx ((run_leases run').recorded w T E (by rw [hw]; rfl))

/-- A completed attempt has its receipt. -/
theorem run_completed (run : (system env).Run h s) (T E : Uuid) : ∀ r, s.attempt T E = some r →
    r.status = .completed → (s.cost T E).isSome := by
  refine run.invariant (P := fun s => ∀ r, s.attempt T E = some r → r.status = .completed →
    (s.cost T E).isSome) ?_ ?_
  · intro r hr
    cases hr
  · intro s a s' hs hstep r hr hcompleted
    rcases step_attempt hstep T E with heq | ⟨tx, htx, hmove⟩
    · exact step_cost_isSome hstep (hs r (heq ▸ hr) hcompleted)
    · generalize hold : s.attempt T E = old at hmove
      rw [hr] at hmove
      cases hmove with
      | keep => exact step_cost_isSome hstep (hs r hold hcompleted)
      | start _ hstatus => cases hstatus.symm.trans hcompleted
      | doubt => cases hcompleted
      | complete => exact cost_of_completion hstep htx
      | fail => cases hcompleted

/-- The attempt of a lease failed and there is no receipt. -/
def Free (s : State) (T E : Uuid) : Prop :=
  ∃ r, s.attempt T E = some r ∧ r.status = .failed ∧ s.cost T E = none

/-- A responded lease is accounted for exactly when it is not free. -/
theorem accounted_iff (run : (system env).Run h s) {T E : Uuid} (hE : Responded h (T, E)) :
    (Writing s (T, E) ∨ (s.cost T E).isSome ∨ Unresolved s T E) ↔ ¬ Free s T E := by
  constructor
  · intro haccounted hfree
    obtain ⟨r, hr, hfailed, hnone⟩ := hfree
    rcases haccounted with ⟨w, hw⟩ | hcost | ⟨r', hr', hstatus⟩
    · have hheld : (s.workers w).lease? = some (T, E) := by
        cases hpc : s.workers w <;> rw [hpc] at hw <;> first | exact hw | cases hw
      exact run_held run w T E r hheld hr hfailed
    · rw [hnone] at hcost
      cases hcost
    · rw [hr] at hr'
      cases hr'
      rw [hfailed] at hstatus
      rcases hstatus with hstatus | hstatus <;> cases hstatus
  · intro hfree
    obtain ⟨r, hr⟩ := Option.isSome_iff_exists.mp (attempt_of_responded run hE)
    cases hstatus : r.status with
    | inflight => exact Or.inr (Or.inr ⟨r, hr, Or.inl hstatus⟩)
    | outcomeUnknown => exact Or.inr (Or.inr ⟨r, hr, Or.inr hstatus⟩)
    | completed => exact Or.inr (Or.inl (run_completed run T E r hr hstatus))
    | failed =>
      right
      left
      rw [Option.isSome_iff_ne_none]
      intro hnone
      exact hfree ⟨r, hr, hstatus, hnone⟩

/-- `NoneFree` says that no responded lease is free. -/
theorem noneFree_iff (run : (system env).Run h s) :
    NoneFree h s ↔ ∀ T E, Responded h (T, E) → ¬ Free s T E :=
  forall₂_congr fun _ _ => forall_congr' fun hE => accounted_iff run hE

/-- What makes a lease free in a step. -/
theorem step_free (h : step env s a = some s') {T E : Uuid} (hfree : Free s' T E) :
    Free s T E ∨ s.cost T E = none ∧ ∃ exc r, a.tx? env s = some (.recordFailed T E exc) ∧
      s.attempt T E = some r ∧ r.status = .inflight := by
  obtain ⟨r, hr, hfailed, hnone⟩ := hfree
  have hnone' : s.cost T E = none := by
    rw [← Option.not_isSome_iff_eq_none]
    intro hcost
    have := step_cost_isSome h hcost
    rw [hnone] at this
    cases this
  rcases step_attempt h T E with heq | ⟨tx, htx, hmove⟩
  · exact Or.inl ⟨r, heq ▸ hr, hfailed, hnone'⟩
  · generalize hold : s.attempt T E = old at hmove
    rw [hr] at hmove
    cases hmove with
    | keep => exact Or.inl ⟨r, hold, hfailed, hnone'⟩
    | start _ hstatus => cases hstatus.symm.trans hfailed
    | doubt => cases hfailed
    | complete => cases hfailed
    | @fail exc r' message hinflight => exact Or.inr ⟨hnone', exc, r', htx, rfl, hinflight⟩

/-- A failure of an attempt in flight without a receipt makes its lease free. -/
theorem free_of_failure (h : step env s a = some s') {T E : Uuid} {exc : PyExc} {r : AttemptRow}
    (htx : a.tx? env s = some (.recordFailed T E exc)) (hr : s.attempt T E = some r)
    (hinflight : r.status = .inflight) (hnone : s.cost T E = none) : Free s' T E := by
  rcases step_db h with ⟨tx, reply, htx', hexec⟩ | ⟨hno, -⟩
  · rw [htx] at htx'
    cases htx'
    obtain ⟨message, -, hattempt, hcosts⟩ := exec_recordFailed hexec
    refine ⟨r.conclude .failed s.clock (some message), ?_, rfl, ?_⟩
    · rw [State.attempt, hattempt, show s.store.db.attempts.find? (T, E) = some r from hr, Option.map_some,
        if_pos hinflight]
    · rw [State.cost, hcosts]
      exact hnone
  · rw [htx] at hno
    cases hno

/-- A step that answers commits no transaction. -/
theorem tx?_of_responds? {l : Lease} (h : a.responds? s = some l) : a.tx? env s = none := by
  obtain ⟨w, d, op, fresh, body, rfl, hw⟩ := call_of_responds? h
  rw [Action.tx?, hw]
  exact (callOp_commits d l op _).1

/-- A step keeps responded leases from being free exactly when it fails none of them. -/
theorem noneFree_step (run : (system env).Run h s) (hs : NoneFree h s) (hstep : step env s a = some s') :
    NoneFree ((s, a) :: h) s' ↔ FailsUnanswered env h s a := by
  rw [noneFree_iff (run.step hstep)]
  rw [noneFree_iff run] at hs
  constructor
  · intro hafter T E exc htx hE
    by_contra hnot
    rw [not_or, Option.not_isSome_iff_eq_none] at hnot
    obtain ⟨hnone, hattempt⟩ := hnot
    simp only [not_forall, not_not] at hattempt
    obtain ⟨r, hr, hinflight⟩ := hattempt
    exact hafter T E (responded_cons.mpr (Or.inr hE)) (free_of_failure hstep htx hr hinflight hnone)
  · intro hfails T E hE hfree
    rcases responded_cons.mp hE with hresponds | hE
    · -- the call answers in this very step
      rcases step_free hstep hfree with ⟨r, hr, hfailed, -⟩ | ⟨-, exc, r, htx, -, -⟩
      · obtain ⟨w, d, op, _, _, -, hw⟩ := call_of_responds? hresponds
        exact run_held run w T E r (by rw [hw]; rfl) hr hfailed
      · rw [tx?_of_responds? hresponds] at htx
        cases htx
    · rcases step_free hstep hfree with hbefore | ⟨hnone, exc, r, htx, hr, hinflight⟩
      · exact hs T E hE hbefore
      · rcases hfails T E exc htx hE with hcost | hconcluded
        · rw [hnone] at hcost
          cases hcost
        · exact hconcluded r hr hinflight

/-! ## Answers that can be read and written -/

/-- Steps in which a response is read when it arrives, and the database takes a completion. -/
structure AnswerKept (env : Env) (s : State) (a : Action) : Prop where
  read : ∀ w fresh body d l op, a = .work w fresh (.responded body) → s.workers w = .call d l op →
    ∃ c, readResponse env op d.payload body = .ok c
  written : ∀ w fresh exc d l c, a = .work w fresh (.refused exc) → s.workers w ≠ .complete d l c

/-- Whether a step keeps its answer. -/
def answerKept (env : Env) (s : State) : Action → Bool
  | .work w _ (.responded body) => match s.workers w with
    | .call d _ op => (readResponse env op d.payload body).toOption.isSome
    | _ => true
  | .work w _ (.refused _) => match s.workers w with
    | .complete _ _ _ => false
    | _ => true
  | _ => true

theorem answerKept_iff (env : Env) (s : State) (a : Action) :
    answerKept env s a = true ↔ AnswerKept env s a := by
  constructor
  · intro h
    refine ⟨fun w fresh body d l op ha hw => ?_, fun w fresh exc d l c ha hw => ?_⟩
    · rw [ha, answerKept, hw] at h
      change (readResponse env op d.payload body).toOption.isSome = true at h
      cases hread : readResponse env op d.payload body with
      | ok c => exact ⟨c, rfl⟩
      | error exc =>
        rw [hread] at h
        cases h
    · rw [ha, answerKept, hw] at h
      cases h
  · intro h
    unfold answerKept
    split
    · next w fresh body =>
      split
      · next d l op hw =>
        obtain ⟨c, hc⟩ := h.read w fresh body d l op rfl hw
        rw [hc]
        rfl
      · rfl
    · next w fresh exc =>
      split
      · next d l c hw => exact absurd hw (h.written w fresh exc d l c rfl)
      · rfl
    · rfl

instance (env : Env) (s : State) (a : Action) : Decidable (AnswerKept env s a) :=
  decidable_of_iff _ (answerKept_iff env s a)

/-- A worker whose call has returned a response is about to complete, or the receipt is there. -/
def Settling (h : History State Action) (s : State) : Prop :=
  ∀ w T E, (s.workers w).lease? = some (T, E) → Responded h (T, E) →
    (∃ d c, s.workers w = .complete d (T, E) c) ∨ (s.cost T E).isSome

/-- A lease drawn in a step has not been responded to. -/
theorem lease?_of_responded (run : (system env).Run h s) (hstep : step env s a = some s') {w : ℕ} {T E : Uuid}
    (hl : (s'.workers w).lease? = some (T, E)) (hE : Responded ((s, a) :: h) (T, E)) :
    (s.workers w).lease? = some (T, E) := by
  have hleases := run_leases run
  rcases step_lease hstep hl with hbefore | ⟨hfresh, -⟩
  · exact hbefore
  · rcases responded_cons.mp hE with hresponds | hE
    · obtain ⟨v, d, op, _, _, -, hv⟩ := call_of_responds? hresponds
      exact absurd (hleases.issued v (T, E) (by rw [hv]; rfl)) hfresh
    · exact absurd (hleases.attempts T E (attempt_of_responded run hE)) hfresh

/-- What becomes of a lease at its call: its answer leads to a completion, and otherwise nothing has
been answered. -/
theorem settle_call {w : ℕ} {outcome : Outcome} {fresh : Uuid} {d : Delivery} {l : Lease} {op : Operation}
    (hkept : AnswerKept env s (.work w fresh outcome)) (hw : s.workers w = .call d l op)
    (hstep : step env s (.work w fresh outcome) = some s') :
    (∃ c, s'.workers w = .complete d l c) ∨ (Action.work w fresh outcome).responds? s = none := by
  have hperform := (step_work hstep).1
  rw [hw, Pc.op, callOp] at hperform
  split at hperform
  · cases outcome <;> first | exact Or.inr rfl | cases hperform
  · cases outcome with
    | responded body =>
      obtain ⟨c, hc⟩ := hkept.read w fresh body d l op rfl hw
      simp only [perform, hc, Option.some.injEq, Prod.mk.injEq] at hperform
      exact Or.inl ⟨c, hperform.2.symm⟩
    | done => exact Or.inr rfl
    | refused exc => exact Or.inr rfl
    | lost exc => exact Or.inr rfl
    | due b => exact Or.inr rfl
    | raised exc => exact Or.inr rfl

/-- What becomes of a lease at its completion: the receipt is written. -/
theorem settle_complete {w : ℕ} {outcome : Outcome} {fresh : Uuid} {d : Delivery} {T E : Uuid} {c : Completion}
    (hkept : AnswerKept env s (.work w fresh outcome)) (hw : s.workers w = .complete d (T, E) c)
    (hstep : step env s (.work w fresh outcome) = some s') : (s'.cost T E).isSome := by
  have hperform := (step_work hstep).1
  have htx : (∃ exc, outcome = .refused exc) ∨
      (Action.work w fresh outcome).tx? env s = some (.recordCompletion T E c) := by
    rw [hw] at hperform
    rw [Action.tx?, hw]
    cases outcome with
    | refused exc => exact Or.inl ⟨exc, rfl⟩
    | done => exact Or.inr rfl
    | lost exc => exact Or.inr rfl
    | due b => cases hperform
    | responded body => cases hperform
    | raised exc => cases hperform
  rcases htx with ⟨exc, rfl⟩ | htx
  · exact absurd hw (hkept.written w fresh exc d (T, E) c rfl)
  · exact cost_of_completion hstep htx

/-- A step that keeps its answer keeps the workers settling. -/
theorem Settling.next (run : (system env).Run h s) (hs : Settling h s) (hkept : AnswerKept env s a)
    (hstep : step env s a = some s') : Settling ((s, a) :: h) s' := by
  intro w T E hl hE
  have hheld := lease?_of_responded run hstep hl hE
  have settled : ∀ {P : Prop}, a.responds? s = none → (∀ d c, s.workers w ≠ .complete d (T, E) c) →
      P ∨ (s'.cost T E).isSome := by
    intro P hsilent hpc
    rcases responded_cons.mp hE with hresponds | hE
    · rw [hsilent] at hresponds
      cases hresponds
    · rcases hs w T E hheld hE with ⟨d, c, hw⟩ | hcost
      · exact absurd hw (hpc d c)
      · exact Or.inr (step_cost_isSome hstep hcost)
  cases step_worker hstep w with
  | start hstart => rw [hstart] at hl; cases hl
  | crash hcrash => rw [hcrash] at hl; cases hl
  | stay hother hsame =>
    rcases responded_cons.mp hE with hresponds | hE
    · obtain ⟨v, d, op, fresh, body, rfl, hv⟩ := call_of_responds? hresponds
      have hvw : v = w := (run_leases run).distinct v w (T, E) (T, E) (by rw [hv]; rfl) hheld rfl
      exact absurd (by rw [hvw]) (hother fresh (.responded body))
    · rcases hs w T E hheld hE with ⟨d, c, hw⟩ | hcost
      · exact Or.inl ⟨d, c, hsame.trans hw⟩
      · exact Or.inr (step_cost_isSome hstep hcost)
  | @work fresh outcome hperform =>
    have silent : ∀ {pc : Pc}, s.workers w = pc → (∀ d l op, pc ≠ .call d l op) →
        (Action.work w fresh outcome).responds? s = none := by
      intro pc hw hcall
      cases hresponds : (Action.work w fresh outcome).responds? s with
      | none => rfl
      | some l =>
        obtain ⟨v, d, op, _, _, ha, hv⟩ := call_of_responds? hresponds
        cases ha
        exact absurd (hw.symm.trans hv) (hcall d l op)
    cases hw : s.workers w with
    | attempt d l => exact settled (silent hw nofun) (by rw [hw]; nofun)
    | operate d l => exact settled (silent hw nofun) (by rw [hw]; nofun)
    | call d l op =>
      rw [hw] at hheld
      cases hheld
      rcases settle_call hkept hw hstep with ⟨c, hc⟩ | hsilent
      · exact Or.inl ⟨d, c, hc⟩
      · exact settled hsilent (by rw [hw]; nofun)
    | complete d l c =>
      rw [hw] at hheld
      cases hheld
      exact Or.inr (settle_complete hkept hw hstep)
    | fail d l exc =>
      rw [lease?_of_failure hstep hw] at hl
      cases hl
    | _ =>
      rw [hw] at hheld
      cases hheld

/-- Where every answer is kept, no responded lease is failed. -/
theorem always_of_kept (run : (system env).Run h s) (kept : System.AllSteps (AnswerKept env) h) :
    Settling h s ∧ System.Always (FailsUnanswered env) h := by
  induction run with
  | start =>
    refine ⟨fun w T E hl => ?_, trivial⟩
    cases hl
  | step run hstep ih =>
    rw [System.allSteps_cons] at kept
    obtain ⟨hs, halways⟩ := ih kept.2
    refine ⟨hs.next run kept.1 hstep, ?_, halways⟩
    intro T E exc htx hE
    left
    obtain ⟨w, d, fresh, outcome, rfl, hw⟩ := worker_of_failure htx
    rcases hs w T E (by rw [hw]; rfl) hE with ⟨d', c, hcomplete⟩ | hcost
    · rw [hw] at hcomplete
      cases hcomplete
    · exact hcost

/-- **No invocation appears free, exactly when no answered one is failed.** Along a run every lease
whose call returned a response stays accounted for, by its worker, its receipt or an unresolved
attempt, exactly when no `record_failed` concludes such a lease while its attempt is in flight
without a receipt. So it is wherever every response is read and every completion written. -/
theorem none_free_iff (run : (system env).Run h s) :
    (System.Throughout NoneFree h s ↔ System.Always (FailsUnanswered env) h) ∧
      (System.AllSteps (AnswerKept env) h → System.Throughout NoneFree h s) := by
  have hiff : System.Throughout NoneFree h s ↔ System.Always (FailsUnanswered env) h := by
    refine run.throughout_iff_always ?_ fun h s a s' run hs hstep => noneFree_step run hs hstep
    intro T E hE
    obtain ⟨x, hx, -⟩ := hE
    cases hx
  exact ⟨hiff, fun kept => hiff.mpr (always_of_kept run kept).2⟩

/-- In the completed sample run the answer is kept, and the lease is accounted for throughout. -/
theorem none_free_iff_completed :
    ∃ h s, (system Sample.env).Run h s ∧ Responded h (Sample.task, 2) ∧ System.Throughout NoneFree h s := by
  obtain ⟨h, s, run, htest⟩ := System.exists_run (system Sample.env) Sample.completed
    (fun h _ => h.all (fun x => decide (AnswerKept Sample.env x.1 x.2)) &&
      h.any fun x => decide (x.2.responds? x.1 = some (Sample.task, 2))) (by decide +kernel)
  obtain ⟨hkept, hresponded⟩ := Bool.and_eq_true_iff.mp htest
  have kept : System.AllSteps (AnswerKept Sample.env) h := fun x hx =>
    of_decide_eq_true (List.all_eq_true.mp hkept x hx)
  obtain ⟨x, hx, hresponds⟩ := List.any_eq_true.mp hresponded
  exact ⟨h, s, run, ⟨x, hx, of_decide_eq_true hresponds⟩, (none_free_iff run).2 kept⟩

/-- A response whose `usage` is `null` makes the completion raise, and the failure is recorded
without a receipt. -/
theorem free_after_unreadable_usage : ¬ ∀ h s, (system Sample.env).Run h s → NoneFree h s := by
  obtain ⟨h, s, run, htest⟩ := System.exists_run (system Sample.env)
    (Sample.called ++ [.work 0 0 (.responded (Sample.body .null)), .work 0 0 (.refused noAttribute),
      Sample.go 0 0])
    (fun h (s : State) => h.any (fun x => decide (x.2.responds? x.1 = some (Sample.task, 2))) &&
      ((s.attempt Sample.task 2).any (fun r : AttemptRow => decide (r.status = AttemptStatus.failed)) &&
        decide (s.cost Sample.task 2 = none))) (by decide +kernel)
  obtain ⟨hresponded, hfree⟩ := Bool.and_eq_true_iff.mp htest
  obtain ⟨hfailed, hnone⟩ := Bool.and_eq_true_iff.mp hfree
  obtain ⟨x, hx, hresponds⟩ := List.any_eq_true.mp hresponded
  obtain ⟨r, hr, hstatus⟩ := (Option.any_eq_true _ _).mp hfailed
  intro accounted
  exact (noneFree_iff run).mp (accounted h s run) Sample.task 2 ⟨x, hx, of_decide_eq_true hresponds⟩
    ⟨r, hr, of_decide_eq_true hstatus, of_decide_eq_true hnone⟩

end NeuroLab.ControlPlane
