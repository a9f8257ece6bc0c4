import NeuroLab.ControlPlane.Sample
import NeuroLab.ControlPlane.TaskLifecycle

/-!
# Executions under a lease

A worker that executes a delivery holds the lease its claim handed out. Leases come
from fresh draws, so no two workers hold one; a worker past its receipt of the attempt
finds that attempt in the table; and a transaction that names a lease is made by the
worker that holds it.
-/

namespace NeuroLab.ControlPlane

open Python Common

variable {env : Env} {now : ℕ} {store store' : Store} {s s' : State} {a : Action}
  {h : History State Action} {fresh : Uuid}

/-! ## Leases of a program counter -/

namespace Pc

/-- The lease a worker holds. -/
def lease? : Pc → Option Lease
  | attempt _ l => some l
  | operate _ l => some l
  | call _ l _ => some l
  | complete _ l _ => some l
  | fail _ l _ => some l
  | _ => none

/-- The lease of a worker that has not come to its outcome. -/
def open? : Pc → Option Lease
  | attempt _ l => some l
  | operate _ l => some l
  | call _ l _ => some l
  | _ => none

/-- The lease of a worker behind `record_provider_attempt`. -/
def recorded? : Pc → Option Lease
  | operate _ l => some l
  | call _ l _ => some l
  | complete _ l _ => some l
  | _ => none

/-- The lease of a worker about to write its outcome. -/
def writing? : Pc → Option Lease
  | complete _ l _ => some l
  | fail _ l _ => some l
  | _ => none

theorem open?_of_lease? {pc : Pc} (h : pc.lease? = none) : pc.open? = none := by
  cases pc <;> first | rfl | cases h

theorem recorded?_of_lease? {pc : Pc} (h : pc.lease? = none) : pc.recorded? = none := by
  cases pc <;> first | rfl | cases h

end Pc

/-- Every continuation of an operation satisfies a predicate. -/
def Op.All {π : Type} (P : π → Prop) : Op π → Prop
  | .stopped => True
  | .wait k => ∀ b, P (k b)
  | .compute next => P next
  | .sql _ k => ∀ x, P (k x)
  | .redis _ k => ∀ x, P (k x)
  | .call k => ∀ x, P (k x)

/-- A predicate of all continuations is a postcondition. -/
theorem Op.All.wp {π : Type} {P : π → Prop} {Q : Store → π → Prop} {op : Op π} (hP : op.All P)
    (hQ : ∀ store p, P p → Q store p) : op.wp env now store Q := by
  cases op with
  | stopped => trivial
  | wait k => exact fun b => hQ _ _ (hP b)
  | compute next => exact hQ _ _ hP
  | sql tx k => exact ⟨fun _ => hQ _ _ (hP _), fun _ _ _ => ⟨hQ _ _ (hP _), fun _ => hQ _ _ (hP _)⟩⟩
  | redis cmd k => exact ⟨fun _ => hQ _ _ (hP _), hQ _ _ (hP _), fun _ => hQ _ _ (hP _)⟩
  | call k => exact fun _ => hQ _ _ (hP _)

theorem Op.All.mono {π : Type} {P Q : π → Prop} {op : Op π} (hP : op.All P) (hQ : ∀ p, P p → Q p) :
    op.All Q := by
  cases op with
  | stopped => trivial
  | wait k => exact fun b => hQ _ (hP b)
  | compute next => exact hQ _ hP
  | sql tx k => exact fun x => hQ _ (hP x)
  | redis cmd k => exact fun x => hQ _ (hP x)
  | call k => exact fun x => hQ _ (hP x)

/-! ## The control flow of a worker -/

/-- Where a worker stands, without what it holds there. -/
inductive Stage
  | down
  | outboxDue
  | claimOutbox
  | publish
  | push
  | mark
  | noteError
  | cleanupDue
  | cleanup
  | recoveryDue
  | scan
  | recovering
  | deadLetter
  | recover
  | requeue
  | acknowledge
  | reapTasks
  | reapProcessing
  | reap
  | take
  | deliver
  | bury
  | claim
  | attempt
  | operate
  | call
  | complete
  | fail
  | ack
deriving DecidableEq

/-- The stage of a program counter. -/
def Pc.stage : Pc → Stage
  | down => .down
  | outboxDue => .outboxDue
  | claimOutbox => .claimOutbox
  | publish _ => .publish
  | push _ _ _ _ => .push
  | mark _ _ _ => .mark
  | noteError _ _ _ _ => .noteError
  | cleanupDue => .cleanupDue
  | cleanup => .cleanup
  | recoveryDue => .recoveryDue
  | scan => .scan
  | recovering _ => .recovering
  | deadLetter _ _ => .deadLetter
  | recover _ _ _ _ => .recover
  | requeue _ _ => .requeue
  | acknowledge _ _ => .acknowledge
  | reapTasks => .reapTasks
  | reapProcessing _ => .reapProcessing
  | reap _ => .reap
  | take => .take
  | deliver _ => .deliver
  | bury _ => .bury
  | claim _ => .claim
  | attempt _ _ => .attempt
  | operate _ _ => .operate
  | call _ _ _ => .call
  | complete _ _ _ => .complete
  | fail _ _ _ => .fail
  | ack _ => .ack

/-- The stages one operation leads to. -/
def Stage.next : Stage → List Stage
  | down => []
  | outboxDue => [claimOutbox, cleanupDue]
  | claimOutbox => [publish, cleanupDue, down]
  | publish => [push, noteError, cleanupDue, down]
  | push => [mark, noteError, down]
  | mark => [publish, noteError, down]
  | noteError => [publish, down]
  | cleanupDue => [cleanup, recoveryDue]
  | cleanup => [recoveryDue, down]
  | recoveryDue => [scan, take]
  | scan => [recovering, reapTasks, down]
  | recovering => [recover, deadLetter, reapTasks]
  | deadLetter => [recovering, reapTasks]
  | recover => [requeue, acknowledge, recovering, reapTasks, down]
  | requeue => [recovering, reapTasks]
  | acknowledge => [recovering, reapTasks]
  | reapTasks => [reapProcessing, take, down]
  | reapProcessing => [reap, take, down]
  | reap => [take]
  | take => [deliver, outboxDue, down]
  | deliver => [claim, bury, down]
  | bury => [ack, down]
  | claim => [attempt, ack, outboxDue, down]
  | attempt => [operate, fail]
  | operate => [call, complete, fail]
  | call => [complete, fail]
  | complete => [ack, fail]
  | fail => [ack, outboxDue]
  | ack => [outboxDue, down]

/-- Whether an operation at one stage may lead to another. -/
def Stage.leadsTo (st st' : Stage) : Bool := decide (st' ∈ st.next)

theorem publishFailed_stage {st : Stage} (hnote : st.leadsTo .noteError = true) (hdown : st.leadsTo .down = true)
    (id claimId : Uuid) (rest : List (Uuid × Json × Uuid)) (exc : PyExc) :
    st.leadsTo (publishFailed id claimId rest exc).stage = true := by
  unfold publishFailed
  split
  · exact hnote
  · exact hdown

theorem publishNext_stage (claimed : List (Uuid × Json × Uuid)) :
    Stage.publish.leadsTo (publishNext env claimed).stage = true := by
  unfold publishNext
  split
  · rfl
  · split
    · exact publishFailed_stage rfl rfl ..
    · split
      · exact publishFailed_stage rfl rfl ..
      · split
        · exact publishFailed_stage rfl rfl ..
        · rfl

/-- An operation leads to the next stages only. -/
theorem all_leadsTo (pc : Pc) : (pc.op env fresh).All fun p => pc.stage.leadsTo p.stage = true := by
  cases pc with
  | down => trivial
  | publish claimed => exact publishNext_stage claimed
  | push id raw claimId rest =>
    intro x
    cases x with
    | ok reply => rfl
    | error exc => exact publishFailed_stage rfl rfl ..
  | mark id claimId rest =>
    intro x
    cases x with
    | ok reply => rfl
    | error exc => exact publishFailed_stage rfl rfl ..
  | recovering raws =>
    change Stage.recovering.leadsTo (recoverNext env raws).stage = true
    unfold recoverNext
    repeat' split
    all_goals rfl
  | deliver raw =>
    change Stage.deliver.leadsTo (readNext env fresh raw).stage = true
    unfold readNext
    repeat' split
    all_goals rfl
  | claim d =>
    intro x
    cases x with
    | error exc => rfl
    | ok reply =>
      cases reply with
      | lease granted => cases granted <;> rfl
      | _ => rfl
  | operate d l =>
    change Stage.operate.leadsTo (operateNext env d l).stage = true
    unfold operateNext
    split <;> rfl
  | call d l op =>
    change (callOp env d l op).All _
    unfold callOp
    split
    · rfl
    · intro x
      cases x with
      | error exc => rfl
      | ok body =>
        dsimp only
        cases readResponse env op d.payload body <;> rfl
  | _ =>
    intro x
    simp only
    repeat' split
    all_goals rfl

/-- Where no next stage is of a kind, an operation leads to none. -/
theorem all_outside {pc : Pc} {kind : Stage → Bool} (hnext : pc.stage.next.all (fun st => !kind st) = true) :
    (pc.op env fresh).All fun p => kind p.stage = false := by
  refine Op.All.mono (all_leadsTo pc) fun p hp => ?_
  have hnot := List.all_eq_true.mp hnext p.stage (of_decide_eq_true hp)
  rwa [Bool.not_eq_true'] at hnot

/-! ## Leases -/

/-- The stages of a worker with a lease. -/
def Stage.leased : Stage → Bool
  | attempt => true
  | operate => true
  | call => true
  | complete => true
  | fail => true
  | _ => false

theorem Pc.lease?_eq_none_iff (pc : Pc) : pc.lease? = none ↔ pc.stage.leased = false := by
  cases pc <;> simp [Pc.lease?, Pc.stage, Stage.leased]

/-- A worker with no lease at any next stage comes to none. -/
theorem all_lease?_none {pc : Pc} (hnext : pc.stage.next.all (fun st => !st.leased) = true) :
    (pc.op env fresh).All fun p => p.lease? = none :=
  Op.All.mono (all_outside hnext) fun p hp => p.lease?_eq_none_iff.mpr hp

/-- Where a worker's leases come from: a claim hands out a fresh one, every later stage keeps it,
and behind the receipt the attempt is in the table. -/
theorem lease_wp (pc : Pc) : (pc.op env fresh).wp env now store fun store' p =>
    (∀ l, p.lease? = some l → pc.lease? = some l ∨ (∃ d, pc = .claim d) ∧ l.2 = fresh) ∧
      (∀ l, p.open? = some l → pc.open? = some l ∨ (∃ d, pc = .claim d) ∧ l.2 = fresh) ∧
      ∀ l, p.recorded? = some l → pc.recorded? = some l ∨ (store'.db.attempts.find? l).isSome := by
  have leaseless : ∀ {store' : Store} {p : Pc}, p.lease? = none →
      (∀ l, p.lease? = some l → pc.lease? = some l ∨ (∃ d, pc = .claim d) ∧ l.2 = fresh) ∧
      (∀ l, p.open? = some l → pc.open? = some l ∨ (∃ d, pc = .claim d) ∧ l.2 = fresh) ∧
      ∀ l, p.recorded? = some l → pc.recorded? = some l ∨ (store'.db.attempts.find? l).isSome := by
    intro store' p hp
    simp [hp, Pc.open?_of_lease? hp, Pc.recorded?_of_lease? hp]
  have unheld : ∀ {P : Lease → Prop} (l : Lease), none = some l → P l := by
    rintro P l ⟨⟩
  cases pc with
  | claim d =>
    refine ⟨fun _ => leaseless rfl, fun db reply hexec => ⟨?_, fun _ => leaseless rfl⟩⟩
    cases reply with
    | lease granted =>
      cases granted with
      | none => exact leaseless rfl
      | some l =>
        obtain ⟨_, _, htx, -⟩ := exec_lease hexec
        have hfresh : l.2 = fresh := by
          cases htx
          rfl
        refine ⟨fun l' hl' => Or.inr ⟨⟨d, rfl⟩, ?_⟩, fun l' hl' => Or.inr ⟨⟨d, rfl⟩, ?_⟩, unheld⟩
        · cases hl'
          exact hfresh
        · cases hl'
          exact hfresh
    | _ => exact leaseless rfl
  | attempt d l =>
    refine ⟨fun _ => ⟨fun _ => Or.inl, unheld, unheld⟩, fun db reply hexec =>
      ⟨⟨fun _ => Or.inl, fun _ => Or.inl, fun l' hl' => ?_⟩, fun _ => ⟨fun _ => Or.inl, unheld, unheld⟩⟩⟩
    cases hl'
    exact Or.inr (exec_recordProviderAttempt hexec)
  | operate d l =>
    change _ ∧ _ ∧ _
    unfold operateNext
    split
    · exact ⟨fun _ => Or.inl, fun _ => Or.inl, fun _ => Or.inl⟩
    · exact ⟨fun _ => Or.inl, unheld, fun _ => Or.inl⟩
    · exact ⟨fun _ => Or.inl, unheld, unheld⟩
  | call d l op =>
    change (callOp env d l op).wp _ _ _ _
    unfold callOp
    split
    · exact ⟨fun _ => Or.inl, unheld, unheld⟩
    · intro answer
      cases answer with
      | error exc => exact ⟨fun _ => Or.inl, unheld, unheld⟩
      | ok body =>
        simp only
        split
        · exact ⟨fun _ => Or.inl, unheld, unheld⟩
        · exact ⟨fun _ => Or.inl, unheld, fun _ => Or.inl⟩
  | complete d l c =>
    exact ⟨fun _ => ⟨fun _ => Or.inl, unheld, unheld⟩,
      fun db reply _ => ⟨leaseless rfl, fun _ => ⟨fun _ => Or.inl, unheld, unheld⟩⟩⟩
  | fail d l exc =>
    exact ⟨fun _ => leaseless rfl, fun db reply _ => ⟨leaseless rfl, fun _ => leaseless rfl⟩⟩
  | _ => exact (all_lease?_none rfl).wp fun _ _ hp => leaseless hp

/-! ## Leases in hand -/

/-- What the workers' leases rest on. -/
structure Leases (s : State) : Prop where
  issued : ∀ w l, (s.workers w).lease? = some l → l.2 ∈ s.issued
  attempts : ∀ T E, (s.attempt T E).isSome → E ∈ s.issued
  distinct : ∀ v w l l', (s.workers v).lease? = some l → (s.workers w).lease? = some l' → l.2 = l'.2 → v = w
  recorded : ∀ w T E, (s.workers w).recorded? = some (T, E) → (s.attempt T E).isSome

theorem Leases.initial : Leases .initial where
  issued _ _ h := by cases h
  attempts _ _ h := by cases h
  distinct _ _ _ _ h := by cases h
  recorded _ _ _ h := by cases h

/-- Where the lease of a worker comes from in a step. -/
theorem step_lease (h : step env s a = some s') {w : ℕ} {l : Lease} (hl : (s'.workers w).lease? = some l) :
    (s.workers w).lease? = some l ∨ l.2 ∉ s.issued ∧ l.2 ∈ s'.issued ∧ ∃ fresh outcome, a = .work w fresh outcome := by
  cases step_worker h w with
  | stay _ hsame => exact Or.inl (hsame ▸ hl)
  | start hstart => rw [hstart] at hl; cases hl
  | crash hcrash => rw [hcrash] at hl; cases hl
  | @work fresh outcome hperform =>
    have hwp := (perform_cases hperform).2.2 _ (lease_wp (s.workers w))
    rcases hwp.1 l hl with hbefore | ⟨⟨d, hclaim⟩, hfresh⟩
    · exact Or.inl hbefore
    · have hissued := (step_work h).2.2.2.2
      rw [hclaim] at hissued
      simp only [Pc.draws, if_true] at hissued
      rw [hfresh]
      exact Or.inr ⟨hissued.1, hissued.2 ▸ List.mem_cons_self, fresh, outcome, rfl⟩

/-! ## Whose lease a transaction names -/

/-- The worker that records an attempt. -/
theorem worker_of_attempt {T E : Uuid} {payload : Fields}
    (h : a.tx? env s = some (.recordProviderAttempt T E payload)) :
    ∃ w d fresh outcome, a = .work w fresh outcome ∧ s.workers w = .attempt d (T, E) := by
  rcases Action.tx?_eq_some h with ⟨w, fresh, outcome, rfl, hpc⟩ | ⟨r, outcome, rfl, hpc⟩
  · cases hw : s.workers w <;> rw [hw] at hpc <;> cases hpc
    exact ⟨w, _, fresh, outcome, rfl, hw⟩
  · cases hr : s.requests r <;> rw [hr] at hpc <;> cases hpc

/-- The worker that completes a lease. -/
theorem worker_of_completion {T E : Uuid} {c : Completion} (h : a.tx? env s = some (.recordCompletion T E c)) :
    ∃ w d fresh outcome, a = .work w fresh outcome ∧ s.workers w = .complete d (T, E) c := by
  rcases Action.tx?_eq_some h with ⟨w, fresh, outcome, rfl, hpc⟩ | ⟨r, outcome, rfl, hpc⟩
  · cases hw : s.workers w <;> rw [hw] at hpc <;> cases hpc
    exact ⟨w, _, fresh, outcome, rfl, hw⟩
  · cases hr : s.requests r <;> rw [hr] at hpc <;> cases hpc

/-- The worker that fails a lease. -/
theorem worker_of_failure {T E : Uuid} {exc : PyExc} (h : a.tx? env s = some (.recordFailed T E exc)) :
    ∃ w d fresh outcome, a = .work w fresh outcome ∧ s.workers w = .fail d (T, E) exc := by
  rcases Action.tx?_eq_some h with ⟨w, fresh, outcome, rfl, hpc⟩ | ⟨r, outcome, rfl, hpc⟩
  · cases hw : s.workers w <;> rw [hw] at hpc <;> cases hpc
    exact ⟨w, _, fresh, outcome, rfl, hw⟩
  · cases hr : s.requests r <;> rw [hr] at hpc <;> cases hpc

/-- A new attempt is recorded by its transaction. -/
theorem step_attempt_new (h : step env s a = some s') {T E : Uuid} (hnew : (s'.attempt T E).isSome) :
    (s.attempt T E).isSome ∨ ∃ payload, a.tx? env s = some (.recordProviderAttempt T E payload) := by
  rcases step_attempt h T E with heq | ⟨tx, htx, hmove⟩
  · exact Or.inl (heq ▸ hnew)
  · generalize s.attempt T E = old at hmove
    generalize s'.attempt T E = new at hmove hnew
    cases hmove with
    | keep => exact Or.inl hnew
    | start => exact Or.inr ⟨_, htx⟩
    | doubt => exact Or.inl rfl
    | complete => exact Or.inl rfl
    | fail => exact Or.inl rfl

/-- A step keeps what the leases rest on. -/
theorem Leases.next (hs : Leases s) (h : step env s a = some s') : Leases s' where
  issued w l hl := by
    rcases step_lease h hl with hbefore | ⟨-, hfresh, -⟩
    · exact step_issued h (hs.issued w l hbefore)
    · exact hfresh
  attempts T E hnew := by
    rcases step_attempt_new h hnew with hold | ⟨payload, htx⟩
    · exact step_issued h (hs.attempts T E hold)
    · obtain ⟨w, d, fresh, outcome, -, hw⟩ := worker_of_attempt htx
      exact step_issued h (hs.issued w (T, E) (by rw [hw]; rfl))
  distinct v w l l' hl hl' hsame := by
    rcases step_lease h hl with hv | ⟨hnew, -, fresh, outcome, ha⟩
    · rcases step_lease h hl' with hw | ⟨hnew', -, -⟩
      · exact hs.distinct v w l l' hv hw hsame
      · exact absurd (hsame ▸ hs.issued v l hv) hnew'
    · rcases step_lease h hl' with hw | ⟨-, -, fresh', outcome', ha'⟩
      · exact absurd (hsame ▸ hs.issued w l' hw) hnew
      · rw [ha] at ha'
        cases ha'
        rfl
  recorded w T E hE := by
    cases step_worker h w with
    | stay _ hsame => exact step_attempt_isSome h (hs.recorded w T E (hsame ▸ hE))
    | start hstart => rw [hstart] at hE; cases hE
    | crash hcrash => rw [hcrash] at hE; cases hE
    | work hperform =>
      have hwp := (perform_cases hperform).2.2 _ (lease_wp (s.workers w))
      rcases hwp.2.2 (T, E) hE with hbefore | hafter
      · exact step_attempt_isSome h (hs.recorded w T E hbefore)
      · exact hafter

/-- In every reachable state the workers' leases are sound. -/
theorem run_leases (run : (system env).Run h s) : Leases s :=
  run.invariant .initial fun _ _ _ hs hstep => hs.next hstep

/-- An attempt that was in the table at some point of a run is there at its end. -/
theorem attempt_of_mem (run : (system env).Run h s) {T E : Uuid} {x : State × Action} (hx : x ∈ h)
    (hattempt : (x.1.attempt T E).isSome) : (s.attempt T E).isSome := by
  induction run with
  | start => cases hx
  | step run hstep ih =>
    refine step_attempt_isSome hstep ?_
    rcases List.mem_cons.mp hx with rfl | hx
    · exact hattempt
    · exact ih hx

/-- A worker behind a write of its outcome has let its lease go. -/
theorem lease?_of_failure {w : ℕ} {outcome : Outcome} {d : Delivery} {l : Lease} {exc : PyExc}
    (h : step env s (.work w fresh outcome) = some s') (hw : s.workers w = .fail d l exc) :
    (s'.workers w).lease? = none := by
  have hperform := (step_work h).1
  rw [hw] at hperform
  exact (perform_cases hperform).2.2 (fun _ p => p.lease? = none)
    ⟨fun _ => rfl, fun _ _ _ => ⟨rfl, fun _ => rfl⟩⟩

/-- The attempt of a lease that some worker still holds has not failed. -/
theorem run_held (run : (system env).Run h s) : ∀ w T E att, (s.workers w).lease? = some (T, E) →
    s.attempt T E = some att → att.status ≠ .failed := by
  induction run with
  | start =>
    intro w T E att hl
    cases hl
  | @step h s s' a run hstep ih =>
    intro w T E att hl hat hfailed
    have hleases := run_leases run
    have hleases' := run_leases (run.step hstep)
    have hbefore : (s.workers w).lease? = some (T, E) := by
      rcases step_lease hstep hl with hbefore | ⟨hfresh, -, fresh, outcome, ha⟩
      · exact hbefore
      · -- an attempt under a lease just drawn would have been recorded in this step
        rcases step_attempt_new hstep (Option.isSome_iff_exists.mpr ⟨att, hat⟩) with hold | ⟨payload, htx⟩
        · exact absurd (hleases.attempts T E hold) hfresh
        · obtain ⟨v, d, _, _, -, hv⟩ := worker_of_attempt htx
          exact absurd (hleases.issued v (T, E) (by rw [hv]; rfl)) hfresh
    rcases step_attempt hstep T E with heq | ⟨tx, htx, hmove⟩
    · exact ih w T E att hbefore (heq ▸ hat) hfailed
    · generalize hold : s.attempt T E = old at hmove
      rw [hat] at hmove
      cases hmove with
      | keep => exact ih w T E att hbefore hold hfailed
      | start _ hstatus => cases hstatus.symm.trans hfailed
      | doubt => cases hfailed
      | complete => cases hfailed
      | fail message hinflight =>
        obtain ⟨v, d, fresh, outcome, rfl, hv⟩ := worker_of_failure htx
        have hvw : v = w := hleases.distinct v w (T, E) (T, E) (by rw [hv]; rfl) hbefore rfl
        rw [← hvw, lease?_of_failure hstep hv] at hl
        cases hl

end NeuroLab.ControlPlane
