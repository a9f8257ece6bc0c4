import NeuroLab.ControlPlane.Effects
import NeuroLab.ControlPlane.System

/-!
# What one step of the control plane can do

A step commits at most one transaction and sends at most one Redis command, and it
moves at most one process. The lemmas here read a step back in these terms; `Op.wp` is
the precondition under which whatever the environment makes of an operation leads to
a given postcondition.
-/

namespace NeuroLab.ControlPlane

open Python Common

variable {π : Type} {env : Env} {now : ℕ} {store store' : Store} {s s' : State} {a : Action}

/-! ## One operation -/

/-- The transaction an operation commits. -/
def Op.commits (op : Op π) (outcome : Outcome) : Option Tx :=
  match op, outcome with
  | .sql tx _, .done => some tx
  | .sql tx _, .lost _ => some tx
  | _, _ => none

/-- The Redis command that takes effect. -/
def Op.sends (op : Op π) (outcome : Outcome) : Option Command :=
  match op, outcome with
  | .redis cmd _, .done => some cmd
  | .redis cmd _, .lost _ => some cmd
  | _, _ => none

/-- The database after an optional transaction. -/
def Committed (env : Env) (now : ℕ) (db db' : Database) : Option Tx → Prop
  | none => db' = db
  | some tx => ∃ reply, tx.exec env now db = some (db', reply)

/-- The lists after an optional command. -/
def sent (redis : Redis) : Option Command → Redis
  | none => redis
  | some cmd => (cmd.exec redis).1

/-- The weakest precondition of an operation. -/
def Op.wp (env : Env) (now : ℕ) (store : Store) (Q : Store → π → Prop) : Op π → Prop
  | .stopped => True
  | .wait k => ∀ b, Q store (k b)
  | .compute next => Q store next
  | .sql tx k => (∀ exc, Q store (k (.error exc))) ∧
      ∀ db reply, tx.exec env now store.db = some (db, reply) →
        Q { store with db } (k (.ok reply)) ∧ ∀ exc, Q { store with db } (k (.error exc))
  | .redis cmd k => (∀ exc, Q store (k (.error exc))) ∧
      Q { store with redis := (cmd.exec store.redis).1 } (k (.ok (cmd.exec store.redis).2)) ∧
      ∀ exc, Q { store with redis := (cmd.exec store.redis).1 } (k (.error exc))
  | .call k => ∀ answer, Q store (k answer)

/-- Everything an operation does, by its outcome. -/
theorem perform_cases {op : Op π} {outcome : Outcome} {p : π}
    (h : perform env now store op outcome = some (store', p)) :
    Committed env now store.db store'.db (op.commits outcome) ∧
      store'.redis = sent store.redis (op.sends outcome) ∧
      ∀ Q : Store → π → Prop, op.wp env now store Q → Q store' p := by
  unfold perform at h
  split at h
  · cases h
    exact ⟨rfl, rfl, fun Q hQ => hQ _⟩
  · cases h
    exact ⟨rfl, rfl, fun Q hQ => hQ⟩
  · obtain ⟨⟨db, reply⟩, hexec, heq⟩ := Option.map_eq_some_iff.mp h
    cases heq
    exact ⟨⟨reply, hexec⟩, rfl, fun Q hQ => (hQ.2 db reply hexec).1⟩
  · obtain ⟨⟨db, reply⟩, hexec, heq⟩ := Option.map_eq_some_iff.mp h
    cases heq
    exact ⟨⟨reply, hexec⟩, rfl, fun Q hQ => (hQ.2 db reply hexec).2 _⟩
  · cases h
    exact ⟨rfl, rfl, fun Q hQ => hQ.1 _⟩
  · cases h
    exact ⟨rfl, rfl, fun Q hQ => hQ.2.1⟩
  · cases h
    exact ⟨rfl, rfl, fun Q hQ => hQ.2.2 _⟩
  · cases h
    exact ⟨rfl, rfl, fun Q hQ => hQ.1 _⟩
  · cases h
    exact ⟨rfl, rfl, fun Q hQ => hQ _⟩
  · cases h
    exact ⟨rfl, rfl, fun Q hQ => hQ _⟩
  · cases h

/-! ## One step -/

/-- A run goes on with a step. -/
theorem run_next {h : History State Action} (run : (system env).Run h s) (hstep : step env s a = some s') :
    (system env).Run ((s, a) :: h) s' :=
  run.step hstep

namespace Action

/-- The transaction a step commits. -/
def tx? (env : Env) (s : State) : Action → Option Tx
  | work w fresh outcome => ((s.workers w).op env fresh).commits outcome
  | serve r outcome => ((s.requests r).op env).commits outcome
  | _ => none

/-- The Redis command that takes effect in a step. -/
def cmd? (env : Env) (s : State) : Action → Option Command
  | work w fresh outcome => ((s.workers w).op env fresh).sends outcome
  | serve r outcome => ((s.requests r).op env).sends outcome
  | enqueue raw => some (.rpushTasks raw)
  | _ => none

/-- The lease that `claim_task` hands out in a step, whether or not its answer arrives. -/
def grant? (env : Env) (s : State) (a : Action) : Option Lease :=
  (a.tx? env s).bind fun tx => (tx.exec env s.clock s.store.db).bind fun r =>
    match r.2 with
    | .lease granted => granted
    | _ => none

end Action

/-- A worker's step as an operation on the shared store. -/
theorem step_work {w : ℕ} {fresh : Uuid} {outcome : Outcome}
    (h : step env s (.work w fresh outcome) = some s') :
    perform env s.clock s.store ((s.workers w).op env fresh) outcome = some (s'.store, s'.workers w) ∧
      s'.clock = s.clock ∧ s'.requests = s.requests ∧ (∀ v, v ≠ w → s'.workers v = s.workers v) ∧
      (if (s.workers w).draws then fresh ∉ s.issued ∧ s'.issued = fresh :: s.issued
        else s'.issued = s.issued) := by
  obtain ⟨drawn, hdrawn, hrest⟩ := Option.bind_eq_some_iff.mp h
  obtain ⟨⟨after, pc⟩, hperform, heq⟩ := Option.map_eq_some_iff.mp hrest
  have hsame : drawn.clock = s.clock ∧ drawn.store = s.store ∧ drawn.workers = s.workers ∧
      drawn.requests = s.requests ∧
      (if (s.workers w).draws then fresh ∉ s.issued ∧ drawn.issued = fresh :: s.issued
        else drawn.issued = s.issued) := by
    split at hdrawn
    · next hdraws =>
      unfold State.draw at hdrawn
      split at hdrawn
      · cases hdrawn
      · next hfresh =>
        cases hdrawn
        exact ⟨rfl, rfl, rfl, rfl, by rw [if_pos hdraws]; exact ⟨hfresh, rfl⟩⟩
    · next hdraws =>
      cases hdrawn
      exact ⟨rfl, rfl, rfl, rfl, by rw [if_neg hdraws]⟩
  obtain ⟨hclock, hstore, hworkers, hrequests, hissued⟩ := hsame
  rw [hclock, hstore, hworkers] at hperform
  cases heq
  refine ⟨?_, hclock, hrequests, fun v hv => ?_, hissued⟩
  · rw [hperform]
    simp [State.setWorker]
  · simp [State.setWorker, hv, hworkers]

/-- A worker whose operation draws no identifier performs it. -/
theorem step_perform {w : ℕ} {fresh : Uuid} {outcome : Outcome} {pc : Pc}
    (hdraws : (s.workers w).draws = false)
    (h : perform env s.clock s.store ((s.workers w).op env fresh) outcome = some (store, pc)) :
    step env s (.work w fresh outcome) = some ({ s with store }.setWorker w pc) := by
  simp [step, hdraws, h]

/-- A worker whose operation draws an identifier performs it with a fresh one. -/
theorem step_draw {w : ℕ} {fresh : Uuid} {outcome : Outcome} {pc : Pc} (hdraws : (s.workers w).draws = true)
    (hfresh : fresh ∉ s.issued)
    (h : perform env s.clock s.store ((s.workers w).op env fresh) outcome = some (store, pc)) :
    step env s (.work w fresh outcome) =
      some ({ s with store, issued := fresh :: s.issued }.setWorker w pc) := by
  simp [step, hdraws, State.draw, hfresh, h]

/-- A request's step as an operation on the shared store. -/
theorem step_serve {r : ℕ} {outcome : Outcome} (h : step env s (.serve r outcome) = some s') :
    perform env s.clock s.store ((s.requests r).op env) outcome = some (s'.store, s'.requests r) ∧
      s'.clock = s.clock ∧ s'.workers = s.workers ∧ ∀ q, q ≠ r → s'.requests q = s.requests q := by
  obtain ⟨⟨after, pc⟩, hperform, heq⟩ := Option.map_eq_some_iff.mp h
  cases heq
  refine ⟨?_, rfl, rfl, fun q hq => ?_⟩
  · rw [hperform]
    simp [State.setRequest]
  · simp [State.setRequest, hq]

/-- The other moves leave the database alone, touch Redis only to push, and run no operation. -/
theorem step_other (h : step env s a = some s') (hwork : ∀ w fresh outcome, a ≠ .work w fresh outcome)
    (hserve : ∀ r outcome, a ≠ .serve r outcome) :
    a.tx? env s = none ∧ s'.store.db = s.store.db ∧
      s'.store.redis = sent s.store.redis (a.cmd? env s) := by
  cases a with
  | work w fresh outcome => exact absurd rfl (hwork w fresh outcome)
  | serve r outcome => exact absurd rfl (hserve r outcome)
  | tick micros => cases h; exact ⟨rfl, rfl, rfl⟩
  | enqueue raw => cases h; exact ⟨rfl, rfl, rfl⟩
  | crash w => cases h; exact ⟨rfl, rfl, rfl⟩
  | abandon r => cases h; exact ⟨rfl, rfl, rfl⟩
  | start w =>
    simp only [step] at h
    split at h
    · cases h; exact ⟨rfl, rfl, rfl⟩
    · cases h
  | submit r request id time =>
    simp only [step] at h
    split at h
    · obtain ⟨drawn, hdrawn, rfl⟩ := Option.map_eq_some_iff.mp h
      unfold State.draw at hdrawn
      split at hdrawn
      · cases hdrawn
      · cases hdrawn; exact ⟨rfl, rfl, rfl⟩
    · cases h

/-- The store after a step: the database after its transaction, the lists after its command. -/
theorem step_store (h : step env s a = some s') :
    Committed env s.clock s.store.db s'.store.db (a.tx? env s) ∧
      s'.store.redis = sent s.store.redis (a.cmd? env s) := by
  cases a with
  | work w fresh outcome =>
    have hp := perform_cases (step_work h).1
    exact ⟨hp.1, hp.2.1⟩
  | serve r outcome =>
    have hp := perform_cases (step_serve h).1
    exact ⟨hp.1, hp.2.1⟩
  | tick micros => cases h; exact ⟨rfl, rfl⟩
  | enqueue raw => cases h; exact ⟨rfl, rfl⟩
  | crash w => cases h; exact ⟨rfl, rfl⟩
  | abandon r => cases h; exact ⟨rfl, rfl⟩
  | start w =>
    have ho := step_other h (fun _ _ _ => nofun) fun _ _ => nofun
    exact ⟨ho.1 ▸ ho.2.1, ho.2.2⟩
  | submit r request id time =>
    have ho := step_other h (fun _ _ _ => nofun) fun _ _ => nofun
    exact ⟨ho.1 ▸ ho.2.1, ho.2.2⟩

/-- A step either commits one transaction or leaves the database alone. -/
theorem step_db (h : step env s a = some s') :
    (∃ tx reply, a.tx? env s = some tx ∧ tx.exec env s.clock s.store.db = some (s'.store.db, reply)) ∨
      (a.tx? env s = none ∧ s'.store.db = s.store.db) := by
  have hdb := (step_store h).1
  cases htx : a.tx? env s with
  | none =>
    rw [htx] at hdb
    exact Or.inr ⟨rfl, hdb⟩
  | some tx =>
    rw [htx] at hdb
    obtain ⟨reply, hexec⟩ := hdb
    exact Or.inl ⟨tx, reply, rfl, hexec⟩

/-- How a step moves one worker. -/
inductive WorkerStep (env : Env) (s s' : State) (v : ℕ) : Action → Prop
  | stay {a : Action} : (∀ fresh outcome, a ≠ .work v fresh outcome) → s'.workers v = s.workers v →
      WorkerStep env s s' v a
  | start : s'.workers v = .outboxDue → WorkerStep env s s' v (.start v)
  | crash : s'.workers v = .down → WorkerStep env s s' v (.crash v)
  | work {fresh : Uuid} {outcome : Outcome} :
      perform env s.clock s.store ((s.workers v).op env fresh) outcome = some (s'.store, s'.workers v) →
      WorkerStep env s s' v (.work v fresh outcome)

/-- A step moves a worker by starting it, crashing it or performing its operation. -/
theorem step_worker (h : step env s a = some s') (v : ℕ) : WorkerStep env s s' v a := by
  cases a with
  | work w fresh outcome =>
    obtain ⟨hperform, -, -, hothers, -⟩ := step_work h
    by_cases hv : v = w
    · subst hv
      exact .work hperform
    · exact .stay (fun _ _ heq => hv (by cases heq; rfl)) (hothers v hv)
  | serve r outcome => exact .stay (fun _ _ => nofun) (congrFun (step_serve h).2.2.1 v)
  | tick micros => cases h; exact .stay (fun _ _ => nofun) rfl
  | enqueue raw => cases h; exact .stay (fun _ _ => nofun) rfl
  | abandon r => cases h; exact .stay (fun _ _ => nofun) rfl
  | crash w =>
    cases h
    by_cases hv : v = w
    · subst hv
      exact .crash (by simp [State.setWorker])
    · exact .stay (fun _ _ => nofun) (by simp [State.setWorker, hv])
  | start w =>
    simp only [step] at h
    split at h
    · cases h
      by_cases hv : v = w
      · subst hv
        exact .start (by simp [State.setWorker])
      · exact .stay (fun _ _ => nofun) (by simp [State.setWorker, hv])
    · cases h
  | submit r request id time =>
    simp only [step] at h
    split at h
    · obtain ⟨drawn, hdrawn, rfl⟩ := Option.map_eq_some_iff.mp h
      unfold State.draw at hdrawn
      split at hdrawn
      · cases hdrawn
      · cases hdrawn; exact .stay (fun _ _ => nofun) rfl
    · cases h

/-- The clock never goes back. -/
theorem step_clock (h : step env s a = some s') : s.clock ≤ s'.clock := by
  cases a with
  | work w fresh outcome => exact (step_work h).2.1.ge
  | serve r outcome => exact (step_serve h).2.1.ge
  | tick micros => cases h; exact Nat.le_add_right _ _
  | enqueue raw => cases h; exact le_rfl
  | abandon r => cases h; exact le_rfl
  | crash w => cases h; exact le_rfl
  | start w =>
    simp only [step] at h
    split at h
    · cases h; exact le_rfl
    · cases h
  | submit r request id time =>
    simp only [step] at h
    split at h
    · obtain ⟨drawn, hdrawn, rfl⟩ := Option.map_eq_some_iff.mp h
      unfold State.draw at hdrawn
      split at hdrawn
      · cases hdrawn
      · cases hdrawn; exact le_rfl
    · cases h

/-- Drawn identifiers stay drawn. -/
theorem step_issued (h : step env s a = some s') {u : Uuid} (hu : u ∈ s.issued) : u ∈ s'.issued := by
  cases a with
  | work w fresh outcome =>
    have hissued := (step_work h).2.2.2.2
    split at hissued
    · exact hissued.2 ▸ List.mem_cons_of_mem _ hu
    · exact hissued ▸ hu
  | serve r outcome =>
    obtain ⟨_, -, heq⟩ := Option.map_eq_some_iff.mp h
    cases heq
    exact hu
  | tick micros => cases h; exact hu
  | enqueue raw => cases h; exact hu
  | abandon r => cases h; exact hu
  | crash w => cases h; exact hu
  | start w =>
    simp only [step] at h
    split at h
    · cases h; exact hu
    · cases h
  | submit r request id time =>
    simp only [step] at h
    split at h
    · obtain ⟨drawn, hdrawn, rfl⟩ := Option.map_eq_some_iff.mp h
      unfold State.draw at hdrawn
      split at hdrawn
      · cases hdrawn
      · cases hdrawn; exact List.mem_cons_of_mem _ hu
    · cases h

/-! ## Whose operation it was -/

/-- The transaction of a worker's stage. -/
def Pc.tx? (fresh : Uuid) : Pc → Option Tx
  | claimOutbox => some (.claimPendingOutbox fresh)
  | mark id claimId _ => some (.markOutboxDelivered id claimId)
  | noteError id claimId exc _ => some (.recordOutboxDeliveryError id claimId exc)
  | cleanup => some .cleanupTerminalOutbox
  | recover _ payload id _ => some (.recover id payload)
  | reap observed => some (.reap observed)
  | claim d => some (.claimTask d.taskId d.payload fresh)
  | attempt d lease => some (.recordProviderAttempt lease.1 lease.2 d.payload)
  | complete _ lease completion => some (.recordCompletion lease.1 lease.2 completion)
  | fail _ lease exc => some (.recordFailed lease.1 lease.2 exc)
  | _ => none

/-- The transaction of a request's stage. -/
def RequestPc.tx? : RequestPc → Option Tx
  | budget _ _ lane => some (.dailyLaneTaskCount lane)
  | record id payload => some (.recordQueuedTask id payload)
  | _ => none

/-- The Redis command of a worker's stage. -/
def Pc.cmd? : Pc → Option Command
  | push _ raw _ _ => some (.rpushTasks raw)
  | scan => some .lrangeProcessing
  | deadLetter raw _ => some (.deadLetterProcessingDelivery raw)
  | requeue raw _ => some (.requeueStaleDelivery raw)
  | acknowledge raw _ => some (.lremProcessing raw)
  | reapTasks => some .lrangeTasks
  | reapProcessing _ => some .lrangeProcessing
  | take => some .blmove
  | bury raw => some (.rpushDead raw)
  | ack raw => some (.lremProcessing raw)
  | _ => none

theorem callOp_commits (d : Delivery) (l : Lease) (op : Operation) (outcome : Outcome) :
    (callOp env d l op).commits outcome = none ∧ (callOp env d l op).sends outcome = none := by
  unfold callOp
  split <;> exact ⟨rfl, rfl⟩

/-- A worker commits the transaction of its stage. -/
theorem Pc.commits_eq_some {pc : Pc} {fresh : Uuid} {outcome : Outcome} {tx : Tx}
    (h : (pc.op env fresh).commits outcome = some tx) : pc.tx? fresh = some tx := by
  have committed : ∀ {own : Tx} {k : Except PyExc Reply → Pc},
      (Op.sql own k).commits outcome = some tx → some own = some tx := by
    intro own k hown
    cases outcome <;> first | exact hown | cases hown
  cases pc with
  | call d l op =>
    rw [Pc.op, (callOp_commits d l op outcome).1] at h
    cases h
  | claimOutbox => exact committed h
  | mark id claimId rest => exact committed h
  | noteError id claimId exc rest => exact committed h
  | cleanup => exact committed h
  | recover raw payload id rest => exact committed h
  | reap observed => exact committed h
  | claim d => exact committed h
  | attempt d l => exact committed h
  | complete d l c => exact committed h
  | fail d l exc => exact committed h
  | _ => cases h

/-- A worker sends the command of its stage. -/
theorem Pc.sends_eq_some {pc : Pc} {fresh : Uuid} {outcome : Outcome} {cmd : Command}
    (h : (pc.op env fresh).sends outcome = some cmd) : pc.cmd? = some cmd := by
  have taken : ∀ {own : Command} {k : Except PyExc RedisReply → Pc},
      (Op.redis own k).sends outcome = some cmd → some own = some cmd := by
    intro own k hown
    cases outcome <;> first | exact hown | cases hown
  cases pc with
  | call d l op =>
    rw [Pc.op, (callOp_commits d l op outcome).2] at h
    cases h
  | push id raw claimId rest => exact taken h
  | scan => exact taken h
  | deadLetter raw rest => exact taken h
  | requeue raw rest => exact taken h
  | acknowledge raw rest => exact taken h
  | reapTasks => exact taken h
  | reapProcessing observed => exact taken h
  | take => exact taken h
  | bury raw => exact taken h
  | ack raw => exact taken h
  | _ => cases h

/-- A request commits the transaction of its stage. -/
theorem RequestPc.commits_eq_some {pc : RequestPc} {outcome : Outcome} {tx : Tx}
    (h : (pc.op env).commits outcome = some tx) : pc.tx? = some tx := by
  cases pc with
  | budget id payload lane => cases outcome <;> first | exact h | cases h
  | record id payload => cases outcome <;> first | exact h | cases h
  | _ => cases h

/-- A request only reads the lists. -/
theorem RequestPc.sends_eq_some {pc : RequestPc} {outcome : Outcome} {cmd : Command}
    (h : (pc.op env).sends outcome = some cmd) : cmd = .llenTasks := by
  cases pc with
  | depth id payload lane => cases outcome <;> first | exact (Option.some.inj h).symm | cases h
  | _ => cases h

/-- A transaction is that of the stage of the worker or the request that made the step. -/
theorem Action.tx?_eq_some {tx : Tx} (h : a.tx? env s = some tx) :
    (∃ w fresh outcome, a = .work w fresh outcome ∧ (s.workers w).tx? fresh = some tx) ∨
      ∃ r outcome, a = .serve r outcome ∧ (s.requests r).tx? = some tx := by
  cases a with
  | work w fresh outcome => exact Or.inl ⟨w, fresh, outcome, rfl, Pc.commits_eq_some h⟩
  | serve r outcome => exact Or.inr ⟨r, outcome, rfl, RequestPc.commits_eq_some h⟩
  | _ => cases h

/-- A command that takes effect is that of a worker's stage, the `LLEN` of a request or a push. -/
theorem Action.cmd?_eq_some {cmd : Command} (h : a.cmd? env s = some cmd) :
    (∃ w fresh outcome, a = .work w fresh outcome ∧ (s.workers w).cmd? = some cmd) ∨
      cmd = .llenTasks ∨ ∃ raw, a = .enqueue raw ∧ cmd = .rpushTasks raw := by
  cases a with
  | work w fresh outcome => exact Or.inl ⟨w, fresh, outcome, rfl, Pc.sends_eq_some h⟩
  | serve r outcome => exact Or.inr (Or.inl (RequestPc.sends_eq_some h))
  | enqueue raw => exact Or.inr (Or.inr ⟨raw, rfl, (Option.some.inj h).symm⟩)
  | _ => cases h

/-! ## Leases -/

/-- Only a claim hands out a lease. -/
theorem exec_lease {now : ℕ} {db db' : Database} {tx : Tx} {lease : Lease}
    (h : tx.exec env now db = some (db', .lease (some lease))) :
    ∃ taskId payload, tx = .claimTask taskId payload lease.2 ∧ env.driver.uuid taskId = some lease.1 ∧
      uncertainAttempt db lease.1 = none ∧ db'.attempts = db.attempts ∧
      ∃ r, Offered (db.tasks.find? lease.1) r ∧ r.status = .queued ∧
        db'.tasks.find? lease.1 = some (r.lease now lease.2) := by
  generalize hlease : Reply.lease (some lease) = reply at h
  cases Performed.of_exec h with
  | @claimTask taskId payload E =>
    obtain ⟨T, r, hid, hoffer, hcases⟩ := exec_claimTask h
    rw [← hlease] at hcases
    rcases hcases with ⟨_, _, hreply, _⟩ | ⟨hcertain, hattempts, hgrant⟩
    · cases hreply
    · rcases hgrant with ⟨hq, hreply, hrow⟩ | ⟨_, hreply, _⟩
      · cases hreply
        exact ⟨taskId, payload, rfl, hid, hcertain, hattempts, r, hoffer, hq, hrow⟩
      · cases hreply
  | _ => cases hlease

/-- A step that hands out a lease commits the claim of a queued row without an attempt in flight. -/
theorem step_grant (h : step env s a = some s') {lease : Lease} (hgrant : a.grant? env s = some lease) :
    ∃ taskId payload, a.tx? env s = some (.claimTask taskId payload lease.2) ∧
      uncertainAttempt s.store.db lease.1 = none ∧ s'.store.db.attempts = s.store.db.attempts ∧
      ∃ r, Offered (s.store.db.tasks.find? lease.1) r ∧ r.status = .queued ∧
        s'.store.db.tasks.find? lease.1 = some (r.lease s.clock lease.2) := by
  obtain ⟨tx, htx, hbind⟩ := Option.bind_eq_some_iff.mp hgrant
  obtain ⟨⟨db, reply⟩, hexec, hreply⟩ := Option.bind_eq_some_iff.mp hbind
  have hlease : reply = .lease (some lease) := by
    cases reply with
    | lease granted => rw [show granted = some lease from hreply]
    | done => cases hreply
    | recovery recovered terminal => cases hreply
    | claimed rows => cases hreply
    | count n => cases hreply
  subst hlease
  rcases step_db h with ⟨tx', reply', htx', hexec'⟩ | ⟨hnone, _⟩
  · rw [htx] at htx'
    cases htx'
    rw [hexec] at hexec'
    cases hexec'
    obtain ⟨taskId, payload, rfl, _, hrest⟩ := exec_lease hexec
    exact ⟨taskId, payload, htx, hrest⟩
  · rw [htx] at hnone
    cases hnone

/-- A row found leased was leased before, unless the step hands out its lease. -/
theorem step_leased (h : step env s a = some s') {T E : Uuid} {r' : TaskRow} (hr' : s'.task T = some r')
    (hlease : leasedBy E r' = true) : s.task T = some r' ∨ a.grant? env s = some (T, E) := by
  have hrunning : r'.status = .running ∧ r'.executionId = some E := by simpa [leasedBy] using hlease
  rcases step_db h with ⟨tx, reply, htx, hexec⟩ | ⟨-, hdb⟩
  · have hmove := exec_task hexec T
    rw [show s'.store.db.tasks.find? T = some r' from hr'] at hmove
    generalize hold : s.store.db.tasks.find? T = old at hmove
    cases hmove with
    | keep => exact Or.inl hold
    | create unclaimed => simp [unclaimed.queued] at hrunning
    | block => cases hrunning.1
    | release => cases hrunning.1
    | succeed => cases hrunning.1
    | fail => cases hrunning.1
    | reap => cases hrunning.1
    | @lease taskId payload X _ r hid hoffer hq =>
      obtain rfl : X = E := Option.some.inj hrunning.2
      obtain ⟨T', r₁, hid', hoffer', hcases⟩ := exec_claimTask hexec
      obtain rfl : T = T' := Option.some.inj (hid.symm.trans hid')
      have hsame : some (r.lease s.clock X) = s'.store.db.tasks.find? T := hr'.symm
      rcases hcases with ⟨_, -, -, -, hrow⟩ | ⟨-, -, ⟨-, hreply, -⟩ | ⟨hq', -, hrow⟩⟩
      · -- a doubted attempt leaves the row failed, or as it was
        rw [hrow] at hsame
        split at hsame
        · have hstatus := congrArg TaskRow.status (Option.some.inj hsame)
          cases hstatus
        · next hq' =>
          cases hoffer' with
          | stored hr₁ =>
            rw [hold] at hr₁
            exact Or.inl ((hold.trans hr₁).trans hsame.symm)
          | created _ unclaimed => exact absurd unclaimed.queued hq'
      · right
        simp [Action.grant?, htx, hexec, hreply]
      · rw [hrow] at hsame
        cases hoffer' with
        | stored hr₁ =>
          rw [hold] at hr₁
          exact Or.inl ((hold.trans hr₁).trans hsame.symm)
        | created _ unclaimed => exact absurd unclaimed.queued hq'
  · exact Or.inl (by rw [← hr', State.task, State.task, hdb])

/-! ## The rows of one task -/

/-- A step makes at most one move on the row of a task. -/
theorem step_task (h : step env s a = some s') (T : Uuid) :
    s'.task T = s.task T ∨
      ∃ tx, a.tx? env s = some tx ∧ TaskStep env s.clock T tx (s.task T)
        (s'.task T) := by
  rcases step_db h with ⟨tx, reply, htx, hexec⟩ | ⟨-, hdb⟩
  · exact Or.inr ⟨tx, htx, exec_task hexec T⟩
  · exact Or.inl (by simp only [State.task, hdb])

/-- A step makes at most one move on an attempt. -/
theorem step_attempt (h : step env s a = some s') (T E : Uuid) :
    s'.attempt T E = s.attempt T E ∨
      ∃ tx, a.tx? env s = some tx ∧ AttemptStep env s.clock T E tx (s.attempt T E)
        (s'.attempt T E) := by
  rcases step_db h with ⟨tx, reply, htx, hexec⟩ | ⟨-, hdb⟩
  · exact Or.inr ⟨tx, htx, exec_attempt hexec T E⟩
  · exact Or.inl (by simp only [State.attempt, hdb])

/-- A step makes at most one move on a receipt. -/
theorem step_cost (h : step env s a = some s') (T E : Uuid) :
    s'.cost T E = s.cost T E ∨
      ∃ tx, a.tx? env s = some tx ∧ CostStep T E tx (s.cost T E)
        (s'.cost T E) := by
  rcases step_db h with ⟨tx, reply, htx, hexec⟩ | ⟨-, hdb⟩
  · exact Or.inr ⟨tx, htx, exec_cost hexec T E⟩
  · exact Or.inl (by simp only [State.cost, hdb])

/-- No step removes an attempt. -/
theorem step_attempt_isSome (h : step env s a = some s') {T E : Uuid}
    (hsome : (s.attempt T E).isSome) :
    (s'.attempt T E).isSome := by
  rcases step_attempt h T E with heq | ⟨tx, -, hmove⟩
  · rwa [heq]
  · generalize s.attempt T E = old at hmove hsome
    generalize s'.attempt T E = new at hmove ⊢
    cases hmove with
    | keep => exact hsome
    | start => rfl
    | doubt => rfl
    | complete => rfl
    | fail => rfl

/-- No step changes or removes a receipt. -/
theorem step_cost_stable (h : step env s a = some s') {T E : Uuid} {c : CostRow}
    (hc : s.cost T E = some c) : s'.cost T E = some c := by
  rcases step_cost h T E with heq | ⟨tx, -, hmove⟩
  · rwa [heq]
  · rw [hc] at hmove
    generalize s'.cost T E = new at hmove ⊢
    cases hmove with
    | keep => rfl

end NeuroLab.ControlPlane
