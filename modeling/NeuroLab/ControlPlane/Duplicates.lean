import NeuroLab.ControlPlane.Deliveries

/-!
# Duplicate deliveries

A delivery of a task that is not queued any more has nothing to do. `claim_task` finds
out by its last statement; before that it looks for an attempt in flight and doubts it,
whoever holds its lease. So a duplicate is inert exactly when there is no such attempt
and the insertion that opens the claim accepts its fields.
-/

namespace NeuroLab.ControlPlane

open Python Common

variable {env : Env} {s s' : State} {a : Action} {h : History State Action} {fresh : Uuid}

/-- A payload carries the id of a task. -/
structure Carries (env : Env) (payload : Fields) (T : Uuid) : Prop where
  named : truthy (getD payload (lit "task_id") .null) = true
  taskId : taskId env.py payload = .ok T

/-- Two states agree on every row of a task. -/
structure SameRows (s s' : State) (T : Uuid) : Prop where
  task : s'.task T = s.task T
  attempts : ∀ E, s'.attempt T E = s.attempt T E
  costs : ∀ E, s'.cost T E = s.cost T E

/-- A worker handles the delivery it has taken, by two operations that are not refused: it comes to its
acknowledgement without a provider call, and no row of the task has changed. -/
def Inert (env : Env) (s : State) (w : ℕ) (raw : Str) (T drawn fresh : Uuid) : Prop :=
  ∃ s₁ s₂, step env s (.work w drawn .done) = some s₁ ∧ step env s₁ (.work w fresh .done) = some s₂ ∧
    s₂.workers w = .ack raw ∧ SameRows s s₂ T

/-- The id a claim passes on is the one its payload carries. -/
theorem Carries.claimedId {payload : Fields} {T drawn : Uuid} (hcarries : Carries env payload T) :
    claimedId drawn payload = getD payload (lit "task_id") .null := by
  rw [ControlPlane.claimedId, if_pos hcarries.named]

/-- The row a claim inserts has the id its payload carries. -/
theorem Carries.row_id {payload : Fields} {T drawn : Uuid} {now : ℕ} {row : TaskRow}
    (hcarries : Carries env payload T)
    (hrow : newTask env now (ControlPlane.claimedId drawn payload) payload = some row) : row.id = T := by
  have huuid := (newTask_eq_some hrow).1
  rw [hcarries.claimedId] at huuid
  exact uuid_eq_of_taskId hcarries.taskId huuid

/-- A claim of a row that is not queued, without an attempt in flight, changes nothing. -/
theorem claimRow_of_settled (now : ℕ) {row r : TaskRow} (E : Uuid) {db : Database}
    (hr : db.tasks.find? row.id = some r) (hstatus : r.status ≠ .queued)
    (hcertain : uncertainAttempt db row.id = none) :
    (claimRow now row E db).1.tasks.find? row.id = some r ∧
      (claimRow now row E db).1.attempts = db.attempts ∧ (claimRow now row E db).1.costs = db.costs ∧
      (claimRow now row E db).2 = none := by
  have hqueued : isQueued r = false := by simpa [isQueued] using hstatus
  have hstored : (db.insertTask row).tasks.find? row.id = some r := by
    rw [Database.insertTask_tasks, hr, Option.some_or]
  rw [claimRow_of_certain now E hcertain]
  refine ⟨?_, rfl, rfl, ?_⟩
  · simp [Database.updateTask_tasks, hstored, hqueued]
  · simp [Database.taskMatches, hstored, hqueued]

/-- Handling at the claim: a duplicate is inert exactly when the insertion is accepted and no attempt
of the task is in flight. -/
theorem claim_inert_iff {w : ℕ} {d : Delivery} {T drawn : Uuid} {r : TaskRow} (hw : s.workers w = .claim d)
    (hfresh : fresh ∉ s.issued) (htaskId : d.taskId = claimedId drawn d.payload)
    (hcarries : Carries env d.payload T) (hr : s.task T = some r) (hstatus : r.status ≠ .queued) :
    (∃ s', step env s (.work w fresh .done) = some s' ∧ s'.workers w = .ack d.raw ∧ SameRows s s' T) ↔
      (newTask env s.clock d.taskId d.payload).isSome ∧ ∀ E, ¬ Inflight s T E := by
  constructor
  · intro hinert
    obtain ⟨s', hstep, -, hsame⟩ := hinert
    have hperform := (step_work hstep).1
    rw [hw] at hperform
    obtain ⟨⟨db, reply⟩, hexec, heq⟩ := Option.map_eq_some_iff.mp hperform
    obtain ⟨_, hclaim, -⟩ := Option.map_eq_some_iff.mp hexec
    obtain ⟨row, hrow, -⟩ := Option.map_eq_some_iff.mp hclaim
    refine ⟨by rw [hrow]; rfl, fun E hinflight => ?_⟩
    have hid : row.id = T := hcarries.row_id (htaskId ▸ hrow)
    obtain ⟨T', _, huuid, -, hcases⟩ := exec_claimTask hexec
    have hT : T' = T := by
      rw [← hid]
      exact Option.some.inj (huuid.symm.trans (newTask_eq_some hrow).1)
    subst hT
    rcases hcases with ⟨b, hb, -, hdoubted, -⟩ | ⟨hcertain, -⟩
    · -- the doubted attempt has changed its status
      have hkept := hsame.attempts b.executionId
      have hstore : s'.store.db = db := by rw [← (Prod.mk.inj heq).1]
      rw [State.attempt, hstore, hdoubted, State.attempt, (uncertainAttempt_eq_some hb).1] at hkept
      have hconcluded := congrArg AttemptRow.status (Option.some.inj hkept)
      rw [(uncertainAttempt_eq_some hb).2] at hconcluded
      cases hconcluded
    · obtain ⟨b, hb, hstatus'⟩ := hinflight
      exact (uncertainAttempt_eq_none_iff _ _).mp hcertain E b hb hstatus'
  · intro hcondition
    obtain ⟨hstorable, hcertain⟩ := hcondition
    obtain ⟨row, hrow⟩ := Option.isSome_iff_exists.mp hstorable
    have hid : row.id = T := hcarries.row_id (htaskId ▸ hrow)
    subst hid
    have hnone : uncertainAttempt s.store.db row.id = none :=
      (uncertainAttempt_eq_none_iff _ _).mpr fun E b hb hb' => hcertain E ⟨b, hb, hb'⟩
    obtain ⟨htask, hattempts, hcosts, hreply⟩ := claimRow_of_settled s.clock fresh hr hstatus hnone
    obtain ⟨s', hstep, -, hdb, -, hpc⟩ := step_claim hw hfresh hrow
    rw [hreply] at hpc
    refine ⟨s', hstep, hpc, ⟨?_, fun E => ?_, fun E => ?_⟩⟩
    · rw [State.task, hdb, htask, hr]
    · rw [State.attempt, hdb, hattempts]
    · rw [State.cost, hdb, hcosts]

/-- What the lane check raises is caught. -/
theorem isTypeOrValue_of_checkLane {lane : Json} {exc : PyExc} (h : checkLane lane = .error exc) :
    exc.isTypeOrValue = true := by
  unfold checkLane at h
  split at h
  · cases h
  · split at h <;> cases h
    rfl
  · cases h; rfl
  · cases h; rfl
  · cases h; rfl

/-- The lenient validator looks at the lane only. -/
theorem readDelivery_obj {raw : Str} {payload : Fields} (hloads : env.py.loads raw = .ok (.obj payload)) :
    readDelivery env.py raw =
      (checkLane (getD payload (lit "credential_lane") .null)).map fun _ => payload := by
  rw [readDelivery, hloads]
  change (checkLane (getD payload (lit "credential_lane") .null)).bind _ = _
  cases checkLane (getD payload (lit "credential_lane") .null) <;> rfl

/-- **Duplicates are inert exactly without an attempt in flight.** Where a task is running, succeeded
or failed, handling one more delivery that carries its id is acknowledged without a provider call and
changes no row of the task, if and only if the delivery has a lane that makes it malformed, or the
insertion accepts its fields and no attempt of the task is in flight. -/
theorem duplicate_inert_iff {w : ℕ} {raw : Str} {payload : Fields} {T drawn fresh : Uuid} {r : TaskRow}
    (hw : s.workers w = .deliver raw) (hloads : env.py.loads raw = .ok (.obj payload))
    (hcarries : Carries env payload T) (hr : s.task T = some r) (hstatus : r.status ≠ .queued)
    (hdrawn : drawn ∉ s.issued) (hfresh : fresh ∉ s.issued) (hne : fresh ≠ drawn) :
    Inert env s w raw T drawn fresh ↔
      (∃ exc, checkLane (getD payload (lit "credential_lane") .null) = .error exc) ∨
        ((newTask env s.clock (claimedId drawn payload) payload).isSome ∧ ∀ E, ¬ Inflight s T E) := by
  obtain ⟨s₁, hstep₁, hclock, hstore, hissued, hnext⟩ := step_deliver hw hdrawn
  have samerows : ∀ {s₂}, SameRows s₁ s₂ T ↔ SameRows s s₂ T := by
    intro s₂
    constructor <;> intro hsame
    · exact ⟨by rw [hsame.task, State.task, hstore], fun E => by rw [hsame.attempts, State.attempt, hstore],
        fun E => by rw [hsame.costs, State.cost, hstore]⟩
    · exact ⟨by rw [hsame.task, State.task, State.task, hstore],
        fun E => by rw [hsame.attempts, State.attempt, State.attempt, hstore],
        fun E => by rw [hsame.costs, State.cost, State.cost, hstore]⟩
  cases hlane : checkLane (getD payload (lit "credential_lane") .null) with
  | error exc =>
    refine ⟨fun _ => Or.inl ⟨exc, rfl⟩, fun _ => ?_⟩
    have hbury : s₁.workers w = .bury raw := by
      rw [hnext, readNext, readDelivery_obj hloads, hlane]
      exact if_pos (isTypeOrValue_of_checkLane hlane)
    have hperform : perform env s₁.clock s₁.store ((s₁.workers w).op env fresh) .done =
        some ({ s₁.store with redis := ((Command.rpushDead raw).exec s₁.store.redis).1 }, .ack raw) := by
      rw [hbury]
      rfl
    have hstep₂ := step_perform (by rw [hbury]; rfl) hperform
    exact ⟨s₁, _, hstep₁, hstep₂, by simp [State.setWorker], samerows.mp ⟨rfl, fun _ => rfl, fun _ => rfl⟩⟩
  | ok lane =>
    have hclaim : s₁.workers w = .claim ⟨raw, payload, claimedId drawn payload⟩ := by
      rw [hnext, readNext, readDelivery_obj hloads, hlane]
      rfl
    have hunused : fresh ∉ s₁.issued := by
      rw [hissued, List.mem_cons, not_or]
      exact ⟨hne, hfresh⟩
    have hr₁ : s₁.task T = some r := by rw [← hr, State.task, State.task, hstore]
    have hiff := claim_inert_iff hclaim hunused rfl hcarries hr₁ hstatus
    have hattempts : ∀ E, s₁.attempt T E = s.attempt T E := fun E => by rw [State.attempt, State.attempt, hstore]
    simp only [Inflight, hclock, hattempts] at hiff
    constructor
    · intro hinert
      obtain ⟨s₁', s₂, hstep₁', hstep₂, hack, hsame⟩ := hinert
      rw [hstep₁] at hstep₁'
      cases hstep₁'
      exact Or.inr (hiff.mp ⟨s₂, hstep₂, hack, samerows.mpr hsame⟩)
    · intro hcondition
      rcases hcondition with ⟨exc, hexc⟩ | hcondition
      · cases hexc
      · obtain ⟨s₂, hstep₂, hack, hsame⟩ := hiff.mpr hcondition
        exact ⟨s₁, s₂, hstep₁, hstep₂, hack, samerows.mp hsame⟩

theorem Sample.carries : Sample.env.py.loads (Sample.raw Sample.task []) = .ok (.obj (Sample.payload Sample.task [])) ∧
    Carries Sample.env (Sample.payload Sample.task []) Sample.task :=
  ⟨by decide +kernel, by decide +kernel, by decide +kernel⟩

/-- A second delivery of the completed sample task is inert. -/
theorem duplicate_inert_iff_completed :
    ∃ h s r, (system Sample.env).Run h s ∧ s.task Sample.task = some r ∧ r.status = .succeeded ∧
      Inert Sample.env s 1 (Sample.raw Sample.task []) Sample.task 5 6 := by
  obtain ⟨h, s, run, htest⟩ := System.exists_run (system Sample.env) (Sample.completed ++ Sample.duplicate)
    (fun h (s : State) => Sample.inStatus .succeeded h s &&
      (decide (s.workers 1 = .deliver (Sample.raw Sample.task [])) &&
        (decide (5 ∉ s.issued ∧ 6 ∉ s.issued) &&
          (decide (uncertainAttempt s.store.db Sample.task = none) && (newTask Sample.env s.clock
            (claimedId 5 (Sample.payload Sample.task [])) (Sample.payload Sample.task [])).isSome))))
    (by decide +kernel)
  obtain ⟨hsucceeded, hrest⟩ := Bool.and_eq_true_iff.mp htest
  obtain ⟨hw, hrest⟩ := Bool.and_eq_true_iff.mp hrest
  obtain ⟨hunused, hrest⟩ := Bool.and_eq_true_iff.mp hrest
  obtain ⟨hcertain, hstorable⟩ := Bool.and_eq_true_iff.mp hrest
  obtain ⟨r, hr, hstatus⟩ := Sample.inStatus_iff hsucceeded
  obtain ⟨hdrawn, hfresh⟩ := of_decide_eq_true hunused
  have hnone : ∀ E, ¬ Inflight s Sample.task E := by
    intro E hinflight
    obtain ⟨b, hb, hb'⟩ := hinflight
    exact (uncertainAttempt_eq_none_iff _ _).mp (of_decide_eq_true hcertain) E b hb hb'
  refine ⟨h, s, r, run, hr, hstatus, (duplicate_inert_iff (of_decide_eq_true hw) Sample.carries.1 Sample.carries.2
    hr (by rw [hstatus]; decide) hdrawn hfresh (by decide)).mpr (Or.inr ⟨hstorable, hnone⟩)⟩

/-- A second delivery of a task whose provider call is in progress marks the live attempt as unknown. -/
theorem duplicate_doubts_live_attempt :
    ¬ ∀ h s w raw payload T r drawn fresh, (system Sample.env).Run h s → s.workers w = .deliver raw →
      Sample.env.py.loads raw = .ok (.obj payload) → Carries Sample.env payload T → s.task T = some r →
      r.status ≠ .queued → drawn ∉ s.issued → fresh ∉ s.issued → fresh ≠ drawn →
      Inert Sample.env s w raw T drawn fresh := by
  obtain ⟨h, s, run, htest⟩ := System.exists_run (system Sample.env) (Sample.called ++ Sample.duplicate)
    (fun h (s : State) => Sample.inStatus .running h s &&
      (decide (s.workers 1 = .deliver (Sample.raw Sample.task [])) &&
        (decide (5 ∉ s.issued ∧ 6 ∉ s.issued) &&
          ((step Sample.env s (.work 1 5 .done)).bind fun s₁ => step Sample.env s₁ (.work 1 6 .done)).all
            fun s₂ : State => decide (s₂.attempt Sample.task 2 ≠ s.attempt Sample.task 2)))) (by decide +kernel)
  obtain ⟨hrunning, hrest⟩ := Bool.and_eq_true_iff.mp htest
  obtain ⟨hw, hrest⟩ := Bool.and_eq_true_iff.mp hrest
  obtain ⟨hunused, hchanged⟩ := Bool.and_eq_true_iff.mp hrest
  obtain ⟨r, hr, hstatus⟩ := Sample.inStatus_iff hrunning
  obtain ⟨hdrawn, hfresh⟩ := of_decide_eq_true hunused
  intro hinert
  obtain ⟨s₁, s₂, hstep₁, hstep₂, -, hsame⟩ := hinert h s 1 _ _ Sample.task r 5 6 run (of_decide_eq_true hw)
    Sample.carries.1 Sample.carries.2 hr (by rw [hstatus]; decide) hdrawn hfresh (by decide)
  rw [hstep₁, Option.bind_some, hstep₂, Option.all_some] at hchanged
  exact of_decide_eq_true hchanged (hsame.attempts 2)

end NeuroLab.ControlPlane
