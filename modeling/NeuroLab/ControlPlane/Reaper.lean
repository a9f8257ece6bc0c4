import NeuroLab.ControlPlane.Deliveries

/-!
# One pass of the reaper

The reaper reads the task list, then the processing list, then updates the rows that are
old enough and whose id it has not seen. A delivery that moves from the second list to
the first between the two reads is not seen, and the outbox is not asked at all. What a
pass does to one task is therefore decided by three states of the run.
-/

namespace NeuroLab.ControlPlane

open Python Common

variable {env : Env} {s s' s₁ s₂ : State} {a : Action} {h later mid earlier : History State Action}

/-! ## What a pass observes -/

/-- The ids read from a list are those its deliveries name. -/
theorem mem_observeIds {raws : List Str} {ids : List Uuid} (h : observeIds env raws = .ok ids) (T : Uuid) :
    T ∈ ids ↔ ∃ raw ∈ raws, Names env raw T := by
  induction raws generalizing ids with
  | nil =>
    cases h
    simp
  | cons raw rest ih =>
    rw [observeIds] at h
    split at h
    · next payload id hid =>
      cases hrest : observeIds env rest with
      | error exc =>
        rw [hrest] at h
        cases h
      | ok ids' =>
        rw [hrest] at h
        cases h
        have hhead : Names env raw T ↔ T = id := by
          constructor
          · intro hnames
            obtain ⟨payload', hpayload'⟩ := hnames
            rw [hid] at hpayload'
            cases hpayload'
            rfl
          · intro hT
            exact ⟨payload, hT ▸ hid⟩
        rw [List.mem_cons, ih hrest, List.exists_mem_cons_iff, hhead]
    · next exc hid =>
      split at h
      · have hhead : ¬ Names env raw T := by
          intro hnames
          obtain ⟨payload, hpayload⟩ := hnames
          rw [hid] at hpayload
          cases hpayload
        rw [ih h, List.exists_mem_cons_iff, or_iff_right hhead]
      · cases h

/-- A worker makes no move in a step. -/
def Action.rests (w : ℕ) : Action → Prop
  | .start v => v ≠ w
  | .crash v => v ≠ w
  | .work v _ _ => v ≠ w
  | _ => True

/-- A worker that makes no move stands where it stood. -/
theorem workers_of_rests (h : step env s a = some s') {w : ℕ} (hrests : a.rests w) :
    s'.workers w = s.workers w := by
  cases step_worker h w with
  | stay _ hsame => exact hsame
  | start => exact absurd rfl hrests
  | crash => exact absurd rfl hrests
  | work => exact absurd rfl hrests

/-- Nor does it over several steps. -/
theorem workers_of_all_rest {w : ℕ} (run : (system env).Run (later ++ (s₁, a) :: earlier) s)
    (hstep : step env s₁ a = some s₂) (hrests : ∀ x ∈ later, x.2.rests w) : s.workers w = s₂.workers w := by
  induction later generalizing s with
  | nil =>
    cases run with
    | step _ hstep' =>
      have hsame : s = s₂ := Option.some.inj (Eq.trans (Eq.symm hstep') hstep)
      rw [hsame]
  | cons x later ih =>
    cases run with
    | @step _ s₀ _ b run hstep' =>
      rw [workers_of_rests hstep' (hrests _ List.mem_cons_self)]
      exact ih run fun y hy => hrests y (List.mem_cons_of_mem _ hy)

/-- A pass of the reaper of a worker: its two reads, and the moment before its transaction. Other
processes move as they like between them. -/
structure ReaperPass (env : Env) (w : ℕ) (later mid earlier : History State Action) (s₁ s₂ s : State)
    (f₁ f₂ : Uuid) (observed : List Uuid) : Prop where
  run : (system env).Run (later ++ (s₂, .work w f₂ .done) :: (mid ++ (s₁, .work w f₁ .done) :: earlier)) s
  first : s₁.workers w = .reapTasks
  second : ∃ seen, s₂.workers w = .reapProcessing seen
  last : s.workers w = .reap observed
  between : ∀ x ∈ mid, x.2.rests w
  after : ∀ x ∈ later, x.2.rests w

/-- A pass has observed a task exactly if one of its reads met a delivery that names it. -/
theorem ReaperPass.mem_observed {w : ℕ} {f₁ f₂ : Uuid} {observed : List Uuid}
    (pass : ReaperPass env w later mid earlier s₁ s₂ s f₁ f₂ observed) (T : Uuid) :
    T ∈ observed ↔ (∃ raw ∈ s₁.store.redis.tasks, Names env raw T) ∨
      ∃ raw ∈ s₂.store.redis.processing, Names env raw T := by
  obtain ⟨s₂', run₂, hstep₂, -⟩ := pass.run.split rfl
  obtain ⟨s₁', -, hstep₁, -⟩ := run₂.split rfl
  obtain ⟨seen, hsecond⟩ := pass.second
  have hfirst := (step_work hstep₁).1
  rw [pass.first, ← workers_of_all_rest run₂ hstep₁ pass.between, hsecond] at hfirst
  have hlast := (step_work hstep₂).1
  rw [hsecond, ← workers_of_all_rest pass.run hstep₂ pass.after, pass.last] at hlast
  simp only [Pc.op, perform, Command.exec, Option.some.injEq, Prod.mk.injEq] at hfirst hlast
  have htasks : observeIds env s₁.store.redis.tasks = .ok seen := by
    have hread := hfirst.2
    split at hread
    · next ids hids =>
      cases hread
      exact hids
    · cases hread
  have hprocessing : ∃ ids, observeIds env s₂.store.redis.processing = .ok ids ∧ observed = seen ++ ids := by
    have hread := hlast.2
    split at hread
    · next ids hids =>
      cases hread
      exact ⟨ids, hids, rfl⟩
    · cases hread
  obtain ⟨ids, hids, rfl⟩ := hprocessing
  rw [List.mem_append, mem_observeIds htasks, mem_observeIds hids]

/-! ## What a pass fails -/

/-- A step sets a task to failed. -/
def FailsTask (s s' : State) (T : Uuid) : Prop :=
  ∃ r r', s.task T = some r ∧ r.status ≠ .failed ∧ s'.task T = some r' ∧ r'.status = .failed

/-- The transaction of the reaper fails exactly the old queued rows that were not observed. -/
theorem failsTask_reap_iff (h : step env s a = some s') {observed : List Uuid}
    (htx : a.tx? env s = some (.reap observed)) (T : Uuid) :
    FailsTask s s' T ↔ (∃ r, s.task T = some r ∧ orphaned env.config s.clock r = true) ∧ T ∉ observed := by
  have hrow : s'.task T = (s.task T).map fun r =>
      if (orphaned env.config s.clock r && decide (T ∉ observed)) = true then r.fail s.clock orphanedMessage
      else r := by
    rcases step_db h with ⟨tx, reply, htx', hexec⟩ | ⟨hnone, -⟩
    · rw [htx] at htx'
      cases htx'
      have hdb : s'.store.db = reap env.config s.clock observed s.store.db := by
        rw [← (Prod.mk.inj (Option.some.inj hexec)).1]
      rw [State.task, hdb, reap_tasks]
    · rw [htx] at hnone
      cases hnone
  constructor
  · intro hfails
    obtain ⟨r, r', hr, hstatus, hr', hfailed⟩ := hfails
    rw [hr, Option.map_some, hr'] at hrow
    split at hrow
    · next hsel =>
      rw [Bool.and_eq_true, decide_eq_true_eq] at hsel
      exact ⟨⟨r, hr, hsel.1⟩, hsel.2⟩
    · cases hrow
      exact absurd hfailed hstatus
  · intro hcondition
    obtain ⟨⟨r, hr, horphaned⟩, hunseen⟩ := hcondition
    have hqueued : r.status = .queued := by
      simp only [orphaned, isQueued, Bool.and_eq_true, decide_eq_true_eq] at horphaned
      exact horphaned.1
    refine ⟨r, r.fail s.clock orphanedMessage, hr, by rw [hqueued]; decide, ?_, rfl⟩
    rw [hrow, hr, Option.map_some, if_pos (by rw [horphaned, Bool.true_and]; exact decide_eq_true hunseen)]

/-- A task can still be delivered: a list holds a delivery that names it, or its outbox row is pending. -/
def Deliverable (env : Env) (s : State) (T : Uuid) : Prop :=
  (∃ raw ∈ s.store.redis.tasks ++ s.store.redis.processing, Names env raw T) ∨
    ∃ o, s.store.db.outbox.find? T = some o ∧ o.deliveredAt = none

/-- A task is deliverable at every moment of a pass. -/
structure DeliverableThroughout (env : Env) (mid later : History State Action) (s₁ s₂ s : State) (T : Uuid) :
    Prop where
  first : Deliverable env s₁ T
  between : ∀ x ∈ mid, Deliverable env x.1 T
  second : Deliverable env s₂ T
  after : ∀ x ∈ later, Deliverable env x.1 T
  last : Deliverable env s T

/-- **What a pass of the reaper fails.** A pass sets a task to failed exactly when the row is queued and
older than the limit at its transaction, its first read found no delivery of the task in the task list
and its second none in the processing list. So it spares a task that was deliverable throughout
exactly when the row is not such, or one of the two reads met a delivery. -/
theorem reaper_spares_iff {w : ℕ} {f₁ f₂ f₃ : Uuid} {observed : List Uuid} {outcome : Outcome}
    (pass : ReaperPass env w later mid earlier s₁ s₂ s f₁ f₂ observed)
    (hstep : step env s (.work w f₃ outcome) = some s')
    (hcommits : (Action.work w f₃ outcome).tx? env s = some (.reap observed)) (T : Uuid) :
    ¬ FailsTask s s' T ↔ (∀ r, s.task T = some r → orphaned env.config s.clock r = false) ∨
      (∃ raw ∈ s₁.store.redis.tasks, Names env raw T) ∨
      ∃ raw ∈ s₂.store.redis.processing, Names env raw T := by
  rw [failsTask_reap_iff hstep hcommits, not_and_or, not_not, pass.mem_observed T]
  refine or_congr_left ?_
  constructor
  · intro hnot r hr
    cases horphaned : orphaned env.config s.clock r with
    | false => rfl
    | true => exact absurd ⟨r, hr, horphaned⟩ hnot
  · intro hall hsome
    obtain ⟨r, hr, horphaned⟩ := hsome
    rw [hall r hr] at horphaned
    cases horphaned

/-- A pass of worker 0 at the end of a list of actions, before its transaction. -/
theorem Sample.exists_pass (actions : List Action) (test : State → State → State → Bool)
    (h : (((system Sample.env).execute [] (system Sample.env).init actions).any fun r =>
      Sample.lastTwo (fun s₁ s₂ => decide (s₁.workers 0 = .reapTasks) &&
        (match s₂.workers 0 with | .reapProcessing _ => true | _ => false) && test s₁ s₂ r.2) r.1 &&
          match r.2.workers 0 with | .reap _ => true | _ => false) = true) :
    ∃ earlier s₁ s₂ s f₁ f₂ observed s', ReaperPass Sample.env 0 [] [] earlier s₁ s₂ s f₁ f₂ observed ∧
      step Sample.env s (Sample.go 0 0) = some s' ∧
      (Sample.go 0 0).tx? Sample.env s = some (.reap observed) ∧ test s₁ s₂ s = true := by
  obtain ⟨h, s, run, htest⟩ := System.exists_run _ actions (fun h (s : State) =>
    Sample.lastTwo (fun s₁ s₂ => decide (s₁.workers 0 = .reapTasks) &&
      (match s₂.workers 0 with | .reapProcessing _ => true | _ => false) && test s₁ s₂ s) h &&
        match s.workers 0 with | .reap _ => true | _ => false) h
  obtain ⟨hlast, hreap⟩ := Bool.and_eq_true_iff.mp htest
  obtain ⟨s₂, f₂, s₁, f₁, earlier, rfl, hreads⟩ := Sample.lastTwo_eq_true hlast
  obtain ⟨hpcs, htests⟩ := Bool.and_eq_true_iff.mp hreads
  obtain ⟨hfirst, hsecond⟩ := Bool.and_eq_true_iff.mp hpcs
  split at hreap
  · next observed hw =>
    have hperform : perform Sample.env s.clock s.store ((s.workers 0).op Sample.env 0) .done =
        some ({ s.store with db := reap Sample.env.config s.clock observed s.store.db }, .take) := by
      rw [hw]
      rfl
    refine ⟨earlier, s₁, s₂, s, f₁, f₂, observed, _, ⟨run, of_decide_eq_true hfirst, ?_, hw, ?_, ?_⟩,
      step_perform (by rw [hw]; rfl) hperform, ?_, htests⟩
    · split at hsecond
      · next seen hseen => exact ⟨seen, hseen⟩
      · cases hsecond
    · intro x hx
      cases hx
    · intro x hx
      cases hx
    · rw [Sample.go, Action.tx?, hw]
      rfl
  · cases hreap

/-- An old queued task whose delivery waits in the task list is spared. -/
theorem reaper_spares_iff_dispatched :
    ∃ s s' r, s.task Sample.task = some r ∧ orphaned Sample.env.config s.clock r = true ∧
      step Sample.env s (Sample.go 0 0) = some s' ∧ ¬ FailsTask s s' Sample.task := by
  obtain ⟨earlier, s₁, s₂, s, f₁, f₂, observed, s', pass, hstep, htx, htest⟩ := Sample.exists_pass
    (Sample.submitted ++ [.tick (seconds 1801)] ++ Sample.publishing ++
      [Sample.go 0 0, Sample.go 0 0, Sample.go 0 0] ++ Sample.reaping)
    (fun s₁ _ s => s₁.store.redis.tasks.any (fun raw => decide (Names Sample.env raw Sample.task)) &&
      (s.task Sample.task).any (orphaned Sample.env.config s.clock)) (by decide +kernel)
  obtain ⟨hnamed, horphaned⟩ := Bool.and_eq_true_iff.mp htest
  obtain ⟨raw, hraw, hnames⟩ := List.any_eq_true.mp hnamed
  obtain ⟨r, hr, horphaned⟩ := (Option.any_eq_true _ _).mp horphaned
  exact ⟨s, s', r, hr, horphaned, hstep, (reaper_spares_iff pass hstep htx Sample.task).mpr
    (Or.inr (Or.inl ⟨raw, hraw, of_decide_eq_true hnames⟩))⟩

/-- A task whose outbox row is still pending, because the push was refused, is failed. -/
theorem pending_task_reaped :
    ¬ ∀ w later mid earlier s₁ s₂ s s' f₁ f₂ f₃ observed outcome T,
      ReaperPass Sample.env w later mid earlier s₁ s₂ s f₁ f₂ observed →
      step Sample.env s (.work w f₃ outcome) = some s' →
      (Action.work w f₃ outcome).tx? Sample.env s = some (.reap observed) →
      DeliverableThroughout Sample.env mid later s₁ s₂ s T → ¬ FailsTask s s' T := by
  obtain ⟨earlier, s₁, s₂, s, f₁, f₂, observed, s', pass, hstep, htx, htest⟩ := Sample.exists_pass
    (Sample.submitted ++ [.tick (seconds 1801)] ++ Sample.publishing ++
      [.work 0 0 (.refused (.redis (lit "ConnectionError"))), Sample.go 0 0, Sample.go 0 0] ++ Sample.reaping)
    (fun s₁ s₂ s => [s₁, s₂, s].all (fun t : State => (t.store.db.outbox.find? Sample.task).any
        fun o : OutboxRow => decide (o.deliveredAt = none)) &&
      (step Sample.env s (Sample.go 0 0)).any fun s' : State =>
        (s.task Sample.task).any (fun r : TaskRow => decide (r.status = TaskStatus.queued)) &&
          (s'.task Sample.task).any fun r : TaskRow => decide (r.status = TaskStatus.failed))
    (by decide +kernel)
  obtain ⟨hpending, hfailed⟩ := Bool.and_eq_true_iff.mp htest
  have deliverable : ∀ t ∈ [s₁, s₂, s], Deliverable Sample.env t Sample.task := by
    intro t ht
    obtain ⟨o, ho, hnone⟩ := (Option.any_eq_true _ _).mp (List.all_eq_true.mp hpending t ht)
    exact Or.inr ⟨o, ho, of_decide_eq_true hnone⟩
  rw [hstep, Option.any_some, Bool.and_eq_true] at hfailed
  obtain ⟨r, hr, hqueued⟩ := (Option.any_eq_true _ _).mp hfailed.1
  obtain ⟨r', hr', hstatus⟩ := (Option.any_eq_true _ _).mp hfailed.2
  intro spares
  refine spares 0 [] [] earlier s₁ s₂ s s' f₁ f₂ 0 observed .done Sample.task pass hstep htx
    ⟨deliverable s₁ (by simp), fun x hx => (nomatch hx), deliverable s₂ (by simp), fun x hx => (nomatch hx),
      deliverable s (by simp)⟩ ⟨r, r', hr, ?_, hr', of_decide_eq_true hstatus⟩
  rw [of_decide_eq_true hqueued]
  decide

end NeuroLab.ControlPlane
