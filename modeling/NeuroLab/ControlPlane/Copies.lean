import NeuroLab.ControlPlane.Admission

/-!
# The copies of a delivery

An accepted task is carried by its outbox row until the push is acknowledged, and by the
copies of its delivery in the two lists from then on. Recovery moves copies whoever
holds them, and every acknowledgement removes one by its text alone: the copy of a
duplicate is the copy of the worker that executes. As long as no acknowledgement takes
the last copy of a task that is not settled, every accepted task stays recoverable.
-/

namespace NeuroLab.ControlPlane

open Python Common

variable {env : Env} {s s' : State} {a : Action} {h : History State Action} {fresh : Uuid}

/-- One of the two lists holds a delivery that names a task. -/
def Copied (env : Env) (s : State) (T : Uuid) : Prop :=
  ∃ raw ∈ s.store.redis.tasks ++ s.store.redis.processing, Names env raw T

/-- The row of a task was inserted by `record_queued_task`. -/
def Created (env : Env) (h : History State Action) (T : Uuid) : Prop :=
  ∃ x ∈ h, ∃ payload, x.2.tx? env x.1 = some (.recordQueuedTask T payload) ∧ x.1.task T = none

/-- A task that is not settled waits in the outbox or has a copy of its delivery. -/
def Recoverable (env : Env) (s : State) (T : Uuid) : Prop :=
  ∀ r, s.task T = some r → r.status.terminal = false →
    (r.status = .queued ∧ Pending s T) ∨ Copied env s T

/-- PostgreSQL reads no other task id in a delivery than the strict validator. -/
def ReadAlike (env : Env) (raw : Str) : Prop :=
  ∀ payload T, readDelivery env.py raw = .ok payload →
    truthy (getD payload (lit "task_id") .null) = true →
      env.driver.uuid (getD payload (lit "task_id") .null) = some T → Names env raw T

/-- Steps that keep the copies of unsettled tasks: the acknowledgement behind `handle_delivery` takes the
copy of a settled task or leaves another one, and what other producers push is read alike. -/
structure Retains (env : Env) (s : State) (a : Action) : Prop where
  acknowledges : ∀ w fresh outcome raw, a = .work w fresh outcome → s.workers w = .ack raw →
    a.cmd? env s = some (.lremProcessing raw) → ∀ T, Names env raw T → Terminal s T ∨
      ∃ raw' ∈ s.store.redis.tasks ++ s.store.redis.processing.erase raw, Names env raw' T
  foreign : ∀ raw, a = .enqueue raw → ReadAlike env raw

/-- Whether PostgreSQL reads no other task id in a delivery than the strict validator. -/
def readAlike (env : Env) (raw : Str) : Bool :=
  (readDelivery env.py raw).toOption.all fun payload => !truthy (getD payload (lit "task_id") .null) ||
    (env.driver.uuid (getD payload (lit "task_id") .null)).all fun T => decide (Names env raw T)

theorem readAlike_iff (env : Env) (raw : Str) : readAlike env raw = true ↔ ReadAlike env raw := by
  constructor
  · intro h payload T hread htruthy huuid
    simpa [readAlike, hread, Except.toOption, htruthy, huuid] using h
  · intro h
    rw [readAlike]
    cases hread : readDelivery env.py raw with
    | error exc => rfl
    | ok payload =>
      cases htruthy : truthy (getD payload (lit "task_id") .null) with
      | false => simp [Except.toOption, htruthy]
      | true =>
        cases huuid : env.driver.uuid (getD payload (lit "task_id") .null) with
        | none => simp [Except.toOption, huuid]
        | some T => simpa [Except.toOption, htruthy, huuid] using h payload T hread htruthy huuid

/-- Whether the removal of a delivery leaves no unsettled task without a copy. -/
def retained (env : Env) (s : State) (raw : Str) : Bool :=
  (identifyDelivery env.py raw).toOption.all fun r => (s.task r.2).any (fun row => row.status.terminal) ||
    (s.store.redis.tasks ++ s.store.redis.processing.erase raw).any fun raw' => decide (Names env raw' r.2)

theorem retained_iff (env : Env) (s : State) (raw : Str) : retained env s raw = true ↔
    ∀ T, Names env raw T → Terminal s T ∨
      ∃ raw' ∈ s.store.redis.tasks ++ s.store.redis.processing.erase raw, Names env raw' T := by
  rw [retained]
  cases hidentify : identifyDelivery env.py raw with
  | error exc =>
    refine ⟨fun _ T hnames => ?_, fun _ => rfl⟩
    obtain ⟨payload, hpayload⟩ := hnames
    rw [hidentify] at hpayload
    cases hpayload
  | ok r =>
    have hnames : ∀ T, Names env raw T ↔ T = r.2 := by
      intro T
      rw [Names, hidentify]
      simp [Prod.ext_iff, eq_comm]
    simp only [Except.toOption, Option.all_some, Bool.or_eq_true, Option.any_eq_true, List.any_eq_true,
      decide_eq_true_eq, hnames, forall_eq, Terminal]

/-- Whether a step keeps the copies of unsettled tasks. -/
def retains (env : Env) (s : State) (a : Action) : Bool :=
  match a with
  | .work w _ _ => match s.workers w with
    | .ack raw => decide (a.cmd? env s ≠ some (.lremProcessing raw)) || retained env s raw
    | _ => true
  | .enqueue raw => readAlike env raw
  | _ => true

theorem retains_iff (env : Env) (s : State) (a : Action) : retains env s a = true ↔ Retains env s a := by
  constructor
  · intro h
    refine ⟨fun w fresh outcome raw ha hw hcmd => ?_, fun raw ha => ?_⟩
    · subst ha
      rw [retains, hw, Bool.or_eq_true] at h
      rcases h with hother | hretained
      · exact absurd hcmd (of_decide_eq_true hother)
      · exact (retained_iff env s raw).mp hretained
    · subst ha
      exact (readAlike_iff env raw).mp h
  · intro h
    unfold retains
    split
    · next w fresh outcome =>
      split
      · next raw hw =>
        rw [Bool.or_eq_true, decide_eq_true_eq]
        by_cases hcmd : (Action.work w fresh outcome).cmd? env s = some (.lremProcessing raw)
        · exact Or.inr ((retained_iff env s raw).mpr (h.acknowledges w fresh outcome raw rfl hw hcmd))
        · exact Or.inl hcmd
      · rfl
    · next raw => exact (readAlike_iff env raw).mpr (h.foreign raw rfl)
    · rfl

instance (env : Env) (s : State) (a : Action) : Decidable (Retains env s a) :=
  decidable_of_iff _ (retains_iff env s a)

/-! ## The lists in one command -/

/-- A text leaves the lists only by its own removal. -/
theorem mem_lists_exec {r : Redis} {raw : Str} (hraw : raw ∈ r.tasks ++ r.processing) (cmd : Command) :
    raw ∈ (cmd.exec r).1.tasks ++ (cmd.exec r).1.processing ∨ cmd = .lremProcessing raw ∨
      cmd = .deadLetterProcessingDelivery raw := by
  have erased : ∀ {removed}, raw ≠ removed → raw ∈ r.tasks ++ r.processing.erase removed := by
    intro removed hne
    rcases List.mem_append.mp hraw with htasks | hprocessing
    · exact List.mem_append_left _ htasks
    · exact List.mem_append_right _ ((List.mem_erase_of_ne hne).mpr hprocessing)
  cases cmd with
  | rpushTasks pushed =>
    rcases List.mem_append.mp hraw with htasks | hprocessing
    · exact Or.inl (List.mem_append_left _ (List.mem_append_left _ htasks))
    · exact Or.inl (List.mem_append_right _ hprocessing)
  | blmove =>
    left
    cases htasks : r.tasks with
    | nil =>
      simp only [Command.exec, htasks]
      rwa [htasks] at hraw
    | cons head rest =>
      rw [htasks] at hraw
      simp only [Command.exec, htasks]
      simp only [List.cons_append, List.mem_cons, List.mem_append] at hraw ⊢
      tauto
  | lremProcessing removed =>
    by_cases hsame : raw = removed
    · exact Or.inr (Or.inl (by rw [hsame]))
    · exact Or.inl (erased hsame)
  | requeueStaleDelivery removed =>
    left
    simp only [Command.exec]
    split
    · by_cases hsame : raw = removed
      · exact List.mem_append_left _ (hsame ▸ List.mem_cons_self)
      · exact List.mem_cons_of_mem _ (erased hsame)
    · exact hraw
  | deadLetterProcessingDelivery removed =>
    by_cases hsame : raw = removed
    · exact Or.inr (Or.inr (by rw [hsame]))
    · left
      simp only [Command.exec]
      split
      · exact erased hsame
      · exact hraw
  | _ => exact Or.inl hraw

/-- A text enters the lists only by a push. -/
theorem mem_lists_of_exec {r : Redis} {cmd : Command} {raw : Str}
    (hraw : raw ∈ (cmd.exec r).1.tasks ++ (cmd.exec r).1.processing) :
    raw ∈ r.tasks ++ r.processing ∨ cmd = .rpushTasks raw := by
  have unerased : ∀ {removed}, raw ∈ r.tasks ++ r.processing.erase removed → raw ∈ r.tasks ++ r.processing := by
    intro removed hmem
    rcases List.mem_append.mp hmem with htasks | hprocessing
    · exact List.mem_append_left _ htasks
    · exact List.mem_append_right _ (List.mem_of_mem_erase hprocessing)
  cases cmd with
  | rpushTasks pushed =>
    simp only [Command.exec, List.mem_append, List.mem_singleton] at hraw
    rcases hraw with (htasks | rfl) | hprocessing
    · exact Or.inl (List.mem_append_left _ htasks)
    · exact Or.inr rfl
    · exact Or.inl (List.mem_append_right _ hprocessing)
  | blmove =>
    left
    cases htasks : r.tasks with
    | nil =>
      simp only [Command.exec, htasks] at hraw
      exact hraw
    | cons head rest =>
      simp only [Command.exec, htasks, List.mem_append, List.mem_singleton] at hraw
      simp only [List.cons_append, List.mem_cons, List.mem_append]
      tauto
  | lremProcessing removed => exact Or.inl (unerased hraw)
  | requeueStaleDelivery removed =>
    left
    simp only [Command.exec] at hraw
    split at hraw
    · next hremoved =>
      rcases List.mem_cons.mp hraw with rfl | hrest
      · exact List.mem_append_right _ hremoved
      · exact unerased hrest
    · exact hraw
  | deadLetterProcessingDelivery removed =>
    left
    simp only [Command.exec] at hraw
    split at hraw
    · exact unerased hraw
    · exact hraw
  | _ => exact Or.inl hraw

/-! ## Requests -/

/-- A task was requested at the dashboard. -/
def Requested (h : History State Action) (T : Uuid) : Prop :=
  ∃ x ∈ h, ∃ r request time, x.2 = .submit r request T time

theorem Requested.later {T : Uuid} (hT : Requested h T) (x : State × Action) : Requested (x :: h) T := by
  obtain ⟨y, hy, hsubmit⟩ := hT
  exact ⟨y, List.mem_cons_of_mem _ hy, hsubmit⟩

/-- The ids of requests are drawn. -/
theorem issued_of_requested (run : (system env).Run h s) {T : Uuid} (hT : Requested h T) : T ∈ s.issued := by
  induction run with
  | start =>
    obtain ⟨x, hx, -⟩ := hT
    cases hx
  | step run hstep ih =>
    obtain ⟨x, hx, r, request, time, hsubmit⟩ := hT
    rcases List.mem_cons.mp hx with rfl | hx
    · obtain rfl : _ = Action.submit r request T time := hsubmit
      exact (step_submit (show step env _ _ = _ from hstep)).2.1
    · exact step_issued hstep (ih ⟨x, hx, r, request, time, hsubmit⟩)

/-- What a request in progress is about was requested. -/
theorem requested_of_subject (run : (system env).Run h s) : ∀ q x, (s.requests q).subject? = some x →
    Requested h x.1 := by
  induction run with
  | start =>
    intro q x hx
    cases hx
  | step run hstep ih =>
    intro q x hx
    rcases step_request_subject hstep hx with hbefore | ⟨request, time, hsubmit, -⟩
    · exact (ih q x hbefore).later _
    · exact ⟨_, List.mem_cons_self, q, request, time, hsubmit⟩

/-- A recorded task was requested. -/
theorem requested_of_record (run : (system env).Run h s) {T : Uuid} {payload : Fields}
    (htx : a.tx? env s = some (.recordQueuedTask T payload)) : Requested h T := by
  obtain ⟨q, hq⟩ := request_of_record htx
  exact requested_of_subject run q (T, payload) hq

/-- So was a created one. -/
theorem requested_of_created (run : (system env).Run h s) {T : Uuid} (hT : Created env h T) : Requested h T := by
  induction run with
  | start =>
    obtain ⟨x, hx, -⟩ := hT
    cases hx
  | step run hstep ih =>
    obtain ⟨x, hx, payload, htx, hnew⟩ := hT
    rcases List.mem_cons.mp hx with rfl | hx
    · exact (requested_of_record run htx).later _
    · exact (ih ⟨x, hx, payload, htx, hnew⟩).later _

/-! ## Copies in a step -/

/-- A task is settled or has a copy of its delivery. -/
def Kept (env : Env) (s : State) (T : Uuid) : Prop := Copied env s T ∨ Terminal s T

/-- What the stage of a worker says of the tasks it handles: a pushed one has a copy, so has one whose
delivery was taken, unless the worker drew its id itself, and the copy recovery removes is of a settled
task. -/
def Pc.Keeps (env : Env) (h : History State Action) (s : State) : Pc → Prop
  | mark T _ _ => Kept env s T
  | acknowledge raw _ => ∀ T, Names env raw T → Terminal s T
  | deliver raw => ReadAlike env raw ∧ ∀ T, Names env raw T → Kept env s T
  | claim d => ∀ T, env.driver.uuid d.taskId = some T → Kept env s T ∨ T ∈ s.issued ∧ ¬ Requested h T
  | _ => True

/-- A delivery that names a task is read alike. -/
theorem readAlike_of_names {raw : Str} {T : Uuid} (hnames : Names env raw T) : ReadAlike env raw := by
  obtain ⟨payload, hpayload⟩ := hnames
  obtain ⟨hread, htaskId⟩ := readDelivery_of_identifyDelivery hpayload
  intro payload' U hread' _ huuid
  rw [hread] at hread'
  cases hread'
  rw [uuid_eq_of_taskId htaskId huuid]
  exact ⟨payload, hpayload⟩

/-- The lists after a step. -/
theorem step_copied {T : Uuid} (hstep : step env s a = some s')
    (hcopy : ∃ raw ∈ (sent s.store.redis (a.cmd? env s)).tasks ++ (sent s.store.redis (a.cmd? env s)).processing,
      Names env raw T) : Copied env s' T := by
  rw [← (step_store hstep).2] at hcopy
  exact hcopy

/-- A step that retains copies keeps a kept task. -/
theorem Kept.next {T : Uuid} (hs : Kept env s T) (run : (system env).Run h s)
    (hworkers : ∀ w, (s.workers w).Keeps env h s) (guard : Retains env s a) (hstep : step env s a = some s') :
    Kept env s' T := by
  rcases hs with ⟨raw, hraw, hnames⟩ | hterminal
  · cases hcmd : a.cmd? env s with
    | none => exact Or.inl (step_copied hstep ⟨raw, by rwa [hcmd], hnames⟩)
    | some cmd =>
      rcases mem_lists_exec hraw cmd with hstays | rfl | rfl
      · exact Or.inl (step_copied hstep ⟨raw, by rwa [hcmd], hnames⟩)
      · rcases Action.cmd?_eq_some hcmd with ⟨w, fresh, outcome, rfl, hpc⟩ | hread | ⟨_, -, hpush⟩
        · have hkeeps := hworkers w
          cases hw : s.workers w <;> rw [hw] at hpc hkeeps <;> cases hpc
          · exact Or.inr ((hkeeps T hnames).next run hstep)
          · rcases guard.acknowledges w fresh outcome raw rfl hw hcmd T hnames with hterminal | hother
            · exact Or.inr (hterminal.next run hstep)
            · exact Or.inl (step_copied hstep (by rwa [hcmd]))
        · cases hread
        · cases hpush
      · -- a delivery that names a task is not malformed
        rcases Action.cmd?_eq_some hcmd with ⟨w, fresh, outcome, rfl, hpc⟩ | hread | ⟨_, -, hpush⟩
        · have horigin := run_origin run w
          cases hw : s.workers w <;> rw [hw] at hpc horigin <;> cases hpc
          obtain ⟨exc, hexc, -⟩ := horigin
          obtain ⟨payload, hpayload⟩ := hnames
          rw [hpayload] at hexc
          cases hexc
        · cases hread
        · cases hpush
  · exact Or.inr (hterminal.next run hstep)

/-- What enters the lists is read alike. -/
theorem readAlike_next (run : (system env).Run h s) (guard : Retains env s a) (hstep : step env s a = some s')
    (hs : ∀ raw ∈ s.store.redis.tasks ++ s.store.redis.processing, ReadAlike env raw) :
    ∀ raw ∈ s'.store.redis.tasks ++ s'.store.redis.processing, ReadAlike env raw := by
  intro raw hraw
  rw [(step_store hstep).2] at hraw
  cases hcmd : a.cmd? env s with
  | none =>
    rw [hcmd] at hraw
    exact hs raw hraw
  | some cmd =>
    rw [hcmd] at hraw
    rcases mem_lists_of_exec hraw with hbefore | rfl
    · exact hs raw hbefore
    · rcases Action.cmd?_eq_some hcmd with ⟨w, fresh, outcome, rfl, hpc⟩ | hread | ⟨raw', rfl, hpush⟩
      · cases hw : s.workers w <;> rw [hw] at hpc <;> cases hpc
        obtain ⟨p, htext, -⟩ := (run_dispatches run w).push _ _ _ _ hw
        exact readAlike_of_names htext.names
      · cases hread
      · cases hpush
        exact guard.foreign raw rfl

/-- A worker that does not move keeps what its stage says. -/
theorem Pc.Keeps.stay {pc : Pc} (hs : pc.Keeps env h s) (run : (system env).Run h s)
    (hworkers : ∀ w, (s.workers w).Keeps env h s) (guard : Retains env s a) (hstep : step env s a = some s') :
    pc.Keeps env ((s, a) :: h) s' := by
  have next : ∀ {T}, Kept env s T → Kept env s' T := fun hT => hT.next run hworkers guard hstep
  cases pc with
  | mark T c rest => exact next hs
  | acknowledge raw rest => exact fun T hnames => (hs T hnames).next run hstep
  | deliver raw => exact ⟨hs.1, fun T hnames => next (hs.2 T hnames)⟩
  | claim d =>
    intro T huuid
    rcases hs T huuid with hkept | ⟨hissued, hunrequested⟩
    · exact Or.inl (next hkept)
    · refine Or.inr ⟨step_issued hstep hissued, fun hrequested => ?_⟩
      obtain ⟨x, hx, r, request, time, hsubmit⟩ := hrequested
      rcases List.mem_cons.mp hx with rfl | hx
      · obtain rfl : a = .submit r request T time := hsubmit
        exact (step_submit hstep).1 hissued
      · exact hunrequested ⟨x, hx, r, request, time, hsubmit⟩
  | _ => trivial

/-! ## The stage a worker comes to -/

/-- The stages that say something of the tasks they handle. -/
def Stage.handling : Stage → Bool
  | mark => true
  | acknowledge => true
  | deliver => true
  | claim => true
  | _ => false

theorem Pc.Keeps.of_idle {pc : Pc} (hidle : pc.stage.handling = false) : pc.Keeps env h s := by
  cases pc <;> trivial

/-- A worker whose next stages say nothing comes to one that says nothing. -/
theorem all_keeps {pc : Pc} (hnext : pc.stage.next.all (fun st => !st.handling) = true) :
    (pc.op env fresh).All (Pc.Keeps env h s) :=
  Op.All.mono (all_outside hnext) fun _ hp => .of_idle hp

theorem publishFailed_keeps (id claimId : Uuid) (rest : List (Uuid × Json × Uuid)) (exc : PyExc) :
    (publishFailed id claimId rest exc).Keeps env h s := by
  unfold publishFailed
  split <;> trivial

/-- Recovery that finds a task settled leaves it so. -/
theorem settled_of_recovery {now : ℕ} {db db' : Database} {T : Uuid} {payload : Fields}
    (hexec : (Tx.recover T payload).exec env now db = some (db', .recovery false true)) :
    ∃ r, db'.tasks.find? T = some r ∧ r.status.terminal = true := by
  cases hr : db.tasks.find? T with
  | none =>
    generalize hreply : Reply.recovery false true = reply at hexec
    cases Performed.of_exec hexec with
    | recover hrow =>
      rw [recoverRow, if_pos (by rw [newTask_id hrow, hr]; rfl)] at hreply
      cases hreply
  | some r =>
    obtain ⟨hrow, hreply⟩ := exec_recover hexec hr
    obtain ⟨hkept, hterminal⟩ := Reply.recovery.inj hreply
    rw [← hkept] at hrow hterminal
    exact ⟨r, hrow, hterminal.symm⟩

/-- The id under which a delivery is claimed is one it names, or the worker has just drawn it. -/
theorem readNext_keeps {raw : Str} {T : Uuid} {d : Delivery} (hd : readNext env fresh raw = .claim d)
    (halike : ReadAlike env raw) (huuid : env.driver.uuid d.taskId = some T) : Names env raw T ∨ T = fresh := by
  obtain ⟨-, hread, htaskId⟩ := readNext_eq_claim hd
  rw [htaskId, claimedId] at huuid
  split at huuid
  · next htruthy => exact Or.inl (halike d.payload T hread htruthy huuid)
  · rw [env.driver.uuid_uuidText] at huuid
    exact Or.inr (Option.some.inj huuid).symm

/-- The stage a worker comes to says what it must. -/
theorem work_keeps {w : ℕ} {outcome : Outcome} (run : (system env).Run h s)
    (hlists : ∀ raw ∈ s.store.redis.tasks ++ s.store.redis.processing, ReadAlike env raw)
    (hworkers : ∀ w, (s.workers w).Keeps env h s) (guard : Retains env s (.work w fresh outcome))
    (hstep : step env s (.work w fresh outcome) = some s') :
    (s'.workers w).Keeps env ((s, .work w fresh outcome) :: h) s' := by
  obtain ⟨hperform, -, -, -, hissued⟩ := step_work hstep
  cases hpc : s.workers w with
  | push T raw c rest =>
    obtain ⟨p, htext, -⟩ := (run_dispatches run w).push T raw c rest hpc
    rw [hpc] at hperform
    cases outcome with
    | done =>
      rw [← (Prod.mk.inj (Option.some.inj hperform)).2]
      refine Or.inl (step_copied hstep ⟨raw, ?_, htext.names⟩)
      rw [Action.cmd?, hpc]
      exact List.mem_append_left _ (List.mem_append_right _ (List.mem_singleton_self raw))
    | lost exc =>
      rw [← (Prod.mk.inj (Option.some.inj hperform)).2]
      exact publishFailed_keeps ..
    | refused exc =>
      rw [← (Prod.mk.inj (Option.some.inj hperform)).2]
      exact publishFailed_keeps ..
    | _ => cases hperform
  | recover raw payload id rest =>
    have horigin := run_origin run w
    rw [hpc] at hperform horigin
    have hfailed : ∀ exc : PyExc, (if exc.isPsycopg then Pc.recovering rest else Pc.reapTasks).Keeps env
        ((s, .work w fresh outcome) :: h) s' := by
      intro exc
      split <;> trivial
    cases outcome with
    | done =>
      obtain ⟨⟨db, reply⟩, hexec, heq⟩ := Option.map_eq_some_iff.mp hperform
      obtain ⟨hstore, hnext⟩ := Prod.mk.inj heq
      rw [← hnext]
      cases reply with
      | recovery recovered terminal =>
        cases recovered with
        | true => trivial
        | false =>
          cases terminal with
          | false => trivial
          | true =>
            intro T hnames
            obtain ⟨payload', hpayload'⟩ := hnames
            rw [show identifyDelivery env.py raw = .ok (payload, id) from horigin] at hpayload'
            cases hpayload'
            obtain ⟨r, hr, hterminal⟩ := settled_of_recovery hexec
            exact ⟨r, by rw [State.task, ← hstore]; exact hr, hterminal⟩
      | _ => trivial
    | lost exc =>
      obtain ⟨_, -, heq⟩ := Option.map_eq_some_iff.mp hperform
      rw [← (Prod.mk.inj heq).2]
      exact hfailed exc
    | refused exc =>
      rw [← (Prod.mk.inj (Option.some.inj hperform)).2]
      exact hfailed exc
    | _ => cases hperform
  | take =>
    rw [hpc] at hperform
    cases outcome with
    | done =>
      rw [← (Prod.mk.inj (Option.some.inj hperform)).2]
      cases htasks : s.store.redis.tasks with
      | nil =>
        simp only [Command.exec, htasks]
        trivial
      | cons raw rest =>
        simp only [Command.exec, htasks]
        refine ⟨hlists raw (by rw [htasks]; exact List.mem_cons_self), fun T hnames => ?_⟩
        refine Or.inl (step_copied hstep ⟨raw, ?_, hnames⟩)
        rw [Action.cmd?, hpc]
        simp [Pc.op, Op.sends, sent, Command.exec, htasks]
    | lost exc =>
      rw [← (Prod.mk.inj (Option.some.inj hperform)).2]
      trivial
    | refused exc =>
      rw [← (Prod.mk.inj (Option.some.inj hperform)).2]
      trivial
    | _ => cases hperform
  | deliver raw =>
    have hkeeps := hworkers w
    rw [hpc] at hperform hkeeps hissued
    obtain ⟨hfresh, hissued⟩ := hissued
    cases outcome with
    | done =>
      have hnext : readNext env fresh raw = s'.workers w := (Prod.mk.inj (Option.some.inj hperform)).2
      cases hclaim : s'.workers w with
      | claim d =>
        intro T huuid
        rcases readNext_keeps (hnext.trans hclaim) hkeeps.1 huuid with hnames | rfl
        · exact Or.inl ((hkeeps.2 T hnames).next run hworkers guard hstep)
        · refine Or.inr ⟨hissued ▸ List.mem_cons_self, fun hrequested => hfresh ?_⟩
          obtain ⟨x, hx, r, request, time, hsubmit⟩ := hrequested
          rcases List.mem_cons.mp hx with rfl | hx
          · cases hsubmit
          · exact issued_of_requested run ⟨x, hx, r, request, time, hsubmit⟩
      | bury raw' => trivial
      | down => trivial
      | _ =>
        rw [hclaim, readNext] at hnext
        repeat' split at hnext
        all_goals cases hnext
    | _ => cases hperform
  | _ =>
    refine (perform_cases hperform).2.2 (fun _ p => p.Keeps env _ s') ?_
    rw [hpc]
    exact (all_keeps rfl).wp fun _ _ hp => hp

/-! ## Accepted tasks -/

/-- No step removes the row of a task. -/
theorem step_task_some {T : Uuid} {r : TaskRow} (hstep : step env s a = some s') (hr : s.task T = some r) :
    ∃ r', s'.task T = some r' := by
  rcases step_task hstep T with heq | ⟨tx, -, hmove⟩
  · exact ⟨r, heq.trans hr⟩
  · obtain ⟨r', hr', -⟩ := hmove.columns hr
    exact ⟨r', hr'⟩

/-- A recorded task has a row. -/
theorem task_of_recorded (run : (system env).Run h s) {T : Uuid} (hT : T ∈ recorded env h) :
    ∃ r, s.task T = some r := by
  induction run with
  | start => cases hT
  | @step h s s' a run hstep ih =>
    obtain ⟨x, hx, hrecords⟩ := List.mem_filterMap.mp hT
    rcases List.mem_cons.mp hx with rfl | hx
    · unfold Action.records at hrecords
      split at hrecords
      · next id payload htx =>
        cases hrecords
        obtain ⟨row, -, hrow⟩ := row_of_record hstep htx
        exact ⟨_, hrow⟩
      · cases hrecords
    · obtain ⟨r, hr⟩ := ih (List.mem_filterMap.mpr ⟨x, hx, hrecords⟩)
      exact step_task_some hstep hr

/-- A queued task stays queued, is settled or is claimed. -/
theorem step_queued {T : Uuid} {r : TaskRow} (hstep : step env s a = some s') (hr : s.task T = some r)
    (hqueued : r.status = .queued) : (∃ r', s'.task T = some r' ∧ r'.status = .queued) ∨ Terminal s' T ∨
      ∃ taskId payload E, a.tx? env s = some (.claimTask taskId payload E) ∧ env.driver.uuid taskId = some T := by
  have unleased : ∀ {E}, leasedBy E r = true → False := by
    intro E hlease
    rw [(leasedBy_iff.mp hlease).1] at hqueued
    cases hqueued
  rcases step_task hstep T with heq | ⟨tx, htx, hmove⟩
  · exact Or.inl ⟨r, heq.trans hr, hqueued⟩
  · rw [hr] at hmove
    generalize hnew : s'.task T = new at hmove
    cases hmove with
    | keep => exact Or.inl ⟨r, rfl, hqueued⟩
    | @lease taskId payload E _ _ huuid => exact Or.inr (Or.inr ⟨taskId, payload, E, htx, huuid⟩)
    | block => exact Or.inr (Or.inl ⟨_, hnew, rfl⟩)
    | release => exact Or.inl ⟨_, rfl, rfl⟩
    | succeed _ _ hlease => exact (unleased hlease).elim
    | fail _ hlease => exact (unleased hlease).elim
    | reap => exact Or.inr (Or.inl ⟨_, hnew, rfl⟩)

/-- A pending row stays pending until it is acknowledged, or is that of a settled task. -/
theorem pending_next {T : Uuid} (hstep : step env s a = some s') (hpending : Pending s T) :
    Pending s' T ∨ Terminal s T ∨ ∃ c, a.tx? env s = some (.markOutboxDelivered T c) := by
  obtain ⟨o, ho, hnone⟩ := hpending
  rcases step_outbox hstep T with heq | ⟨tx, htx, hmove⟩
  · exact Or.inl ⟨o, heq.trans ho, hnone⟩
  · rw [ho] at hmove
    generalize hnew : s'.outbox T = new at hmove
    cases hmove with
    | keep => exact Or.inl ⟨o, hnew, hnone⟩
    | claim => exact Or.inl ⟨_, hnew, hnone⟩
    | @deliver c => exact Or.inr (Or.inr ⟨c, htx⟩)
    | note => exact Or.inl ⟨_, hnew, hnone⟩
    | delete hterminal => exact Or.inr (Or.inl ((Option.any_eq_true _ _).mp hterminal))

/-- A task is queued while its outbox row is not delivered. -/
def Waiting (s : State) (T : Uuid) : Prop := (∃ r, s.task T = some r ∧ r.status = .queued) ∧ Pending s T

/-- Where the copies of all tasks are accounted for: by the lists, by the workers and by the outbox. -/
structure Accounted (env : Env) (h : History State Action) (s : State) : Prop where
  lists : ∀ raw ∈ s.store.redis.tasks ++ s.store.redis.processing, ReadAlike env raw
  workers : ∀ w, (s.workers w).Keeps env h s
  created : ∀ T, Created env h T → Kept env s T ∨ Waiting s T

/-- A task that waits in the outbox goes on waiting, or has a copy when its row is acknowledged or leased. -/
theorem Accounted.waiting_next (hs : Accounted env h s) (run : (system env).Run h s) (guard : Retains env s a)
    (hstep : step env s a = some s') {T : Uuid} (hcreated : Created env h T) (hwaiting : Waiting s T) :
    Kept env s' T ∨ Waiting s' T := by
  have next : Kept env s T → Kept env s' T := fun hT => hT.next run hs.workers guard hstep
  obtain ⟨⟨r, hr, hqueued⟩, hpending⟩ := hwaiting
  rcases pending_next hstep hpending with hpending' | hterminal | ⟨c, htx⟩
  · rcases step_queued hstep hr hqueued with hqueued' | hterminal | ⟨taskId, payload, E, htx, huuid⟩
    · exact Or.inr ⟨hqueued', hpending'⟩
    · exact Or.inl (Or.inr hterminal)
    · rcases Action.tx?_eq_some htx with ⟨w, fresh, outcome, rfl, hpc⟩ | ⟨q, outcome, rfl, hpc⟩
      · have hkeeps := hs.workers w
        cases hw : s.workers w <;> rw [hw] at hpc hkeeps <;> cases hpc
        rcases hkeeps T huuid with hkept | ⟨-, hunrequested⟩
        · exact Or.inl (next hkept)
        · exact absurd (requested_of_created run hcreated) hunrequested
      · cases hq : s.requests q <;> rw [hq] at hpc <;> cases hpc
  · exact Or.inl (next (Or.inr hterminal))
  · obtain ⟨w, rest, hw⟩ := worker_of_mark htx
    have hkeeps := hs.workers w
    rw [hw] at hkeeps
    exact Or.inl (next hkeeps)

/-- A task that is created waits in the outbox. -/
theorem waiting_of_created (run : (system env).Run h s) (hstep : step env s a = some s') {T : Uuid}
    {payload : Fields} (htx : a.tx? env s = some (.recordQueuedTask T payload)) (hnew : s.task T = none) :
    Waiting s' T := by
  obtain ⟨row, hrow, hstored⟩ := row_of_record hstep htx
  rw [hnew] at hstored
  refine ⟨⟨row, hstored, (newTask_unclaimed hrow).queued⟩, pending_of_record hstep htx ?_⟩
  by_contra houtbox
  obtain ⟨o, ho⟩ := Option.ne_none_iff_exists'.mp houtbox
  obtain ⟨r, hr⟩ := task_of_recorded run ((run_fromRecords run).outbox T o ho)
  rw [hnew] at hr
  cases hr

/-- A step that retains copies keeps the account. -/
theorem Accounted.next (hs : Accounted env h s) (run : (system env).Run h s) (guard : Retains env s a)
    (hstep : step env s a = some s') : Accounted env ((s, a) :: h) s' where
  lists := readAlike_next run guard hstep hs.lists
  workers w := by
    cases step_worker hstep w with
    | stay _ hsame => exact hsame ▸ (hs.workers w).stay run hs.workers guard hstep
    | start hstart => rw [hstart]; trivial
    | crash hcrash => rw [hcrash]; trivial
    | work => exact work_keeps run hs.lists hs.workers guard hstep
  created T hT := by
    obtain ⟨x, hx, payload, htx, hnew⟩ := hT
    rcases List.mem_cons.mp hx with rfl | hx
    · exact Or.inr (waiting_of_created run hstep htx hnew)
    · have hcreated : Created env h T := ⟨x, hx, payload, htx, hnew⟩
      rcases hs.created T hcreated with hkept | hwaiting
      · exact Or.inl (hkept.next run hs.workers guard hstep)
      · exact hs.waiting_next run guard hstep hcreated hwaiting

/-- **Accepted tasks stay recoverable.** In every run whose steps retain the copies of unsettled tasks,
every task created by the dashboard that is queued or running waits in the outbox or has a copy of its
delivery in one of the two lists. -/
theorem created_recoverable (run : (system env).Run h s) (guard : System.AllSteps (Retains env) h) (T : Uuid)
    (hT : Created env h T) : Recoverable env s T := by
  have hinit : Accounted env [] (system env).init := by
    refine ⟨fun raw hraw => ?_, fun w => trivial, fun T hT => ?_⟩
    · cases hraw
    · obtain ⟨x, hx, -⟩ := hT
      cases hx
  have haccounted : Accounted env h s := run.history_invariant (P := Accounted env) hinit
    (fun h s a s' run hs hguard hstep => hs.next run hguard hstep) guard
  intro r hr hlive
  rcases haccounted.created T hT with (hcopied | ⟨r', hr', hterminal⟩) | ⟨⟨r', hr', hqueued⟩, hpending⟩
  · exact Or.inr hcopied
  · rw [hr] at hr'
    cases hr'
    rw [hlive] at hterminal
    cases hterminal
  · rw [hr] at hr'
    cases hr'
    exact Or.inl ⟨hqueued, hpending⟩

/-- Whether the row of the sample task was inserted by the dashboard and is running. -/
def Sample.createdRunning (h : History State Action) (s : State) : Bool :=
  h.any (fun x => decide (x.2.records Sample.env x.1 = some Sample.task) && (x.1.task Sample.task).isNone) &&
    Sample.inStatus .running h s

theorem Sample.created_of_running {h : History State Action} {s : State} (hsample : Sample.createdRunning h s = true) :
    Created Sample.env h Sample.task ∧ ∃ r, s.task Sample.task = some r ∧ r.status = .running := by
  obtain ⟨hcreated, hrunning⟩ := Bool.and_eq_true_iff.mp hsample
  obtain ⟨x, hx, hstep⟩ := List.any_eq_true.mp hcreated
  obtain ⟨hrecords, hnew⟩ := Bool.and_eq_true_iff.mp hstep
  refine ⟨⟨x, hx, ?_⟩, Sample.inStatus_iff hrunning⟩
  have hrecords := of_decide_eq_true hrecords
  unfold Action.records at hrecords
  split at hrecords
  · next id payload htx =>
    cases hrecords
    exact ⟨payload, htx, Option.isNone_iff_eq_none.mp hnew⟩
  · cases hrecords

/-- The push of worker 0 has lost its answer, so worker 1 pushes the payload again; each takes one copy,
worker 0 claims the task, and worker 1 acknowledges its duplicate. -/
def Sample.pushedTwice : List Action :=
  Sample.submitted ++ Sample.publishing ++ [.work 0 0 (.lost (.redis (lit "ConnectionError"))),
    Sample.go 0 0, Sample.go 0 0, .work 0 0 (.due false), .work 0 0 (.due false), Sample.go 0 0, Sample.go 0 2,
    .tick (seconds 91), .start 1, .work 1 0 (.due true), Sample.go 1 3, Sample.go 1 0, Sample.go 1 0,
    Sample.go 1 0, Sample.go 1 0, .work 1 0 (.due false), .work 1 0 (.due false), Sample.go 1 0, Sample.go 1 4,
    Sample.go 0 5, Sample.go 1 6, Sample.go 1 0]

/-- The copy of worker 0 outlasts the acknowledgement of the duplicate. -/
theorem created_recoverable_pushedTwice :
    ∃ h s, (system Sample.env).Run h s ∧ Created Sample.env h Sample.task ∧
      (∃ r, s.task Sample.task = some r ∧ r.status = .running) ∧ Recoverable Sample.env s Sample.task := by
  obtain ⟨h, s, run, htest⟩ := System.exists_run (system Sample.env) Sample.pushedTwice
    (fun h (s : State) => Sample.createdRunning h s && decide (System.AllSteps (Retains Sample.env) h))
    (by decide +kernel)
  obtain ⟨hsample, hguard⟩ := Bool.and_eq_true_iff.mp htest
  obtain ⟨hcreated, hrunning⟩ := Sample.created_of_running hsample
  exact ⟨h, s, run, hcreated, hrunning,
    created_recoverable run (of_decide_eq_true hguard) Sample.task hcreated⟩

/-- Worker 0 has taken the only copy when recovery requeues it to worker 1; worker 0 claims the task,
worker 1 acknowledges the copy as that of a duplicate, and worker 0 crashes. -/
def Sample.requeuedLive : List Action :=
  Sample.submitted ++ Sample.publishing ++ [Sample.go 0 0, Sample.go 0 0, Sample.go 0 0, .work 0 0 (.due false),
    .work 0 0 (.due false), Sample.go 0 0, Sample.go 0 2, .start 1] ++ Sample.recoveringTurn 1 ++
    [Sample.go 1 3, Sample.go 0 4, Sample.go 1 5, Sample.go 1 0, .crash 0]

/-- A running task can lose the last copy of its delivery. -/
theorem created_unrecoverable :
    ¬ ∀ h s, (system Sample.env).Run h s → ∀ T, Created Sample.env h T → Recoverable Sample.env s T := by
  obtain ⟨h, s, run, htest⟩ := System.exists_run (system Sample.env) Sample.requeuedLive
    (fun h (s : State) => Sample.createdRunning h s &&
      decide (s.store.redis.tasks ++ s.store.redis.processing = [])) (by decide +kernel)
  obtain ⟨hsample, hlists⟩ := Bool.and_eq_true_iff.mp htest
  obtain ⟨hcreated, r, hr, hrunning⟩ := Sample.created_of_running hsample
  intro recoverable
  rcases recoverable h s run Sample.task hcreated r hr (by rw [hrunning]; rfl) with ⟨hqueued, -⟩ | ⟨raw, hraw, -⟩
  · rw [hrunning] at hqueued
    cases hqueued
  · rw [of_decide_eq_true hlists] at hraw
    cases hraw

end NeuroLab.ControlPlane
