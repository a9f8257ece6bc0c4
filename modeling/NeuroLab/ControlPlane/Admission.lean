import NeuroLab.ControlPlane.Dispatch

/-!
# What the dashboard admits

`create_task` looks at the length of the task list and at the day's tasks of the lane,
each in a step of its own, and records the task in a third. The two limits hold over
whole runs where the looks still hold when the task is recorded; requests that overlap
break the one, and work that waits in the outbox breaks the other.
-/

namespace NeuroLab.ControlPlane

open Python Common

variable {env : Env} {s s' : State} {a : Action} {h : History State Action}

/-! ## The daily budget of a lane -/

/-- A day, as `daily_lane_task_count` measures it. -/
def day : ℕ := seconds 86400

/-- The task that a step records for a lane within a day from a time. -/
def acceptance (env : Env) (lane : Str) (t : ℕ) (x : State × Action) : Option Uuid :=
  match x.2.tx? env x.1 with
  | some (.recordQueuedTask id payload) =>
    if getD payload (lit "credential_lane") .null = .str lane ∧ t < x.1.clock ∧ x.1.clock ≤ t + day then some id
    else none
  | _ => none

/-- The tasks accepted for a lane within a day from a time. -/
def accepted (env : Env) (lane : Str) (t : ℕ) (h : History State Action) : List Uuid :=
  h.filterMap (acceptance env lane t)

/-- A step that accepts a task records it for the lane, within the day. -/
theorem acceptance_eq_some {lane : Str} {t : ℕ} {id : Uuid} (h : acceptance env lane t (s, a) = some id) :
    ∃ payload, a.tx? env s = some (.recordQueuedTask id payload) ∧
      getD payload (lit "credential_lane") .null = .str lane ∧ t < s.clock ∧ s.clock ≤ t + day := by
  unfold acceptance at h
  split at h
  · next id' payload htx =>
    split at h
    · next hwindow =>
      cases h
      exact ⟨payload, htx, hwindow⟩
    · cases h
  · cases h

/-- A task is recorded under a new id, while its lane still has budget. -/
def WithinBudget (env : Env) (s : State) (a : Action) : Prop :=
  ∀ id payload, a.tx? env s = some (.recordQueuedTask id payload) → s.task id = none ∧
    ∀ lane, getD payload (lit "credential_lane") .null = .str lane →
      dailyLaneTaskCount s.clock lane s.store.db < env.config.maxTasksPerLanePerDay

def withinBudget (env : Env) (s : State) (a : Action) : Bool :=
  match a.tx? env s with
  | some (.recordQueuedTask id payload) =>
    (s.task id).isNone &&
      match getD payload (lit "credential_lane") .null with
      | .str lane => decide (dailyLaneTaskCount s.clock lane s.store.db < env.config.maxTasksPerLanePerDay)
      | _ => true
  | _ => true

theorem of_withinBudget (h : withinBudget env s a = true) : WithinBudget env s a := by
  intro id payload htx
  rw [withinBudget, htx] at h
  obtain ⟨hnew, hleft⟩ := Bool.and_eq_true_iff.mp h
  refine ⟨Option.isNone_iff_eq_none.mp hnew, fun lane hlane => ?_⟩
  rw [hlane] at hleft
  exact of_decide_eq_true hleft

/-- The driver stores a string as that string, where it stores it. -/
def StoresText (env : Env) : Prop := ∀ s t, env.driver.text (.str s) = some t → t = some s

theorem newTask_credentialLane {now : ℕ} {taskId : Json} {payload : Fields} {row : TaskRow}
    (h : newTask env now taskId payload = some row) :
    env.driver.text (getD payload (lit "credential_lane") .null) = some row.credentialLane := by
  simp only [newTask, Option.bind_eq_bind, Option.bind_eq_some_iff] at h
  obtain ⟨id, -, provider, -, model, -, lane, hlane, ref, -, h⟩ := h
  split at h
  · cases h
    exact hlane
  · cases h

/-- No move of a row touches its creation time or its lane. -/
theorem TaskStep.columns {now : ℕ} {T : Uuid} {tx : Tx} {old new : Option TaskRow} {r : TaskRow}
    (hmove : TaskStep env now T tx old new) (hold : old = some r) :
    ∃ r', new = some r' ∧ r'.createdAt = r.createdAt ∧ r'.credentialLane = r.credentialLane := by
  have hoffered : ∀ {r₁}, Offered old r₁ → r₁ = r := by
    intro r₁ hoffer
    cases hoffer with
    | stored hr => exact Option.some.inj (hr.symm.trans hold)
    | created hnone => rw [hold] at hnone; cases hnone
  cases hmove with
  | keep => exact ⟨r, hold, rfl, rfl⟩
  | create => cases hold
  | lease _ hoffer => exact ⟨_, rfl, by rw [← hoffered hoffer]; exact ⟨rfl, rfl⟩⟩
  | block hoffer => exact ⟨_, rfl, by rw [← hoffered hoffer]; exact ⟨rfl, rfl⟩⟩
  | release => cases hold; exact ⟨_, rfl, rfl, rfl⟩
  | succeed => cases hold; exact ⟨_, rfl, rfl, rfl⟩
  | fail => cases hold; exact ⟨_, rfl, rfl, rfl⟩
  | reap => cases hold; exact ⟨_, rfl, rfl, rfl⟩

/-- A recorded task has a row: the one it had, or the one its payload gives. -/
theorem row_of_record {id : Uuid} {payload : Fields} (hstep : step env s a = some s')
    (htx : a.tx? env s = some (.recordQueuedTask id payload)) :
    ∃ row, newTask env s.clock (.str (uuidText id)) payload = some row ∧
      s'.task id = some ((s.task id).getD row) := by
  obtain ⟨reply, hexec⟩ := exec_of_tx hstep htx
  obtain ⟨db, hrecord, heq⟩ := Option.map_eq_some_iff.mp hexec
  obtain ⟨row, hrow, hrest⟩ := Option.bind_eq_some_iff.mp hrecord
  obtain ⟨stored, -, hdb⟩ := Option.bind_eq_some_iff.mp hrest
  have htasks : s'.store.db.tasks = (s.store.db.insertTask row).tasks := by
    rw [← (Prod.mk.inj heq).1, ← Option.some.inj hdb]
  refine ⟨row, hrow, ?_⟩
  rw [State.task, htasks, Database.insertTask_tasks, if_pos (newTask_id hrow), Option.or_some]

/-- A recorded task of a new id has a row of the time and the lane it was recorded for. -/
theorem task_of_record {id : Uuid} {payload : Fields} {lane : Str} (htext : StoresText env)
    (hstep : step env s a = some s') (htx : a.tx? env s = some (.recordQueuedTask id payload))
    (hlane : getD payload (lit "credential_lane") .null = .str lane) (hnew : s.task id = none) :
    ∃ r, s'.task id = some r ∧ r.createdAt = s.clock ∧ r.credentialLane = some lane := by
  obtain ⟨row, hrow, hrow'⟩ := row_of_record hstep htx
  have hstored := newTask_credentialLane hrow
  rw [hlane] at hstored
  rw [hnew] at hrow'
  exact ⟨row, hrow', (newTask_eq_some hrow).2.2.1, htext lane _ hstored⟩

/-- Accepted tasks have distinct ids and rows that the day's count sees. -/
structure Counted (env : Env) (lane : Str) (t : ℕ) (h : History State Action) (s : State) : Prop where
  nodup : (accepted env lane t h).Nodup
  rows : ∀ id ∈ accepted env lane t h, ∃ r, s.task id = some r ∧ r.credentialLane = some lane ∧ t < r.createdAt

/-- Within the day there are no more accepted tasks than the count says. -/
theorem Counted.length_le {lane : Str} {t : ℕ} (hs : Counted env lane t h s) {now : ℕ} (hnow : now ≤ t + day) :
    (accepted env lane t h).length ≤ dailyLaneTaskCount now lane s.store.db := by
  rw [dailyLaneTaskCount, List.countP_eq_length_filter, ← List.length_map TaskRow.id]
  refine hs.nodup.length_le_of_subset fun id hid => ?_
  obtain ⟨r, hr, hlane, hcreated⟩ := hs.rows id hid
  obtain ⟨hmem, hkey⟩ := (Table.find?_eq_some_iff _ _ _).mp hr
  refine List.mem_map.mpr ⟨r, List.mem_filter.mpr ⟨hmem, ?_⟩, hkey⟩
  have hwithin : now < r.createdAt + seconds 86400 := by
    unfold day at hnow
    omega
  simp [hlane, hwithin]

/-- A step within the budget keeps accepted tasks counted. -/
theorem Counted.next {lane : Str} {t : ℕ} (htext : StoresText env) (hs : Counted env lane t h s)
    (hbudget : WithinBudget env s a) (hstep : step env s a = some s') :
    Counted env lane t ((s, a) :: h) s' := by
  have hkept : ∀ id ∈ accepted env lane t h, ∃ r, s'.task id = some r ∧ r.credentialLane = some lane ∧
      t < r.createdAt := by
    intro id hid
    obtain ⟨r, hr, hlane, hcreated⟩ := hs.rows id hid
    rcases step_task hstep id with heq | ⟨tx, -, hmove⟩
    · exact ⟨r, heq.trans hr, hlane, hcreated⟩
    · obtain ⟨r', hr', hcreated', hlane'⟩ := hmove.columns hr
      exact ⟨r', hr', hlane'.trans hlane, hcreated'.symm ▸ hcreated⟩
  cases hacceptance : acceptance env lane t (s, a) with
  | none =>
    have hsame : accepted env lane t ((s, a) :: h) = accepted env lane t h := by
      simp [accepted, hacceptance]
    exact ⟨hsame ▸ hs.nodup, hsame ▸ hkept⟩
  | some id =>
    have hcons : accepted env lane t ((s, a) :: h) = id :: accepted env lane t h := by
      simp [accepted, hacceptance]
    obtain ⟨payload, htx, hlane, hafter, -⟩ := acceptance_eq_some hacceptance
    obtain ⟨hnew, -⟩ := hbudget id payload htx
    obtain ⟨r, hr, hcreated, hstored⟩ := task_of_record htext hstep htx hlane hnew
    constructor
    · rw [hcons]
      refine List.nodup_cons.mpr ⟨fun hid => ?_, hs.nodup⟩
      obtain ⟨r', hr', -⟩ := hs.rows id hid
      rw [hnew] at hr'
      cases hr'
    · intro id' hid'
      rw [hcons] at hid'
      rcases List.mem_cons.mp hid' with rfl | hid'
      · exact ⟨r, hr, hstored, hcreated.symm ▸ hafter⟩
      · exact hkept id' hid'

/-- **The daily budget of a lane.** In every run whose tasks are recorded under new ids while their lanes
still have budget, no day holds more accepted tasks of a lane than the budget. -/
theorem daily_budget_kept (htext : StoresText env) (run : (system env).Run h s)
    (hbudget : System.AllSteps (WithinBudget env) h) (lane : Str) (t : ℕ) :
    (accepted env lane t h).length ≤ env.config.maxTasksPerLanePerDay := by
  have counted : Counted env lane t h s ∧ (accepted env lane t h).length ≤ env.config.maxTasksPerLanePerDay := by
    refine run.history_invariant (P := fun h s => Counted env lane t h s ∧
      (accepted env lane t h).length ≤ env.config.maxTasksPerLanePerDay) ?_ ?_ hbudget
    · exact ⟨⟨List.nodup_nil, fun id hid => nomatch hid⟩, Nat.zero_le _⟩
    · intro h s a s' run hs hbudget hstep
      refine ⟨hs.1.next htext hbudget hstep, ?_⟩
      cases hacceptance : acceptance env lane t (s, a) with
      | none => simpa [accepted, hacceptance] using hs.2
      | some id =>
        obtain ⟨payload, htx, hlane, -, hwithin⟩ := acceptance_eq_some hacceptance
        have hcons : accepted env lane t ((s, a) :: h) = id :: accepted env lane t h := by
          simp [accepted, hacceptance]
        have hcount := hs.1.length_le hwithin
        have hleft := (hbudget id payload htx).2 lane hlane
        rw [hcons, List.length_cons]
        omega
  exact counted.2

/-- The environment of an installation with room for one task a day in each lane. -/
def Sample.oneADay : Env where
  config := Config.ofEnv none none none none none none (some 1) none none
  py := Sample.py
  driver := Sample.driver

/-- The sample driver stores text as it is. -/
theorem Sample.storesText : StoresText Sample.oneADay := by
  intro s t ht
  simp only [Sample.oneADay, Sample.driver, Sample.text] at ht
  split at ht
  · exact (Option.some.inj ht).symm
  · cases ht

/-- One request is accepted within the budget. -/
theorem daily_budget_kept_submitted :
    ∃ h s, (system Sample.oneADay).Run h s ∧ accepted Sample.oneADay (lit "primary") 0 h = [Sample.task] ∧
      (accepted Sample.oneADay (lit "primary") 0 h).length ≤ 1 := by
  obtain ⟨h, s, run, htest⟩ := System.exists_run (system Sample.oneADay) (.tick 1 :: Sample.submitted)
    (fun h (s : State) => decide (accepted Sample.oneADay (lit "primary") 0 h = [Sample.task]) &&
      h.all fun x => withinBudget Sample.oneADay x.1 x.2) (by decide +kernel)
  obtain ⟨haccepted, hall⟩ := Bool.and_eq_true_iff.mp htest
  have hbudget : System.AllSteps (WithinBudget Sample.oneADay) h :=
    fun x hx => of_withinBudget (List.all_eq_true.mp hall x hx)
  exact ⟨h, s, run, of_decide_eq_true haccepted,
    daily_budget_kept Sample.storesText run hbudget (lit "primary") 0⟩

/-- Two requests look at the budget before either is recorded. -/
def Sample.overlapping : List Action :=
  [.tick 1, .submit 0 Sample.request Sample.task 0, .submit 1 Sample.request 0xB 0, .serve 0 .done,
    .serve 1 .done, .serve 0 .done, .serve 1 .done, .serve 0 .done, .serve 1 .done]

/-- Overlapping requests exceed the budget of a lane. -/
theorem daily_budget_exceeded :
    ¬ ∀ env h s, (system env).Run h s → ∀ lane t,
      (accepted env lane t h).length ≤ env.config.maxTasksPerLanePerDay := by
  obtain ⟨h, s, run, htest⟩ := System.exists_run (system Sample.oneADay) Sample.overlapping
    (fun h _ => decide (1 < (accepted Sample.oneADay (lit "primary") 0 h).length)) (by decide +kernel)
  intro kept
  have hle := kept Sample.oneADay h s run (lit "primary") 0
  have hlt := of_decide_eq_true htest
  exact absurd (hlt.trans_le hle) (Nat.lt_irrefl 1)

/-! ## The capacity of the queue -/

/-- The push of another producer. -/
def Action.enqueues : Action → Bool
  | enqueue _ => true
  | _ => false

/-- The command by which recovery returns a delivery to the task list. -/
def Command.requeues : Command → Bool
  | requeueStaleDelivery _ => true
  | _ => false

/-- No other producer pushes, and recovery returns nothing to the list. -/
def Undisturbed (env : Env) (s : State) (a : Action) : Prop :=
  a.enqueues = false ∧ (a.cmd? env s).any Command.requeues = false

instance (env : Env) (s : State) (a : Action) : Decidable (Undisturbed env s a) :=
  inferInstanceAs (Decidable (a.enqueues = false ∧ (a.cmd? env s).any Command.requeues = false))

/-- The task that a step records. -/
def Action.records (env : Env) (s : State) (a : Action) : Option Uuid :=
  match a.tx? env s with
  | some (.recordQueuedTask id _) => some id
  | _ => none

/-- The task whose payload a step pushes. -/
def Action.pushes (env : Env) (s : State) (a : Action) : Option Uuid :=
  match a with
  | .work w _ _ => match s.workers w with
    | .push id _ _ _ => (a.cmd? env s).map fun _ => id
    | _ => none
  | _ => none

/-- The tasks that were recorded. -/
def recorded (env : Env) (h : History State Action) : List Uuid := h.filterMap fun x => x.2.records env x.1

/-- The tasks whose payloads were pushed. -/
def pushed (env : Env) (h : History State Action) : List Uuid := h.filterMap fun x => x.2.pushes env x.1

/-- The recorded tasks that were not pushed yet. -/
def unpushed (env : Env) (h : History State Action) : List Uuid :=
  (recorded env h).filter fun T => decide (T ∉ pushed env h)

/-- A task is recorded while the list has room for it and for all that still waits, and no payload is
pushed twice. -/
structure Reserves (env : Env) (h : History State Action) (s : State) (a : Action) : Prop where
  room : (a.records env s).isSome →
    s.store.redis.tasks.length + (unpushed env h).length < env.config.maxQueueDepth
  once : ∀ T, a.pushes env s = some T → T ∉ pushed env h

instance (env : Env) (h : History State Action) (s : State) (a : Action) : Decidable (Reserves env h s a) :=
  decidable_of_iff (((a.records env s).isSome →
      s.store.redis.tasks.length + (unpushed env h).length < env.config.maxQueueDepth) ∧
    ((a.pushes env s).all fun T => decide (T ∉ pushed env h)) = true) <| by
    constructor
    · intro hs
      refine ⟨hs.1, fun T hT => ?_⟩
      rw [hT] at hs
      exact of_decide_eq_true hs.2
    · intro hs
      refine ⟨hs.room, ?_⟩
      cases hpushes : a.pushes env s with
      | none => rfl
      | some T => exact decide_eq_true (hs.once T hpushes)

/-- What a dispatcher holds or the outbox stores was recorded. -/
structure FromRecords (env : Env) (h : History State Action) (s : State) : Prop where
  outbox : ∀ T o, s.outbox T = some o → T ∈ recorded env h
  holding : ∀ w, ∀ T ∈ (s.workers w).holding, T ∈ recorded env h

theorem holding_publishFailed {T c : Uuid} {rest : List (Uuid × Json × Uuid)} {exc : PyExc} :
    (publishFailed T c rest exc).holding ⊆ rest.map Prod.fst := by
  unfold publishFailed
  split
  · exact fun U hU => hU
  · exact List.nil_subset _

theorem holding_publishNext (claimed : List (Uuid × Json × Uuid)) :
    (publishNext env claimed).holding ⊆ claimed.map Prod.fst := by
  unfold publishNext
  split
  · exact List.nil_subset _
  · next T p c rest =>
    have htail : rest.map Prod.fst ⊆ List.map Prod.fst ((T, p, c) :: rest) := List.subset_cons_self _ _
    split
    · exact List.Subset.trans holding_publishFailed htail
    · split
      · exact List.Subset.trans holding_publishFailed htail
      · split
        · exact List.Subset.trans holding_publishFailed htail
        · exact fun U hU => hU

/-- Only a claim gives a worker more to hold. -/
theorem all_holding {pc : Pc} {fresh : Uuid} (hclaim : pc ≠ .claimOutbox) :
    (pc.op env fresh).All fun p => p.holding ⊆ pc.holding := by
  cases hdispatching : pc.dispatching with
  | false =>
    exact Op.All.mono (all_idle hdispatching hclaim) fun p hp => by
      rw [holding_eq_nil hp]
      exact List.nil_subset _
  | true =>
    cases pc with
    | publish claimed => exact holding_publishNext claimed
    | push T raw c rest =>
      intro x
      have htail : rest.map Prod.fst ⊆ T :: rest.map Prod.fst := List.subset_cons_self _ _
      cases x with
      | ok reply => exact fun U hU => hU
      | error exc => exact List.Subset.trans holding_publishFailed htail
    | mark T c rest =>
      intro x
      have htail : rest.map Prod.fst ⊆ T :: rest.map Prod.fst := List.subset_cons_self _ _
      cases x with
      | ok reply => exact htail
      | error exc => exact List.Subset.trans holding_publishFailed htail
    | noteError T c exc rest =>
      intro x
      cases x with
      | ok reply => exact fun U hU => hU
      | error exc =>
        simp only
        split
        · exact fun U hU => hU
        · exact List.nil_subset _
    | _ => cases hdispatching

/-- What a claim gives to hold has a row. -/
theorem outbox_of_claimed {w : ℕ} {fresh : Uuid} {outcome : Outcome}
    (hstep : step env s (.work w fresh outcome) = some s') (hw : s.workers w = .claimOutbox) :
    ∀ T ∈ (s'.workers w).holding, ∃ o, s.outbox T = some o := by
  have hperform := (step_work hstep).1
  rw [hw] at hperform
  have hfailed : ∀ exc : PyExc, (if exc.isPsycopg then Pc.cleanupDue else Pc.down).holding = [] := by
    intro exc
    split <;> rfl
  intro T hT
  cases outcome with
  | done =>
    have hpc := (Prod.mk.inj (Option.some.inj hperform)).2
    rw [← hpc] at hT
    obtain ⟨⟨T', p, c⟩, he, rfl⟩ := List.mem_map.mp hT
    have hclaim : (T', p, c) ∈ (Action.work w fresh .done).claims env s := by
      have htx : (Action.work w fresh .done).tx? env s = some (.claimPendingOutbox fresh) := by
        rw [Action.tx?, hw]
        rfl
      rw [Action.claims, htx]
      exact he
    obtain ⟨o, ho, -⟩ := step_claims hstep hclaim
    exact ⟨o, ho⟩
  | lost exc =>
    rw [← (Prod.mk.inj (Option.some.inj hperform)).2] at hT
    rw [show _ = [] from hfailed exc] at hT
    cases hT
  | refused exc =>
    rw [← (Prod.mk.inj (Option.some.inj hperform)).2] at hT
    rw [show _ = [] from hfailed exc] at hT
    cases hT
  | due b => cases hperform
  | responded body => cases hperform
  | raised exc => cases hperform

/-- In every reachable state what waits for its delivery was recorded. -/
theorem run_fromRecords (run : (system env).Run h s) : FromRecords env h s := by
  induction run with
  | start =>
    constructor
    · intro T o ho
      cases ho
    · intro w T hT
      cases hT
  | @step h s s' a run hstep ih =>
    have later : recorded env h ⊆ recorded env ((s, a) :: h) := by
      intro T hT
      unfold recorded at hT ⊢
      rw [List.filterMap_cons]
      split
      · exact hT
      · exact List.mem_cons_of_mem _ hT
    constructor
    · intro T o ho
      rcases step_outbox hstep T with heq | ⟨tx, htx, hmove⟩
      · exact later (ih.outbox T o (heq ▸ ho))
      · generalize hold : s.outbox T = old at hmove
        rw [ho] at hmove
        cases hmove with
        | insert =>
          have hrecords : a.records env s = some T := by rw [Action.records, htx]
          simp [recorded, hrecords]
        | keep => exact later (ih.outbox T _ hold)
        | claim => exact later (ih.outbox T _ hold)
        | deliver => exact later (ih.outbox T _ hold)
        | note => exact later (ih.outbox T _ hold)
    · intro w T hT
      cases step_worker hstep w with
      | stay _ hsame => exact later (ih.holding w T (hsame ▸ hT))
      | start hstart => rw [hstart] at hT; cases hT
      | crash hcrash => rw [hcrash] at hT; cases hT
      | @work fresh outcome hperform =>
        by_cases hclaim : s.workers w = .claimOutbox
        · obtain ⟨o, ho⟩ := outbox_of_claimed hstep hclaim T hT
          exact later (ih.outbox T o ho)
        · have hsubset : (s'.workers w).holding ⊆ (s.workers w).holding :=
            (perform_cases hperform).2.2 (fun _ p => p.holding ⊆ (s.workers w).holding)
              ((all_holding hclaim).wp fun _ _ hp => hp)
          exact later (ih.holding w T (hsubset hT))

/-- A command lengthens the task list by a push or a requeue, by one. -/
theorem tasks_length_le (r : Redis) (cmd : Command) : (cmd.exec r).1.tasks.length ≤ r.tasks.length ∨
    (cmd.exec r).1.tasks.length = r.tasks.length + 1 ∧
      ((∃ raw, cmd = .rpushTasks raw) ∨ ∃ raw, cmd = .requeueStaleDelivery raw) := by
  cases cmd with
  | rpushTasks raw => exact Or.inr ⟨List.length_append, Or.inl ⟨raw, rfl⟩⟩
  | blmove =>
    left
    simp only [Command.exec]
    split
    · exact le_rfl
    · next raw rest hlist => rw [hlist]; exact Nat.le_succ _
  | requeueStaleDelivery raw =>
    simp only [Command.exec]
    split
    · exact Or.inr ⟨rfl, Or.inr ⟨raw, rfl⟩⟩
    · exact Or.inl le_rfl
  | deadLetterProcessingDelivery raw =>
    left
    simp only [Command.exec]
    split <;> exact le_rfl
  | _ => exact Or.inl le_rfl

/-- Undisturbed, the list only grows by the push of a task. -/
theorem step_tasks_length (hstep : step env s a = some s') (hquiet : Undisturbed env s a) :
    s'.store.redis.tasks.length ≤ s.store.redis.tasks.length ∨
      s'.store.redis.tasks.length = s.store.redis.tasks.length + 1 ∧
        ∃ w T, a.pushes env s = some T ∧ T ∈ (s.workers w).holding := by
  rw [(step_store hstep).2]
  cases hcmd : a.cmd? env s with
  | none => exact Or.inl le_rfl
  | some cmd =>
    rcases tasks_length_le s.store.redis cmd with hle | ⟨heq, ⟨raw, rfl⟩ | ⟨raw, rfl⟩⟩
    · exact Or.inl hle
    · refine Or.inr ⟨heq, ?_⟩
      rcases Action.cmd?_eq_some hcmd with ⟨w, fresh, outcome, rfl, hpc⟩ | hread | ⟨raw', rfl, -⟩
      · cases hw : s.workers w <;> rw [hw] at hpc <;> cases hpc
        next T c rest =>
        refine ⟨w, T, ?_, by rw [hw]; exact List.mem_cons_self⟩
        simp [Action.pushes, hw, hcmd]
      · cases hread
      · cases hquiet.1
    · have hnone := hquiet.2
      rw [hcmd] at hnone
      cases hnone

/-- A step that pushes records nothing. -/
theorem records_of_pushes {T : Uuid} (hpushes : a.pushes env s = some T) : a.records env s = none := by
  cases a with
  | work w fresh outcome =>
    simp only [Action.pushes] at hpushes
    split at hpushes
    · next id raw c rest hw =>
      have htx : (Action.work w fresh outcome).tx? env s = none := by
        rw [Action.tx?, hw]
        cases outcome <;> rfl
      rw [Action.records, htx]
    · cases hpushes
  | _ => cases hpushes

/-- **The capacity of the queue.** Without another producer and without recovery, in every run that
records a task only while the list has room for it and for all that still waits, and that pushes no
payload twice, the task list never exceeds its capacity. -/
theorem capacity_kept (run : (system env).Run h s) (hquiet : System.AllSteps (Undisturbed env) h)
    (hreserves : System.Always (Reserves env) h) : s.store.redis.tasks.length ≤ env.config.maxQueueDepth := by
  have hroom : s.store.redis.tasks.length + (unpushed env h).length ≤ env.config.maxQueueDepth := by
    induction run with
    | start => exact Nat.zero_le _
    | @step h s s' a run hstep ih =>
      rw [System.allSteps_cons] at hquiet
      have hbefore := ih hquiet.2 hreserves.2
      cases hpushes : a.pushes env s with
      | none =>
        have hsame : pushed env ((s, a) :: h) = pushed env h := by simp [pushed, hpushes]
        have hle : s'.store.redis.tasks.length ≤ s.store.redis.tasks.length := by
          rcases step_tasks_length hstep hquiet.1 with hle | ⟨-, w, T, hsome, -⟩
          · exact hle
          · rw [hpushes] at hsome
            cases hsome
        cases hrecords : a.records env s with
        | none =>
          have hrecorded : recorded env ((s, a) :: h) = recorded env h := by simp [recorded, hrecords]
          rw [unpushed, hsame, hrecorded]
          exact (Nat.add_le_add_right hle _).trans hbefore
        | some T =>
          have hrecorded : recorded env ((s, a) :: h) = T :: recorded env h := by simp [recorded, hrecords]
          have hleft := hreserves.1.room (by rw [hrecords]; rfl)
          have hone : (unpushed env ((s, a) :: h)).length ≤ (unpushed env h).length + 1 := by
            rw [unpushed, hsame, hrecorded, List.filter_cons]
            split
            · exact le_rfl
            · exact Nat.le_succ _
          omega
      | some T =>
        have hcons : pushed env ((s, a) :: h) = T :: pushed env h := by simp [pushed, hpushes]
        have hrecorded : recorded env ((s, a) :: h) = recorded env h := by
          simp [recorded, records_of_pushes hpushes]
        -- the task that is pushed now was waiting until now
        have hwaiting : T ∈ recorded env h := by
          cases a with
          | work w fresh outcome =>
            simp only [Action.pushes] at hpushes
            split at hpushes
            · next id raw c rest hw =>
              obtain ⟨_, -, rfl⟩ := Option.map_eq_some_iff.mp hpushes
              exact (run_fromRecords run).holding w _ (by rw [hw]; exact List.mem_cons_self)
            · cases hpushes
          | _ => cases hpushes
        have hfewer : (unpushed env ((s, a) :: h)).length + 1 ≤ (unpushed env h).length := by
          have hmem : T ∈ unpushed env h :=
            List.mem_filter.mpr ⟨hwaiting, decide_eq_true (hreserves.1.once T hpushes)⟩
          have hfilter : unpushed env ((s, a) :: h) = (unpushed env h).filter fun U => decide (U ≠ T) := by
            rw [unpushed, hcons, hrecorded, unpushed, List.filter_filter]
            exact List.filter_congr fun U _ => by simp
          rw [hfilter]
          exact List.length_filter_lt_length_iff_exists.mpr ⟨T, hmem, by simp⟩
        rcases step_tasks_length hstep hquiet.1 with hle | ⟨heq, -⟩ <;> omega
  exact (Nat.le_add_right _ _).trans hroom

/-- The environment of an installation whose task list has room for one delivery. -/
def Sample.oneSlot : Env where
  config := Config.ofEnv none none none none none (some 1) none none none
  py := Sample.py
  driver := Sample.driver

/-- One request is recorded and pushed within the capacity. -/
theorem capacity_kept_dispatched :
    ∃ h s, (system Sample.oneSlot).Run h s ∧ pushed Sample.oneSlot h = [Sample.task] ∧
      s.store.redis.tasks.length ≤ 1 := by
  obtain ⟨h, s, run, htest⟩ := System.exists_run (system Sample.oneSlot)
    (Sample.submitted ++ Sample.publishing ++ [Sample.go 0 0])
    (fun h _ => decide (pushed Sample.oneSlot h = [Sample.task]) &&
      (decide (System.AllSteps (Undisturbed Sample.oneSlot) h) &&
        decide (System.Always (Reserves Sample.oneSlot) h))) (by decide +kernel)
  obtain ⟨hpushed, hguards⟩ := Bool.and_eq_true_iff.mp htest
  obtain ⟨hquiet, hreserves⟩ := Bool.and_eq_true_iff.mp hguards
  exact ⟨h, s, run, of_decide_eq_true hpushed,
    capacity_kept run (of_decide_eq_true hquiet) (of_decide_eq_true hreserves)⟩

/-- The push of a first request is refused, a second request finds the list empty and is pushed, and
after the claim term the first one is pushed too. Requests and outbox passes come one after another. -/
def Sample.sequential : List Action :=
  Sample.submitted ++ Sample.publishing ++
    [.work 0 0 (.refused (.redis (lit "ConnectionError"))), Sample.go 0 0, Sample.go 0 0] ++
    [.submit 0 Sample.request 0xB 0, .serve 0 .done, .serve 0 .done, .serve 0 .done] ++
    [.start 1, .work 1 0 (.due true), Sample.go 1 2] ++ List.replicate 4 (Sample.go 1 0) ++
    [.tick (seconds 91), .start 2, .work 2 0 (.due true), Sample.go 2 3, Sample.go 2 0, Sample.go 2 0]

/-- The outbox pushes beyond the capacity that each request found. -/
theorem capacity_exceeded :
    ¬ ∀ env h s, (system env).Run h s → System.AllSteps (Undisturbed env) h →
      s.store.redis.tasks.length ≤ env.config.maxQueueDepth := by
  obtain ⟨h, s, run, htest⟩ := System.exists_run (system Sample.oneSlot) Sample.sequential
    (fun h (s : State) => decide (System.AllSteps (Undisturbed Sample.oneSlot) h) &&
      decide (1 < s.store.redis.tasks.length)) (by decide +kernel)
  obtain ⟨hquiet, hlength⟩ := Bool.and_eq_true_iff.mp htest
  intro kept
  have hle := kept Sample.oneSlot h s run (of_decide_eq_true hquiet)
  exact absurd ((of_decide_eq_true hlength).trans_le hle) (Nat.lt_irrefl 1)

end NeuroLab.ControlPlane
