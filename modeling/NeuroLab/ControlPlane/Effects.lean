import NeuroLab.ControlPlane.Transactions

/-!
# What a transaction does to one task

What each transaction makes of the tables is said once, by inversion. Seen from one
task, every transaction either leaves the row alone or makes one of a few moves, and
the same holds of one attempt and of one receipt. The invariants of the control plane
are proved from these lemmas and from the exact effect of the transactions that link
the tables, without unfolding any transaction again.
-/

namespace NeuroLab.ControlPlane

open Python Common

/-! ## Statements seen through one key -/

namespace Database

variable (db : Database)

@[simp] theorem insertTask_tasks (row : TaskRow) (T : Uuid) :
    (db.insertTask row).tasks.find? T = (db.tasks.find? T).or (if row.id = T then some row else none) :=
  db.tasks.find?_insert row T

@[simp] theorem insertTask_attempts (row : TaskRow) : (db.insertTask row).attempts = db.attempts := rfl

@[simp] theorem insertTask_costs (row : TaskRow) : (db.insertTask row).costs = db.costs := rfl

@[simp] theorem insertTask_outbox (row : TaskRow) : (db.insertTask row).outbox = db.outbox := rfl

/-- An update of one task rewrites that row when it is selected. -/
theorem updateTask_tasks (id : Uuid) (sel : TaskRow → Bool) (set : TaskRow → TaskRow)
    (hset : ∀ r, (set r).id = r.id) (T : Uuid) :
    (db.updateTask id sel set hset).tasks.find? T =
      if T = id then (db.tasks.find? T).map fun r => if sel r then set r else r else db.tasks.find? T := by
  rw [updateTask, Table.find?_update]
  cases h : db.tasks.find? T with
  | none => simp
  | some r =>
    have hkey := Table.key_of_find? h
    by_cases hT : T = id <;> simp [hkey, hT]

@[simp] theorem updateTask_attempts (id : Uuid) (sel : TaskRow → Bool) (set : TaskRow → TaskRow)
    (hset : ∀ r, (set r).id = r.id) : (db.updateTask id sel set hset).attempts = db.attempts := rfl

@[simp] theorem updateTask_costs (id : Uuid) (sel : TaskRow → Bool) (set : TaskRow → TaskRow)
    (hset : ∀ r, (set r).id = r.id) : (db.updateTask id sel set hset).costs = db.costs := rfl

@[simp] theorem updateTask_outbox (id : Uuid) (sel : TaskRow → Bool) (set : TaskRow → TaskRow)
    (hset : ∀ r, (set r).id = r.id) : (db.updateTask id sel set hset).outbox = db.outbox := rfl

/-- Concluding an attempt rewrites that row while it is in flight. -/
theorem concludeAttempt_attempts (key : Uuid × Uuid) (status : AttemptStatus) (now : ℕ)
    (error : Option (Option Str)) (k : Uuid × Uuid) :
    (db.concludeAttempt key status now error).attempts.find? k =
      if k = key then (db.attempts.find? k).map fun r =>
        if r.status = .inflight then r.conclude status now error else r
      else db.attempts.find? k := by
  rw [concludeAttempt, Table.find?_update]
  cases h : db.attempts.find? k with
  | none => simp
  | some r =>
    have hkey := Table.key_of_find? h
    by_cases hk : k = key <;> simp [hkey, hk]

@[simp] theorem concludeAttempt_tasks (key : Uuid × Uuid) (status : AttemptStatus) (now : ℕ)
    (error : Option (Option Str)) : (db.concludeAttempt key status now error).tasks = db.tasks := rfl

@[simp] theorem concludeAttempt_costs (key : Uuid × Uuid) (status : AttemptStatus) (now : ℕ)
    (error : Option (Option Str)) : (db.concludeAttempt key status now error).costs = db.costs := rfl

@[simp] theorem concludeAttempt_outbox (key : Uuid × Uuid) (status : AttemptStatus) (now : ℕ)
    (error : Option (Option Str)) : (db.concludeAttempt key status now error).outbox = db.outbox := rfl

end Database

/-! ## The uncertain attempt -/

theorem latestStarted_mem {rows : List AttemptRow} {r : AttemptRow} (h : latestStarted rows = some r) :
    r ∈ rows := by
  induction rows generalizing r with
  | nil => cases h
  | cons a rows ih =>
    rw [latestStarted] at h
    split at h
    · cases h
      exact List.mem_cons_self
    · next r' hr' =>
      split at h
      · cases h
        exact List.mem_cons_of_mem a (ih hr')
      · cases h
        exact List.mem_cons_self

theorem latestStarted_eq_none {rows : List AttemptRow} (h : latestStarted rows = none) : rows = [] := by
  cases rows with
  | nil => rfl
  | cons a rows =>
    rw [latestStarted] at h
    split at h
    · cases h
    · split at h <;> cases h

/-- The uncertain attempt is an attempt of the task that is in flight. -/
theorem uncertainAttempt_eq_some {db : Database} {T : Uuid} {r : AttemptRow}
    (h : uncertainAttempt db T = some r) :
    db.attempts.find? (T, r.executionId) = some r ∧ r.status = .inflight := by
  obtain ⟨hmem, hsel⟩ := List.mem_filter.mp (latestStarted_mem h)
  simp only [Bool.and_eq_true, decide_eq_true_eq] at hsel
  obtain ⟨rfl, hstatus⟩ := hsel
  exact ⟨(db.attempts.mem_rows_iff r).mp hmem, hstatus⟩

/-- There is an uncertain attempt as soon as some attempt is in flight. -/
theorem uncertainAttempt_eq_none_iff (db : Database) (T : Uuid) :
    uncertainAttempt db T = none ↔
      ∀ E a, db.attempts.find? (T, E) = some a → a.status ≠ .inflight := by
  constructor
  · intro h E a ha hstatus
    have hkey := Table.key_of_find? ha
    have hmem := ((db.attempts.find?_eq_some_iff _ _).mp ha).1
    have hnil := latestStarted_eq_none h
    rw [List.filter_eq_nil_iff] at hnil
    exact hnil a hmem (by simp [hstatus, (Prod.mk.inj hkey).1])
  · intro h
    cases hr : uncertainAttempt db T with
    | none => rfl
    | some r =>
      obtain ⟨hfind, hstatus⟩ := uncertainAttempt_eq_some hr
      exact absurd hstatus (h _ _ hfind)

/-! ## Tasks -/

/-- A row as an `INSERT INTO tasks` creates it. -/
structure Unclaimed (r : TaskRow) : Prop where
  queued : r.status = .queued
  startedAt : r.startedAt = none
  executionId : r.executionId = none
  result : r.result = none

/-- The row an `INSERT ... ON CONFLICT DO NOTHING` leaves to the statements after it. -/
inductive Offered (old : Option TaskRow) (r : TaskRow) : Prop
  | stored (h : old = some r)
  | created (h : old = none) (unclaimed : Unclaimed r)

/-- The moves of the row of task `T` in one transaction stamped `now`. -/
inductive TaskStep (env : Env) (now : ℕ) (T : Uuid) : Tx → Option TaskRow → Option TaskRow → Prop
  | keep {tx : Tx} (old : Option TaskRow) : TaskStep env now T tx old old
  | create {tx : Tx} {r : TaskRow} : Unclaimed r → TaskStep env now T tx none (some r)
  | lease {taskId : Json} {payload : Fields} {E : Uuid} {old : Option TaskRow} {r : TaskRow} :
      env.driver.uuid taskId = some T → Offered old r → r.status = .queued →
      TaskStep env now T (.claimTask taskId payload E) old (some (r.lease now E))
  | block {taskId : Json} {payload : Fields} {E : Uuid} {old : Option TaskRow} {r : TaskRow} :
      Offered old r → r.status = .queued →
      TaskStep env now T (.claimTask taskId payload E) old (some (r.fail now uncertainMessage))
  | release {payload : Fields} {r : TaskRow} : recoverable env.config now r →
      TaskStep env now T (.recover T payload) (some r) (some r.release)
  | succeed {E : Uuid} {c : Completion} {r : TaskRow} (model : Option Str) (result : Json) :
      leasedBy E r → TaskStep env now T (.recordCompletion T E c) (some r) (some (r.succeed now model result))
  | fail {E : Uuid} {exc : PyExc} {r : TaskRow} (message : Option Str) :
      leasedBy E r → TaskStep env now T (.recordFailed T E exc) (some r) (some (r.fail now message))
  | reap {observed : List Uuid} {r : TaskRow} : orphaned env.config now r → T ∉ observed →
      TaskStep env now T (.reap observed) (some r) (some (r.fail now orphanedMessage))

/-- An inserted row is unclaimed. -/
theorem newTask_unclaimed {env : Env} {now : ℕ} {taskId : Json} {payload : Fields} {row : TaskRow}
    (h : newTask env now taskId payload = some row) : Unclaimed row :=
  have h := newTask_eq_some h
  ⟨h.2.1, h.2.2.2.1, h.2.2.2.2.1, h.2.2.2.2.2⟩

/-- A row inserted under the text of an id has that id. -/
theorem newTask_id {env : Env} {now : ℕ} {T : Uuid} {payload : Fields} {row : TaskRow}
    (h : newTask env now (.str (uuidText T)) payload = some row) : row.id = T := by
  have huuid := (newTask_eq_some h).1
  rw [env.driver.uuid_uuidText] at huuid
  exact (Option.some.inj huuid).symm

/-- What the insertion offers under the id of its row. -/
theorem Offered.of_insert {db : Database} {row : TaskRow} (h : Unclaimed row) {r : TaskRow}
    (hr : (db.insertTask row).tasks.find? row.id = some r) : Offered (db.tasks.find? row.id) r := by
  rw [Database.insertTask_tasks, if_pos rfl] at hr
  cases hold : db.tasks.find? row.id with
  | none =>
    rw [hold] at hr
    cases hr
    exact .created rfl h
  | some r' =>
    rw [hold] at hr
    cases hr
    exact .stored rfl

/-- After the insertion the row is there. -/
theorem insertTask_isSome (db : Database) (row : TaskRow) :
    ∃ r, (db.insertTask row).tasks.find? row.id = some r := by
  rw [Database.insertTask_tasks, if_pos rfl]
  cases db.tasks.find? row.id with
  | none => exact ⟨_, rfl⟩
  | some r => exact ⟨r, rfl⟩

/-- Other tasks do not see an insertion. -/
theorem insertTask_of_ne (db : Database) {row : TaskRow} {T : Uuid} (h : row.id ≠ T) :
    (db.insertTask row).tasks.find? T = db.tasks.find? T := by
  rw [Database.insertTask_tasks, if_neg h, Option.or_none]

/-- An insertion that is not followed up keeps the row or creates it. -/
theorem TaskStep.of_insert {env : Env} {now : ℕ} {tx : Tx} {db : Database} {row : TaskRow}
    (h : Unclaimed row) (T : Uuid) :
    TaskStep env now T tx (db.tasks.find? T) ((db.insertTask row).tasks.find? T) := by
  by_cases hT : row.id = T
  · subst hT
    obtain ⟨r, hr⟩ := insertTask_isSome db row
    rw [hr]
    cases Offered.of_insert h hr with
    | stored hold =>
      rw [hold]
      exact .keep _
    | created hold unclaimed =>
      rw [hold]
      exact .create unclaimed
  · rw [insertTask_of_ne db hT]
    exact .keep _

/-- `claim_task` where an attempt of the task is in flight. -/
theorem claimRow_of_uncertain (now : ℕ) {row : TaskRow} (E : Uuid) {db : Database} {a : AttemptRow}
    (h : uncertainAttempt db row.id = some a) :
    claimRow now row E db = (((db.insertTask row).updateTask row.id isQueued
      (TaskRow.fail now uncertainMessage) (TaskRow.fail_id now uncertainMessage)).concludeAttempt
        (row.id, a.executionId) .outcomeUnknown now none, none) := by
  have h' : uncertainAttempt (db.insertTask row) row.id = some a := h
  simp only [claimRow, h']

/-- `claim_task` where no attempt of the task is in flight. -/
theorem claimRow_of_certain (now : ℕ) {row : TaskRow} (E : Uuid) {db : Database}
    (h : uncertainAttempt db row.id = none) :
    claimRow now row E db = ((db.insertTask row).updateTask row.id isQueued (TaskRow.lease now E)
      (TaskRow.lease_id now E),
      if (db.insertTask row).taskMatches row.id isQueued then some (row.id, E) else none) := by
  have h' : uncertainAttempt (db.insertTask row) row.id = none := h
  simp only [claimRow, h']

/-- The moves of `claim_task`. -/
theorem claimRow_task {env : Env} {now : ℕ} {taskId : Json} {payload : Fields} {E : Uuid} {row : TaskRow}
    (hid : env.driver.uuid taskId = some row.id) (h : Unclaimed row) (db : Database) (T : Uuid) :
    TaskStep env now T (.claimTask taskId payload E) (db.tasks.find? T)
      ((claimRow now row E db).1.tasks.find? T) := by
  by_cases hT : row.id = T
  · subst hT
    obtain ⟨r, hr⟩ := insertTask_isSome db row
    have hoffer := Offered.of_insert h hr
    have hkept : ¬ isQueued r = true → TaskStep env now row.id (.claimTask taskId payload E)
        (db.tasks.find? row.id) (some r) := by
      intro hq
      cases hoffer with
      | stored hold =>
        rw [hold]
        exact .keep _
      | created _ unclaimed => exact absurd (by simp [isQueued, unclaimed.queued]) hq
    cases hu : uncertainAttempt db row.id with
    | some a =>
      rw [claimRow_of_uncertain now E hu]
      simp only [Database.concludeAttempt_tasks, Database.updateTask_tasks, if_true, hr, Option.map_some]
      by_cases hq : isQueued r = true
      · rw [if_pos hq]
        exact .block hoffer (by simpa [isQueued] using hq)
      · rw [if_neg hq]
        exact hkept hq
    | none =>
      rw [claimRow_of_certain now E hu]
      simp only [Database.updateTask_tasks, if_true, hr, Option.map_some]
      by_cases hq : isQueued r = true
      · rw [if_pos hq]
        exact .lease hid hoffer (by simpa [isQueued] using hq)
      · rw [if_neg hq]
        exact hkept hq
  · have hsame : (claimRow now row E db).1.tasks.find? T = db.tasks.find? T := by
      have hT' : T ≠ row.id := Ne.symm hT
      cases hu : uncertainAttempt db row.id with
      | some a => simp [claimRow_of_uncertain now E hu, Database.updateTask_tasks, hT, hT']
      | none => simp [claimRow_of_certain now E hu, Database.updateTask_tasks, hT, hT']
    rw [hsame]
    exact .keep _

/-- The moves of the recovery transaction. -/
theorem recoverRow_task {env : Env} {now : ℕ} {payload : Fields} {row : TaskRow} (h : Unclaimed row)
    (db : Database) (T : Uuid) :
    TaskStep env now T (.recover row.id payload) (db.tasks.find? T)
      ((recoverRow env.config now row db).1.tasks.find? T) := by
  unfold recoverRow
  split
  · exact .of_insert h T
  · rw [Database.updateTask_tasks]
    split
    · next hT =>
      subst hT
      cases hr : db.tasks.find? row.id with
      | none => exact .keep none
      | some r =>
        rw [Option.map_some]
        split
        · next hsel => exact .release hsel
        · exact .keep _
    · exact .keep _

/-- An update of one task makes the move of its selected row, or none. -/
theorem TaskStep.of_update {env : Env} {now : ℕ} {tx : Tx} {db : Database} {id : Uuid}
    {sel : TaskRow → Bool} {set : TaskRow → TaskRow} (hset : ∀ r, (set r).id = r.id)
    (move : ∀ r, sel r = true → TaskStep env now id tx (some r) (some (set r))) (T : Uuid) :
    TaskStep env now T tx (db.tasks.find? T) ((db.updateTask id sel set hset).tasks.find? T) := by
  rw [Database.updateTask_tasks]
  split
  · next hT =>
    subst hT
    cases hr : db.tasks.find? T with
    | none => exact .keep none
    | some r =>
      rw [Option.map_some]
      split
      · next hsel => exact move r hsel
      · exact .keep _
  · exact .keep _

/-- The updates of the reaper, over the candidates still to visit. -/
theorem foldl_reapTask (config : Config) (now : ℕ) (observed candidates : List Uuid) (db : Database)
    (T : Uuid) :
    (candidates.foldl (fun db id => if id ∈ observed then db else reapTask config now db id) db).tasks.find? T =
      if T ∈ candidates ∧ T ∉ observed then (db.tasks.find? T).map fun r =>
        if orphaned config now r then r.fail now orphanedMessage else r
      else db.tasks.find? T := by
  induction candidates generalizing db with
  | nil => simp
  | cons id candidates ih =>
    rw [List.foldl_cons, ih]
    by_cases hseen : id ∈ observed
    · rw [if_pos hseen]
      have hne : ¬ T ∈ observed → T ≠ id := fun h hT => h (hT ▸ hseen)
      by_cases hT : T ∈ observed
      · simp [hT]
      · simp [hT, hne hT]
    · rw [if_neg hseen, reapTask, Database.updateTask_tasks]
      by_cases hT : T = id
      · subst hT
        -- a row failed by an earlier visit is no longer selected by a later one
        have hdone : ∀ r : TaskRow, orphaned config now (r.fail now orphanedMessage) = false := by
          intro r
          simp [orphaned, isQueued, TaskRow.fail]
        simp only [if_true, hseen, not_false_eq_true, and_true, List.mem_cons, true_or]
        cases db.tasks.find? T with
        | none => simp
        | some r =>
          by_cases hr : orphaned config now r = true
          · simp [hr, hdone]
          · simp [hr]
      · simp [hT]

/-- The exact effect of the reaper: every orphaned row is failed unless it was observed. -/
theorem reap_tasks (config : Config) (now : ℕ) (observed : List Uuid) (db : Database) (T : Uuid) :
    (reap config now observed db).tasks.find? T = (db.tasks.find? T).map fun r =>
      if orphaned config now r && decide (T ∉ observed) then r.fail now orphanedMessage else r := by
  rw [reap, foldl_reapTask]
  cases hr : db.tasks.find? T with
  | none => simp
  | some r =>
    obtain ⟨hmem, hkey⟩ := (db.tasks.find?_eq_some_iff T r).mp hr
    by_cases horphan : orphaned config now r = true
    · have hcandidate : T ∈ (db.tasks.rows.filter (orphaned config now)).map TaskRow.id :=
        List.mem_map.mpr ⟨r, List.mem_filter.mpr ⟨hmem, horphan⟩, hkey⟩
      by_cases hseen : T ∈ observed <;> simp [hcandidate, hseen, horphan]
    · simp [horphan]

/-- The reaper leaves the other tables alone. -/
theorem reap_frame (config : Config) (now : ℕ) (observed : List Uuid) (db : Database) :
    (reap config now observed db).attempts = db.attempts ∧
      (reap config now observed db).costs = db.costs ∧ (reap config now observed db).outbox = db.outbox := by
  unfold reap
  generalize (db.tasks.rows.filter (orphaned config now)).map TaskRow.id = candidates
  induction candidates generalizing db with
  | nil => exact ⟨rfl, rfl, rfl⟩
  | cons id candidates ih =>
    rw [List.foldl_cons]
    split
    · exact ih db
    · exact ih (reapTask config now db id)

/-- A receipt is written under the lease it is for. -/
theorem newReceipt_key {env : Env} {now : ℕ} {T E : Uuid} {c : Completion} {receipt : CostRow} {result : Json}
    (h : newReceipt env now T E c = some (receipt, result)) : receipt.taskId = T ∧ receipt.executionId = E := by
  simp only [newReceipt, Option.bind_eq_bind, Option.bind_eq_some_iff] at h
  obtain ⟨usage, -, model, -, input, -, output, -, amount, -, raw, -, stored, -, h⟩ := h
  split at h
  · cases h
    exact ⟨rfl, rfl⟩
  · cases h

/-! ## What each transaction does -/

/-- What a transaction stamped `now` that goes through makes of the tables, and its answer. -/
inductive Performed (env : Env) (now : ℕ) (db : Database) : Tx → Database → Reply → Prop
  | claimTask {taskId : Json} {payload : Fields} {X : Uuid} {row : TaskRow} (hrow : newTask env now taskId payload = some row) :
    Performed env now db (.claimTask taskId payload X) (claimRow now row X db).1 (.lease (claimRow now row X db).2)
  | recordProviderAttempt {T E : Uuid} {payload : Fields} {a : AttemptRow} (ha : newAttempt env now T E payload = some a)
    (hstored : ((db.attempts.find? a.key).isNone && (db.tasks.find? T).isNone) = false) :
    Performed env now db (.recordProviderAttempt T E payload) { db with attempts := db.attempts.insert a } .done
  | recordCompletion {T E : Uuid} {c : Completion} {receipt : CostRow} {result : Json}
    (hreceipt : newReceipt env now T E c = some (receipt, result))
    (hstored : ((db.costs.find? receipt.key).isNone && (db.tasks.find? T).isNone) = false) :
    Performed env now db (.recordCompletion T E c) (completeRow now receipt result db) .done
  | recordFailed {T E : Uuid} {exc : PyExc} {message : Option Str}
    (hmessage : env.driver.text (.str (safeErrorMessage exc)) = some message) :
    Performed env now db (.recordFailed T E exc) (failRow now T E message db) .done
  | recover {T : Uuid} {payload : Fields} {row : TaskRow} (hrow : newTask env now (.str (uuidText T)) payload = some row) :
    Performed env now db (.recover T payload) (recoverRow env.config now row db).1
      (.recovery (recoverRow env.config now row db).2.1 (recoverRow env.config now row db).2.2)
  | reap {observed : List Uuid} : Performed env now db (.reap observed) (reap env.config now observed db) .done
  | claimPendingOutbox {claimId : Uuid} :
    Performed env now db (.claimPendingOutbox claimId) (claimPendingOutbox env.config now claimId db).1
      (.claimed (claimPendingOutbox env.config now claimId db).2)
  | markOutboxDelivered {T claimId : Uuid} :
    Performed env now db (.markOutboxDelivered T claimId) (markOutboxDelivered now T claimId db) .done
  | recordOutboxDeliveryError {T claimId : Uuid} {exc : PyExc} :
    Performed env now db (.recordOutboxDeliveryError T claimId exc) (recordOutboxDeliveryError T claimId exc db) .done
  | cleanupTerminalOutbox : Performed env now db .cleanupTerminalOutbox (cleanupTerminalOutbox env.config now db) .done
  | dailyLaneTaskCount {lane : Str} : Performed env now db (.dailyLaneTaskCount lane) db (.count (dailyLaneTaskCount now lane db))
  | recordQueuedTask {T : Uuid} {payload : Fields} {row : TaskRow} {stored : Json}
    (hrow : newTask env now (.str (uuidText T)) payload = some row) (hpayload : env.jsonb (.obj payload) = some stored) :
    Performed env now db (.recordQueuedTask T payload)
      { db.insertTask row with
        outbox := db.outbox.insert {
          taskId := T, payload := stored, createdAt := now, deliveredAt := none, deliveryClaimId := none,
          deliveryClaimedAt := none, deliveryAttempts := 0, lastError := none } }
      .done

/-- A transaction that goes through does one of these. -/
theorem Performed.of_exec {env : Env} {now : ℕ} {db db' : Database} {tx : Tx} {reply : Reply}
    (h : tx.exec env now db = some (db', reply)) : Performed env now db tx db' reply := by
  cases tx with
  | claimTask taskId payload E =>
    obtain ⟨_, hclaim, heq⟩ := Option.map_eq_some_iff.mp h
    obtain ⟨row, hrow, rfl⟩ := Option.map_eq_some_iff.mp hclaim
    cases heq
    exact .claimTask hrow
  | recordProviderAttempt T E payload =>
    obtain ⟨_, hrecord, heq⟩ := Option.map_eq_some_iff.mp h
    obtain ⟨a, ha, hinsert⟩ := Option.bind_eq_some_iff.mp hrecord
    split at hinsert
    · cases hinsert
    next hstored =>
      cases hinsert
      cases heq
      exact .recordProviderAttempt ha ((Bool.not_eq_true _).mp hstored)
  | recordCompletion T E c =>
    obtain ⟨_, hrecord, heq⟩ := Option.map_eq_some_iff.mp h
    obtain ⟨⟨receipt, result⟩, hreceipt, hcomplete⟩ := Option.bind_eq_some_iff.mp hrecord
    change (if _ then none else some _) = _ at hcomplete
    split at hcomplete
    · cases hcomplete
    next hstored =>
      cases hcomplete
      cases heq
      exact .recordCompletion hreceipt ((Bool.not_eq_true _).mp hstored)
  | recordFailed T E exc =>
    obtain ⟨_, hrecord, heq⟩ := Option.map_eq_some_iff.mp h
    obtain ⟨message, hmessage, rfl⟩ := Option.map_eq_some_iff.mp hrecord
    cases heq
    exact .recordFailed hmessage
  | recover T payload =>
    obtain ⟨_, hrecover, heq⟩ := Option.map_eq_some_iff.mp h
    obtain ⟨row, hrow, rfl⟩ := Option.map_eq_some_iff.mp hrecover
    cases heq
    exact .recover hrow
  | reap observed => cases h; exact .reap
  | claimPendingOutbox claimId => cases h; exact .claimPendingOutbox
  | markOutboxDelivered T claimId => cases h; exact .markOutboxDelivered
  | recordOutboxDeliveryError T claimId exc => cases h; exact .recordOutboxDeliveryError
  | cleanupTerminalOutbox => cases h; exact .cleanupTerminalOutbox
  | dailyLaneTaskCount lane => cases h; exact .dailyLaneTaskCount
  | recordQueuedTask T payload =>
    obtain ⟨_, hrecord, heq⟩ := Option.map_eq_some_iff.mp h
    obtain ⟨row, hrow, hrest⟩ := Option.bind_eq_some_iff.mp hrecord
    obtain ⟨stored, hpayload, hdb⟩ := Option.bind_eq_some_iff.mp hrest
    cases hdb
    cases heq
    exact .recordQueuedTask hrow hpayload

/-- Every transaction makes at most one move on the row of a task. -/
theorem exec_task {env : Env} {now : ℕ} {db db' : Database} {tx : Tx} {reply : Reply}
    (h : tx.exec env now db = some (db', reply)) (T : Uuid) :
    TaskStep env now T tx (db.tasks.find? T) (db'.tasks.find? T) := by
  cases Performed.of_exec h with
  | claimTask hrow => exact claimRow_task (newTask_eq_some hrow).1 (newTask_unclaimed hrow) db T
  | @recordCompletion _ _ c receipt result hreceipt =>
    obtain ⟨rfl, rfl⟩ := newReceipt_key hreceipt
    exact .of_update (TaskRow.succeed_id now receipt.model result) (fun r hr => .succeed receipt.model result hr) T
  | @recordFailed id E exc message => exact .of_update (TaskRow.fail_id now message) (fun r hr => .fail message hr) T
  | @recover id payload row hrow =>
    obtain rfl : row.id = id := newTask_id hrow
    exact recoverRow_task (newTask_unclaimed hrow) db T
  | reap =>
    rw [reap_tasks]
    cases db.tasks.find? T with
    | none => exact .keep none
    | some r =>
      rw [Option.map_some]
      split
      · next hsel =>
        simp only [Bool.and_eq_true, decide_eq_true_eq] at hsel
        exact .reap hsel.1 hsel.2
      · exact .keep _
  | recordQueuedTask hrow => exact .of_insert (newTask_unclaimed hrow) T
  | _ => exact .keep _

/-! ## Attempts -/

/-- The moves of the attempt of lease `(T, E)` in one transaction stamped `now`. -/
inductive AttemptStep (env : Env) (now : ℕ) (T E : Uuid) : Tx → Option AttemptRow → Option AttemptRow → Prop
  | keep {tx : Tx} (old : Option AttemptRow) : AttemptStep env now T E tx old old
  | start {payload : Fields} {a : AttemptRow} : a.key = (T, E) → a.status = .inflight →
      AttemptStep env now T E (.recordProviderAttempt T E payload) none (some a)
  | doubt {taskId : Json} {payload : Fields} {X : Uuid} {a : AttemptRow} :
      env.driver.uuid taskId = some T → a.status = .inflight →
      AttemptStep env now T E (.claimTask taskId payload X) (some a)
        (some (a.conclude .outcomeUnknown now none))
  | complete {c : Completion} {a : AttemptRow} : a.status = .inflight →
      AttemptStep env now T E (.recordCompletion T E c) (some a) (some (a.conclude .completed now none))
  | fail {exc : PyExc} {a : AttemptRow} (message : Option Str) : a.status = .inflight →
      AttemptStep env now T E (.recordFailed T E exc) (some a) (some (a.conclude .failed now (some message)))

/-- Concluding an attempt makes the move of its row while that is in flight, or none. -/
theorem AttemptStep.of_conclude {env : Env} {now : ℕ} {tx : Tx} (db : Database) {U X : Uuid}
    {status : AttemptStatus} {error : Option (Option Str)}
    (move : ∀ a : AttemptRow, a.status = .inflight →
      AttemptStep env now U X tx (some a) (some (a.conclude status now error))) (T E : Uuid) :
    AttemptStep env now T E tx (db.attempts.find? (T, E))
      ((db.concludeAttempt (U, X) status now error).attempts.find? (T, E)) := by
  rw [Database.concludeAttempt_attempts]
  split
  · next hkey =>
    obtain ⟨rfl, rfl⟩ := Prod.mk.inj hkey
    cases ha : db.attempts.find? (T, E) with
    | none => exact .keep none
    | some a =>
      rw [Option.map_some]
      split
      · next hstatus => exact move a hstatus
      · exact .keep _
  · exact .keep _

/-- The row `record_provider_attempt` offers is an attempt in flight under its lease. -/
theorem newAttempt_eq_some {env : Env} {now : ℕ} {T E : Uuid} {payload : Fields} {a : AttemptRow}
    (h : newAttempt env now T E payload = some a) : a.key = (T, E) ∧ a.status = .inflight := by
  simp only [newAttempt, Option.bind_eq_bind, Option.bind_eq_some_iff] at h
  obtain ⟨_, -, provider, -, model, -, lane, -, h⟩ := h
  cases h
  exact ⟨rfl, rfl⟩

/-- Every transaction makes at most one move on an attempt. -/
theorem exec_attempt {env : Env} {now : ℕ} {db db' : Database} {tx : Tx} {reply : Reply}
    (h : tx.exec env now db = some (db', reply)) (T E : Uuid) :
    AttemptStep env now T E tx (db.attempts.find? (T, E)) (db'.attempts.find? (T, E)) := by
  cases Performed.of_exec h with
  | @claimTask taskId payload X row hrow =>
    cases hu : uncertainAttempt db row.id with
    | some a =>
      rw [claimRow_of_uncertain now X hu]
      exact .of_conclude _ (fun a ha => .doubt (newTask_eq_some hrow).1 ha) T E
    | none =>
      rw [claimRow_of_certain now X hu]
      exact .keep _
  | recordProviderAttempt ha =>
    obtain ⟨hkey, hstatus⟩ := newAttempt_eq_some ha
    simp only [Table.find?_insert, hkey]
    cases hold : db.attempts.find? (T, E) with
    | some old => exact .keep _
    | none =>
      rw [Option.none_or]
      split
      · next hlease =>
        obtain ⟨rfl, rfl⟩ := Prod.mk.inj hlease
        exact .start hkey hstatus
      · exact .keep none
  | recordCompletion hreceipt =>
    obtain ⟨rfl, rfl⟩ := newReceipt_key hreceipt
    exact .of_conclude _ (fun a ha => .complete ha) T E
  | @recordFailed id X exc message => exact .of_conclude _ (fun a ha => .fail message ha) T E
  | recover =>
    unfold recoverRow
    split <;> exact .keep _
  | @reap observed =>
    rw [(reap_frame env.config now observed db).1]
    exact .keep _
  | _ => exact .keep _

/-! ## Receipts -/

/-- The moves of the receipt of lease `(T, E)` in one transaction. -/
inductive CostStep (T E : Uuid) : Tx → Option CostRow → Option CostRow → Prop
  | keep {tx : Tx} (old : Option CostRow) : CostStep T E tx old old
  | write {c : Completion} {row : CostRow} : CostStep T E (.recordCompletion T E c) none (some row)

/-- Only a completion writes a receipt, and none is ever changed or removed. -/
theorem exec_cost {env : Env} {now : ℕ} {db db' : Database} {tx : Tx} {reply : Reply}
    (h : tx.exec env now db = some (db', reply)) (T E : Uuid) :
    CostStep T E tx (db.costs.find? (T, E)) (db'.costs.find? (T, E)) := by
  cases Performed.of_exec h with
  | @claimTask taskId payload X row =>
    cases hu : uncertainAttempt db row.id with
    | some a =>
      rw [claimRow_of_uncertain now X hu]
      exact .keep _
    | none =>
      rw [claimRow_of_certain now X hu]
      exact .keep _
  | @recordCompletion _ _ c receipt result hreceipt =>
    obtain ⟨rfl, rfl⟩ := newReceipt_key hreceipt
    change CostStep T E _ _ ((db.costs.insert receipt).find? (T, E))
    rw [Table.find?_insert]
    cases hold : db.costs.find? (T, E) with
    | some old => exact .keep _
    | none =>
      rw [Option.none_or]
      split
      · next hlease =>
        obtain ⟨rfl, rfl⟩ := Prod.mk.inj hlease
        exact .write
      · exact .keep none
  | recover =>
    unfold recoverRow
    split <;> exact .keep _
  | @reap observed =>
    rw [(reap_frame env.config now observed db).2.1]
    exact .keep _
  | _ => exact .keep _

/-! ## The transactions that link the tables -/

/-- Behind its receipt an attempt is in the table. -/
theorem exec_recordProviderAttempt {env : Env} {now : ℕ} {db db' : Database} {T E : Uuid} {payload : Fields}
    {reply : Reply} (h : (Tx.recordProviderAttempt T E payload).exec env now db = some (db', reply)) :
    (db'.attempts.find? (T, E)).isSome := by
  cases Performed.of_exec h with
  | @recordProviderAttempt _ _ _ a ha =>
    change ((db.attempts.insert a).find? (T, E)).isSome
    rw [Table.find?_insert, if_pos (newAttempt_eq_some ha).1]
    cases db.attempts.find? (T, E) <;> rfl

/-- A completion writes its receipt, settles the row if that is under its lease, and settles the
attempt if that is in flight, each independently of the others. -/
theorem exec_recordCompletion {env : Env} {now : ℕ} {db db' : Database} {T E : Uuid} {c : Completion}
    {reply : Reply} (h : (Tx.recordCompletion T E c).exec env now db = some (db', reply)) :
    (∃ model result, db'.tasks.find? T = (db.tasks.find? T).map fun r =>
        if leasedBy E r then r.succeed now model result else r) ∧
      db'.attempts.find? (T, E) = (db.attempts.find? (T, E)).map (fun a =>
        if a.status = .inflight then a.conclude .completed now none else a) ∧
      (db'.costs.find? (T, E)).isSome := by
  cases Performed.of_exec h with
  | @recordCompletion _ _ _ receipt result hreceipt =>
    obtain ⟨rfl, rfl⟩ := newReceipt_key hreceipt
    refine ⟨⟨receipt.model, result, ?_⟩, ?_, ?_⟩
    · simp only [completeRow, Database.concludeAttempt_tasks, Database.updateTask_tasks, if_true]
    · simp only [completeRow, Database.concludeAttempt_attempts, CostRow.key, if_true,
        Database.updateTask_attempts]
    · change ((db.costs.insert receipt).find? receipt.key).isSome
      rw [Table.find?_insert, if_pos rfl]
      cases db.costs.find? receipt.key <;> rfl

/-- A failure settles the row if that is under its lease and the attempt if that is in flight, and
leaves the receipts alone. -/
theorem exec_recordFailed {env : Env} {now : ℕ} {db db' : Database} {T E : Uuid} {exc : PyExc}
    {reply : Reply} (h : (Tx.recordFailed T E exc).exec env now db = some (db', reply)) :
    ∃ message, db'.tasks.find? T = (db.tasks.find? T).map (fun r =>
        if leasedBy E r then r.fail now message else r) ∧
      db'.attempts.find? (T, E) = (db.attempts.find? (T, E)).map (fun a =>
        if a.status = .inflight then a.conclude .failed now (some message) else a) ∧
      db'.costs = db.costs := by
  cases Performed.of_exec h with
  | @recordFailed _ _ _ message =>
    refine ⟨message, ?_, ?_, rfl⟩
    · simp only [failRow, Database.concludeAttempt_tasks, Database.updateTask_tasks, if_true]
    · simp only [failRow, Database.concludeAttempt_attempts, if_true, Database.updateTask_attempts]

/-- Recovery of a stored row releases it when it is recoverable, and tells so. -/
theorem exec_recover {env : Env} {now : ℕ} {db db' : Database} {T : Uuid} {payload : Fields} {reply : Reply}
    (h : (Tx.recover T payload).exec env now db = some (db', reply)) {r : TaskRow}
    (hr : db.tasks.find? T = some r) :
    db'.tasks.find? T = some (if recoverable env.config now r then r.release else r) ∧
      reply = .recovery (recoverable env.config now r)
        (!recoverable env.config now r && r.status.terminal) := by
  cases Performed.of_exec h with
  | @recover _ _ row hrow =>
    have hid : row.id = T := newTask_id hrow
    subst hid
    have hstored : ¬ (db.tasks.find? row.id).isNone = true := by simp [hr]
    have hmatch : ∀ sel, db.taskMatches row.id sel = sel r := fun sel => by
      rw [Database.taskMatches, hr, Option.any_some]
    unfold recoverRow
    rw [if_neg hstored]
    simp only [Database.updateTask_tasks, if_true, hmatch, hr, Option.map_some, and_self]

/-- The answer of `claim_task` and what it rests on: an attempt in flight is doubted, the row fails
if it is queued and nothing is leased; otherwise the row is leased exactly when it is queued. -/
theorem exec_claimTask {env : Env} {now : ℕ} {db db' : Database} {taskId : Json} {payload : Fields}
    {X : Uuid} {reply : Reply} (h : (Tx.claimTask taskId payload X).exec env now db = some (db', reply)) :
    ∃ T r, env.driver.uuid taskId = some T ∧ Offered (db.tasks.find? T) r ∧
      ((∃ a, uncertainAttempt db T = some a ∧ reply = .lease none ∧
          db'.attempts.find? (T, a.executionId) = some (a.conclude .outcomeUnknown now none) ∧
          db'.tasks.find? T = some (if r.status = .queued then r.fail now uncertainMessage else r)) ∨
        (uncertainAttempt db T = none ∧ db'.attempts = db.attempts ∧
          (r.status = .queued ∧ reply = .lease (some (T, X)) ∧ db'.tasks.find? T = some (r.lease now X) ∨
            r.status ≠ .queued ∧ reply = .lease none ∧ db'.tasks.find? T = some r))) := by
  cases Performed.of_exec h with
  | @claimTask _ _ _ row hrow =>
    obtain ⟨r, hr⟩ := insertTask_isSome db row
    refine ⟨row.id, r, (newTask_eq_some hrow).1, Offered.of_insert (newTask_unclaimed hrow) hr, ?_⟩
    cases hu : uncertainAttempt db row.id with
    | some a =>
      rw [claimRow_of_uncertain now X hu]
      obtain ⟨hfind, hstatus⟩ := uncertainAttempt_eq_some hu
      refine Or.inl ⟨a, rfl, rfl, ?_, ?_⟩
      · rw [Database.concludeAttempt_attempts, if_pos rfl]
        simp [hfind, hstatus]
      · simp only [Database.concludeAttempt_tasks, Database.updateTask_tasks, if_true, hr, Option.map_some,
          isQueued, decide_eq_true_eq]
    | none =>
      rw [claimRow_of_certain now X hu]
      refine Or.inr ⟨rfl, rfl, ?_⟩
      simp only [Database.updateTask_tasks, if_true, hr, Option.map_some, Database.taskMatches,
        Option.any_some, isQueued, decide_eq_true_eq]
      by_cases hq : r.status = .queued
      · exact Or.inl ⟨hq, by rw [if_pos hq], by rw [if_pos hq]⟩
      · exact Or.inr ⟨hq, by rw [if_neg hq], by rw [if_neg hq]⟩

end NeuroLab.ControlPlane
