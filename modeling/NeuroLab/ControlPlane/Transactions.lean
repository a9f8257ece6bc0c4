import NeuroLab.ControlPlane.Schema

/-!
# The transactions of the control plane

One function per transaction of the worker and the dashboard. A transaction is atomic
and is stamped with one `now()`; it answers `none` when one of its statements raises,
and then nothing of it is stored. What a transaction does to the tables is kept apart
from the conversion of its parameters, which is where it can fail.
-/

namespace NeuroLab.ControlPlane

open Python Common

/-! ## Assignments -/

namespace TaskRow

/-- What `claim_task` sets on the row it leases. -/
def lease (now : ℕ) (executionId : Uuid) (r : TaskRow) : TaskRow :=
  { r with status := .running, startedAt := some now, completedAt := none, errorMessage := none,
           executionId := some executionId }

/-- The three ways a row is failed set these columns. -/
def fail (now : ℕ) (message : Option Str) (r : TaskRow) : TaskRow :=
  { r with status := .failed, completedAt := some now, errorMessage := message }

/-- What `record_completion` sets on the row. -/
def succeed (now : ℕ) (model : Option Str) (result : Json) (r : TaskRow) : TaskRow :=
  { r with status := .succeeded, completedAt := some now, model := model.or r.model,
           result := some result }

/-- What recovery sets on a row it returns to the queue. -/
def release (r : TaskRow) : TaskRow := { r with status := .queued, startedAt := none, executionId := none }

theorem lease_id (now : ℕ) (executionId : Uuid) (r : TaskRow) : (r.lease now executionId).id = r.id := rfl

theorem fail_id (now : ℕ) (message : Option Str) (r : TaskRow) : (r.fail now message).id = r.id := rfl

theorem succeed_id (now : ℕ) (model : Option Str) (result : Json) (r : TaskRow) :
    (r.succeed now model result).id = r.id := rfl

theorem release_id (r : TaskRow) : r.release.id = r.id := rfl

end TaskRow

/-- `SET status=..., concluded_at=now()`, and the error message where the statement sets one. -/
def AttemptRow.conclude (status : AttemptStatus) (now : ℕ) (error : Option (Option Str))
    (r : AttemptRow) : AttemptRow :=
  { r with status, concludedAt := some now, errorMessage := error.getD r.errorMessage }

theorem AttemptRow.conclude_key (status : AttemptStatus) (now : ℕ) (error : Option (Option Str))
    (r : AttemptRow) : (r.conclude status now error).key = r.key := rfl

namespace OutboxRow

/-- What `claim_pending_outbox` sets. -/
def claim (now : ℕ) (claimId : Uuid) (r : OutboxRow) : OutboxRow :=
  { r with deliveryClaimId := some claimId, deliveryClaimedAt := some now,
           deliveryAttempts := r.deliveryAttempts + 1, lastError := none }

/-- What `mark_outbox_delivered` sets. -/
def deliver (now : ℕ) (r : OutboxRow) : OutboxRow :=
  { r with deliveredAt := some now, deliveryClaimId := none, deliveryClaimedAt := none, lastError := none }

/-- What `record_outbox_delivery_error` sets. -/
def noteError (exc : PyExc) (r : OutboxRow) : OutboxRow :=
  { r with lastError := some (lit "delivery error: " ++ exc.className) }

theorem claim_taskId (now : ℕ) (claimId : Uuid) (r : OutboxRow) : (r.claim now claimId).taskId = r.taskId := rfl

theorem deliver_taskId (now : ℕ) (r : OutboxRow) : (r.deliver now).taskId = r.taskId := rfl

theorem noteError_taskId (exc : PyExc) (r : OutboxRow) : (r.noteError exc).taskId = r.taskId := rfl

end OutboxRow

/-! ## Statements -/

namespace Database

/-- `INSERT INTO tasks ... ON CONFLICT (id) DO NOTHING`. -/
def insertTask (db : Database) (row : TaskRow) : Database := { db with tasks := db.tasks.insert row }

/-- `UPDATE tasks SET ... WHERE id=... AND ...`. -/
def updateTask (db : Database) (id : Uuid) (sel : TaskRow → Bool) (set : TaskRow → TaskRow)
    (hset : ∀ r, (set r).id = r.id) : Database :=
  { db with tasks := db.tasks.update (fun r => decide (r.id = id) && sel r) set hset }

/-- `UPDATE provider_attempts SET ... WHERE task_id=... AND execution_id=... AND status='inflight'`. -/
def concludeAttempt (db : Database) (key : Uuid × Uuid) (status : AttemptStatus) (now : ℕ)
    (error : Option (Option Str)) : Database :=
  let sel := fun r : AttemptRow => decide (r.key = key) && decide (r.status = .inflight)
  let attempts := db.attempts.update sel (AttemptRow.conclude status now error)
    (AttemptRow.conclude_key status now error)
  { db with attempts }

/-- `UPDATE task_outbox SET ... WHERE task_id=... AND delivered_at IS NULL AND delivery_claim_id=...`. -/
def updateClaimedOutbox (db : Database) (id claimId : Uuid) (set : OutboxRow → OutboxRow)
    (hset : ∀ r, (set r).taskId = r.taskId) : Database :=
  let sel := fun r : OutboxRow => decide (r.taskId = id) && r.deliveredAt.isNone &&
    decide (r.deliveryClaimId = some claimId)
  { db with outbox := db.outbox.update sel set hset }

/-- The row count of an update of one task: whether its row is selected. -/
def taskMatches (db : Database) (id : Uuid) (sel : TaskRow → Bool) : Bool := (db.tasks.find? id).any sel

end Database

/-- The row that `ORDER BY started_at DESC LIMIT 1` returns. -/
def latestStarted : List AttemptRow → Option AttemptRow
  | [] => none
  | r :: rs => match latestStarted rs with
    | none => some r
    | some r' => if r.startedAt < r'.startedAt then some r' else some r

/-- The attempt of a task that nobody has concluded, the latest one if there are several. -/
def uncertainAttempt (db : Database) (id : Uuid) : Option AttemptRow :=
  latestStarted (db.attempts.rows.filter fun r => decide (r.taskId = id) && decide (r.status = .inflight))

/-- `status='running' AND execution_id=...`. -/
def leasedBy (executionId : Uuid) (r : TaskRow) : Bool :=
  decide (r.status = .running) && decide (r.executionId = some executionId)

/-! ## The worker -/

/-- `status='queued'`. -/
def isQueued (r : TaskRow) : Bool := decide (r.status = .queued)

/-- The message of a task whose attempt nobody concluded. -/
def uncertainMessage : Str := lit "Provider outcome is uncertain; automatic retry is blocked"

/-- The tables and the answer of `claim_task`, for the row its insertion offers. -/
def claimRow (now : ℕ) (row : TaskRow) (executionId : Uuid) (db : Database) :
    Database × Option (Uuid × Uuid) :=
  let db := db.insertTask row
  match uncertainAttempt db row.id with
  | some uncertain =>
    let db := db.updateTask row.id isQueued (TaskRow.fail now uncertainMessage)
      (TaskRow.fail_id now uncertainMessage)
    (db.concludeAttempt (row.id, uncertain.executionId) .outcomeUnknown now none, none)
  | none =>
    (db.updateTask row.id isQueued (TaskRow.lease now executionId)
      (TaskRow.lease_id now executionId),
    if db.taskMatches row.id isQueued then some (row.id, executionId) else none)

/-- `claim_task`. -/
def claimTask (env : Env) (now : ℕ) (taskId : Json) (payload : Fields) (executionId : Uuid)
    (db : Database) : Option (Database × Option (Uuid × Uuid)) :=
  (newTask env now taskId payload).map fun row => claimRow now row executionId db

/-- The row `record_provider_attempt` inserts; the provider must not be NULL. -/
def newAttempt (env : Env) (now : ℕ) (taskId executionId : Uuid) (payload : Fields) : Option AttemptRow := do
  let provider ← env.driver.text (getD payload (lit "provider") .null)
  let provider ← provider
  let model ← env.driver.text (getD payload (lit "model") .null)
  let credentialLane ← env.driver.text (getD payload (lit "credential_lane") .null)
  some { taskId, executionId, provider, model, credentialLane, status := .inflight, startedAt := now,
         concludedAt := none, errorMessage := none }

/-- `record_provider_attempt`. The task must exist unless the attempt already does. -/
def recordProviderAttempt (env : Env) (now : ℕ) (taskId executionId : Uuid) (payload : Fields)
    (db : Database) : Option Database :=
  (newAttempt env now taskId executionId payload).bind fun row =>
    if (db.attempts.find? row.key).isNone && (db.tasks.find? taskId).isNone then none
    else some { db with attempts := db.attempts.insert row }

/-- What `record_completion` is given. -/
structure Completion where
  provider : Str
  result : Fields
  usage : Json
  credentialLane : Json
  amountUsd : Json
deriving DecidableEq

/-- What `usage.get` reads: only a `dict` has it. -/
def usageFields : Json → Option Fields
  | .obj fields => some fields
  | _ => none

/-- The receipt of a completion and the result to store. `usage` must be a `dict`, and the two
CHECKs on the tokens and the one on the amount must hold. -/
def newReceipt (env : Env) (now : ℕ) (taskId executionId : Uuid) (c : Completion) :
    Option (CostRow × Json) := do
  let usage ← usageFields c.usage
  let model ← env.driver.text (getD c.result (lit "model") .null)
  let inputTokens ← env.driver.integer (getD usage (lit "prompt_tokens")
    (getD usage (lit "input_tokens") (getD usage (lit "total_tokens") .null)))
  let outputTokens ← env.driver.integer (getD usage (lit "completion_tokens")
    (getD usage (lit "output_tokens") (.int 0)))
  let amountUsd ← env.driver.numeric c.amountUsd
  let rawUsage ← env.jsonb (.obj [(lit "usage", c.usage), (lit "credential_lane", c.credentialLane)])
  let result ← env.jsonb (.obj c.result)
  if (∀ n ∈ inputTokens, 0 ≤ n) ∧ (∀ n ∈ outputTokens, 0 ≤ n) ∧ (∀ n ∈ amountUsd, 0 ≤ n) then
    some ({ taskId, executionId, recordedAt := now, provider := c.provider, model, inputTokens,
            outputTokens, amountUsd, rawUsage }, result)
  else none

/-- The tables after `record_completion`. -/
def completeRow (now : ℕ) (receipt : CostRow) (result : Json) (db : Database) : Database :=
  let db := { db with costs := db.costs.insert receipt }
  let db := db.updateTask receipt.taskId (leasedBy receipt.executionId)
    (TaskRow.succeed now receipt.model result) (TaskRow.succeed_id now receipt.model result)
  db.concludeAttempt receipt.key .completed now none

/-- `record_completion`. -/
def recordCompletion (env : Env) (now : ℕ) (taskId executionId : Uuid) (c : Completion)
    (db : Database) : Option Database :=
  (newReceipt env now taskId executionId c).bind fun (receipt, result) =>
    if (db.costs.find? receipt.key).isNone && (db.tasks.find? taskId).isNone then none
    else some (completeRow now receipt result db)

/-- The tables after `record_failed`. -/
def failRow (now : ℕ) (taskId executionId : Uuid) (message : Option Str) (db : Database) : Database :=
  let db := db.updateTask taskId (leasedBy executionId) (TaskRow.fail now message)
    (TaskRow.fail_id now message)
  db.concludeAttempt (taskId, executionId) .failed now (some message)

/-- `record_failed`. -/
def recordFailed (env : Env) (now : ℕ) (taskId executionId : Uuid) (exc : PyExc) (db : Database) :
    Option Database :=
  (env.driver.text (.str (safeErrorMessage exc))).map fun message =>
    failRow now taskId executionId message db

/-- Whether recovery may return a row to the queue: it is queued, or its lease has expired. -/
def recoverable (config : Config) (now : ℕ) (r : TaskRow) : Bool :=
  isQueued r || (decide (r.status = .running) &&
    r.startedAt.any fun t => t + seconds config.taskLeaseSeconds < now)

/-- The tables and the two answers (recovered, terminal) of one delivery's recovery transaction. -/
def recoverRow (config : Config) (now : ℕ) (row : TaskRow) (db : Database) : Database × Bool × Bool :=
  if (db.tasks.find? row.id).isNone then (db.insertTask row, true, false)
  else
    let recovered := db.taskMatches row.id (recoverable config now)
    let terminal := db.taskMatches row.id fun r => r.status.terminal
    (db.updateTask row.id (recoverable config now) TaskRow.release TaskRow.release_id,
    recovered, !recovered && terminal)

/-- The transaction of `recover_stale_deliveries` for one delivery. -/
def recover (env : Env) (now : ℕ) (taskId : Uuid) (payload : Fields) (db : Database) :
    Option (Database × Bool × Bool) :=
  (newTask env now (.str (uuidText taskId)) payload).map fun row => recoverRow env.config now row db

/-- A row old enough for the reaper. -/
def orphaned (config : Config) (now : ℕ) (r : TaskRow) : Bool :=
  isQueued r && decide (r.createdAt + seconds config.orphanedQueuedSeconds < now)

/-- The message of a task the reaper gave up. -/
def orphanedMessage : Str := lit "Task delivery was not observed before queue timeout"

/-- The `UPDATE` of the reaper for one candidate. -/
def reapTask (config : Config) (now : ℕ) (db : Database) (id : Uuid) : Database :=
  db.updateTask id (orphaned config now) (TaskRow.fail now orphanedMessage)
    (TaskRow.fail_id now orphanedMessage)

/-- The transaction of `reap_orphaned_queued_tasks`: select the candidates, then update the
unobserved ones in turn. -/
def reap (config : Config) (now : ℕ) (observed : List Uuid) (db : Database) : Database :=
  let candidates := (db.tasks.rows.filter (orphaned config now)).map TaskRow.id
  candidates.foldl (fun db id => if id ∈ observed then db else reapTask config now db id) db

/-- The outbox rows `claim_pending_outbox` may take: pending, of a queued task, not freshly claimed. -/
def claimableOutbox (config : Config) (now : ℕ) (db : Database) (r : OutboxRow) : Bool :=
  r.deliveredAt.isNone && db.taskMatches r.taskId isQueued &&
    r.deliveryClaimedAt.all fun t => t + seconds config.outboxClaimSeconds < now

/-- `claim_pending_outbox`: mark the oldest claimable rows and return them. -/
def claimPendingOutbox (config : Config) (now : ℕ) (claimId : Uuid) (db : Database) :
    Database × List (Uuid × Json × Uuid) :=
  let pending := db.outbox.rows.filter (claimableOutbox config now db)
  let candidates := (pending.mergeSort fun r r' => decide (r.createdAt ≤ r'.createdAt)).take
    config.outboxBatchSize
  let ids := candidates.map OutboxRow.taskId
  let outbox := db.outbox.update (fun r => decide (r.taskId ∈ ids)) (OutboxRow.claim now claimId)
    (OutboxRow.claim_taskId now claimId)
  ({ db with outbox }, candidates.map fun r => (r.taskId, r.payload, claimId))

/-- `mark_outbox_delivered`. -/
def markOutboxDelivered (now : ℕ) (taskId claimId : Uuid) (db : Database) : Database :=
  db.updateClaimedOutbox taskId claimId (OutboxRow.deliver now) (OutboxRow.deliver_taskId now)

/-- `record_outbox_delivery_error`. -/
def recordOutboxDeliveryError (taskId claimId : Uuid) (exc : PyExc) (db : Database) : Database :=
  db.updateClaimedOutbox taskId claimId (OutboxRow.noteError exc) (OutboxRow.noteError_taskId exc)

/-- `cleanup_terminal_outbox`. -/
def cleanupTerminalOutbox (config : Config) (now : ℕ) (db : Database) : Database :=
  let expired := fun r : OutboxRow => db.taskMatches r.taskId (fun t => t.status.terminal) &&
    r.deliveredAt.any fun t => t + seconds config.outboxRetentionSeconds < now
  { db with outbox := db.outbox.delete expired }

/-! ## The dashboard -/

/-- `daily_lane_task_count`. -/
def dailyLaneTaskCount (now : ℕ) (credentialLane : Str) (db : Database) : ℕ :=
  db.tasks.rows.countP fun r => decide (r.credentialLane = some credentialLane) &&
    decide (now < r.createdAt + seconds 86400)

/-- `record_queued_task`. -/
def recordQueuedTask (env : Env) (now : ℕ) (taskId : Uuid) (payload : Fields) (db : Database) :
    Option Database := do
  let row ← newTask env now (.str (uuidText taskId)) payload
  let payload ← env.jsonb (.obj payload)
  let entry : OutboxRow := { taskId, payload, createdAt := now, deliveredAt := none,
                             deliveryClaimId := none, deliveryClaimedAt := none,
                             deliveryAttempts := 0, lastError := none }
  let db := db.insertTask row
  some { db with outbox := db.outbox.insert entry }

/-! ## All of them -/

/-- A transaction with its parameters. -/
inductive Tx
  | claimTask (taskId : Json) (payload : Fields) (executionId : Uuid)
  | recordProviderAttempt (taskId executionId : Uuid) (payload : Fields)
  | recordCompletion (taskId executionId : Uuid) (completion : Completion)
  | recordFailed (taskId executionId : Uuid) (exc : PyExc)
  | recover (taskId : Uuid) (payload : Fields)
  | reap (observed : List Uuid)
  | claimPendingOutbox (claimId : Uuid)
  | markOutboxDelivered (taskId claimId : Uuid)
  | recordOutboxDeliveryError (taskId claimId : Uuid) (exc : PyExc)
  | cleanupTerminalOutbox
  | dailyLaneTaskCount (credentialLane : Str)
  | recordQueuedTask (taskId : Uuid) (payload : Fields)
deriving DecidableEq

/-- What a transaction returns to its caller. -/
inductive Reply
  | done
  | lease (granted : Option (Uuid × Uuid))
  | recovery (recovered terminal : Bool)
  | claimed (rows : List (Uuid × Json × Uuid))
  | count (n : ℕ)
deriving DecidableEq

/-- Run a transaction at a time. -/
def Tx.exec (env : Env) (now : ℕ) (db : Database) : Tx → Option (Database × Reply)
  | claimTask taskId payload executionId =>
    (ControlPlane.claimTask env now taskId payload executionId db).map fun r => (r.1, .lease r.2)
  | recordProviderAttempt taskId executionId payload =>
    (ControlPlane.recordProviderAttempt env now taskId executionId payload db).map fun db => (db, .done)
  | recordCompletion taskId executionId completion =>
    (ControlPlane.recordCompletion env now taskId executionId completion db).map fun db => (db, .done)
  | recordFailed taskId executionId exc =>
    (ControlPlane.recordFailed env now taskId executionId exc db).map fun db => (db, .done)
  | recover taskId payload =>
    (ControlPlane.recover env now taskId payload db).map fun r => (r.1, .recovery r.2.1 r.2.2)
  | reap observed => some (ControlPlane.reap env.config now observed db, .done)
  | claimPendingOutbox claimId =>
    let r := ControlPlane.claimPendingOutbox env.config now claimId db
    some (r.1, .claimed r.2)
  | markOutboxDelivered taskId claimId =>
    some (ControlPlane.markOutboxDelivered now taskId claimId db, .done)
  | recordOutboxDeliveryError taskId claimId exc =>
    some (ControlPlane.recordOutboxDeliveryError taskId claimId exc db, .done)
  | cleanupTerminalOutbox => some (ControlPlane.cleanupTerminalOutbox env.config now db, .done)
  | dailyLaneTaskCount credentialLane =>
    some (db, .count (ControlPlane.dailyLaneTaskCount now credentialLane db))
  | recordQueuedTask taskId payload =>
    (ControlPlane.recordQueuedTask env now taskId payload db).map fun db => (db, .done)

end NeuroLab.ControlPlane
