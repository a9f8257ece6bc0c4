import NeuroLab.Common.Table
import NeuroLab.ControlPlane.Payload

/-!
# The control-plane database

The rows of `tasks`, `provider_attempts`, `cost_events` and `task_outbox`, with the
columns the control plane reads or writes, the configuration of its processes, and
what they rely on in psycopg and PostgreSQL: how a Python value is stored in a column
of a given type, or that the statement fails. Timestamps are microseconds.
-/

namespace NeuroLab.ControlPlane

open Python Common

/-! ## Rows -/

/-- The CHECK of `tasks.status`. -/
inductive TaskStatus
  | queued
  | running
  | succeeded
  | failed
deriving DecidableEq

/-- The final states of a task. -/
def TaskStatus.terminal : TaskStatus → Bool
  | succeeded => true
  | failed => true
  | _ => false

/-- The CHECK of `provider_attempts.status`. -/
inductive AttemptStatus
  | inflight
  | completed
  | failed
  | outcomeUnknown
deriving DecidableEq

/-- A row of `tasks`. -/
structure TaskRow where
  id : Uuid
  createdAt : ℕ
  startedAt : Option ℕ
  completedAt : Option ℕ
  status : TaskStatus
  provider : Option Str
  model : Option Str
  credentialLane : Option Str
  requestRef : Option Str
  result : Option Json
  executionId : Option Uuid
  errorMessage : Option Str
deriving DecidableEq

/-- A row of `provider_attempts`. -/
structure AttemptRow where
  taskId : Uuid
  executionId : Uuid
  provider : Str
  model : Option Str
  credentialLane : Option Str
  status : AttemptStatus
  startedAt : ℕ
  concludedAt : Option ℕ
  errorMessage : Option Str
deriving DecidableEq

/-- The primary key of `provider_attempts`. -/
def AttemptRow.key (r : AttemptRow) : Uuid × Uuid := (r.taskId, r.executionId)

/-- A row of `cost_events`; amounts are millionths of a dollar. -/
structure CostRow where
  taskId : Uuid
  executionId : Uuid
  recordedAt : ℕ
  provider : Str
  model : Option Str
  inputTokens : Option ℤ
  outputTokens : Option ℤ
  amountUsd : Option ℤ
  rawUsage : Json
deriving DecidableEq

/-- The unique index of `cost_events`, on rows whose two ids are set, as every receipt's are. -/
def CostRow.key (r : CostRow) : Uuid × Uuid := (r.taskId, r.executionId)

/-- A row of `task_outbox`. -/
structure OutboxRow where
  taskId : Uuid
  payload : Json
  createdAt : ℕ
  deliveredAt : Option ℕ
  deliveryClaimId : Option Uuid
  deliveryClaimedAt : Option ℕ
  deliveryAttempts : ℕ
  lastError : Option Str
deriving DecidableEq

/-- The tables of the control plane. -/
structure Database where
  tasks : Table TaskRow.id
  attempts : Table AttemptRow.key
  costs : Table CostRow.key
  outbox : Table OutboxRow.taskId

/-- The database `init.sql` creates. -/
def Database.empty : Database := ⟨.empty, .empty, .empty, .empty⟩

/-! ## Configuration -/

/-- `max(least, int(os.getenv(name, default)))`. -/
def atLeast (least : ℕ) (setting : Option ℤ) (default : ℕ) : ℕ :=
  max least (setting.getD default).toNat

/-- `make_interval(secs => n)`. -/
def seconds (n : ℕ) : ℕ := 1000000 * n

/-- The settings of the worker and the dashboard, with the bounds their clamps enforce. The
pass intervals of `run_worker` are absent: when a pass is due is left to the environment. -/
structure Config where
  taskLeaseSeconds : ℕ
  orphanedQueuedSeconds : ℕ
  outboxClaimSeconds : ℕ
  outboxBatchSize : ℕ
  outboxRetentionSeconds : ℕ
  maxQueueDepth : ℕ
  maxTasksPerLanePerDay : ℕ
  defaultModel : Str
  defaultEmbeddingModel : Str
  taskLeaseSeconds_ge : 180 ≤ taskLeaseSeconds
  orphanedQueuedSeconds_ge : 300 ≤ orphanedQueuedSeconds
  outboxClaimSeconds_ge : 30 ≤ outboxClaimSeconds
  outboxBatchSize_pos : 1 ≤ outboxBatchSize
  outboxRetentionSeconds_ge : 3600 ≤ outboxRetentionSeconds
  maxQueueDepth_pos : 1 ≤ maxQueueDepth
  maxTasksPerLanePerDay_pos : 1 ≤ maxTasksPerLanePerDay

/-- The configuration read from the environment variables, in the order of the fields. -/
def Config.ofEnv (lease orphaned claim batch retention depth budget : Option ℤ)
    (model embeddingModel : Option Str) : Config where
  taskLeaseSeconds := atLeast 180 lease 900
  orphanedQueuedSeconds := atLeast 300 orphaned 1800
  outboxClaimSeconds := atLeast 30 claim 90
  outboxBatchSize := atLeast 1 batch 16
  outboxRetentionSeconds := atLeast 3600 retention 604800
  maxQueueDepth := atLeast 1 depth 100
  maxTasksPerLanePerDay := atLeast 1 budget 50
  defaultModel := model.getD (lit "GigaChat-2-Pro")
  defaultEmbeddingModel := embeddingModel.getD (lit "GigaEmbeddings-3B-2025-09")
  taskLeaseSeconds_ge := le_max_left _ _
  orphanedQueuedSeconds_ge := le_max_left _ _
  outboxClaimSeconds_ge := le_max_left _ _
  outboxBatchSize_pos := le_max_left _ _
  outboxRetentionSeconds_ge := le_max_left _ _
  maxQueueDepth_pos := le_max_left _ _
  maxTasksPerLanePerDay_pos := le_max_left _ _

/-! ## Parameters of statements -/

/-- How psycopg and PostgreSQL store a decoded value in a column; `none` fails the statement.
A nullable column answers `some none` for a value stored as NULL. The laws are the documented
ones the control plane rests on: an id that both sides can read is read alike, the canonical
text of an id is one, and `jsonb` keeps a value up to the order of its objects' members. -/
structure Driver (py : Interpreter) where
  text : Json → Option (Option Str)
  uuid : Json → Option Uuid
  integer : Json → Option (Option ℤ)
  numeric : Json → Option (Option ℤ)
  jsonb : Json → Option Json
  uuid_agrees : ∀ (v : Json) (text : Str) (u u' : Uuid),
    uuid v = some u → py.str v = .ok text → parseUuid text = some u' → u = u'
  uuid_uuidText : ∀ u, uuid (.str (uuidText u)) = some u
  jsonb_reordered : ∀ v v', v.plain = true → jsonb v = some v' → v.Reordered v'

/-- Everything a run takes as given. -/
structure Env where
  config : Config
  py : Interpreter
  driver : Driver py

/-- `json.dumps(value)` as a `jsonb` parameter: too deep a value is not even sent. -/
def Env.jsonb (env : Env) (v : Json) : Option Json :=
  if env.py.recursionLimit < v.depth then none else env.driver.jsonb v

/-- The row of the `INSERT INTO tasks` that claiming, recovery and the dashboard share, from the
id they pass and the members of the payload. The CHECK on the lane comes with it. -/
def newTask (env : Env) (now : ℕ) (taskId : Json) (payload : Fields) : Option TaskRow := do
  let id ← env.driver.uuid taskId
  let provider ← env.driver.text (getD payload (lit "provider") .null)
  let model ← env.driver.text (getD payload (lit "model") .null)
  let credentialLane ← env.driver.text (getD payload (lit "credential_lane") .null)
  let requestRef ← env.driver.text (getD payload (lit "request_ref") .null)
  if ∀ lane ∈ credentialLane, lane ∈ validCredentialLanes then
    some { id, createdAt := now, startedAt := none, completedAt := none, status := .queued, provider, model,
           credentialLane, requestRef, result := none, executionId := none, errorMessage := none }
  else none

/-- The id of an inserted row is the one the driver reads, and the row is queued and unleased. -/
theorem newTask_eq_some {env : Env} {now : ℕ} {taskId : Json} {payload : Fields} {row : TaskRow}
    (h : newTask env now taskId payload = some row) :
    env.driver.uuid taskId = some row.id ∧ row.status = .queued ∧ row.createdAt = now ∧
      row.startedAt = none ∧ row.executionId = none ∧ row.result = none := by
  simp only [newTask, Option.bind_eq_bind, Option.bind_eq_some_iff] at h
  obtain ⟨id, hid, provider, -, model, -, lane, -, ref, -, h⟩ := h
  split at h
  · cases h
    exact ⟨hid, rfl, rfl, rfl, rfl, rfl⟩
  · cases h

end NeuroLab.ControlPlane
