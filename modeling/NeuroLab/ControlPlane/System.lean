import NeuroLab.Common.Transition
import NeuroLab.ControlPlane.GigaChat

/-!
# The control plane as a transition system

Any number of workers and dashboard requests share one database and one Redis. Every
process is a program counter; its next operation is one Redis command, one transaction,
one provider call or a local computation, together with what follows each answer. An
action of the environment picks who moves and how the operation ends: it takes effect
and answers, it is refused, or it takes effect and its answer is lost. Time passes,
workers crash and restart, and other producers push deliveries, between any two steps.

`heartbeat` writes a table nothing else reads and swallows its own errors; it is left out.
-/

namespace NeuroLab.ControlPlane

open Python Common

/-! ## Redis -/

/-- The lists `neuro-lab:tasks`, `neuro-lab:tasks:processing` and `neuro-lab:tasks:dead`. -/
structure Redis where
  tasks : List Str
  processing : List Str
  dead : List Str
deriving DecidableEq

/-- The commands and scripts the control plane sends. -/
inductive Command
  | rpushTasks (raw : Str)
  | rpushDead (raw : Str)
  | blmove
  | lremProcessing (raw : Str)
  | lrangeTasks
  | lrangeProcessing
  | llenTasks
  | requeueStaleDelivery (raw : Str)
  | deadLetterProcessingDelivery (raw : Str)
deriving DecidableEq

/-- What a command answers: an item or nothing, a list, or a number. -/
inductive RedisReply
  | item (raw : Option Str)
  | items (raws : List Str)
  | number (n : ℕ)
deriving DecidableEq

/-- One command, atomically. `LREM key 1 raw` erases the first equal item. -/
def Command.exec (r : Redis) : Command → Redis × RedisReply
  | rpushTasks raw => ({ r with tasks := r.tasks ++ [raw] }, .number (r.tasks.length + 1))
  | rpushDead raw => ({ r with dead := r.dead ++ [raw] }, .number (r.dead.length + 1))
  | blmove => match r.tasks with
    | [] => (r, .item none)
    | raw :: rest => ({ r with tasks := rest, processing := r.processing ++ [raw] }, .item (some raw))
  | lremProcessing raw =>
    ({ r with processing := r.processing.erase raw }, .number (if raw ∈ r.processing then 1 else 0))
  | lrangeTasks => (r, .items r.tasks)
  | lrangeProcessing => (r, .items r.processing)
  | llenTasks => (r, .number r.tasks.length)
  | requeueStaleDelivery raw =>
    if raw ∈ r.processing then
      ({ r with processing := r.processing.erase raw, tasks := raw :: r.tasks }, .number 1)
    else (r, .number 0)
  | deadLetterProcessingDelivery raw =>
    if raw ∈ r.processing then
      ({ r with processing := r.processing.erase raw, dead := r.dead ++ [raw] }, .number 1)
    else (r, .number 0)

/-! ## Operations -/

/-- What all processes share. -/
structure Store where
  db : Database
  redis : Redis

/-- The next operation of a process whose program counters are of type `π`. -/
inductive Op (π : Type)
  | stopped
  | wait (k : Bool → π)
  | compute (next : π)
  | sql (tx : Tx) (k : Except PyExc Reply → π)
  | redis (cmd : Command) (k : Except PyExc RedisReply → π)
  | call (k : Except PyExc (Option Str) → π)

/-- How the environment ends an operation. -/
inductive Outcome
  | done
  | refused (exc : PyExc)
  | lost (exc : PyExc)
  | due (b : Bool)
  | responded (body : Option Str)
  | raised (exc : PyExc)
deriving DecidableEq

/-- One operation on the shared store. -/
def perform {π : Type} (env : Env) (now : ℕ) (store : Store) (op : Op π) (outcome : Outcome) :
    Option (Store × π) :=
  match op, outcome with
  | .wait k, .due b => some (store, k b)
  | .compute next, .done => some (store, next)
  | .sql tx k, .done =>
    (tx.exec env now store.db).map fun (db, reply) => ({ store with db }, k (.ok reply))
  | .sql tx k, .lost exc =>
    (tx.exec env now store.db).map fun (db, _) => ({ store with db }, k (.error exc))
  | .sql _ k, .refused exc => some (store, k (.error exc))
  | .redis cmd k, .done =>
    some ({ store with redis := (cmd.exec store.redis).1 }, k (.ok (cmd.exec store.redis).2))
  | .redis cmd k, .lost exc => some ({ store with redis := (cmd.exec store.redis).1 }, k (.error exc))
  | .redis _ k, .refused exc => some (store, k (.error exc))
  | .call k, .responded body => some (store, k (.ok body))
  | .call k, .raised exc => some (store, k (.error exc))
  | _, _ => none

/-! ## Workers -/

/-- A delivery under execution: its text, its members and the task id it is executed for. -/
structure Delivery where
  raw : Str
  payload : Fields
  taskId : Json
deriving DecidableEq

/-- A lease: the id of the task row and the execution id. -/
abbrev Lease := Uuid × Uuid

/-- Where a worker stands. `publish` to `cleanup` are the outbox passes of `run_worker`, `scan` to
`acknowledge` is `recover_stale_deliveries`, the `reap`s are `reap_orphaned_queued_tasks`, and
`deliver` to `ack` is `handle_delivery` with the acknowledgement of its caller. -/
inductive Pc
  | down
  | outboxDue
  | claimOutbox
  | publish (claimed : List (Uuid × Json × Uuid))
  | push (id : Uuid) (raw : Str) (claimId : Uuid) (rest : List (Uuid × Json × Uuid))
  | mark (id claimId : Uuid) (rest : List (Uuid × Json × Uuid))
  | noteError (id claimId : Uuid) (exc : PyExc) (rest : List (Uuid × Json × Uuid))
  | cleanupDue
  | cleanup
  | recoveryDue
  | scan
  | recovering (raws : List Str)
  | deadLetter (raw : Str) (rest : List Str)
  | recover (raw : Str) (payload : Fields) (id : Uuid) (rest : List Str)
  | requeue (raw : Str) (rest : List Str)
  | acknowledge (raw : Str) (rest : List Str)
  | reapTasks
  | reapProcessing (observed : List Uuid)
  | reap (observed : List Uuid)
  | take
  | deliver (raw : Str)
  | bury (raw : Str)
  | claim (d : Delivery)
  | attempt (d : Delivery) (lease : Lease)
  | operate (d : Delivery) (lease : Lease)
  | call (d : Delivery) (lease : Lease) (op : Operation)
  | complete (d : Delivery) (lease : Lease) (completion : Completion)
  | fail (d : Delivery) (lease : Lease) (exc : PyExc)
  | ack (raw : Str)
deriving DecidableEq

/-- The except clause of `dispatch_pending_outbox`. -/
def dispatchCatches (exc : PyExc) : Bool := exc.isRedis || exc.isPsycopg || exc.isTypeOrValue

/-- Where the dispatcher goes on when publishing a claim raised. -/
def publishFailed (id claimId : Uuid) (rest : List (Uuid × Json × Uuid)) (exc : PyExc) : Pc :=
  if dispatchCatches exc then .noteError id claimId exc rest else .down

/-- `publish_outbox_claim`, up to its `RPUSH`. -/
def publishNext (env : Env) : List (Uuid × Json × Uuid) → Pc
  | [] => .cleanupDue
  | (id, payload, claimId) :: rest =>
    match validatePayloadWithTaskId env.py payload with
    | .error exc => publishFailed id claimId rest exc
    | .ok (_, validated) =>
      if validated ≠ id then publishFailed id claimId rest (.value (lit "ValueError"))
      else match env.py.dumps payload with
        | .error exc => publishFailed id claimId rest exc
        | .ok raw => .push id raw claimId rest

/-- The except clause under which recovery and the reaper read a delivery. -/
def isMalformed (exc : PyExc) : Bool := exc.isTypeOrValue || exc.isKey

/-- The next delivery of a recovery pass. An exception that its own clause lets through ends the
pass: `run_worker` catches it and goes on with the reaper. -/
def recoverNext (env : Env) : List Str → Pc
  | [] => .reapTasks
  | raw :: rest =>
    match identifyDelivery env.py raw with
    | .ok (payload, id) => .recover raw payload id rest
    | .error exc => if isMalformed exc then .deadLetter raw rest else .reapTasks

/-- `delivery_task_ids`, for the items of one list; other exceptions escape the loop. -/
def observeIds (env : Env) : List Str → Except PyExc (List Uuid)
  | [] => .ok []
  | raw :: rest =>
    match identifyDelivery env.py raw with
    | .ok (_, id) => (observeIds env rest).map (List.cons id)
    | .error exc => if isMalformed exc then observeIds env rest else .error exc

/-- `payload.get("task_id") or str(uuid.uuid4())`. -/
def claimedId (fresh : Uuid) (payload : Fields) : Json :=
  let named := getD payload (lit "task_id") .null
  if truthy named then named else .str (uuidText fresh)

/-- The head of `handle_delivery`. -/
def readNext (env : Env) (fresh : Uuid) (raw : Str) : Pc :=
  match readDelivery env.py raw with
  | .error exc => if exc.isTypeOrValue then .bury raw else .down
  | .ok payload => .claim { raw, payload, taskId := claimedId fresh payload }

/-- Entering the provider operation, or the branches that do without one. -/
def operateNext (env : Env) (d : Delivery) (lease : Lease) : Pc :=
  match route env.py d.payload with
  | .call op => .call d lease op
  | .finish completion => .complete d lease completion
  | .fail exc => .fail d lease exc

/-- The operation itself: the check of the request, then the call. -/
def callOp (env : Env) (d : Delivery) (lease : Lease) (op : Operation) : Op Pc :=
  match checkRequest op d.payload with
  | .error exc => .compute (.fail d lease exc)
  | .ok () => .call fun
    | .error exc => .fail d lease exc
    | .ok body => match readResponse env op d.payload body with
      | .error exc => .fail d lease exc
      | .ok completion => .complete d lease completion

/-- The next operation of a worker, with the identifier `uuid4` would draw. A reply whose shape
does not belong to its operation never occurs and stops the worker. -/
def Pc.op (env : Env) (fresh : Uuid) : Pc → Op Pc
  | down => .stopped
  | outboxDue => .wait fun b => if b then .claimOutbox else .cleanupDue
  | claimOutbox => .sql (.claimPendingOutbox fresh) fun
    | .ok (.claimed rows) => .publish rows
    | .ok _ => .down
    | .error exc => if exc.isPsycopg then .cleanupDue else .down
  | publish claimed => .compute (publishNext env claimed)
  | push id raw claimId rest => .redis (.rpushTasks raw) fun
    | .ok _ => .mark id claimId rest
    | .error exc => publishFailed id claimId rest exc
  | mark id claimId rest => .sql (.markOutboxDelivered id claimId) fun
    | .ok _ => .publish rest
    | .error exc => publishFailed id claimId rest exc
  | noteError id claimId exc rest => .sql (.recordOutboxDeliveryError id claimId exc) fun
    | .ok _ => .publish rest
    | .error exc => if exc.isPsycopg then .publish rest else .down
  | cleanupDue => .wait fun b => if b then .cleanup else .recoveryDue
  | cleanup => .sql .cleanupTerminalOutbox fun
    | .ok _ => .recoveryDue
    | .error exc => if exc.isPsycopg then .recoveryDue else .down
  | recoveryDue => .wait fun b => if b then .scan else .take
  | scan => .redis .lrangeProcessing fun
    | .ok (.items raws) => .recovering raws
    | .ok _ => .down
    | .error _ => .reapTasks
  | recovering raws => .compute (recoverNext env raws)
  | deadLetter raw rest => .redis (.deadLetterProcessingDelivery raw) fun
    | .ok _ => .recovering rest
    | .error _ => .reapTasks
  | recover raw payload id rest => .sql (.recover id payload) fun
    | .ok (.recovery recovered terminal) =>
      if recovered then .requeue raw rest else if terminal then .acknowledge raw rest else .recovering rest
    | .ok _ => .down
    | .error exc => if exc.isPsycopg then .recovering rest else .reapTasks
  | requeue raw rest => .redis (.requeueStaleDelivery raw) fun
    | .ok _ => .recovering rest
    | .error exc => if exc.isRedis then .recovering rest else .reapTasks
  | acknowledge raw rest => .redis (.lremProcessing raw) fun
    | .ok _ => .recovering rest
    | .error exc => if exc.isRedis then .recovering rest else .reapTasks
  | reapTasks => .redis .lrangeTasks fun
    | .ok (.items raws) => match observeIds env raws with
      | .ok ids => .reapProcessing ids
      | .error _ => .take
    | .ok _ => .down
    | .error _ => .take
  | reapProcessing observed => .redis .lrangeProcessing fun
    | .ok (.items raws) => match observeIds env raws with
      | .ok ids => .reap (observed ++ ids)
      | .error _ => .take
    | .ok _ => .down
    | .error _ => .take
  | reap observed => .sql (.reap observed) fun _ => .take
  | take => .redis .blmove fun
    | .ok (.item (some raw)) => .deliver raw
    | .ok (.item none) => .outboxDue
    | .ok _ => .down
    | .error _ => .down
  | deliver raw => .compute (readNext env fresh raw)
  | bury raw => .redis (.rpushDead raw) fun
    | .ok _ => .ack raw
    | .error _ => .down
  | claim d => .sql (.claimTask d.taskId d.payload fresh) fun
    | .ok (.lease (some lease)) => .attempt d lease
    | .ok (.lease none) => .ack d.raw
    | .ok _ => .down
    | .error _ => .outboxDue
  | attempt d lease => .sql (.recordProviderAttempt lease.1 lease.2 d.payload) fun
    | .ok _ => .operate d lease
    | .error exc => .fail d lease exc
  | operate d lease => .compute (operateNext env d lease)
  | call d lease op => callOp env d lease op
  | complete d lease completion => .sql (.recordCompletion lease.1 lease.2 completion) fun
    | .ok _ => .ack d.raw
    | .error exc => .fail d lease exc
  | fail d lease exc => .sql (.recordFailed lease.1 lease.2 exc) fun
    | .ok _ => .ack d.raw
    | .error _ => .outboxDue
  | ack raw => .redis (.lremProcessing raw) fun
    | .ok _ => .outboxDue
    | .error _ => .down

/-- The program counters whose operation draws an identifier. -/
def Pc.draws : Pc → Bool
  | claimOutbox => true
  | deliver _ => true
  | claim _ => true
  | _ => false

/-! ## Dashboard requests -/

/-- The answer of `create_task`: the accepted task, or an HTTP status. -/
inductive Answer
  | accepted (id : Uuid)
  | rejected (status : ℕ)
deriving DecidableEq

/-- Where a request to `create_task` stands. -/
inductive RequestPc
  | idle
  | depth (id : Uuid) (payload : Fields) (credentialLane : Str)
  | budget (id : Uuid) (payload : Fields) (credentialLane : Str)
  | record (id : Uuid) (payload : Fields)
  | answered (answer : Answer)
deriving DecidableEq

/-- The except clauses of `create_task`; what they let through is an internal server error. -/
def requestFailed (exc : PyExc) : RequestPc :=
  .answered (.rejected (if exc.isRedis || exc.isPsycopg then 503 else 500))

/-- The next operation of a request. -/
def RequestPc.op (env : Env) : RequestPc → Op RequestPc
  | idle => .stopped
  | depth id payload lane => .redis .llenTasks fun
    | .ok (.number n) =>
      if env.config.maxQueueDepth ≤ n then .answered (.rejected 429) else .budget id payload lane
    | .ok _ => .idle
    | .error exc => requestFailed exc
  | budget id payload lane => .sql (.dailyLaneTaskCount lane) fun
    | .ok (.count n) =>
      if env.config.maxTasksPerLanePerDay ≤ n then .answered (.rejected 429) else .record id payload
    | .ok _ => .idle
    | .error exc => requestFailed exc
  | record id payload => .sql (.recordQueuedTask id payload) fun
    | .ok _ => .answered (.accepted id)
    | .error exc => requestFailed exc
  | answered _ => .stopped

/-- Whether a new request may take this place. -/
def RequestPc.free : RequestPc → Bool
  | idle => true
  | answered _ => true
  | _ => false

/-- The start of `create_task`, up to its first command. -/
def createTask (request : TaskRequest) (id : Uuid) (time : ℕ) : RequestPc :=
  if request.model ∈ chatModels then .depth id (dashboardPayload request id time) request.credentialLane
  else .answered (.rejected 422)

/-! ## The system -/

/-- A state of the whole control plane. `issued` are the identifiers `uuid4` has drawn. -/
structure State where
  clock : ℕ
  store : Store
  workers : ℕ → Pc
  requests : ℕ → RequestPc
  issued : List Uuid

/-- The moves of the environment: time passes, another producer pushes a text, a worker starts,
crashes or performs its operation, a request arrives, is served or is abandoned. -/
inductive Action
  | tick (micros : ℕ)
  | enqueue (raw : Str)
  | start (w : ℕ)
  | crash (w : ℕ)
  | work (w : ℕ) (fresh : Uuid) (outcome : Outcome)
  | submit (r : ℕ) (request : TaskRequest) (id : Uuid) (time : ℕ)
  | serve (r : ℕ) (outcome : Outcome)
  | abandon (r : ℕ)

/-- Nothing has happened yet. -/
def State.initial : State where
  clock := 0
  store := ⟨.empty, ⟨[], [], []⟩⟩
  workers := fun _ => .down
  requests := fun _ => .idle
  issued := []

namespace State

/-- The row of a task. -/
abbrev task (s : State) (T : Uuid) : Option TaskRow := s.store.db.tasks.find? T

/-- The attempt of a lease. -/
abbrev attempt (s : State) (T E : Uuid) : Option AttemptRow := s.store.db.attempts.find? (T, E)

/-- The receipt of a lease. -/
abbrev cost (s : State) (T E : Uuid) : Option CostRow := s.store.db.costs.find? (T, E)

def setWorker (s : State) (w : ℕ) (pc : Pc) : State :=
  { s with workers := fun v => if v = w then pc else s.workers v }

def setRequest (s : State) (r : ℕ) (pc : RequestPc) : State :=
  { s with requests := fun q => if q = r then pc else s.requests q }

/-- Draw an identifier, which no earlier draw has given. -/
def draw (s : State) (fresh : Uuid) : Option State :=
  if fresh ∈ s.issued then none else some { s with issued := fresh :: s.issued }

end State

/-- One step of the control plane. -/
def step (env : Env) (s : State) : Action → Option State
  | .tick micros => some { s with clock := s.clock + micros }
  | .enqueue raw =>
    some { s with store := { s.store with redis := ((Command.rpushTasks raw).exec s.store.redis).1 } }
  | .start w => if s.workers w = .down then some (s.setWorker w .outboxDue) else none
  | .crash w => some (s.setWorker w .down)
  | .work w fresh outcome =>
    (if (s.workers w).draws then s.draw fresh else some s).bind fun s =>
      (perform env s.clock s.store ((s.workers w).op env fresh) outcome).map fun (store, pc) =>
        { s with store }.setWorker w pc
  | .submit r request id time =>
    if (s.requests r).free then
      (s.draw id).map fun s => s.setRequest r (createTask request id time)
    else none
  | .serve r outcome =>
    (perform env s.clock s.store ((s.requests r).op env) outcome).map fun (store, pc) =>
      { s with store }.setRequest r pc
  | .abandon r => some (s.setRequest r .idle)

/-- The control plane. -/
def system (env : Env) : System State Action := ⟨.initial, step env⟩

end NeuroLab.ControlPlane
