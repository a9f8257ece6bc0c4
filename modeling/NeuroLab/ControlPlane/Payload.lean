import NeuroLab.Python.Interpreter
import NeuroLab.Python.Reordered

/-!
# Task payloads

A payload is a JSON object that travels as text through Redis and as `jsonb` through
the dispatch outbox. `validatePayload` has the two strictnesses of the worker: the
lenient one guards the execution of a delivery, the strict one, which also wants a
task id, guards its recovery.
-/

namespace NeuroLab.ControlPlane

open Python

/-- The members of a payload object. -/
abbrev Fields := List (Str × Json)

/-- `VALID_CREDENTIAL_LANES`. -/
def validCredentialLanes : List Str := [lit "primary", lit "freemium"]

/-- `isinstance(exc, ProviderError)` texts are stored as they are, others by class name only. -/
def safeErrorMessage : PyExc → Str
  | .provider message => message.take 1000
  | exc => lit "internal error: " ++ exc.className

/-- The members of a value that `isinstance(payload, dict)` accepts. -/
def payloadFields : Json → Except PyExc Fields
  | .obj fields => .ok fields
  | _ => .error (.value (lit "ValueError"))

/-- The lane check; a list or a dict cannot be looked up in a frozenset. -/
def checkLane : Json → Except PyExc Unit
  | .null => .ok ()
  | .str s => if s ∈ validCredentialLanes then .ok () else .error (.value (lit "ValueError"))
  | .arr _ => .error .type
  | .obj _ => .error .type
  | _ => .error (.value (lit "ValueError"))

/-- `uuid.UUID(str(payload["task_id"]))`. -/
def taskId (py : Interpreter) (fields : Fields) : Except PyExc Uuid :=
  match get? fields (lit "task_id") with
  | none => .error .key
  | some v => match py.str v with
    | .error exc => .error exc
    | .ok text => match parseUuid text with
      | none => .error (.value (lit "ValueError"))
      | some id => .ok id

/-- `validate_payload(payload)`, which returns the members it went through. -/
def validatePayload (payload : Json) : Except PyExc Fields := do
  let fields ← payloadFields payload
  checkLane (getD fields (lit "credential_lane") .null)
  .ok fields

/-- `validate_payload(payload, require_task_id=True)`, with the members and the id. -/
def validatePayloadWithTaskId (py : Interpreter) (payload : Json) : Except PyExc (Fields × Uuid) := do
  let fields ← validatePayload payload
  let id ← taskId py fields
  .ok (fields, id)

/-- The delivery `handle_delivery` executes: the text is decoded and validated without a task id. -/
def readDelivery (py : Interpreter) (raw : Str) : Except PyExc Fields :=
  (py.loads raw).bind validatePayload

/-- The delivery recovery and the reaper recognise: one that also names its task. -/
def identifyDelivery (py : Interpreter) (raw : Str) : Except PyExc (Fields × Uuid) :=
  (py.loads raw).bind (validatePayloadWithTaskId py)

/-! ## The two validators compared -/

/-- The strict validator is the lenient one followed by the task id. -/
theorem identifyDelivery_eq (py : Interpreter) (raw : Str) :
    identifyDelivery py raw =
      (readDelivery py raw).bind fun fields => (taskId py fields).map fun id => (fields, id) := by
  unfold identifyDelivery readDelivery
  cases py.loads raw with
  | error exc => rfl
  | ok payload =>
    change (validatePayload payload).bind _ = (validatePayload payload).bind _
    cases validatePayload payload with
    | error exc => rfl
    | ok fields =>
      change (taskId py fields).bind _ = _
      change _ = (taskId py fields).map _
      cases taskId py fields <;> rfl

/-- A delivery with a task id is executable. -/
theorem readDelivery_of_identifyDelivery {py : Interpreter} {raw : Str} {fields : Fields} {id : Uuid}
    (h : identifyDelivery py raw = .ok (fields, id)) :
    readDelivery py raw = .ok fields ∧ taskId py fields = .ok id := by
  rw [identifyDelivery_eq] at h
  cases hread : readDelivery py raw with
  | error exc => rw [hread] at h; cases h
  | ok fields' =>
    rw [hread] at h
    change (taskId py fields').map _ = _ at h
    cases hid : taskId py fields' with
    | error exc => rw [hid] at h; cases h
    | ok id' =>
      rw [hid] at h
      cases h
      exact ⟨rfl, hid⟩

/-! ## Dashboard payloads -/

/-- `TaskRequest`, with the bounds of its fields. -/
structure TaskRequest where
  prompt : Str
  model : Str
  credentialLane : Str
  maxTokens : ℕ
  prompt_bounds : 1 ≤ prompt.length ∧ prompt.length ≤ 8000
  credentialLane_mem : credentialLane ∈ validCredentialLanes
  maxTokens_bounds : 16 ≤ maxTokens ∧ maxTokens ≤ 2048

/-- `CHAT_MODELS`. -/
def chatModels : List Str :=
  ["GigaChat-2", "GigaChat-2-Max", "GigaChat-2-Pro", "GigaChat-3-Lightning", "GigaChat-3-Pro",
    "GigaChat-3-Ultra"].map lit

/-- The payload `create_task` writes for a request, at a Unix time in seconds. -/
def dashboardPayload (request : TaskRequest) (id : Uuid) (time : ℕ) : Fields :=
  [(lit "task_id", .str (uuidText id)),
    (lit "provider", .str (lit "gigachat")),
    (lit "operation", .str (lit "chat")),
    (lit "credential_lane", .str request.credentialLane),
    (lit "model", .str request.model),
    (lit "messages", .arr [.obj [(lit "role", .str (lit "user")), (lit "content", .str request.prompt)]]),
    (lit "max_tokens", .int request.maxTokens),
    (lit "request_ref", .str (lit "dashboard-" ++ decimal time))]

/-- Numbers below the digit limit print within it. -/
theorem decimal_length_le {n : ℕ} (h : n < 10 ^ maxStrDigits) : (decimal n).length ≤ maxStrDigits := by
  unfold decimal
  split
  · decide
  · rw [List.length_reverse, List.length_map]
    exact (Nat.digits_length_le_iff (by decide) n).mpr h

/-- A dashboard payload is plain and shallow. -/
theorem dashboardPayload_plain (request : TaskRequest) (id : Uuid) (time : ℕ) :
    (Json.obj (dashboardPayload request id time)).plain = true ∧
      (Json.obj (dashboardPayload request id time)).depth ≤ leastNesting := by
  have hkeys : ((dashboardPayload request id time).map Prod.fst).Nodup := by
    change [lit "task_id", lit "provider", lit "operation", lit "credential_lane", lit "model",
      lit "messages", lit "max_tokens", lit "request_ref"].Nodup
    decide
  have hinner : [lit "role", lit "content"].Nodup := by decide
  have htokens : (decimal request.maxTokens).length ≤ maxStrDigits := by
    refine decimal_length_le ?_
    calc request.maxTokens < 10 ^ 4 := by have := request.maxTokens_bounds.2; omega
      _ ≤ 10 ^ maxStrDigits := Nat.pow_le_pow_right (by decide) (by decide)
  constructor
  · rw [Json.plain, decide_eq_true hkeys]
    simp [dashboardPayload, Json.plainFields, Json.plain, Json.plainItems, htokens, hinner]
  · simp [dashboardPayload, Json.depth, Json.depthFields, Json.depthItems, leastNesting]

end NeuroLab.ControlPlane
