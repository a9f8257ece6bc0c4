import NeuroLab.ControlPlane.Transactions

/-!
# The provider operations

What `handle_delivery` does between its receipt of the attempt and the completion
write: it chooses the operation, the operation checks its request, and the body of the
provider's response is decoded and read. Tokens, retries and the network are the
environment's: a call answers with a body or raises.
-/

namespace NeuroLab.ControlPlane

open Python

/-- The two operations of the client. -/
inductive Operation
  | complete
  | embed
deriving DecidableEq

/-- What follows the receipt of an attempt. -/
inductive Route
  | call (op : Operation)
  | finish (completion : Completion)
  | fail (exc : PyExc)
deriving DecidableEq

/-- `ProviderError(f"{label}{value}")`. -/
def unsupported (py : Interpreter) (label : String) (value : Json) : PyExc :=
  match py.str value with
  | .ok text => .provider (lit label ++ text)
  | .error exc => exc

/-- The branches of `handle_delivery` on the provider and the operation of a payload. -/
def route (py : Interpreter) (payload : Fields) : Route :=
  let provider := getD payload (lit "provider") .null
  if provider = .str (lit "gigachat") then
    let operation := getD payload (lit "operation") (.str (lit "chat"))
    if operation = .str (lit "chat") then .call .complete
    else if operation = .str (lit "embedding") ∨ operation = .str (lit "embeddings") then .call .embed
    else .fail (unsupported py "unsupported GigaChat operation: " operation)
  else if provider = .str (lit "local-smoke-test") then
    .finish { provider := lit "local-smoke-test",
              result := [(lit "model", getD payload (lit "model") .null), (lit "content", .null),
                         (lit "credential_lane", .str (lit "local"))],
              usage := getD payload (lit "usage") (.obj []),
              credentialLane := .str (lit "local"),
              amountUsd := getD payload (lit "amount_usd") (.int 0) }
  else .fail (unsupported py "unsupported provider: " provider)

/-- `isinstance(item, str) and item`. -/
def nonemptyStr : Json → Bool
  | .str s => !s.isEmpty
  | _ => false

/-- The check an operation makes of its task before any request. -/
def checkRequest (op : Operation) (task : Fields) : Except PyExc Unit :=
  match op with
  | .complete => match getD task (lit "messages") .null with
    | .arr (_ :: _) => .ok ()
    | _ => .error (.provider (lit "GigaChat task requires a non-empty messages array"))
  | .embed =>
    let refused :=
      .error (.provider (lit "GigaChat embeddings task requires non-empty string input or string array"))
    match getD task (lit "input") .null with
    | .arr items => if !items.isEmpty && items.all nonemptyStr then .ok () else refused
    | v => if nonemptyStr v then .ok () else refused

/-- The `AttributeError` of a `.get` on something that is no `dict`. -/
def noAttribute : PyExc := .other (lit "AttributeError")

/-- `value.get` is there only on a `dict`. -/
def asDict : Json → Except PyExc Fields
  | .obj fields => .ok fields
  | _ => .error noAttribute

/-- `choices[0]`, for a true value. -/
def firstItem : Json → Except PyExc Json
  | .arr (v :: _) => .ok v
  | .str (c :: _) => .ok (.str [c])
  | .obj _ => .error .key
  | _ => .error .type

/-- The members the results of both operations end with. -/
def resultTail (task payload : Fields) : Fields :=
  [(lit "usage", getD payload (lit "usage") (.obj [])),
    (lit "credential_lane", getD task (lit "credential_lane") (.str (lit "primary")))]

/-- The `result` of `complete`, from the decoded response. -/
def completeResult (config : Config) (task : Fields) (response : Json) : Except PyExc Fields := do
  let payload ← asDict response
  let choices := getD payload (lit "choices") .null
  if !truthy choices then .error (.provider (lit "GigaChat response has no choices"))
  else
    let choice ← asDict (← firstItem choices)
    let message ← asDict (getD choice (lit "message") (.obj []))
    let model := getD task (lit "model") (.str config.defaultModel)
    .ok ([(lit "model", getD payload (lit "model") model), (lit "operation", .str (lit "chat")),
        (lit "content", getD message (lit "content") .null),
        (lit "finish_reason", getD choice (lit "finish_reason") .null)] ++ resultTail task payload)

/-- The items a `for` loop over a true value sees. -/
def iterate : Json → Except PyExc (List Json)
  | .arr items => .ok items
  | .str s => .ok (s.map fun c => .str [c])
  | .obj fields => .ok (fields.map fun f => .str f.1)
  | _ => .error .type

/-- `len(value)`. -/
def len : Json → Except PyExc ℕ
  | .arr items => .ok items.length
  | .str s => .ok s.length
  | .obj fields => .ok fields.length
  | _ => .error .type

/-- The `result` of `embed`, from the decoded response. -/
def embedResult (config : Config) (task : Fields) (response : Json) : Except PyExc Fields := do
  let payload ← asDict response
  let data := getD payload (lit "data") .null
  if !truthy data then .error (.provider (lit "GigaChat embeddings response has no data"))
  else
    let items ← (← iterate data).mapM asDict
    let embeddings := items.map fun item => getD item (lit "embedding") (.arr [])
    let lengths ← embeddings.mapM len
    let model := getD task (lit "model") (.str config.defaultEmbeddingModel)
    let pairs := items.map fun item => .obj [(lit "index", getD item (lit "index") .null),
      (lit "embedding", getD item (lit "embedding") (.arr []))]
    .ok ([(lit "model", getD payload (lit "model") model), (lit "operation", .str (lit "embeddings")),
        (lit "embeddings", .arr pairs), (lit "dimensions", .arr (lengths.map fun n => .int n))] ++
      resultTail task payload)

/-- From the body of a response to the arguments of `record_completion`; the body is `none` when
its bytes are not text. `result["usage"]` and `result["credential_lane"]` are always there. -/
def readResponse (env : Env) (op : Operation) (task : Fields) (body : Option Str) :
    Except PyExc Completion := do
  let text ← body.elim (.error (.value (lit "UnicodeDecodeError"))) .ok
  let response ← env.py.loads text
  let result ← match op with
    | .complete => completeResult env.config task response
    | .embed => embedResult env.config task response
  .ok { provider := lit "gigachat", result,
        usage := getD result (lit "usage") .null,
        credentialLane := getD result (lit "credential_lane") .null,
        amountUsd := .null }

end NeuroLab.ControlPlane
