import NeuroLab.Common.Program
import NeuroLab.ControlPlane.GigaChat
import NeuroLab.Python.Conversions
import NeuroLab.Python.Wire

/-!
# The provider client

`GigaChatClient` with its token cache and its retries. The outside answers each attempt at a
request and each reading of the clock in turn; the client keeps what it did in its state, so
that the requests of a run and the time they take can be read from it.
-/

namespace NeuroLab.ControlPlane

open Python Common

/-! ## The outside -/

/-- A request as it is sent. -/
structure Request where
  url : Str
  data : List ℕ
  authorization : Str

/-- How an attempt at a request ends: with decoded JSON, with an `HTTPError`, with a `URLError` or a `TimeoutError`, or
with another exception. -/
inductive Attempt
  | answered (body : Json)
  | httpError (code : ℕ) (retryAfter : Option Str)
  | unreachable (cls : Str)
  | raised (exc : PyExc)

/-- What the client does outside itself. -/
inductive Event
  | attempt (request : Request) (timeout : ℕ)
  | sleep (delay : Number)
  | clock

/-- The answers of the network and of the clock in their order, and the environment variables. -/
structure Outside where
  attempt : ℕ → Attempt
  time : ℕ → Double
  getenv : Str → Option Str

/-- A cached token. -/
structure Token where
  token : Json
  expiresAt : Number

/-- The cache of the client, and what it did, the latest first. -/
structure GigaChatClient where
  tokens : Json → Option Token
  events : List Event

/-- The client of a new process. -/
def GigaChatClient.initial : GigaChatClient := ⟨fun _ => none, []⟩

/-- The settings of the client, `retry_attempts` of the module among them. -/
structure ClientSettings where
  retryAttempts : ℤ
  baseUrl : Str
  oauthUrl : Str
  scope : Str

/-- An exception, with the `status_code` of a `ProviderError`. -/
structure Raised where
  exc : PyExc
  statusCode : Option ℕ

/-- A method of the client. -/
abbrev Method (α : Type) := Program GigaChatClient Raised α

/-- `raise ProviderError(message, status_code=...)`. -/
def providerError {α : Type} (message : Str) (statusCode : Option ℕ) : Method α := throw ⟨.provider message, statusCode⟩

/-- A step that may raise. -/
def attempted {α : Type} : Except PyExc α → Method α
  | .ok a => pure a
  | .error exc => throw ⟨exc, none⟩

def Event.isAttempt : Event → Bool
  | attempt .. => true
  | _ => false

def Event.isClock : Event → Bool
  | clock => true
  | _ => false

/-- Note an event. -/
def GigaChatClient.note (event : Event) (client : GigaChatClient) : GigaChatClient :=
  { client with events := event :: client.events }

/-- `urlopen(request, timeout=timeout)` and `json.load(response)`. -/
def urlopen (outside : Outside) (request : Request) (timeout : ℕ) : Method Attempt := do
  let client ← get
  modify (GigaChatClient.note (.attempt request timeout))
  pure (outside.attempt (client.events.countP Event.isAttempt))

/-- `time.sleep(delay)`, whose `ValueError` a NaN is. -/
def sleep (delay : Number) : Method Unit :=
  if delay = .nan then throw ⟨.value (lit "ValueError"), none⟩
  else modify (GigaChatClient.note (.sleep delay))

/-- `time.time() + 60`. -/
def soon (outside : Outside) : Method Number := do
  let client ← get
  modify (GigaChatClient.note .clock)
  pure ((Number.double (outside.time (client.events.countP Event.isClock))).plus 60)

/-! ## Requests -/

/-- `exc.code == 429 or 500 <= exc.code < 600`. -/
def isRetryable (code : ℕ) : Bool := code = 429 || (500 ≤ code && code < 600)

/-- The pause after an `HTTPError`: what its `Retry-After` says, at least one second and at most thirty. -/
def retryDelay (attempt : ℕ) (retryAfter : Option Str) : Number :=
  let delay : Number := match retryAfter with
    | none | some [] => .int (2 ^ attempt)
    | some text => ((floatOfText text).map PyFloat.number).getD (.int (2 ^ attempt))
  (delay.max (.int 1)).min (.int 30)

/-- The loop of `request_json` over the attempts that remain. -/
def requestFrom (outside : Outside) (retryAttempts : ℤ) (request : Request) (label : Str) (timeout : ℕ) :
    List ℕ → Method Json
  | [] => providerError (label ++ lit " failed after retries") none
  | attempt :: later => do
    match ← urlopen outside request timeout with
    | .answered body => pure body
    | .httpError code retryAfter =>
      if isRetryable code = true ∧ attempt + 1 < retryAttempts then do
        sleep (retryDelay attempt retryAfter)
        requestFrom outside retryAttempts request label timeout later
      else providerError (label ++ lit " failed: " ++ decimal code) (some code)
    | .unreachable cls =>
      if attempt + 1 < retryAttempts then do
        sleep (.int (min (2 ^ attempt) 30))
        requestFrom outside retryAttempts request label timeout later
      else providerError (label ++ lit " failed: " ++ cls) none
    | .raised exc => throw ⟨exc, none⟩

/-- `request_json`. -/
def requestJson (outside : Outside) (retryAttempts : ℤ) (request : Request) (label : Str) (timeout : ℕ) : Method Json :=
  requestFrom outside retryAttempts request label timeout (List.range retryAttempts.toNat)

/-! ## Tokens -/

/-- `normalize_expiry_timestamp`. -/
def normalizeExpiryTimestamp (value : Json) : Except PyExc Number :=
  match toFloat value with
  | .ok timestamp => .ok (if (Number.int 100000000000).lt timestamp then timestamp.over 1000 else timestamp)
  | .error exc => if exc.isTypeOrValue then .ok (.ofRat 0) else .error exc

/-- Looking a value up in a `dict`, which a list and a dict cannot be. -/
def hashed : Json → Except PyExc Unit
  | .arr _ | .obj _ => .error .type
  | _ => .ok ()

/-- The environment variable that holds the credential of a lane. -/
def keyEnv (outside : Outside) (lane : Json) : Option Str :=
  if lane = .str (lit "primary") then
    some ((outside.getenv (lit "GIGACHAT_PRIMARY_KEY_ENV")).getD (lit "GIGACHAT_KEY_A1"))
  else if lane = .str (lit "freemium") then
    some ((outside.getenv (lit "GIGACHAT_FREEMIUM_KEY_ENV")).getD (lit "GIGACHAT_KEY_L1"))
  else none

/-- `f"{label}{lane}"` as a `ProviderError`. -/
def laneError {α : Type} (py : Interpreter) (label : String) (lane : Json) : Method α := do
  let text ← attempted (py.str lane)
  providerError (lit label ++ text) none

/-- `credential_for`. -/
def credentialFor (py : Interpreter) (outside : Outside) (lane : Json) : Method Str := do
  attempted (hashed lane)
  match (keyEnv outside lane).filter (· ≠ []) with
  | none => laneError py "unsupported GigaChat lane: " lane
  | some key =>
    match (outside.getenv key).filter (· ≠ []) with
    | none => laneError py "GigaChat credential is not configured for lane: " lane
    | some credential => pure credential

/-- The cached token of a lane, if it is fresh. -/
def cachedToken (outside : Outside) (lane : Json) : Method (Option Json) := do
  attempted (hashed lane)
  let client ← get
  match client.tokens lane with
  | none => pure none
  | some cached => do
    let limit ← soon outside
    pure (if limit.lt cached.expiresAt then some cached.token else none)

/-- `set` on the cache. -/
def GigaChatClient.cache (lane : Json) (token : Option Token) (client : GigaChatClient) : GigaChatClient :=
  { client with tokens := fun other => if other = lane then token else client.tokens other }

/-- The token of an OAuth response, which is cached. -/
def storeToken (outside : Outside) (lane response : Json) : Method Json := do
  let fields ← attempted (asDict response)
  let token := getD fields (lit "access_token") .null
  if truthy token then do
    let expiresAt := getD fields (lit "expires_at") .null
    let expiry ← attempted
      (normalizeExpiryTimestamp (if truthy expiresAt then expiresAt else getD fields (lit "exp") .null))
    let limit ← soon outside
    if expiry.le limit then providerError (lit "GigaChat OAuth response has expired or invalid expiration") none
    else do
      modify (GigaChatClient.cache lane (some ⟨token, expiry⟩))
      pure token
  else providerError (lit "GigaChat OAuth response has no access token") none

/-- `access_token`. -/
def accessToken (py : Interpreter) (settings : ClientSettings) (outside : Outside) (lane : Json) : Method Json := do
  match ← cachedToken outside lane with
  | some token => pure token
  | none => do
    let data ← attempted ((urlencode [(lit "scope", settings.scope)]).elim
      (.error (.value (lit "UnicodeEncodeError"))) .ok)
    let credential ← credentialFor py outside lane
    let request : Request := { url := settings.oauthUrl, data, authorization := lit "Basic " ++ credential }
    let response ← requestJson outside settings.retryAttempts request (lit "GigaChat OAuth") 30
    storeToken outside lane response

/-! ## Operations -/

/-- The loop of `authorized_request_json` over the attempts that remain. -/
def authorizedFrom (py : Interpreter) (settings : ClientSettings) (outside : Outside) (lane : Json)
    (requestFactory : Json → Except PyExc Request) (label : Str) (timeout : ℕ) : List ℕ → Method Json
  | [] => providerError (label ++ lit " failed after token refresh") none
  | attempt :: later => do
    let token ← accessToken py settings outside lane
    let request ← attempted (requestFactory token)
    tryCatch (requestJson outside settings.retryAttempts request label timeout) fun raised =>
      if raised.statusCode = some 401 ∧ attempt = 0 then do
        modify (GigaChatClient.cache lane none)
        authorizedFrom py settings outside lane requestFactory label timeout later
      else throw raised

/-- `authorized_request_json`. -/
def authorizedRequestJson (py : Interpreter) (settings : ClientSettings) (outside : Outside) (lane : Json)
    (requestFactory : Json → Except PyExc Request) (label : Str) (timeout : ℕ) : Method Json :=
  authorizedFrom py settings outside lane requestFactory label timeout (List.range 2)

/-- The body of an operation's request. -/
def requestBody (config : Config) (op : Operation) (task : Fields) : Fields :=
  match op with
  | .complete =>
    [(lit "model", getD task (lit "model") (.str config.defaultModel)),
      (lit "messages", getD task (lit "messages") .null), (lit "stream", .bool false)] ++
      ["temperature", "max_tokens", "top_p"].filterMap fun field => (get? task (lit field)).map fun v => (lit field, v)
  | .embed =>
    [(lit "model", getD task (lit "model") (.str config.defaultEmbeddingModel)), (lit "input", getD task (lit "input") .null)]

/-- The `request_factory` of an operation. -/
def requestFactory (env : Env) (settings : ClientSettings) (op : Operation) (task : Fields) (token : Json) :
    Except PyExc Request := do
  let path := match op with
    | .complete => lit "/v1/chat/completions"
    | .embed => lit "/v1/embeddings"
  let body ← env.py.dumps (.obj (requestBody env.config op task))
  let data ← (utf8 body).elim (.error (.value (lit "UnicodeEncodeError"))) .ok
  let bearer ← env.py.str token
  .ok { url := settings.baseUrl ++ path, data, authorization := lit "Bearer " ++ bearer }

/-- `complete` and `embed` up to the response of the provider. -/
def callProvider (env : Env) (settings : ClientSettings) (outside : Outside) (op : Operation) (task : Fields) :
    Method Json := do
  attempted (checkRequest op task)
  let label := match op with
    | .complete => lit "GigaChat completion"
    | .embed => lit "GigaChat embeddings"
  authorizedRequestJson env.py settings outside (getD task (lit "credential_lane") (.str (lit "primary")))
    (requestFactory env settings op task) label 120

end NeuroLab.ControlPlane
