import NeuroLab.Common.Coupling
import NeuroLab.ControlPlane.Retries
import NeuroLab.Python.Rounding

/-!
# The tokens of the provider client

Every token that `access_token` returns comes from an exchange under the credential of its own
lane, also when it comes from the cache, and the one that follows a rejection comes from a new
exchange. A token that is returned is fresh unless the endpoint reports an expiry that reads as
a NaN: neither comparison with the clock holds of it, so that it passes the check of the
response. An expiry in seconds and the same in milliseconds make no difference.
-/

namespace NeuroLab.ControlPlane

open Python Common

/-! ## Runs of the client -/

/-- `complete` and `embed`. -/
def Operation.run (env : Env) (settings : ClientSettings) (outside : Outside) (op : Operation) (task : Fields) : Method Fields := do
  let response ← callProvider env settings outside op task
  attempted (match op with
    | .complete => completeResult env.config task response
    | .embed => embedResult env.config task response)

/-- A pass of the loop of `authorized_request_json`: the client before it, what `access_token` returned, the request made
with the token and the exception it ended with, and the clients behind both. -/
structure Pass where
  lane : Json
  before : GigaChatClient
  token : Except Raised Json
  held : GigaChatClient
  request : Option Request
  failure : Option Raised
  behind : GigaChatClient

/-- The passes of the loop over the attempts that remain, and its outcome. -/
def passesFrom (py : Interpreter) (settings : ClientSettings) (outside : Outside) (lane : Json)
    (requestFactory : Json → Except PyExc Request) (label : Str) (timeout : ℕ) :
    List ℕ → GigaChatClient → List Pass × (Except Raised Json × GigaChatClient)
  | [], client => ([], (.error ⟨.provider (label ++ lit " failed after token refresh"), none⟩, client))
  | attempt :: later, client =>
    match (accessToken py settings outside lane).outcome client with
    | (.error raised, held) =>
      ([⟨lane, client, .error raised, held, none, none, held⟩], (.error raised, held))
    | (.ok token, held) =>
      match requestFactory token with
      | .error exc => ([⟨lane, client, .ok token, held, none, none, held⟩], (.error ⟨exc, none⟩, held))
      | .ok request =>
        match (requestJson outside settings.retryAttempts request label timeout).outcome held with
        | (.ok body, behind) => ([⟨lane, client, .ok token, held, some request, none, behind⟩], (.ok body, behind))
        | (.error raised, behind) =>
          let pass : Pass := ⟨lane, client, .ok token, held, some request, some raised, behind⟩
          if raised.statusCode = some 401 ∧ attempt = 0 then
            let (passes, outcome) :=
              passesFrom py settings outside lane requestFactory label timeout later (behind.cache lane none)
            (pass :: passes, outcome)
          else ([pass], (.error raised, behind))

/-- The passes of a call of `complete` or `embed`. -/
def passes (env : Env) (settings : ClientSettings) (outside : Outside) (op : Operation) (task : Fields)
    (client : GigaChatClient) : List Pass :=
  match checkRequest op task with
  | .error _ => []
  | .ok () =>
    let label := match op with
      | .complete => lit "GigaChat completion"
      | .embed => lit "GigaChat embeddings"
    (passesFrom env.py settings outside (getD task (lit "credential_lane") (.str (lit "primary")))
      (requestFactory env settings op task) label 120 (List.range 2) client).1

/-- The passes and the result of each call, and the client behind the last. -/
def history (env : Env) (settings : ClientSettings) (outside : Outside) :
    List (Operation × Fields) → GigaChatClient → List (List Pass × Except Raised Fields) × GigaChatClient
  | [], client => ([], client)
  | (op, task) :: calls, client =>
    let (result, client') := (op.run env settings outside task).outcome client
    let (later, last) := history env settings outside calls client'
    ((passes env settings outside op task client, result) :: later, last)

variable {α : Type} {py : Interpreter} {env : Env} {settings : ClientSettings} {outside : Outside} {client client' : GigaChatClient}
  {request : Request} {label : Str} {timeout : ℕ} {lane : Json} {task : Fields} {op : Operation}
  {requestFactory : Json → Except PyExc Request}

theorem outcome_attempted (x : Except PyExc α) (client : GigaChatClient) :
    (attempted x).outcome client = (x.mapError fun exc => ⟨exc, none⟩, client) := by
  cases x <;> rfl

/-- The passes are those of the loop. -/
theorem passesFrom_outcome (attempts : List ℕ) (client : GigaChatClient) :
    (passesFrom py settings outside lane requestFactory label timeout attempts client).2 =
      (authorizedFrom py settings outside lane requestFactory label timeout attempts).outcome client := by
  induction attempts generalizing client with
  | nil => rfl
  | cons attempt later ih =>
    rw [passesFrom, authorizedFrom, Program.outcome_bind]
    rcases (accessToken py settings outside lane).outcome client with ⟨result, held⟩
    cases result with
    | error raised => rfl
    | ok token =>
      simp only
      rw [Program.outcome_bind, outcome_attempted]
      cases requestFactory token with
      | error exc => rfl
      | ok request =>
        simp only [Except.mapError]
        rw [Program.outcome_tryCatch]
        rcases (requestJson outside settings.retryAttempts request label timeout).outcome held with ⟨result, behind⟩
        cases result with
        | ok body => rfl
        | error raised =>
          simp only
          split
          · exact ih _
          · rfl

/-! ## Progress -/

/-- The events go on from those before. -/
def Continues (client client' : GigaChatClient) : Prop := client.events <:+ client'.events

/-- Events of a kind come on top, and the cache stays. -/
def Adds (kind : Event → Prop) (client client' : GigaChatClient) : Prop :=
  client'.tokens = client.tokens ∧ ∃ new, client'.events = new ++ client.events ∧ ∀ event ∈ new, kind event

/-- An attempt is one at the request. -/
def Event.OnlyAt (request : Request) (event : Event) : Prop := ∀ other timeout, event = .attempt other timeout → other = request

instance : IsPreorder GigaChatClient Continues where
  refl client := List.suffix_refl client.events
  trans _ _ _ := List.IsSuffix.trans

instance (kind : Event → Prop) : IsPreorder GigaChatClient (Adds kind) where
  refl client := ⟨rfl, [], rfl, fun _ h => absurd h List.not_mem_nil⟩
  trans := by
    rintro client client' client'' ⟨htokens, new, hevents, hnew⟩ ⟨htokens', new', hevents', hnew'⟩
    refine ⟨htokens'.trans htokens, new' ++ new, ?_, ?_⟩
    · rw [hevents', hevents, List.append_assoc]
    · intro event hmem
      exact (List.mem_append.mp hmem).elim (hnew' event) (hnew event)

theorem Adds.continues {kind : Event → Prop} (h : Adds kind client client') : Continues client client' := by
  obtain ⟨-, new, hevents, -⟩ := h
  exact ⟨new, hevents.symm⟩

theorem Adds.mono {kind kind' : Event → Prop} (h : Adds kind client client') (hkind : ∀ event, kind event → kind' event) :
    Adds kind' client client' := by
  obtain ⟨htokens, new, hevents, hnew⟩ := h
  exact ⟨htokens, new, hevents, fun event hmem => hkind event (hnew event hmem)⟩

theorem adds_note {kind : Event → Prop} {event : Event} (h : kind event) (client : GigaChatClient) :
    Adds kind client (client.note event) :=
  ⟨rfl, [event], rfl, fun _ hmem => List.mem_singleton.mp hmem ▸ h⟩

theorem adds_attempted {kind : Event → Prop} (x : Except PyExc α) : Advances (Adds kind) (attempted x) := by
  cases x with
  | ok a => exact Advances.of_pure a
  | error exc => exact Advances.of_throw _

theorem adds_sleep (delay : Number) : Advances (Adds (Event.OnlyAt request)) (sleep delay) := by
  unfold sleep
  split
  · exact Advances.of_throw _
  · apply Advances.of_modify
    apply adds_note
    rintro other timeout ⟨⟩

theorem adds_urlopen : Advances (Adds (Event.OnlyAt request)) (urlopen outside request timeout) := by
  have hkind : Event.OnlyAt request (.attempt request timeout) := by
    rintro other timeout' ⟨⟩
    rfl
  exact Advances.bind Advances.of_get fun _ => Advances.bind (Advances.of_modify (adds_note hkind)) fun _ => Advances.of_pure _

/-- All that a request does is attempts at it and pauses. -/
theorem adds_requestFrom (retryAttempts : ℤ) (attempts : List ℕ) :
    Advances (Adds (Event.OnlyAt request)) (requestFrom outside retryAttempts request label timeout attempts) := by
  induction attempts with
  | nil => exact Advances.of_throw _
  | cons attempt later ih =>
    rw [requestFrom]
    apply Advances.bind adds_urlopen
    intro answer
    cases answer with
    | answered body => exact Advances.of_pure body
    | httpError code retryAfter =>
      simp only
      split
      · exact Advances.bind (adds_sleep _) fun _ => ih
      · exact Advances.of_throw _
    | unreachable cls =>
      simp only
      split
      · exact Advances.bind (adds_sleep _) fun _ => ih
      · exact Advances.of_throw _
    | raised exc => exact Advances.of_throw _

theorem adds_requestJson (retryAttempts : ℤ) :
    Advances (Adds (Event.OnlyAt request)) (requestJson outside retryAttempts request label timeout) :=
  adds_requestFrom retryAttempts _

/-- A request that returns has just been answered. -/
theorem requestFrom_ok {retryAttempts : ℤ} {attempts : List ℕ} {body : Json}
    (h : (requestFrom outside retryAttempts request label timeout attempts).outcome client = (.ok body, client')) :
    ∃ earlier, client'.events = .attempt request timeout :: earlier ∧ client.events <:+ earlier ∧
      outside.attempt (earlier.countP Event.isAttempt) = .answered body := by
  induction attempts generalizing client with
  | nil => cases h
  | cons attempt later ih =>
    rw [requestFrom, Program.outcome_bind_of_ok outcome_urlopen] at h
    have hagain : ∀ delay, (do sleep delay; requestFrom outside retryAttempts request label timeout later).outcome
        (client.note (.attempt request timeout)) = (.ok body, client') →
        ∃ earlier, client'.events = .attempt request timeout :: earlier ∧ client.events <:+ earlier ∧
          outside.attempt (earlier.countP Event.isAttempt) = .answered body := by
      intro delay h
      obtain ⟨_, paused, hpause, h⟩ := Program.outcome_bind_eq_ok_iff.mp h
      obtain ⟨earlier, hevents, hsuffix, hanswer⟩ := ih h
      have hslept : Continues (client.note (.attempt request timeout)) paused := by
        have hadds : Adds (Event.OnlyAt request) (client.note (.attempt request timeout))
            ((sleep delay).after (client.note (.attempt request timeout))) := adds_sleep delay _
        rw [Program.after, hpause] at hadds
        exact hadds.continues
      exact ⟨earlier, hevents, ((List.suffix_cons _ client.events).trans hslept).trans hsuffix, hanswer⟩
    cases hanswer : outside.attempt client.attempts with
    | answered answer =>
      rw [hanswer] at h
      cases h
      exact ⟨client.events, rfl, List.suffix_refl _, hanswer⟩
    | httpError code retryAfter =>
      rw [hanswer] at h
      simp only at h
      split at h
      · exact hagain _ h
      · cases h
    | unreachable cls =>
      rw [hanswer] at h
      simp only at h
      split at h
      · exact hagain _ h
      · cases h
    | raised exc =>
      rw [hanswer] at h
      cases h

/-! ## How a token is had -/

/-- The reading of the clock that comes after some events, and a minute more. -/
def deadline (outside : Outside) (events : List Event) : Number :=
  (Number.double (outside.time (events.countP Event.isClock))).plus 60

/-- The credential is the one that is configured for the lane. -/
def OwnCredential (outside : Outside) (lane : Json) (credential : Str) : Prop :=
  credential ≠ [] ∧ ∃ key, key ≠ [] ∧ keyEnv outside lane = some key ∧ outside.getenv key = some credential

/-- `token_data.get("expires_at") or token_data.get("exp")`. -/
def reportedExpiry (fields : Fields) : Json :=
  let expiresAt := getD fields (lit "expires_at") .null
  if truthy expiresAt then expiresAt else getD fields (lit "exp") .null

/-- The request that follows some events asks the OAuth endpoint under the credential of the lane, and the answer grants
the token. -/
structure Grants (settings : ClientSettings) (outside : Outside) (lane : Json) (cached : Token) (request : Request)
    (earlier : List Event) : Prop where
  url : request.url = settings.oauthUrl
  authorized : ∃ credential, OwnCredential outside lane credential ∧ request.authorization = lit "Basic " ++ credential
  answered : ∃ fields, outside.attempt (earlier.countP Event.isAttempt) = .answered (.obj fields) ∧
    truthy cached.token = true ∧ getD fields (lit "access_token") .null = cached.token ∧
    normalizeExpiryTimestamp (reportedExpiry fields) = .ok cached.expiresAt

/-- A token of the lane was granted among the events, behind those of a past. -/
def Exchanged (settings : ClientSettings) (outside : Outside) (past events : List Event) (lane : Json) (cached : Token) : Prop :=
  ∃ request earlier, Grants settings outside lane cached request earlier ∧ .attempt request 30 :: earlier <:+ events ∧
    past <:+ earlier

/-- What `access_token` does: it raises, it returns the token of the cache, or it exchanges the credential and caches the
new token. -/
inductive Access (settings : ClientSettings) (outside : Outside) (lane : Json) (client : GigaChatClient) :
    Except Raised Json × GigaChatClient → Prop
  | raised (raised : Raised) {client' : GigaChatClient} (hadds : Adds (fun _ => True) client client') :
    Access settings outside lane client (.error raised, client')
  | cached {cached : Token} (htokens : client.tokens lane = some cached)
    (hfresh : (deadline outside client.events).lt cached.expiresAt = true) :
    Access settings outside lane client (.ok cached.token, client.note .clock)
  | exchanged {cached : Token} {request : Request} {earlier : List Event} {client' : GigaChatClient}
    (hgrants : Grants settings outside lane cached request earlier) (hsuffix : client.events <:+ earlier)
    (htokens : client'.tokens = client.tokens) (hevents : client'.events = .clock :: .attempt request 30 :: earlier)
    (hfresh : cached.expiresAt.le (deadline outside (.attempt request 30 :: earlier)) = false) :
    Access settings outside lane client (.ok cached.token, client'.cache lane (some cached))

theorem outcome_soon :
    (soon outside).outcome client = (.ok (deadline outside client.events), client.note .clock) := rfl

theorem outcome_laneError (py : Interpreter) (text : String) (lane : Json) :
    ∃ raised, ∀ client, (laneError py text lane : Method α).outcome client = (.error raised, client) := by
  unfold laneError
  cases hname : py.str lane with
  | error exc =>
    refine ⟨⟨exc, none⟩, fun client => ?_⟩
    rfl
  | ok name =>
    refine ⟨⟨.provider (lit text ++ name), none⟩, fun client => ?_⟩
    rfl

theorem outcome_credentialFor (py : Interpreter) (outside : Outside) (lane : Json) (client : GigaChatClient) :
    (∃ raised, (credentialFor py outside lane).outcome client = (.error raised, client)) ∨
      ∃ credential, OwnCredential outside lane credential ∧
        (credentialFor py outside lane).outcome client = (.ok credential, client) := by
  have hrefused : ∀ text : String, ∃ raised, (laneError py text lane : Method Str).outcome client = (.error raised, client) := by
    intro text
    obtain ⟨raised, hraised⟩ := outcome_laneError (α := Str) py text lane
    exact ⟨raised, hraised client⟩
  rw [credentialFor, Program.outcome_bind, outcome_attempted]
  cases hashed lane with
  | error exc => exact .inl ⟨_, rfl⟩
  | ok found =>
    simp only [Except.mapError]
    cases hkey : (keyEnv outside lane).filter (· ≠ []) with
    | none => exact .inl (hrefused _)
    | some key =>
      simp only
      cases hcredential : (outside.getenv key).filter (· ≠ []) with
      | none => exact .inl (hrefused _)
      | some credential =>
        obtain ⟨hkey, hkeyne⟩ := Option.filter_eq_some_iff.mp hkey
        obtain ⟨hcredential, hne⟩ := Option.filter_eq_some_iff.mp hcredential
        exact .inr ⟨credential, ⟨of_decide_eq_true hne, key, of_decide_eq_true hkeyne, hkey, hcredential⟩, rfl⟩

theorem outcome_cachedToken (outside : Outside) (lane : Json) (client : GigaChatClient) :
    (∃ result client', (cachedToken outside lane).outcome client = (result, client') ∧ (∀ token, result ≠ .ok (some token)) ∧
      Adds (fun _ => True) client client') ∨
    ∃ cached, client.tokens lane = some cached ∧ (deadline outside client.events).lt cached.expiresAt = true ∧
      (cachedToken outside lane).outcome client = (.ok (some cached.token), client.note .clock) := by
  rw [cachedToken, Program.outcome_bind, outcome_attempted]
  cases hashed lane with
  | error exc => exact .inl ⟨_, _, rfl, (fun _ h => by cases h), refl_of _ client⟩
  | ok found =>
    simp only [Except.mapError]
    rw [Program.outcome_bind_of_ok (Program.outcome_get client)]
    cases htokens : client.tokens lane with
    | none => exact .inl ⟨_, _, rfl, (fun _ h => by cases h), refl_of _ client⟩
    | some cached =>
      simp only
      rw [Program.outcome_bind_of_ok outcome_soon, Program.outcome_pure]
      cases hfresh : (deadline outside client.events).lt cached.expiresAt with
      | false => exact .inl ⟨_, _, rfl, (fun _ h => by cases h), adds_note trivial client⟩
      | true => exact .inr ⟨cached, rfl, hfresh, rfl⟩

/-- What becomes of the members of an OAuth response. -/
theorem outcome_storeToken_obj (outside : Outside) (lane : Json) (fields : Fields) (client : GigaChatClient) :
    (storeToken outside lane (.obj fields)).outcome client =
      if truthy (getD fields (lit "access_token") .null) = true then
        match normalizeExpiryTimestamp (reportedExpiry fields) with
        | .error exc => (.error ⟨exc, none⟩, client)
        | .ok expiry =>
          if expiry.le (deadline outside client.events) = true then
            (.error ⟨.provider (lit "GigaChat OAuth response has expired or invalid expiration"), none⟩, client.note .clock)
          else
            (.ok (getD fields (lit "access_token") .null),
              (client.note .clock).cache lane (some ⟨getD fields (lit "access_token") .null, expiry⟩))
      else (.error ⟨.provider (lit "GigaChat OAuth response has no access token"), none⟩, client) := by
  have hreported : (if truthy (getD fields (lit "expires_at") .null) = true then getD fields (lit "expires_at") .null
      else getD fields (lit "exp") .null) = reportedExpiry fields := rfl
  rw [storeToken, Program.outcome_bind, outcome_attempted]
  simp only [asDict, Except.mapError]
  rw [hreported]
  split
  · rw [Program.outcome_bind, outcome_attempted]
    cases normalizeExpiryTimestamp (reportedExpiry fields) with
    | error exc => rfl
    | ok expiry =>
      simp only [Except.mapError]
      rw [Program.outcome_bind_of_ok outcome_soon]
      split
      · rfl
      · rfl
  · rfl

theorem outcome_storeToken (outside : Outside) (lane response : Json) (client : GigaChatClient) :
    (∃ raised client', (storeToken outside lane response).outcome client = (.error raised, client') ∧
      Adds (fun _ => True) client client') ∨
    ∃ fields cached, response = .obj fields ∧ truthy cached.token = true ∧
      getD fields (lit "access_token") .null = cached.token ∧
      normalizeExpiryTimestamp (reportedExpiry fields) = .ok cached.expiresAt ∧
      cached.expiresAt.le (deadline outside client.events) = false ∧
      (storeToken outside lane response).outcome client =
        (.ok cached.token, (client.note .clock).cache lane (some cached)) := by
  cases response with
  | obj fields =>
    rw [outcome_storeToken_obj]
    cases htruthy : truthy (getD fields (lit "access_token") .null) with
    | false => exact .inl ⟨_, _, rfl, refl_of _ client⟩
    | true =>
      rw [if_pos rfl]
      cases hexpiry : normalizeExpiryTimestamp (reportedExpiry fields) with
      | error exc => exact .inl ⟨_, _, rfl, refl_of _ client⟩
      | ok expiry =>
        simp only
        cases hfresh : expiry.le (deadline outside client.events) with
        | true => exact .inl ⟨_, _, rfl, adds_note trivial client⟩
        | false => exact .inr ⟨fields, ⟨_, expiry⟩, rfl, htruthy, rfl, hexpiry, hfresh, rfl⟩
  | null => exact .inl ⟨_, _, rfl, refl_of _ client⟩
  | bool b => exact .inl ⟨_, _, rfl, refl_of _ client⟩
  | int n => exact .inl ⟨_, _, rfl, refl_of _ client⟩
  | float x => exact .inl ⟨_, _, rfl, refl_of _ client⟩
  | str text => exact .inl ⟨_, _, rfl, refl_of _ client⟩
  | arr items => exact .inl ⟨_, _, rfl, refl_of _ client⟩

/-- `access_token` does one of the three. -/
theorem access (py : Interpreter) (settings : ClientSettings) (outside : Outside) (lane : Json) (client : GigaChatClient) :
    Access settings outside lane client ((accessToken py settings outside lane).outcome client) := by
  rw [accessToken, Program.outcome_bind]
  rcases outcome_cachedToken outside lane client with ⟨result, looked, hlookup, hnone, hlooked⟩ | ⟨cached, htokens, hfresh, hlookup⟩
  · rw [hlookup]
    cases result with
    | error raised => exact .raised raised hlooked
    | ok found =>
      cases found with
      | some token => exact absurd rfl (hnone token)
      | none =>
        simp only
        rw [Program.outcome_bind, outcome_attempted]
        cases urlencode [(lit "scope", settings.scope)] with
        | none => exact .raised _ hlooked
        | some data =>
          simp only [Option.elim, Except.mapError]
          rw [Program.outcome_bind]
          rcases outcome_credentialFor py outside lane looked with ⟨raised, hraised⟩ | ⟨credential, hown, hcredential⟩
          · rw [hraised]
            exact .raised raised hlooked
          · rw [hcredential]
            simp only
            generalize hrequest : (⟨settings.oauthUrl, data, lit "Basic " ++ credential⟩ : Request) = request
            rw [Program.outcome_bind]
            have hadds : Adds (Event.OnlyAt request) looked
                ((requestJson outside settings.retryAttempts request (lit "GigaChat OAuth") 30).after looked) :=
              adds_requestJson settings.retryAttempts looked
            unfold Program.after at hadds
            cases hanswered : (requestJson outside settings.retryAttempts request (lit "GigaChat OAuth") 30).outcome looked with
            | mk result answered =>
              rw [hanswered] at hadds
              have hanswer : Adds (fun _ => True) client answered :=
                trans_of (Adds fun _ => True) hlooked (hadds.mono fun _ _ => trivial)
              cases result with
              | error raised => exact .raised raised hanswer
              | ok response =>
                obtain ⟨earlier, hevents, hsuffix, hresponse⟩ := requestFrom_ok hanswered
                simp only
                rcases outcome_storeToken outside lane response answered with ⟨raised, refused, hstore, hrefused⟩ |
                  ⟨fields, cached, rfl, htruthy, htoken, hexpiry, hfresh, hstore⟩
                · rw [hstore]
                  exact .raised raised (trans_of (Adds fun _ => True) hanswer hrefused)
                · rw [hstore]
                  have hgrants : Grants settings outside lane cached request earlier := by
                    subst hrequest
                    exact ⟨rfl, ⟨credential, hown, rfl⟩, fields, hresponse, htruthy, htoken, hexpiry⟩
                  have hclock : (answered.note .clock).events = .clock :: .attempt request 30 :: earlier := by
                    rw [GigaChatClient.note, hevents]
                  rw [hevents] at hfresh
                  exact .exchanged hgrants (hlooked.continues.trans hsuffix) hanswer.1 hclock hfresh
  · rw [hlookup]
    exact .cached htokens hfresh

/-! ## Isolation and freshness -/

/-- The token was later than the clock and a minute when the clock was last read. -/
def Fresh (outside : Outside) (events : List Event) (expiry : Number) : Prop :=
  ∃ earlier, events = .clock :: earlier ∧ (deadline outside earlier).lt expiry = true

/-- No exchange among the events reports an expiry that reads as a NaN. -/
def NanFree (outside : Outside) (events : List Event) : Prop :=
  ∀ request earlier fields, .attempt request 30 :: earlier <:+ events →
    outside.attempt (earlier.countP Event.isAttempt) = .answered (.obj fields) →
    truthy (getD fields (lit "access_token") .null) = true → normalizeExpiryTimestamp (reportedExpiry fields) ≠ .ok .nan

/-- Every cached token was granted to its lane. -/
def CacheKept (settings : ClientSettings) (outside : Outside) (client : GigaChatClient) : Prop :=
  ∀ lane cached, client.tokens lane = some cached → Exchanged settings outside [] client.events lane cached

/-- The token of a pass is the lane's own and fresh, and the pass sends no other request than its own. -/
structure Pass.Sound (settings : ClientSettings) (outside : Outside) (pass : Pass) : Prop where
  exchanged : ∀ token, pass.token = .ok token → ∃ expiry,
    Exchanged settings outside [] pass.held.events pass.lane ⟨token, expiry⟩ ∧ Fresh outside pass.held.events expiry
  requested : Adds (fun event => ∀ request timeout, event = .attempt request timeout → pass.request = some request)
    pass.held pass.behind

/-- A call takes at most two passes, and a second one only after a 401, with a token that was granted after it. -/
structure SoundCall (settings : ClientSettings) (outside : Outside) (passes : List Pass) : Prop where
  length_le : passes.length ≤ 2
  sound : ∀ pass ∈ passes, pass.Sound settings outside
  reissued : ∀ first second, passes = [first, second] →
    (∃ raised, first.failure = some raised ∧ raised.statusCode = some 401) ∧
    ∀ token, second.token = .ok token → ∃ expiry,
      Exchanged settings outside first.behind.events second.held.events second.lane ⟨token, expiry⟩

theorem Exchanged.mono {past events events' : List Event} {cached : Token}
    (h : Exchanged settings outside past events lane cached) (hsuffix : events <:+ events') :
    Exchanged settings outside past events' lane cached := by
  obtain ⟨request, earlier, hgrants, hmem, hpast⟩ := h
  exact ⟨request, earlier, hgrants, hmem.trans hsuffix, hpast⟩

theorem NanFree.anti {events events' : List Event} (h : NanFree outside events') (hsuffix : events <:+ events') :
    NanFree outside events :=
  fun request earlier fields hmem => h request earlier fields (hmem.trans hsuffix)

theorem kept_initial : CacheKept settings outside .initial := fun _ _ h => by cases h

theorem CacheKept.of_adds {kind : Event → Prop} (h : CacheKept settings outside client) (hadds : Adds kind client client') :
    CacheKept settings outside client' := by
  intro lane cached htokens
  rw [hadds.1] at htokens
  exact (h lane cached htokens).mono hadds.continues

theorem CacheKept.cache (h : CacheKept settings outside client) {token : Option Token}
    (htoken : ∀ cached, token = some cached → Exchanged settings outside [] client.events lane cached) :
    CacheKept settings outside (client.cache lane token) := by
  intro other cached htokens
  by_cases hlane : other = lane
  · subst hlane
    rw [tokens_cache] at htokens
    exact htoken cached htokens
  · exact h other cached ((if_neg hlane).symm.trans htokens)

theorem deadline_ne_nan (outside : Outside) (events : List Event) : deadline outside events ≠ .nan := by
  have hfinite : (Number.double (outside.time (events.countP Event.isClock))).isFinite = true := rfl
  rw [deadline, Number.plus, if_pos hfinite]
  exact Number.ofRat_ne_nan _

theorem Access.continues {outcome : Except Raised Json × GigaChatClient} (h : Access settings outside lane client outcome) :
    Continues client outcome.2 := by
  cases h with
  | raised raised hadds => exact hadds.continues
  | cached htokens hfresh => exact List.suffix_cons .clock client.events
  | exchanged hgrants hsuffix htokens hevents hfresh =>
    rename_i cached request earlier client'
    have hrest : .attempt request 30 :: earlier <:+ client'.events := hevents ▸ List.suffix_cons _ _
    exact (hsuffix.trans (List.suffix_cons _ _)).trans hrest

/-- The cache holds granted tokens behind `access_token` if it does before. -/
theorem Access.kept {outcome : Except Raised Json × GigaChatClient} (h : Access settings outside lane client outcome)
    (hkept : CacheKept settings outside client) : CacheKept settings outside outcome.2 := by
  have hcontinues := h.continues
  cases h with
  | raised raised hadds => exact hkept.of_adds hadds
  | cached htokens hfresh =>
    have hadds : Adds (fun _ => True) client (client.note .clock) := adds_note trivial client
    exact hkept.of_adds hadds
  | exchanged hgrants hsuffix htokens hevents hfresh =>
    rename_i cached request earlier client'
    have hrest : .attempt request 30 :: earlier <:+ client'.events := hevents ▸ List.suffix_cons _ _
    apply CacheKept.cache
    · intro other cached htoken
      rw [htokens] at htoken
      exact (hkept other cached htoken).mono hcontinues
    · rintro _ ⟨⟩
      exact ⟨request, earlier, hgrants, hrest, List.nil_suffix⟩

/-- A token that is returned was granted to the lane, and it is fresh. -/
theorem Access.returned {token : Json} {held : GigaChatClient} (h : Access settings outside lane client (.ok token, held))
    (hkept : CacheKept settings outside client) (hnan : NanFree outside held.events) :
    ∃ expiry, Exchanged settings outside [] held.events lane ⟨token, expiry⟩ ∧ Fresh outside held.events expiry := by
  cases h with
  | cached htokens hfresh =>
    rename_i cached
    exact ⟨cached.expiresAt, (hkept lane cached htokens).mono (List.suffix_cons _ _), client.events, rfl, hfresh⟩
  | exchanged hgrants hsuffix htokens hevents hfresh =>
    rename_i cached request earlier client'
    have hrest : .attempt request 30 :: earlier <:+ client'.events := hevents ▸ List.suffix_cons _ _
    refine ⟨cached.expiresAt, ⟨request, earlier, hgrants, hrest, List.nil_suffix⟩, .attempt request 30 :: earlier, hevents, ?_⟩
    obtain ⟨fields, hanswer, htruthy, htoken, hexpiry⟩ := hgrants.answered
    have hne : cached.expiresAt ≠ .nan := by
      intro heq
      exact hnan request earlier fields hrest hanswer (htoken ▸ htruthy) (heq ▸ hexpiry)
    rw [Number.le_eq_not_lt hne (deadline_ne_nan outside _)] at hfresh
    simpa using hfresh

/-- Without a cached token of the lane, the one that is returned has just been granted. -/
theorem Access.reissued {token : Json} {held : GigaChatClient} (h : Access settings outside lane client (.ok token, held))
    (hnone : client.tokens lane = none) : ∃ expiry, Exchanged settings outside client.events held.events lane ⟨token, expiry⟩ := by
  cases h with
  | cached htokens hfresh =>
    rw [hnone] at htokens
    cases htokens
  | exchanged hgrants hsuffix htokens hevents hfresh =>
    rename_i cached request earlier client'
    have hrest : .attempt request 30 :: earlier <:+ client'.events := hevents ▸ List.suffix_cons _ _
    exact ⟨cached.expiresAt, request, earlier, hgrants, hrest, hsuffix⟩

/-- The first pass of the loop, which is the last unless its request is rejected at the first attempt. -/
theorem passesFrom_cons (py : Interpreter) (settings : ClientSettings) (outside : Outside) (lane : Json)
    (requestFactory : Json → Except PyExc Request) (label : Str) (timeout attempt : ℕ) (later : List ℕ) (client : GigaChatClient) :
    ∃ pass : Pass, pass.lane = lane ∧ (accessToken py settings outside lane).outcome client = (pass.token, pass.held) ∧
      Adds (fun event => ∀ request timeout, event = .attempt request timeout → pass.request = some request) pass.held pass.behind ∧
      ((∃ result, passesFrom py settings outside lane requestFactory label timeout (attempt :: later) client =
          ([pass], (result, pass.behind))) ∨
        (∃ raised, pass.failure = some raised ∧ raised.statusCode = some 401) ∧
          passesFrom py settings outside lane requestFactory label timeout (attempt :: later) client =
            (pass :: (passesFrom py settings outside lane requestFactory label timeout later (pass.behind.cache lane none)).1,
              (passesFrom py settings outside lane requestFactory label timeout later (pass.behind.cache lane none)).2)) := by
  rw [passesFrom]
  rcases (accessToken py settings outside lane).outcome client with ⟨result, held⟩
  cases result with
  | error raised => exact ⟨⟨lane, client, .error raised, held, none, none, held⟩, rfl, rfl, refl_of _ held, .inl ⟨_, rfl⟩⟩
  | ok token =>
    simp only
    cases requestFactory token with
    | error exc => exact ⟨⟨lane, client, .ok token, held, none, none, held⟩, rfl, rfl, refl_of _ held, .inl ⟨_, rfl⟩⟩
    | ok request =>
      simp only
      have hadds : Adds (Event.OnlyAt request) held
          ((requestJson outside settings.retryAttempts request label timeout).after held) :=
        adds_requestJson settings.retryAttempts held
      unfold Program.after at hadds
      generalize (requestJson outside settings.retryAttempts request label timeout).outcome held = outcome at hadds ⊢
      obtain ⟨result, behind⟩ := outcome
      have hat : Adds (fun event => ∀ other timeout, event = .attempt other timeout → some request = some other) held behind :=
        hadds.mono fun event hat other timeout heq => congrArg some (hat other timeout heq).symm
      cases result with
      | ok body => exact ⟨⟨lane, client, .ok token, held, some request, none, behind⟩, rfl, rfl, hat, .inl ⟨_, rfl⟩⟩
      | error raised =>
        simp only
        refine ⟨⟨lane, client, .ok token, held, some request, some raised, behind⟩, rfl, rfl, hat, ?_⟩
        by_cases hretry : raised.statusCode = some 401 ∧ attempt = 0
        · rw [if_pos hretry]
          exact .inr ⟨⟨raised, rfl, hretry.1⟩, rfl⟩
        · rw [if_neg hretry]
          exact .inl ⟨_, rfl⟩

/-- The invariant of the cache holds behind the loop, and its passes are sound. -/
theorem passesFrom_sound (attempts : List ℕ) (hkept : CacheKept settings outside client) :
    CacheKept settings outside (passesFrom py settings outside lane requestFactory label timeout attempts client).2.2 ∧
      Continues client (passesFrom py settings outside lane requestFactory label timeout attempts client).2.2 ∧
      (NanFree outside (passesFrom py settings outside lane requestFactory label timeout attempts client).2.2.events →
        ∀ pass ∈ (passesFrom py settings outside lane requestFactory label timeout attempts client).1,
          pass.Sound settings outside) := by
  induction attempts generalizing client with
  | nil => exact ⟨hkept, refl_of Continues client, fun _ _ h => absurd h List.not_mem_nil⟩
  | cons attempt later ih =>
    obtain ⟨pass, hlane, htaken, hadds, hlast⟩ :=
      passesFrom_cons py settings outside lane requestFactory label timeout attempt later client
    have haccess := access py settings outside lane client
    rw [htaken] at haccess
    have hheld := haccess.kept hkept
    have hcontinues := haccess.continues
    have hbehind := hheld.of_adds hadds
    have hthrough : Continues client pass.behind := trans_of Continues hcontinues hadds.continues
    have hsound : NanFree outside pass.behind.events → pass.Sound settings outside := by
      intro hnan
      refine ⟨fun token htoken => ?_, hadds⟩
      rw [htoken] at haccess
      rw [hlane]
      exact haccess.returned hkept (hnan.anti hadds.continues)
    rcases hlast with ⟨result, hlast⟩ | ⟨-, hlast⟩
    · rw [hlast]
      refine ⟨hbehind, hthrough, fun hnan pass' hmem => ?_⟩
      rw [List.mem_singleton.mp hmem]
      exact hsound hnan
    · have hforgotten : CacheKept settings outside (pass.behind.cache lane none) := hbehind.cache fun _ h => by cases h
      obtain ⟨hlater, hrest, hpasses⟩ := ih hforgotten
      rw [hlast]
      refine ⟨hlater, trans_of Continues hthrough hrest, fun hnan pass' hmem => ?_⟩
      rcases List.mem_cons.mp hmem with rfl | hmem
      · exact hsound (hnan.anti hrest)
      · exact hpasses hnan pass' hmem

/-- The passes of the two attempts. -/
theorem passesFrom_two (hkept : CacheKept settings outside client)
    (hnan : NanFree outside (passesFrom py settings outside lane requestFactory label timeout (List.range 2) client).2.2.events) :
    SoundCall settings outside (passesFrom py settings outside lane requestFactory label timeout (List.range 2) client).1 := by
  have hsound := (passesFrom_sound (List.range 2) hkept).2.2 hnan
  have hrange : List.range 2 = [0, 1] := rfl
  rw [hrange] at hsound ⊢
  obtain ⟨pass, -, -, -, hlast⟩ := passesFrom_cons py settings outside lane requestFactory label timeout 0 [1] client
  rcases hlast with ⟨result, hlast⟩ | ⟨hrejected, hlast⟩
  · rw [hlast] at hsound ⊢
    exact ⟨Nat.le_succ 1, hsound, fun first second h => by cases h⟩
  · obtain ⟨retry, hlane, htaken, -, hretry⟩ :=
      passesFrom_cons py settings outside lane requestFactory label timeout 1 [] (pass.behind.cache lane none)
    have haccess := access py settings outside lane (pass.behind.cache lane none)
    rw [htaken] at haccess
    have hpasses : (passesFrom py settings outside lane requestFactory label timeout [0, 1] client).1 = [pass, retry] := by
      rw [hlast]
      rcases hretry with ⟨result, hretry⟩ | ⟨-, hretry⟩ <;> rw [hretry]
      rfl
    rw [hpasses] at hsound ⊢
    refine ⟨le_rfl, hsound, ?_⟩
    rintro first second ⟨⟩
    refine ⟨hrejected, fun token htoken => ?_⟩
    rw [htoken] at haccess
    rw [hlane]
    exact haccess.reissued (tokens_cache lane none pass.behind)

/-- A call leaves the client that its passes do. -/
theorem after_run (env : Env) (settings : ClientSettings) (outside : Outside) (op : Operation) (task : Fields)
    (client : GigaChatClient) :
    (∃ exc, checkRequest op task = .error exc ∧ (op.run env settings outside task).after client = client) ∨
      ∃ label, (op.run env settings outside task).after client =
        (passesFrom env.py settings outside (getD task (lit "credential_lane") (.str (lit "primary")))
          (ControlPlane.requestFactory env settings op task) label 120 (List.range 2) client).2.2 ∧
        passes env settings outside op task client =
          (passesFrom env.py settings outside (getD task (lit "credential_lane") (.str (lit "primary")))
            (ControlPlane.requestFactory env settings op task) label 120 (List.range 2) client).1 := by
  unfold Program.after passes Operation.run callProvider
  rw [Program.outcome_bind, Program.outcome_bind, outcome_attempted]
  cases checkRequest op task with
  | error exc => exact .inl ⟨exc, rfl, rfl⟩
  | ok checked =>
    refine .inr ⟨_, ?_, rfl⟩
    rw [passesFrom_outcome, authorizedRequestJson]
    simp only [Except.mapError]
    generalize Program.outcome (authorizedFrom _ _ _ _ _ _ _ _) client = outcome
    obtain ⟨result, client'⟩ := outcome
    cases result with
    | error raised => rfl
    | ok response =>
      simp only
      rw [outcome_attempted]

/-- The invariant of the cache holds behind a call, and its passes are sound. -/
theorem run_sound (env : Env) (op : Operation) (task : Fields) (hkept : CacheKept settings outside client) :
    CacheKept settings outside ((op.run env settings outside task).after client) ∧
      Continues client ((op.run env settings outside task).after client) ∧
      (NanFree outside ((op.run env settings outside task).after client).events →
        SoundCall settings outside (passes env settings outside op task client)) := by
  rcases after_run env settings outside op task client with ⟨exc, hcheck, hafter⟩ | ⟨label, hafter, hpasses⟩
  · have hpasses : passes env settings outside op task client = [] := by
      unfold passes
      rw [hcheck]
    rw [hafter, hpasses]
    exact ⟨hkept, refl_of Continues client,
      fun _ => ⟨Nat.zero_le 2, fun _ h => absurd h List.not_mem_nil, fun first second h => by cases h⟩⟩
  · rw [hafter, hpasses]
    exact ⟨(passesFrom_sound (List.range 2) hkept).1, (passesFrom_sound (List.range 2) hkept).2.1, passesFrom_two hkept⟩

/-- In a run whose exchanges report no NaN the calls are sound. -/
theorem history_sound (calls : List (Operation × Fields)) (hkept : CacheKept settings outside client) :
    Continues client (history env settings outside calls client).2 ∧
      (NanFree outside (history env settings outside calls client).2.events →
        ∀ call ∈ (history env settings outside calls client).1, SoundCall settings outside call.1) := by
  induction calls generalizing client with
  | nil => exact ⟨refl_of Continues client, fun _ _ h => absurd h List.not_mem_nil⟩
  | cons call calls ih =>
    obtain ⟨op, task⟩ := call
    obtain ⟨hkept', hcontinues, hcall⟩ := run_sound env op task hkept
    obtain ⟨hrest, hcalls⟩ := ih hkept'
    refine ⟨trans_of Continues hcontinues hrest, fun hnan call hmem => ?_⟩
    rcases List.mem_cons.mp hmem with rfl | hmem
    · exact hcall (hnan.anti hrest)
    · exact hcalls hnan call hmem

/-! ## Seconds and milliseconds -/

/-- A value reads as an expiry of so many seconds, or of as many thousand milliseconds. -/
def Reports (value : Json) (t : ℚ) : Prop :=
  toFloat value = .ok (.ofRat t) ∨ ∃ x, toFloat value = .ok x ∧ x.isFinite = true ∧ x.value = 1000 * t

/-- Whole seconds. -/
theorem reports_seconds {n : ℕ} (hpos : 0 < n) (hlt : n < 2 ^ 53) : Reports (.int n) n := by
  obtain ⟨x, hfloat, hrat, -⟩ := exists_double hpos hlt
  exact .inl (hfloat.trans (congrArg Except.ok hrat.symm))

/-- Whole milliseconds, of which a thousand may not make whole seconds. -/
theorem reports_milliseconds {n : ℕ} (hpos : 0 < n) (hlt : n < 2 ^ 53) : Reports (.int n) (n / 1000) := by
  obtain ⟨x, hfloat, -, hvalue⟩ := exists_double hpos hlt
  refine .inr ⟨.double x, hfloat, rfl, ?_⟩
  calc (Number.double x).value = n := hvalue
    _ = 1000 * (n / 1000) := by ring

/-- Two responses that may report one expiry in different units, and agree otherwise. -/
inductive SameUnits : Json → Json → Prop
  | same (body : Json) : SameUnits body body
  | units {fields fields' : Fields} {t : ℚ}
    (hrest : ∀ key, key ≠ lit "expires_at" → key ≠ lit "exp" → get? fields key = get? fields' key)
    (hlow : 10 ^ 8 < t) (hhigh : t ≤ 10 ^ 11) (h : Reports (reportedExpiry fields) t) (h' : Reports (reportedExpiry fields') t) :
    SameUnits (.obj fields) (.obj fields')

/-- Two attempts that end with such responses, or in the same way. -/
inductive SameAnswer : Attempt → Attempt → Prop
  | answered {body body' : Json} (h : SameUnits body body') : SameAnswer (.answered body) (.answered body')
  | same (attempt : Attempt) : SameAnswer attempt attempt

/-- The unit of an expiry is all that differs between the two. -/
structure SameButUnits (outside outside' : Outside) : Prop where
  attempt : ∀ n, SameAnswer (outside.attempt n) (outside'.attempt n)
  time : outside'.time = outside.time
  getenv : outside'.getenv = outside.getenv

/-- The double that `100_000_000_000` is. -/
def threshold : Double := ⟨false, 10 ^ 11 * 2 ^ 16, 1058, by norm_num, .inr (by norm_num)⟩

theorem value_threshold : threshold.value = 10 ^ 11 := by
  rw [threshold, Double.value_mk _ _ (rfl : 1058 + 16 = 1074)]
  norm_num

/-- Both units come out as the same number of seconds. -/
theorem normalize_reports {value : Json} {t : ℚ} (h : Reports value t) (hlow : 10 ^ 8 < t) (hhigh : t ≤ 10 ^ 11) :
    normalizeExpiryTimestamp value = .ok (.ofRat t) := by
  have hbound : (Number.int 100000000000).value = 10 ^ 11 := by
    rw [Number.value]
    norm_num
  rcases h with h | ⟨x, h, hfinite, hvalue⟩
  · obtain ⟨x, hx, hle⟩ := exists_ofRat_le (t := t) (d := threshold) rfl (by linarith) (value_threshold ▸ hhigh)
    rw [value_threshold] at hle
    have hlt : (Number.int 100000000000).lt (.double x) = false := by
      change decide ((Number.int 100000000000).value < x.value) = false
      rw [hbound]
      exact decide_eq_false (not_lt.mpr hle)
    rw [normalizeExpiryTimestamp, h, hx]
    simp only
    rw [hlt, if_neg Bool.false_ne_true]
  · have hlt : (Number.int 100000000000).lt x = true := by
      have hdecide : decide ((Number.int 100000000000).value < x.value) = true := by
        rw [hbound, hvalue]
        exact decide_eq_true (by linarith)
      cases x with
      | int n => exact hdecide
      | double d => exact hdecide
      | infinite negative => cases hfinite
      | nan => cases hfinite
    have hover : x.over 1000 = .ofRat t := by
      rw [Number.over, if_pos hfinite, hvalue]
      congr 1
      push_cast
      ring
    rw [normalizeExpiryTimestamp, h]
    simp only
    rw [if_pos hlt, hover]

variable {outside' : Outside}

theorem twin_urlopen (h : SameButUnits outside outside') (request : Request) (timeout : ℕ) :
    Twin SameAnswer (urlopen outside request timeout) (urlopen outside' request timeout) := by
  apply Twin.bind (Twin.refl get)
  rintro client _ rfl
  apply Twin.bind (Twin.refl _)
  rintro ⟨⟩ _ -
  exact Twin.of_pure (h.attempt _)

theorem twin_requestFrom (h : SameButUnits outside outside') (retryAttempts : ℤ) (request : Request) (label : Str) (timeout : ℕ)
    (attempts : List ℕ) :
    Twin SameUnits (requestFrom outside retryAttempts request label timeout attempts)
      (requestFrom outside' retryAttempts request label timeout attempts) := by
  induction attempts with
  | nil => exact Twin.of_throw _
  | cons attempt later ih =>
    have hagain : ∀ delay, Twin SameUnits (do sleep delay; requestFrom outside retryAttempts request label timeout later)
        (do sleep delay; requestFrom outside' retryAttempts request label timeout later) :=
      fun delay => Twin.bind (Twin.refl _) fun _ _ _ => ih
    rw [requestFrom, requestFrom]
    apply Twin.bind (twin_urlopen h request timeout)
    intro answer answer' hanswer
    cases hanswer with
    | answered hbody => exact Twin.of_pure hbody
    | same =>
      cases answer with
      | answered body => exact Twin.of_pure (.same body)
      | httpError code retryAfter =>
        simp only
        split
        · exact hagain _
        · exact Twin.of_throw _
      | unreachable cls =>
        simp only
        split
        · exact hagain _
        · exact Twin.of_throw _
      | raised exc => exact Twin.of_throw _

/-- Responses in the two units have the same members apart from the expiry. -/
theorem SameUnits.getD_eq {fields fields' : Fields} (h : SameUnits (.obj fields) (.obj fields')) {key : Str}
    (hexpires : key ≠ lit "expires_at") (hexp : key ≠ lit "exp") (fallback : Json) :
    getD fields key fallback = getD fields' key fallback := by
  cases h with
  | same => rfl
  | units hrest => rw [getD, getD, hrest key hexpires hexp]

theorem SameUnits.normalize_eq {fields fields' : Fields} (h : SameUnits (.obj fields) (.obj fields')) :
    normalizeExpiryTimestamp (reportedExpiry fields) = normalizeExpiryTimestamp (reportedExpiry fields') := by
  cases h with
  | same => rfl
  | units hrest hlow hhigh h h' => rw [normalize_reports h hlow hhigh, normalize_reports h' hlow hhigh]

/-- Related responses are both no objects, and then the same, or both objects. -/
theorem SameUnits.asDict_cases {body body' : Json} (h : SameUnits body body') :
    (asDict body = .error noAttribute ∧ asDict body' = .error noAttribute) ∨
      ∃ fields fields', asDict body = .ok fields ∧ asDict body' = .ok fields' ∧ SameUnits (.obj fields) (.obj fields') := by
  cases h with
  | units hrest hlow hhigh h h' => exact .inr ⟨_, _, rfl, rfl, .units hrest hlow hhigh h h'⟩
  | same =>
    cases body with
    | obj fields => exact .inr ⟨fields, fields, rfl, rfl, .same _⟩
    | null => exact .inl ⟨rfl, rfl⟩
    | bool b => exact .inl ⟨rfl, rfl⟩
    | int n => exact .inl ⟨rfl, rfl⟩
    | float x => exact .inl ⟨rfl, rfl⟩
    | str text => exact .inl ⟨rfl, rfl⟩
    | arr items => exact .inl ⟨rfl, rfl⟩

theorem storeToken_eq (h : SameButUnits outside outside') (lane : Json) {body body' : Json} (hbody : SameUnits body body') :
    storeToken outside lane body = storeToken outside' lane body' := by
  have hsoon : soon outside = soon outside' := by
    unfold soon
    rw [h.time]
  unfold storeToken
  rcases hbody.asDict_cases with ⟨hfields, hfields'⟩ | ⟨fields, fields', hfields, hfields', hunits⟩
  · rw [hfields, hfields', hsoon]
  · have hnormalized : normalizeExpiryTimestamp (if truthy (getD fields (lit "expires_at") .null) = true
          then getD fields (lit "expires_at") .null else getD fields (lit "exp") .null) =
        normalizeExpiryTimestamp (if truthy (getD fields' (lit "expires_at") .null) = true
          then getD fields' (lit "expires_at") .null else getD fields' (lit "exp") .null) := hunits.normalize_eq
    have htoken : getD fields (lit "access_token") .null = getD fields' (lit "access_token") .null :=
      hunits.getD_eq (by decide) (by decide) .null
    rw [hfields, hfields']
    simp only [attempted, pure_bind]
    rw [htoken, hsoon, hnormalized]

theorem twin_accessToken (h : SameButUnits outside outside') (py : Interpreter) (settings : ClientSettings) (lane : Json) :
    Twin Eq (accessToken py settings outside lane) (accessToken py settings outside' lane) := by
  have hcached : cachedToken outside lane = cachedToken outside' lane := by
    unfold cachedToken soon
    rw [h.time]
  have hcredential : credentialFor py outside lane = credentialFor py outside' lane := by
    unfold credentialFor keyEnv
    rw [h.getenv]
  unfold accessToken
  rw [hcached, hcredential]
  apply Twin.bind (Twin.refl _)
  rintro found _ rfl
  cases found with
  | some token => exact Twin.of_pure rfl
  | none =>
    apply Twin.bind (Twin.refl _)
    rintro data _ rfl
    apply Twin.bind (Twin.refl _)
    rintro credential _ rfl
    apply Twin.bind (twin_requestFrom h _ _ _ _ _)
    intro body body' hbody
    rw [storeToken_eq h lane hbody]
    exact Twin.refl _

/-- The results of one operation from responses in the two units. -/
theorem result_eq (config : Config) (op : Operation) (task : Fields) {body body' : Json} (h : SameUnits body body') :
    (match op with
      | .complete => completeResult config task body
      | .embed => embedResult config task body) =
    (match op with
      | .complete => completeResult config task body'
      | .embed => embedResult config task body') := by
  rcases h.asDict_cases with ⟨hfields, hfields'⟩ | ⟨fields, fields', hfields, hfields', hunits⟩
  · cases op with
    | complete => simp only [completeResult, hfields, hfields']
    | embed => simp only [embedResult, hfields, hfields']
  · have hkey : ∀ key fallback, key ≠ lit "expires_at" → key ≠ lit "exp" →
        getD fields key fallback = getD fields' key fallback := fun key fallback h h' => hunits.getD_eq h h' fallback
    have hmodel := fun fallback => hkey (lit "model") fallback (by decide) (by decide)
    have husage := fun fallback => hkey (lit "usage") fallback (by decide) (by decide)
    cases op with
    | complete =>
      simp only [completeResult, resultTail, hfields, hfields', bind, Except.bind, hmodel, husage,
        hkey (lit "choices") .null (by decide) (by decide)]
    | embed =>
      simp only [embedResult, resultTail, hfields, hfields', bind, Except.bind, hmodel, husage,
        hkey (lit "data") .null (by decide) (by decide)]

/-- The loops have the same passes, leave one client and end alike. -/
theorem passesFrom_twin (h : SameButUnits outside outside') (attempts : List ℕ) (client : GigaChatClient) :
    (passesFrom py settings outside lane requestFactory label timeout attempts client).1 =
        (passesFrom py settings outside' lane requestFactory label timeout attempts client).1 ∧
      Same SameUnits (passesFrom py settings outside lane requestFactory label timeout attempts client).2
        (passesFrom py settings outside' lane requestFactory label timeout attempts client).2 := by
  induction attempts generalizing client with
  | nil => exact ⟨rfl, .error ⟨rfl, rfl⟩⟩
  | cons attempt later ih =>
    rw [passesFrom, passesFrom, (twin_accessToken h py settings lane).outcome_eq client]
    rcases (accessToken py settings outside' lane).outcome client with ⟨result, held⟩
    cases result with
    | error raised => exact ⟨rfl, .error ⟨rfl, rfl⟩⟩
    | ok token =>
      simp only
      cases requestFactory token with
      | error exc => exact ⟨rfl, .error ⟨rfl, rfl⟩⟩
      | ok request =>
        simp only
        have hrequest := twin_requestFrom h settings.retryAttempts request label timeout (List.range settings.retryAttempts.toNat)
          held held rfl trivial
        unfold requestJson
        generalize (requestFrom outside _ _ _ _ _).outcome held = outcome at hrequest ⊢
        generalize (requestFrom outside' _ _ _ _ _).outcome held = outcome' at hrequest ⊢
        cases hrequest with
        | ok hbody =>
          obtain ⟨hbody, rfl⟩ := hbody
          exact ⟨rfl, .ok ⟨hbody, rfl⟩⟩
        | error hraised =>
          obtain ⟨rfl, rfl⟩ := hraised
          rename_i raised behind
          simp only
          by_cases hretry : raised.statusCode = some 401 ∧ attempt = 0
          · obtain ⟨hpasses, hlast⟩ := ih (behind.cache lane none)
            rw [if_pos hretry, if_pos hretry]
            exact ⟨congrArg (List.cons _) hpasses, hlast⟩
          · rw [if_neg hretry, if_neg hretry]
            exact ⟨rfl, .error ⟨rfl, rfl⟩⟩

theorem twin_run (h : SameButUnits outside outside') (env : Env) (settings : ClientSettings) (op : Operation) (task : Fields) :
    Twin Eq (op.run env settings outside task) (op.run env settings outside' task) := by
  unfold Operation.run
  have hcall : Twin SameUnits (callProvider env settings outside op task) (callProvider env settings outside' op task) := by
    unfold callProvider
    apply Twin.bind (Twin.refl _)
    rintro ⟨⟩ _ -
    rintro client _ rfl -
    unfold authorizedRequestJson
    rw [← passesFrom_outcome, ← passesFrom_outcome]
    exact (passesFrom_twin h (List.range 2) client).2
  apply Twin.bind hcall
  intro body body' hbody
  rw [result_eq env.config op task hbody]
  exact Twin.refl _

/-- The run is the same in both units. -/
theorem history_eq (h : SameButUnits outside outside') (calls : List (Operation × Fields)) (client : GigaChatClient) :
    history env settings outside calls client = history env settings outside' calls client := by
  induction calls generalizing client with
  | nil => rfl
  | cons call calls ih =>
    obtain ⟨op, task⟩ := call
    have hrun := (twin_run h env settings op task).outcome_eq client
    have hpasses : passes env settings outside op task client = passes env settings outside' op task client := by
      unfold passes
      cases checkRequest op task with
      | error exc => rfl
      | ok checked => exact (passesFrom_twin h (List.range 2) client).1
    rw [history, history, hrun, hpasses]
    simp only [ih]

/-- In every run whose exchanges report no NaN as an expiry, the tokens are the lanes' own and fresh, a call takes at most
two requests, and after a rejection it takes a token granted since; and the run does not depend on the unit in which an
expiry is reported. -/
theorem tokens_isolated (env : Env) (settings : ClientSettings) (outside : Outside) (calls : List (Operation × Fields))
    (hnan : NanFree outside (history env settings outside calls .initial).2.events) :
    (∀ call ∈ (history env settings outside calls .initial).1, SoundCall settings outside call.1) ∧
      ∀ outside', SameButUnits outside outside' →
        history env settings outside calls .initial = history env settings outside' calls .initial :=
  ⟨(history_sound calls kept_initial).2 hnan, fun _ h => history_eq h calls .initial⟩

namespace Sample

/-- The outside of a worker with one credential, to which the OAuth endpoint reports a NaN. -/
def nanOutside : Outside where
  attempt := fun _ => .answered (.obj [(lit "access_token", .str (lit "token")), (lit "expires_at", .float .nan)])
  time := fun _ => epoch
  getenv := fun name => if name = lit "GIGACHAT_KEY_A1" then some (lit "key") else none

end Sample

/-- A token is rejected, and the next one is granted anew. -/
theorem tokens_isolated_slow :
    (∀ call ∈ (history Sample.env (Sample.clientSettings 1) (Sample.slowOutside 1) [(.embed, Sample.embedding)] .initial).1,
        SoundCall (Sample.clientSettings 1) (Sample.slowOutside 1) call.1) ∧
      ∀ outside', SameButUnits (Sample.slowOutside 1) outside' →
        history Sample.env (Sample.clientSettings 1) (Sample.slowOutside 1) [(.embed, Sample.embedding)] .initial =
          history Sample.env (Sample.clientSettings 1) outside' [(.embed, Sample.embedding)] .initial := by
  apply tokens_isolated
  rintro request earlier fields - hanswer -
  have hexpiry : reportedExpiry [(lit "access_token", .str (lit "token")), (lit "expires_at", .int 4102444800)] = .int 4102444800 := by
    decide
  have hnormalized : normalizeExpiryTimestamp (.int 4102444800) ≠ .ok .nan := by decide +kernel
  simp only [Sample.slowOutside, Sample.slowAttempt] at hanswer
  split at hanswer
  · cases hanswer
  · split at hanswer
    · cases hanswer
      rw [hexpiry]
      exact hnormalized
    · cases hanswer

theorem Number.lt_nan (x : Number) : x.lt .nan = false := by
  cases x <;> rfl

/-- The token is returned although its expiry is a NaN. -/
theorem nan_token (client : GigaChatClient) (hnone : client.tokens (.str (lit "primary")) = none) :
    ∃ held, (accessToken Sample.py (Sample.clientSettings 1) Sample.nanOutside (.str (lit "primary"))).outcome client =
      (.ok (.str (lit "token")), held) := by
  have hscope : (urlencode [(lit "scope", lit "GIGACHAT_API_PERS")]).isSome = true := by decide +kernel
  obtain ⟨data, hdata⟩ := Option.isSome_iff_exists.mp hscope
  have hcredential : (credentialFor Sample.py Sample.nanOutside (.str (lit "primary"))).outcome client =
      (.ok (lit "key"), client) := rfl
  let request : Request := ⟨(Sample.clientSettings 1).oauthUrl, data, lit "Basic " ++ lit "key"⟩
  let fields : Fields := [(lit "access_token", .str (lit "token")), (lit "expires_at", .float .nan)]
  have hrequest : (requestJson Sample.nanOutside (Sample.clientSettings 1).retryAttempts
      ⟨(Sample.clientSettings 1).oauthUrl, data, lit "Basic " ++ lit "key"⟩ (lit "GigaChat OAuth") 30).outcome client =
      (.ok (.obj fields), client.note (.attempt request 30)) := by
    have hrange : List.range (Sample.clientSettings 1).retryAttempts.toNat = [0] := rfl
    rw [requestJson, hrange, requestFrom, Program.outcome_bind_of_ok outcome_urlopen]
    rfl
  have htoken : truthy (getD fields (lit "access_token") .null) = true := by decide
  have hreported : (if truthy (getD fields (lit "expires_at") .null) then getD fields (lit "expires_at") .null
      else getD fields (lit "exp") .null) = .float .nan := by decide
  have hexpiry : normalizeExpiryTimestamp (.float .nan) = .ok .nan := rfl
  refine ⟨((client.note (.attempt request 30)).note .clock).cache (.str (lit "primary")) (some ⟨.str (lit "token"), .nan⟩), ?_⟩
  rw [accessToken_of_response rfl hnone hdata hcredential hrequest]
  -- A NaN is not at most the limit.
  exact storeToken_of_later htoken (hreported ▸ hexpiry) outcome_soon rfl

/-- A token that expires at a NaN is returned, and it is not later than the clock and a minute. -/
theorem nan_passes :
    ¬∀ env settings outside calls,
      (∀ call ∈ (history env settings outside calls .initial).1, SoundCall settings outside call.1) ∧
        ∀ outside', SameButUnits outside outside' →
          history env settings outside calls .initial = history env settings outside' calls .initial := by
  intro h
  have hcalls := (h Sample.env (Sample.clientSettings 1) Sample.nanOutside [(.embed, Sample.embedding)]).1
  simp only [history, List.forall_mem_singleton] at hcalls
  have hlane : getD Sample.embedding (lit "credential_lane") (.str (lit "primary")) = .str (lit "primary") := by decide
  obtain ⟨held, htoken⟩ := nan_token .initial rfl
  obtain ⟨pass, -, htaken, -, hlast⟩ := passesFrom_cons Sample.py (Sample.clientSettings 1) Sample.nanOutside
    (.str (lit "primary")) (requestFactory Sample.env (Sample.clientSettings 1) .embed Sample.embedding)
    (lit "GigaChat embeddings") 120 0 [1] .initial
  have hmem : pass ∈ passes Sample.env (Sample.clientSettings 1) Sample.nanOutside .embed Sample.embedding .initial := by
    have hpasses : passes Sample.env (Sample.clientSettings 1) Sample.nanOutside .embed Sample.embedding .initial =
        (passesFrom Sample.py (Sample.clientSettings 1) Sample.nanOutside (.str (lit "primary"))
          (requestFactory Sample.env (Sample.clientSettings 1) .embed Sample.embedding) (lit "GigaChat embeddings") 120 [0, 1]
          .initial).1 := by
      unfold passes
      rw [hlane]
      rfl
    rw [hpasses]
    rcases hlast with ⟨result, hlast⟩ | ⟨-, hlast⟩ <;> rw [hlast] <;> exact List.mem_cons_self
  rw [htoken] at htaken
  have hpass : pass.token = .ok (.str (lit "token")) := (congrArg Prod.fst htaken).symm
  obtain ⟨expiry, ⟨request, earlier, hgrants, -, -⟩, later, -, hfresh⟩ := (hcalls.sound pass hmem).exchanged _ hpass
  obtain ⟨fields, hanswer, -, -, hexpiry⟩ := hgrants.answered
  have hreported : reportedExpiry [(lit "access_token", .str (lit "token")), (lit "expires_at", .float .nan)] = .float .nan := by
    decide
  cases hanswer
  rw [hreported] at hexpiry
  cases hexpiry
  rw [Number.lt_nan] at hfresh
  cases hfresh

end NeuroLab.ControlPlane
