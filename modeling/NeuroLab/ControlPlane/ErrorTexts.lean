import NeuroLab.ControlPlane.Tokens

/-!
# The texts of recorded errors

What `record_failed` writes is the message of a `ProviderError` or the class of another
exception. Two runs of a delivery may have other credentials, tokens and response bodies, and
their exceptions other texts: where the same statuses and classes take them the same way, they
write the same message.
-/

namespace NeuroLab.ControlPlane

open Python Common

/-! ## Recorded failures -/

/-- An exception and `str(exc)`, which is the message of a `ProviderError`. -/
structure Thrown where
  exc : PyExc
  text : Str
  text_of_provider : ∀ message, exc = .provider message → text = message

/-- `safe_error_message`. -/
def Thrown.safeErrorMessage (thrown : Thrown) : Str :=
  match thrown.exc with
  | .provider _ => thrown.text.take 1000
  | exc => lit "internal error: " ++ exc.className

/-- What a delivery meets outside: how its transactions end, the network, and the texts of exceptions. -/
structure Surroundings where
  claim : Except PyExc (Option (Uuid × Uuid))
  recordAttempt : Except PyExc Unit
  recordCompletion : Except PyExc Unit
  outside : Outside
  text : PyExc → Str

/-- An exception as it is raised. -/
def Surroundings.thrown (surroundings : Surroundings) (exc : PyExc) : Thrown where
  exc
  text := match exc with
    | .provider message => message
    | exc => surroundings.text exc
  text_of_provider := by
    rintro message rfl
    rfl

/-- The `try` statement of `handle_delivery` behind the claim. -/
def operate (env : Env) (settings : ClientSettings) (surroundings : Surroundings) (payload : Fields)
    (client : GigaChatClient) : Except PyExc Unit := do
  surroundings.recordAttempt
  match route env.py payload with
  | .fail exc => .error exc
  | .finish _ => surroundings.recordCompletion
  | .call op =>
    let _ ← ((op.run env settings surroundings.outside payload).outcome client).1.mapError Raised.exc
    surroundings.recordCompletion

/-- The exception that `record_failed` is called with. A task that was not claimed is not recorded. -/
def failure (env : Env) (settings : ClientSettings) (surroundings : Surroundings) (payload : Fields)
    (client : GigaChatClient) : Option Thrown :=
  match surroundings.claim with
  | .error _ | .ok none => none
  | .ok (some _) =>
    match operate env settings surroundings payload client with
    | .ok () => none
    | .error exc => some (surroundings.thrown exc)

/-- The message is that of the exception, whatever its text. -/
theorem Thrown.safeErrorMessage_eq (thrown : Thrown) : thrown.safeErrorMessage = ControlPlane.safeErrorMessage thrown.exc := by
  obtain ⟨exc, text, htext⟩ := thrown
  cases exc with
  | provider message => exact congrArg (List.take 1000) (htext message rfl)
  | _ => rfl

/-! ## Runs that differ in secrets -/

/-- `isinstance(exc, ProviderError)`. -/
def isProviderError : PyExc → Bool
  | .provider _ => true
  | _ => false

/-- Exceptions of one class. -/
def SameClass (exc exc' : PyExc) : Prop := isProviderError exc = isProviderError exc' ∧ exc.className = exc'.className

/-- Both return, or both raise exceptions of one class. -/
inductive SameEnd {α : Type} : Except PyExc α → Except PyExc α → Prop
  | ok (a a' : α) : SameEnd (.ok a) (.ok a')
  | error {exc exc' : PyExc} (h : SameClass exc exc') : SameEnd (.error exc) (.error exc')

/-- Both return, or both raise exceptions of one class that the worker does not define. -/
def SameForeignEnd {α : Type} (result result' : Except PyExc α) : Prop :=
  SameEnd result result' ∧ ∀ exc, result = .error exc → isProviderError exc = false

/-- Attempts with one status or one class of exception; the bodies of answers may differ. -/
inductive SameStatus : Attempt → Attempt → Prop
  | answered (body body' : Json) : SameStatus (.answered body) (.answered body')
  | httpError (code : ℕ) (retryAfter : Option Str) : SameStatus (.httpError code retryAfter) (.httpError code retryAfter)
  | unreachable (cls : Str) : SameStatus (.unreachable cls) (.unreachable cls)
  | raised {exc exc' : PyExc} (h : SameClass exc exc') (hforeign : isProviderError exc = false) :
    SameStatus (.raised exc) (.raised exc')

/-- A token can be put into a header in both runs or in neither. -/
def SameBearer (py : Interpreter) (token token' : Json) : Prop := (py.str token).isOk = (py.str token').isOk

/-- `access_token` takes the same way with both answers, the clock being where it is. -/
def TakenAlike (py : Interpreter) (limit : Number) (body body' : Json) : Prop :=
  match asDict body, asDict body' with
  | .ok fields, .ok fields' =>
    let token := getD fields (lit "access_token") .null
    let token' := getD fields' (lit "access_token") .null
    truthy token = truthy token' ∧ (truthy token = true →
      match normalizeExpiryTimestamp (reportedExpiry fields), normalizeExpiryTimestamp (reportedExpiry fields') with
      | .ok expiry, .ok expiry' =>
        expiry.le limit = expiry'.le limit ∧ (expiry.le limit = false → SameBearer py token token')
      | .error exc, .error exc' => SameClass exc exc'
      | _, _ => False)
  | .error _, .error _ => True
  | _, _ => False

/-- The result of an operation from a response. -/
def operationResult (config : Config) (op : Operation) (task : Fields) (response : Json) : Except PyExc Fields :=
  match op with
  | .complete => completeResult config task response
  | .embed => embedResult config task response

/-- The lane has a token in both caches or in neither, and both are as fresh when they are looked up. -/
def LookedUpAlike (py : Interpreter) (outside : Outside) (lane : Json) (final : List Event) (client client' : GigaChatClient) :
    Prop :=
  match client.tokens lane, client'.tokens lane with
  | none, none => True
  | some cached, some cached' => .clock :: client.events <:+ final →
    let limit := deadline outside client.events
    limit.lt cached.expiresAt = limit.lt cached'.expiresAt ∧
      (limit.lt cached.expiresAt = true → SameBearer py cached.token cached'.token)
  | _, _ => False

/-- The clients did as much before. -/
def Pace (client client' : GigaChatClient) : Prop :=
  client.events.countP Event.isAttempt = client'.events.countP Event.isAttempt ∧
    client.events.countP Event.isClock = client'.events.countP Event.isClock

/-- Two runs of an operation that differ in credentials, tokens and response bodies and take the same way: the
environment names one variable for the lane, which both set or neither does, and what the first run does by its end, the
attempts, the exchanges and the answer, ends alike in both. -/
structure SameCourse (env : Env) (op : Operation) (task : Fields) (lane : Json) (final : List Event)
    (outside outside' : Outside) (client client' : GigaChatClient) : Prop where
  time : outside'.time = outside.time
  keyEnv_eq : keyEnv outside' lane = keyEnv outside lane
  configured : ∀ key, keyEnv outside lane = some key →
    ((outside.getenv key).filter (· ≠ [])).isSome = ((outside'.getenv key).filter (· ≠ [])).isSome
  pace : Pace client client'
  cached : LookedUpAlike env.py outside lane final client client'
  status : ∀ request timeout earlier, .attempt request timeout :: earlier <:+ final →
    SameStatus (outside.attempt (earlier.countP Event.isAttempt)) (outside'.attempt (earlier.countP Event.isAttempt))
  taken : ∀ request earlier body body', .attempt request 30 :: earlier <:+ final →
    outside.attempt (earlier.countP Event.isAttempt) = .answered body →
    outside'.attempt (earlier.countP Event.isAttempt) = .answered body' →
    TakenAlike env.py (deadline outside (.attempt request 30 :: earlier)) body body'
  result : ∀ request earlier body body', .attempt request 120 :: earlier <:+ final →
    outside.attempt (earlier.countP Event.isAttempt) = .answered body →
    outside'.attempt (earlier.countP Event.isAttempt) = .answered body' →
    SameEnd (operationResult env.config op task body) (operationResult env.config op task body')

variable {α : Type} {py : Interpreter} {env : Env} {settings : ClientSettings} {outside outside' : Outside}
  {client client' : GigaChatClient} {request request' : Request} {label : Str} {timeout : ℕ} {lane : Json} {task : Fields}
  {op : Operation} {final : List Event}

theorem SameClass.safeErrorMessage_eq {exc exc' : PyExc} (h : SameClass exc exc') (hforeign : isProviderError exc = false) :
    safeErrorMessage exc = safeErrorMessage exc' := by
  have hmessage : ∀ exc, isProviderError exc = false → safeErrorMessage exc = lit "internal error: " ++ exc.className := by
    intro exc hforeign
    cases exc with
    | provider message => cases hforeign
    | _ => rfl
  rw [hmessage exc hforeign, hmessage exc' (h.1 ▸ hforeign), h.2]

/-! ## What no secret reaches -/

/-- Exceptions of one recorded message and one status. -/
def SameText (raised raised' : Raised) : Prop :=
  safeErrorMessage raised.exc = safeErrorMessage raised'.exc ∧ raised.statusCode = raised'.statusCode

/-- The exceptions that both runs end with, if they do. -/
abbrev Raise (raised raised' : Raised) (client client' : GigaChatClient) : Prop :=
  SameText raised raised' ∧ Pace client client'

/-- The first run is on its way to its end. -/
abbrev Before (final : List Event) (client : GigaChatClient) : Prop := client.events <:+ final

theorem SameText.refl (raised : Raised) : SameText raised raised := ⟨rfl, rfl⟩

theorem Pace.note {event event' : Event} (h : Pace client client') (hattempt : event.isAttempt = event'.isAttempt)
    (hclock : event.isClock = event'.isClock) : Pace (client.note event) (client'.note event') := by
  unfold Pace GigaChatClient.note at *
  simp only [List.countP_cons, h.1, h.2, hattempt, hclock, and_self]

theorem continues_of_adds {kind : Event → Prop} {x : Method α} (h : Advances (Adds kind) x) : Advances Continues x :=
  fun client => (h client).continues

/-- The run was on its way before a part of it. -/
theorem before_of_continues {x : Method α} (h : Advances Continues x) (client : GigaChatClient)
    (hafter : Before final (x.after client)) : Before final client :=
  (h client).trans hafter

/-- Every step of the client goes on. -/
theorem continues_sleep (delay : Number) : Advances Continues (sleep delay) := by
  have hadds : Advances (Adds (Event.OnlyAt ⟨[], [], []⟩)) (sleep delay) := adds_sleep delay
  exact continues_of_adds hadds

theorem continues_attempted (x : Except PyExc α) : Advances Continues (attempted x) := by
  have hadds : Advances (Adds fun _ => True) (attempted x) := adds_attempted x
  exact continues_of_adds hadds

theorem continues_requestFrom (retryAttempts : ℤ) (attempts : List ℕ) :
    Advances Continues (requestFrom outside retryAttempts request label timeout attempts) :=
  continues_of_adds (adds_requestFrom retryAttempts attempts)

theorem continues_credentialFor : Advances Continues (credentialFor py outside lane) := by
  intro client
  unfold Program.after
  rcases outcome_credentialFor py outside lane client with ⟨raised, h⟩ | ⟨credential, -, h⟩ <;> rw [h] <;>
    exact refl_of Continues client

theorem continues_storeToken (response : Json) : Advances Continues (storeToken outside lane response) := by
  intro client
  unfold Program.after
  rcases outcome_storeToken outside lane response client with ⟨raised, client', h, hadds⟩ | ⟨-, cached, -, -, -, -, -, h⟩
  · rw [h]
    exact hadds.continues
  · rw [h]
    exact List.suffix_cons .clock client.events

theorem continues_accessToken : Advances Continues (accessToken py settings outside lane) :=
  fun client => (access py settings outside lane client).continues

theorem continues_cache (lane : Json) (token : Option Token) :
    Advances Continues (modify (GigaChatClient.cache lane token) : Method PUnit) :=
  Advances.of_modify fun client => refl_of Continues client

theorem continues_authorizedFrom (requestFactory : Json → Except PyExc Request) (attempts : List ℕ) :
    Advances Continues (authorizedFrom py settings outside lane requestFactory label timeout attempts) := by
  induction attempts with
  | nil => exact Advances.of_throw _
  | cons attempt later ih =>
    rw [authorizedFrom]
    refine Advances.bind continues_accessToken fun token => ?_
    refine Advances.bind (continues_attempted _) fun request => ?_
    refine Advances.tryCatch (continues_requestFrom _ _) fun raised => ?_
    split
    · exact Advances.bind (continues_cache lane none) fun _ => ih
    · exact Advances.of_throw raised

/-- Both requests have just been answered, in the same attempt. -/
def Answered (outside outside' : Outside) (request : Request) (timeout : ℕ) (body body' : Json)
    (client client' : GigaChatClient) : Prop :=
  Pace client client' ∧ ∃ earlier, client.events = .attempt request timeout :: earlier ∧
    outside.attempt (earlier.countP Event.isAttempt) = .answered body ∧
    outside'.attempt (earlier.countP Event.isAttempt) = .answered body'

theorem coupled_sleep (delay : Number) :
    Coupled (Before final) Pace Raise (fun _ _ => Pace) (sleep delay) (sleep delay) := by
  unfold sleep
  split
  · exact Coupled.of_throw fun s t _ hpace => ⟨SameText.refl _, hpace⟩
  · exact Coupled.of_modify fun s t _ hpace => hpace.note rfl rfl

variable {first second : GigaChatClient}

theorem coupled_urlopen (h : SameCourse env op task lane final outside outside' first second) (request request' : Request)
    (timeout : ℕ) :
    Coupled (Before final) Pace Raise
      (fun answer answer' client client' => SameStatus answer answer' ∧ Pace client client' ∧
        ∃ earlier, client.events = .attempt request timeout :: earlier ∧
          outside.attempt (earlier.countP Event.isAttempt) = answer ∧
          outside'.attempt (earlier.countP Event.isAttempt) = answer')
      (urlopen outside request timeout) (urlopen outside' request' timeout) := by
  intro client client' hpace hafter
  rw [outcome_urlopen, outcome_urlopen]
  have hcount : client'.attempts = client.events.countP Event.isAttempt := hpace.1.symm
  rw [hcount]
  exact .ok ⟨h.status request timeout client.events hafter, hpace.note rfl rfl, client.events, rfl, rfl, rfl⟩

theorem coupled_requestFrom (h : SameCourse env op task lane final outside outside' first second) (retryAttempts : ℤ)
    (request request' : Request) (label : Str) (timeout : ℕ) (attempts : List ℕ) :
    Coupled (Before final) Pace Raise (Answered outside outside' request timeout)
      (requestFrom outside retryAttempts request label timeout attempts)
      (requestFrom outside' retryAttempts request' label timeout attempts) := by
  induction attempts with
  | nil => exact Coupled.of_throw fun s t _ hpace => ⟨SameText.refl _, hpace⟩
  | cons attempt later ih =>
    have hwait : ∀ delay, Advances Continues (do sleep delay; requestFrom outside retryAttempts request label timeout later) :=
      fun delay => Advances.bind (continues_sleep delay) fun _ => continues_requestFrom retryAttempts later
    have hagain : ∀ delay, Coupled (Before final) Pace Raise (Answered outside outside' request timeout)
        (do sleep delay; requestFrom outside retryAttempts request label timeout later)
        (do sleep delay; requestFrom outside' retryAttempts request' label timeout later) := by
      intro delay
      apply Coupled.bind (coupled_sleep delay)
      · exact fun _ => before_of_continues (continues_requestFrom retryAttempts later)
      · exact fun _ _ => ih
    have hraise : ∀ raised, Coupled (Before final) Pace Raise (Answered outside outside' request timeout)
        (throw raised) (throw raised) :=
      fun raised => Coupled.of_throw fun s t _ hpace => ⟨SameText.refl raised, hpace⟩
    rw [requestFrom, requestFrom]
    apply Coupled.bind (coupled_urlopen h request request' timeout)
    · intro answer client
      apply before_of_continues
      cases answer with
      | answered body => exact Advances.of_pure body
      | httpError code retryAfter =>
        simp only
        split
        · exact hwait _
        · exact Advances.of_throw _
      | unreachable cls =>
        simp only
        split
        · exact hwait _
        · exact Advances.of_throw _
      | raised exc => exact Advances.of_throw _
    · intro answer answer'
      apply Coupled.of_fact
      intro hstatus
      cases hstatus with
      | answered body body' => exact Coupled.of_pure fun s t _ hanswered => hanswered
      | httpError code retryAfter =>
        simp only
        split
        · exact (hagain _).of_pre fun s t hanswered => hanswered.1
        · exact (hraise _).of_pre fun s t hanswered => hanswered.1
      | unreachable cls =>
        simp only
        split
        · exact (hagain _).of_pre fun s t hanswered => hanswered.1
        · exact (hraise _).of_pre fun s t hanswered => hanswered.1
      | raised hclass hforeign =>
        exact Coupled.of_throw fun s t _ hanswered => ⟨⟨hclass.safeErrorMessage_eq hforeign, rfl⟩, hanswered.1⟩

theorem coupled_credentialFor (h : SameCourse env op task lane final outside outside' first second) (py : Interpreter) :
    Coupled (Before final) Pace Raise (fun _ _ => Pace) (credentialFor py outside lane) (credentialFor py outside' lane) := by
  intro client client' hpace _
  rw [credentialFor, credentialFor, Program.outcome_bind, Program.outcome_bind, outcome_attempted, outcome_attempted, h.keyEnv_eq]
  cases hashed lane with
  | error exc => exact .error ⟨SameText.refl _, hpace⟩
  | ok found =>
    have hrefused : ∀ text : String, Alike Raise (fun _ _ => Pace) ((laneError py text lane : Method Str).outcome client)
        ((laneError py text lane : Method Str).outcome client') := by
      intro text
      obtain ⟨raised, hraised⟩ := outcome_laneError (α := Str) py text lane
      rw [hraised, hraised]
      exact .error ⟨SameText.refl raised, hpace⟩
    simp only [Except.mapError]
    cases hkey : (ControlPlane.keyEnv outside lane).filter (· ≠ []) with
    | none => exact hrefused _
    | some key =>
      have hconfigured := h.configured key (Option.filter_eq_some_iff.mp hkey).1
      simp only
      cases hcredential : (outside.getenv key).filter (· ≠ []) with
      | none =>
        cases hcredential' : (outside'.getenv key).filter (· ≠ []) with
        | none => exact hrefused _
        | some credential' => rw [hcredential, hcredential'] at hconfigured; cases hconfigured
      | some credential =>
        cases hcredential' : (outside'.getenv key).filter (· ≠ []) with
        | none => rw [hcredential, hcredential'] at hconfigured; cases hconfigured
        | some credential' => exact .ok hpace

theorem deadline_eq (h : SameCourse env op task lane final outside outside' first second) (hpace : Pace client client') :
    deadline outside' client'.events = deadline outside client.events := by
  rw [deadline, deadline, h.time, hpace.2]

/-- Two look-ups that find tokens to be used in the same way, or find none. -/
def FoundAlike (py : Interpreter) : Option Json → Option Json → Prop
  | none, none => True
  | some token, some token' => SameBearer py token token'
  | _, _ => False

theorem coupled_cachedToken (h : SameCourse env op task lane final outside outside' first second) (py : Interpreter) :
    Coupled (Before final) (fun client client' => Pace client client' ∧ LookedUpAlike py outside lane final client client') Raise
      (fun found found' client client' => Pace client client' ∧ FoundAlike py found found')
      (cachedToken outside lane) (cachedToken outside' lane) := by
  rintro client client' ⟨hpace, hlooked⟩ hafter
  unfold Program.after at hafter
  rw [cachedToken, Program.outcome_bind, outcome_attempted] at hafter ⊢
  rw [cachedToken, Program.outcome_bind, outcome_attempted]
  unfold LookedUpAlike at hlooked
  cases hhashed : hashed lane with
  | error exc => exact .error ⟨SameText.refl _, hpace⟩
  | ok found =>
    rw [hhashed] at hafter
    simp only [Except.mapError] at hafter ⊢
    rw [Program.outcome_bind_of_ok (Program.outcome_get client)] at hafter ⊢
    rw [Program.outcome_bind_of_ok (Program.outcome_get client')]
    cases htokens : client.tokens lane with
    | none =>
      cases htokens' : client'.tokens lane with
      | none => exact .ok ⟨hpace, trivial⟩
      | some cached' => rw [htokens, htokens'] at hlooked; exact hlooked.elim
    | some cached =>
      cases htokens' : client'.tokens lane with
      | none => rw [htokens, htokens'] at hlooked; exact hlooked.elim
      | some cached' =>
        rw [htokens] at hafter
        rw [htokens, htokens'] at hlooked
        simp only at hafter ⊢
        rw [Program.outcome_bind_of_ok outcome_soon, Program.outcome_pure] at hafter ⊢
        rw [Program.outcome_bind_of_ok outcome_soon, Program.outcome_pure, deadline_eq h hpace]
        obtain ⟨hfresh, hbearer⟩ := hlooked hafter
        rw [← hfresh]
        refine .ok ⟨hpace.note rfl rfl, ?_⟩
        cases hlt : (deadline outside client.events).lt cached.expiresAt with
        | false => trivial
        | true => exact hbearer hlt

theorem toFloat_foreign {value : Json} {exc : PyExc} (h : toFloat value = .error exc) : isProviderError exc = false := by
  have hint : ∀ n : ℤ, floatOfInt n = .error exc → isProviderError exc = false := by
    intro n hn
    unfold floatOfInt at hn
    generalize Double.ofInt n = double at hn
    cases double with
    | none => cases hn; rfl
    | some d => cases hn
  cases value with
  | int n => exact hint n h
  | bool b => exact hint _ h
  | float x => cases h
  | str text =>
    simp only [toFloat] at h
    split at h
    · cases h
    · cases h
      rfl
  | null => cases h; rfl
  | arr items => cases h; rfl
  | obj fields => cases h; rfl

theorem normalize_foreign {value : Json} {exc : PyExc} (h : normalizeExpiryTimestamp value = .error exc) :
    isProviderError exc = false := by
  unfold normalizeExpiryTimestamp at h
  cases hfloat : toFloat value with
  | ok timestamp => rw [hfloat] at h; cases h
  | error exc' =>
    rw [hfloat] at h
    simp only at h
    split at h
    · cases h
    · cases h
      exact toFloat_foreign hfloat

theorem asDict_cases (value : Json) : asDict value = .error noAttribute ∨ ∃ fields, value = .obj fields := by
  cases value with
  | obj fields => exact .inr ⟨fields, rfl⟩
  | _ => exact .inl rfl

/-- What is no object is refused. -/
theorem outcome_storeToken_error {outside : Outside} {lane value : Json} {client : GigaChatClient}
    (h : asDict value = .error noAttribute) :
    (storeToken outside lane value).outcome client = (.error ⟨noAttribute, none⟩, client) := by
  rw [storeToken, Program.outcome_bind, outcome_attempted, h]
  rfl

theorem coupled_storeToken (h : SameCourse env op task lane final outside outside' first second) (body body' : Json) :
    Coupled (Before final) (Answered outside outside' request 30 body body') Raise
      (fun token token' client client' => Pace client client' ∧ SameBearer env.py token token')
      (storeToken outside lane body) (storeToken outside' lane body') := by
  rintro client client' ⟨hpace, earlier, hevents, hbody, hbody'⟩ hafter
  have hbefore := before_of_continues (continues_storeToken body) client hafter
  have htaken := h.taken request earlier body body' (hevents ▸ hbefore) hbody hbody'
  rw [← hevents] at htaken
  unfold TakenAlike at htaken
  have hraise : ∀ raised, Alike Raise (fun token token' client client' => Pace client client' ∧ SameBearer env.py token token')
      (.error raised, client) (.error raised, client') := fun raised => .error ⟨SameText.refl raised, hpace⟩
  rcases asDict_cases body with hdict | ⟨fields, rfl⟩
  · rcases asDict_cases body' with hdict' | ⟨fields', rfl⟩
    · rw [outcome_storeToken_error hdict, outcome_storeToken_error hdict']
      exact hraise _
    · rw [hdict] at htaken
      exact htaken.elim
  · rcases asDict_cases body' with hdict' | ⟨fields', rfl⟩
    · rw [hdict'] at htaken
      exact htaken.elim
    · rw [outcome_storeToken_obj, outcome_storeToken_obj, deadline_eq h hpace]
      simp only [asDict] at htaken
      obtain ⟨htruthy, htaken⟩ := htaken
      rw [← htruthy]
      cases htoken : truthy (getD fields (lit "access_token") .null) with
      | false => exact hraise _
      | true =>
        have htaken := htaken htoken
        rw [if_pos rfl, if_pos rfl]
        cases hexpiry : normalizeExpiryTimestamp (reportedExpiry fields) with
        | error exc =>
          cases hexpiry' : normalizeExpiryTimestamp (reportedExpiry fields') with
          | error exc' =>
            rw [hexpiry, hexpiry'] at htaken
            exact .error ⟨⟨htaken.safeErrorMessage_eq (normalize_foreign hexpiry), rfl⟩, hpace⟩
          | ok expiry' => rw [hexpiry, hexpiry'] at htaken; exact htaken.elim
        | ok expiry =>
          cases hexpiry' : normalizeExpiryTimestamp (reportedExpiry fields') with
          | error exc' => rw [hexpiry, hexpiry'] at htaken; exact htaken.elim
          | ok expiry' =>
            rw [hexpiry, hexpiry'] at htaken
            obtain ⟨hlimit, hbearer⟩ := htaken
            simp only
            rw [← hlimit]
            cases hle : expiry.le (deadline outside client.events) with
            | true => exact .error ⟨SameText.refl _, hpace.note rfl rfl⟩
            | false => exact .ok ⟨hpace.note rfl rfl, hbearer hle⟩

/-- A step of the program without the outside, which ends the same way in both runs. -/
theorem coupled_attempted {P : GigaChatClient → GigaChatClient → Prop} (hP : ∀ s t, P s t → Pace s t) (x : Except PyExc α) :
    Coupled (Before final) P Raise (fun a a' client client' => a = a' ∧ P client client') (attempted x) (attempted x) := by
  cases x with
  | error exc => exact Coupled.of_throw fun s t _ hst => ⟨SameText.refl _, hP s t hst⟩
  | ok a => exact Coupled.of_pure fun s t _ hst => ⟨rfl, hst⟩

theorem coupled_accessToken (h : SameCourse env op task lane final outside outside' first second) (settings : ClientSettings) :
    Coupled (Before final)
      (fun client client' => Pace client client' ∧ LookedUpAlike env.py outside lane final client client') Raise
      (fun token token' client client' => Pace client client' ∧ SameBearer env.py token token')
      (accessToken env.py settings outside lane) (accessToken env.py settings outside' lane) := by
  unfold accessToken
  refine Coupled.bind (coupled_cachedToken h env.py) (fun found s => before_of_continues ?_ s) ?_
  · cases found with
    | some token => exact Advances.of_pure token
    | none =>
      exact Advances.bind (continues_attempted _) fun data => Advances.bind continues_credentialFor fun credential =>
        Advances.bind (continues_requestFrom _ _) fun response => continues_storeToken response
  · intro found found'
    cases found with
    | some token =>
      cases found' with
      | some token' => exact Coupled.of_pure fun s t _ hfound => hfound
      | none => exact fun s t hfound => hfound.2.elim
    | none =>
      cases found' with
      | some token' => exact fun s t hfound => hfound.2.elim
      | none =>
        refine Coupled.of_pre (P := Pace) ?_ fun s t hfound => hfound.1
        refine Coupled.bind (coupled_attempted (fun _ _ hst => hst) _) (fun data s => before_of_continues ?_ s) ?_
        · exact Advances.bind continues_credentialFor fun credential =>
            Advances.bind (continues_requestFrom _ _) fun response => continues_storeToken response
        · intro data data'
          apply Coupled.of_fact
          rintro rfl
          refine Coupled.bind (coupled_credentialFor h env.py) (fun credential s => before_of_continues ?_ s) ?_
          · exact Advances.bind (continues_requestFrom _ _) fun response => continues_storeToken response
          · intro credential credential'
            refine Coupled.bind (coupled_requestFrom h _ _ _ _ _ _) (fun response s => before_of_continues ?_ s) ?_
            · exact continues_storeToken response
            · exact fun body body' => coupled_storeToken h body body'

theorem str_error {value : Json} {exc : PyExc} (h : py.str value = .error exc) : exc = .recursion := by
  unfold Interpreter.str at h
  split at h
  · cases h
    rfl
  · split at h <;> cases h

/-- The requests of the two runs are both made, or refused in one way. -/
theorem requestFactory_alike (settings : ClientSettings) (op : Operation) (task : Fields) {token token' : Json} (h : SameBearer env.py token token') :
    (∃ exc, requestFactory env settings op task token = .error exc ∧ requestFactory env settings op task token' = .error exc) ∨
      ∃ request request', requestFactory env settings op task token = .ok request ∧
        requestFactory env settings op task token' = .ok request' := by
  unfold requestFactory SameBearer at *
  cases env.py.dumps (.obj (requestBody env.config op task)) with
  | error exc => exact .inl ⟨exc, rfl, rfl⟩
  | ok body =>
    simp only [bind, Except.bind]
    cases utf8 body with
    | none => exact .inl ⟨_, rfl, rfl⟩
    | some data =>
      simp only [Option.elim]
      cases hbearer : env.py.str token with
      | error exc =>
        cases hbearer' : env.py.str token' with
        | error exc' => exact .inl ⟨.recursion, congrArg Except.error (str_error hbearer), congrArg Except.error (str_error hbearer')⟩
        | ok bearer' => rw [hbearer, hbearer'] at h; cases h
      | ok bearer =>
        cases hbearer' : env.py.str token' with
        | error exc' => rw [hbearer, hbearer'] at h; cases h
        | ok bearer' => exact .inr ⟨_, _, rfl, rfl⟩

/-- Without tokens there is nothing to look up. -/
theorem lookedUpAlike_cache (py : Interpreter) (outside : Outside) (lane : Json) (final : List Event)
    (client client' : GigaChatClient) :
    LookedUpAlike py outside lane final (client.cache lane none) (client'.cache lane none) := by
  unfold LookedUpAlike
  rw [tokens_cache, tokens_cache]
  trivial

theorem coupled_authorizedFrom (h : SameCourse env op task lane final outside outside' first second) (settings : ClientSettings)
    (label : Str) (timeout : ℕ) (attempts : List ℕ) :
    Coupled (Before final)
      (fun client client' => Pace client client' ∧ LookedUpAlike env.py outside lane final client client') Raise
      (fun body body' client client' => ∃ request, Answered outside outside' request timeout body body' client client')
      (authorizedFrom env.py settings outside lane (requestFactory env settings op task) label timeout attempts)
      (authorizedFrom env.py settings outside' lane (requestFactory env settings op task) label timeout attempts) := by
  induction attempts with
  | nil => exact Coupled.of_throw fun s t _ hst => ⟨SameText.refl _, hst.1⟩
  | cons attempt later ih =>
    have hretry : ∀ raised, Advances Continues (if raised.statusCode = some 401 ∧ attempt = 0 then do
        modify (GigaChatClient.cache lane none)
        authorizedFrom env.py settings outside lane (requestFactory env settings op task) label timeout later
        else throw raised) := by
      intro raised
      split
      · exact Advances.bind (continues_cache lane none) fun _ => continues_authorizedFrom _ later
      · exact Advances.of_throw raised
    have hrequested : ∀ request, Advances Continues (tryCatch (requestJson outside settings.retryAttempts request label timeout)
        fun raised => if raised.statusCode = some 401 ∧ attempt = 0 then do
          modify (GigaChatClient.cache lane none)
          authorizedFrom env.py settings outside lane (requestFactory env settings op task) label timeout later
          else throw raised) :=
      fun request => Advances.tryCatch (continues_requestFrom _ _) hretry
    rw [authorizedFrom, authorizedFrom]
    refine Coupled.bind (coupled_accessToken h settings) (fun token s => before_of_continues ?_ s) ?_
    · exact Advances.bind (continues_attempted _) hrequested
    · intro token token'
      rintro client client' ⟨hpace, hbearer⟩
      rcases requestFactory_alike settings op task hbearer with
        ⟨exc, hrequest, hrequest'⟩ | ⟨request, request', hrequest, hrequest'⟩
      · rw [hrequest, hrequest']
        exact fun _ => .error ⟨SameText.refl _, hpace⟩
      · rw [hrequest, hrequest']
        have hfirst : Coupled (Before final) Pace Raise
            (fun body body' client client' => ∃ request, Answered outside outside' request timeout body body' client client')
            (requestJson outside settings.retryAttempts request label timeout)
            (requestJson outside' settings.retryAttempts request' label timeout) := by
          intro s t hst hafter
          have halike := coupled_requestFrom h settings.retryAttempts request request' label timeout
            (List.range settings.retryAttempts.toNat) s t hst hafter
          unfold requestJson
          generalize (requestFrom outside _ _ _ _ _).outcome s = outcome at halike ⊢
          generalize (requestFrom outside' _ _ _ _ _).outcome t = outcome' at halike ⊢
          cases halike with
          | ok hanswered => exact .ok ⟨request, hanswered⟩
          | error hraise => exact .error hraise
        refine Coupled.tryCatch hfirst (fun raised s => before_of_continues (hretry raised) s) ?_ client client' hpace
        intro raised raised'
        apply Coupled.of_fact
        intro htext
        rw [← htext.2]
        split
        · refine Coupled.bind (Coupled.of_modify (S := fun _ _ client client' => Pace client client' ∧
            LookedUpAlike env.py outside lane final client client') ?_)
            (fun _ s => before_of_continues (continues_authorizedFrom _ later) s) fun _ _ => ih
          exact fun s t _ hst => ⟨hst, lookedUpAlike_cache env.py outside lane final s t⟩
        · exact Coupled.of_throw fun s t _ hst => ⟨htext, hst⟩

/-! ## Results -/

/-- The only exceptions of a step are these. -/
def RaisesOnly (only : PyExc → Prop) (x : Except PyExc α) : Prop := ∀ exc, x = .error exc → only exc

namespace RaisesOnly

variable {β : Type} {only : PyExc → Prop} {x : Except PyExc α} {f : α → Except PyExc β}

theorem of_ok (a : α) : RaisesOnly only (.ok a) := fun _ h => by cases h

theorem of_error {exc : PyExc} (h : only exc) : RaisesOnly only (.error exc : Except PyExc α) := fun _ heq => by cases heq; exact h

theorem bind (hx : RaisesOnly only x) (hf : ∀ a, RaisesOnly only (f a)) : RaisesOnly only (x >>= f) := by
  intro exc h
  cases x with
  | error exc' => cases h; exact hx _ rfl
  | ok a => exact hf a exc h

theorem mapM {g : α → Except PyExc β} (hg : ∀ a, RaisesOnly only (g a)) (items : List α) : RaisesOnly only (items.mapM g) := by
  induction items with
  | nil => exact of_ok []
  | cons item items ih =>
    rw [List.mapM_cons]
    exact bind (hg item) fun b => bind ih fun bs => of_ok (b :: bs)

end RaisesOnly

/-- The text that an operation has for a response without a result. -/
def emptyText : Operation → Str
  | .complete => lit "GigaChat response has no choices"
  | .embed => lit "GigaChat embeddings response has no data"

/-- An exception from elsewhere, or the one the operation defines. -/
def ResultError (op : Operation) (exc : PyExc) : Prop := isProviderError exc = false ∨ exc = .provider (emptyText op)

theorem raises_asDict (value : Json) : RaisesOnly (ResultError op) (asDict value) := by
  rcases asDict_cases value with h | ⟨fields, rfl⟩
  · rw [h]
    exact RaisesOnly.of_error (.inl rfl)
  · exact RaisesOnly.of_ok fields

theorem raises_firstItem (value : Json) : RaisesOnly (ResultError op) (firstItem value) := by
  unfold firstItem
  split
  · exact RaisesOnly.of_ok _
  · exact RaisesOnly.of_ok _
  · exact RaisesOnly.of_error (.inl rfl)
  · exact RaisesOnly.of_error (.inl rfl)

theorem raises_iterate (value : Json) : RaisesOnly (ResultError op) (iterate value) := by
  unfold iterate
  split
  · exact RaisesOnly.of_ok _
  · exact RaisesOnly.of_ok _
  · exact RaisesOnly.of_ok _
  · exact RaisesOnly.of_error (.inl rfl)

theorem raises_len (value : Json) : RaisesOnly (ResultError op) (len value) := by
  unfold len
  split
  · exact RaisesOnly.of_ok _
  · exact RaisesOnly.of_ok _
  · exact RaisesOnly.of_ok _
  · exact RaisesOnly.of_error (.inl rfl)

theorem raises_operationResult (config : Config) (op : Operation) (task : Fields) (response : Json) :
    RaisesOnly (ResultError op) (operationResult config op task response) := by
  cases op with
  | complete =>
    refine RaisesOnly.bind (raises_asDict response) fun payload => ?_
    simp only
    split
    · exact RaisesOnly.of_error (.inr rfl)
    · refine RaisesOnly.bind (raises_firstItem _) fun item => RaisesOnly.bind (raises_asDict item) fun choice => ?_
      exact RaisesOnly.bind (raises_asDict _) fun message => RaisesOnly.of_ok _
  | embed =>
    refine RaisesOnly.bind (raises_asDict response) fun payload => ?_
    simp only
    split
    · exact RaisesOnly.of_error (.inr rfl)
    · refine RaisesOnly.bind (raises_iterate _) fun items => RaisesOnly.bind (RaisesOnly.mapM raises_asDict items) fun dicts => ?_
      exact RaisesOnly.bind (RaisesOnly.mapM raises_len _) fun lengths => RaisesOnly.of_ok _

/-- Results that end alike raise exceptions of one text. -/
theorem safeErrorMessage_result {config : Config} {body body' : Json} {exc exc' : PyExc}
    (hbody : operationResult config op task body = .error exc) (hbody' : operationResult config op task body' = .error exc')
    (h : SameClass exc exc') : safeErrorMessage exc = safeErrorMessage exc' := by
  rcases raises_operationResult config op task body exc hbody with hforeign | rfl
  · exact h.safeErrorMessage_eq hforeign
  · rcases raises_operationResult config op task body' exc' hbody' with hforeign | rfl
    · exact absurd (h.1.trans hforeign) Bool.noConfusion
    · rfl

theorem coupled_run (settings : ClientSettings)
    (h : SameCourse env op task (getD task (lit "credential_lane") (.str (lit "primary"))) final outside outside' first second) :
    Coupled (Before final)
      (fun client client' => Pace client client' ∧
        LookedUpAlike env.py outside (getD task (lit "credential_lane") (.str (lit "primary"))) final client client') Raise
      (fun _ _ => Pace) (op.run env settings outside task) (op.run env settings outside' task) := by
  refine Coupled.bind (Q := fun body body' client client' =>
    ∃ request, Answered outside outside' request 120 body body' client client') ?_
    (fun response s => before_of_continues (continues_attempted _) s) ?_
  · refine Coupled.bind (coupled_attempted (fun s t hst => hst.1) (checkRequest op task))
      (fun _ s => before_of_continues (continues_authorizedFrom _ _) s) ?_
    intro checked checked'
    apply Coupled.of_fact
    intro
    exact coupled_authorizedFrom h settings _ 120 (List.range 2)
  · rintro body body' client client' ⟨request, hpace, earlier, hevents, hbody, hbody'⟩ hafter
    have hbefore : Before final client := before_of_continues (continues_attempted _) client hafter
    have hend := h.result request earlier body body' (hevents ▸ hbefore) hbody hbody'
    change Alike Raise _ ((attempted (operationResult env.config op task body)).outcome client)
      ((attempted (operationResult env.config op task body')).outcome client')
    rw [outcome_attempted, outcome_attempted]
    cases hresult : operationResult env.config op task body with
    | ok result =>
      cases hresult' : operationResult env.config op task body' with
      | ok result' => exact .ok hpace
      | error exc' => rw [hresult, hresult'] at hend; cases hend
    | error exc =>
      cases hresult' : operationResult env.config op task body' with
      | ok result' => rw [hresult, hresult'] at hend; cases hend
      | error exc' =>
        rw [hresult, hresult'] at hend
        cases hend with
        | error hclass => exact .error ⟨⟨safeErrorMessage_result hresult hresult' hclass, rfl⟩, hpace⟩

/-! ## Deliveries -/

/-- Two deliveries of one payload that differ in secrets: the transactions end alike, with exceptions that the worker
does not define, and so does what the first does in its operation, if it comes to one. -/
structure SameDelivery (env : Env) (settings : ClientSettings) (payload : Fields) (first second : Surroundings)
    (client client' : GigaChatClient) : Prop where
  claim : (∃ lease lease', first.claim = .ok (some lease) ∧ second.claim = .ok (some lease')) ∨
    (∀ lease, first.claim ≠ .ok (some lease)) ∧ ∀ lease, second.claim ≠ .ok (some lease)
  recordAttempt : SameForeignEnd first.recordAttempt second.recordAttempt
  recordCompletion : SameForeignEnd first.recordCompletion second.recordCompletion
  course : ∀ op, route env.py payload = .call op →
    SameCourse env op payload (getD payload (lit "credential_lane") (.str (lit "primary")))
      ((op.run env settings first.outside payload).after client).events first.outside second.outside client client'

theorem SameForeignEnd.cases {result result' : Except PyExc α} (h : SameForeignEnd result result') :
    (∃ a a', result = .ok a ∧ result' = .ok a') ∨
      ∃ exc exc', result = .error exc ∧ result' = .error exc' ∧ safeErrorMessage exc = safeErrorMessage exc' := by
  obtain ⟨hend, hforeign⟩ := h
  cases hend with
  | ok a a' => exact .inl ⟨a, a', rfl, rfl⟩
  | error hclass => exact .inr ⟨_, _, rfl, rfl, hclass.safeErrorMessage_eq (hforeign _ rfl)⟩

/-- The two `try` statements end alike, with one message if they raise. -/
theorem operate_alike {payload : Fields} {surroundings surroundings' : Surroundings}
    (h : SameDelivery env settings payload surroundings surroundings' client client') :
    (operate env settings surroundings payload client = .ok () ∧ operate env settings surroundings' payload client' = .ok ()) ∨
      ∃ exc exc', operate env settings surroundings payload client = .error exc ∧
        operate env settings surroundings' payload client' = .error exc' ∧ safeErrorMessage exc = safeErrorMessage exc' := by
  unfold operate
  rcases h.recordAttempt.cases with ⟨_, _, hattempt, hattempt'⟩ | ⟨exc, exc', hattempt, hattempt', hmessage⟩
  · rw [hattempt, hattempt']
    have hcompletion : (surroundings.recordCompletion = .ok () ∧ surroundings'.recordCompletion = .ok ()) ∨
        ∃ exc exc', surroundings.recordCompletion = .error exc ∧ surroundings'.recordCompletion = .error exc' ∧
          safeErrorMessage exc = safeErrorMessage exc' := by
      rcases h.recordCompletion.cases with ⟨_, _, hcompletion, hcompletion'⟩ | herror
      · exact .inl ⟨hcompletion, hcompletion'⟩
      · exact .inr herror
    simp only [bind, Except.bind]
    cases hroute : route env.py payload with
    | fail exc => exact .inr ⟨exc, exc, rfl, rfl, rfl⟩
    | finish completion => exact hcompletion
    | call op =>
      have hcourse := h.course op hroute
      have halike := coupled_run settings hcourse client client' ⟨hcourse.pace, hcourse.cached⟩ (List.suffix_refl _)
      simp only
      generalize (op.run env settings surroundings.outside payload).outcome client = outcome at halike ⊢
      generalize (op.run env settings surroundings'.outside payload).outcome client' = outcome' at halike ⊢
      cases halike with
      | ok _ => exact hcompletion
      | error hraise => exact .inr ⟨_, _, rfl, rfl, hraise.1.1⟩
  · rw [hattempt, hattempt']
    exact .inr ⟨exc, exc', rfl, rfl, hmessage⟩

/-- What was not claimed is not recorded. -/
theorem failure_of_unclaimed {payload : Fields} {surroundings : Surroundings} (h : ∀ lease, surroundings.claim ≠ .ok (some lease)) :
    failure env settings surroundings payload client = none := by
  unfold failure
  cases hclaim : surroundings.claim with
  | error exc => rfl
  | ok granted =>
    cases granted with
    | none => rfl
    | some lease => exact absurd hclaim (h lease)

/-- The recorded message does not depend on a secret. Two deliveries of one payload with other credentials, tokens,
response bodies and texts of exceptions, which see the same statuses and classes of exceptions, give `record_failed` one
message, and it writes the same rows in both. -/
theorem error_texts_independent (env : Env) (settings : ClientSettings) (payload : Fields) (first second : Surroundings)
    (client client' : GigaChatClient) (h : SameDelivery env settings payload first second client client') :
    (failure env settings first payload client).map Thrown.safeErrorMessage =
        (failure env settings second payload client').map Thrown.safeErrorMessage ∧
      ∀ now taskId executionId db,
        (failure env settings first payload client).map (fun thrown => recordFailed env now taskId executionId thrown.exc db) =
          (failure env settings second payload client').map fun thrown => recordFailed env now taskId executionId thrown.exc db := by
  rcases h.claim with ⟨lease, lease', hclaim, hclaim'⟩ | ⟨hclaim, hclaim'⟩
  · unfold failure
    rw [hclaim, hclaim']
    simp only
    rcases operate_alike h with ⟨hoperate, hoperate'⟩ | ⟨exc, exc', hoperate, hoperate', hmessage⟩
    · rw [hoperate, hoperate']
      exact ⟨rfl, fun _ _ _ _ => rfl⟩
    · rw [hoperate, hoperate']
      have hthrown : (first.thrown exc).safeErrorMessage = (second.thrown exc').safeErrorMessage := by
        rw [Thrown.safeErrorMessage_eq, Thrown.safeErrorMessage_eq]
        exact hmessage
      refine ⟨congrArg some hthrown, fun now taskId executionId db => congrArg some ?_⟩
      change recordFailed env now taskId executionId exc db = recordFailed env now taskId executionId exc' db
      rw [recordFailed, recordFailed, hmessage]
  · rw [failure_of_unclaimed hclaim, failure_of_unclaimed hclaim']
    exact ⟨rfl, fun _ _ _ _ => rfl⟩

namespace Sample

/-- An embeddings task of the provider. -/
def embeddingPayload : Fields := (lit "provider", .str (lit "gigachat")) :: (lit "operation", .str (lit "embeddings")) :: embedding

/-- A worker with a credential, to which a token is granted before the provider fails. -/
def failing (credential token : Str) : Surroundings where
  claim := .ok (some (1, 2))
  recordAttempt := .ok ()
  recordCompletion := .ok ()
  outside := {
    attempt := fun n =>
      if n = 0 then .answered (.obj [(lit "access_token", .str token), (lit "expires_at", .int 4102444800)])
      else .httpError 500 none
    time := fun _ => epoch
    getenv := fun name => if name = lit "GIGACHAT_KEY_A1" then some credential else none }
  text := fun _ => credential

end Sample

/-- Two workers with credentials and tokens of their own record one message. -/
theorem error_texts_failing :
    (failure Sample.env (Sample.clientSettings 1) (Sample.failing (lit "key") (lit "token")) Sample.embeddingPayload .initial).map
          Thrown.safeErrorMessage =
        (failure Sample.env (Sample.clientSettings 1) (Sample.failing (lit "other") (lit "another")) Sample.embeddingPayload
          .initial).map Thrown.safeErrorMessage ∧
      ∀ now taskId executionId db,
        (failure Sample.env (Sample.clientSettings 1) (Sample.failing (lit "key") (lit "token")) Sample.embeddingPayload .initial).map
            (fun thrown => recordFailed Sample.env now taskId executionId thrown.exc db) =
          (failure Sample.env (Sample.clientSettings 1) (Sample.failing (lit "other") (lit "another")) Sample.embeddingPayload
            .initial).map fun thrown => recordFailed Sample.env now taskId executionId thrown.exc db := by
  apply error_texts_independent
  have hdone : SameForeignEnd (.ok () : Except PyExc Unit) (.ok ()) := ⟨.ok () (), fun _ h => by cases h⟩
  refine ⟨.inl ⟨_, _, rfl, rfl⟩, hdone, hdone, fun op hroute => ?_⟩
  have hlane : getD Sample.embeddingPayload (lit "credential_lane") (.str (lit "primary")) = .str (lit "primary") := by decide
  rw [hlane]
  generalize ((op.run Sample.env (Sample.clientSettings 1) (Sample.failing (lit "key") (lit "token")).outside
    Sample.embeddingPayload).after .initial).events = final
  have hanswer : ∀ credential token n body,
      (Sample.failing credential token).outside.attempt n = .answered body →
      body = .obj [(lit "access_token", .str token), (lit "expires_at", .int 4102444800)] := by
    intro credential token n body hanswer
    simp only [Sample.failing] at hanswer
    split at hanswer
    · cases hanswer
      rfl
    · cases hanswer
  have hempty : ∀ token, operationResult Sample.env.config op Sample.embeddingPayload
      (.obj [(lit "access_token", .str token), (lit "expires_at", .int 4102444800)]) = .error (.provider (emptyText op)) := by
    intro token
    cases op <;> rfl
  refine ⟨rfl, rfl, ?_, ⟨rfl, rfl⟩, trivial, ?_, ?_, ?_⟩
  · intro key hkey
    cases hkey
    rfl
  · intro request timeout earlier _
    simp only [Sample.failing]
    split
    · exact .answered _ _
    · exact .httpError 500 none
  · intro request earlier body body' _ hbody hbody'
    rw [hanswer _ _ _ _ hbody, hanswer _ _ _ _ hbody']
    refine ⟨rfl, fun _ => ?_⟩
    have hexpiry : ∀ token, reportedExpiry [(lit "access_token", .str token), (lit "expires_at", .int 4102444800)] =
        .int 4102444800 := fun token => rfl
    rw [hexpiry, hexpiry]
    cases normalizeExpiryTimestamp (.int 4102444800) with
    | ok expiry => exact ⟨rfl, fun _ => rfl⟩
    | error exc => exact ⟨rfl, rfl⟩
  · intro request earlier body body' _ hbody hbody'
    rw [hanswer _ _ _ _ hbody, hanswer _ _ _ _ hbody', hempty, hempty]
    exact .error ⟨rfl, rfl⟩

end NeuroLab.ControlPlane
