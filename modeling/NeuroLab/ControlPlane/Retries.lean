import Mathlib.Data.Rat.Cast.Order
import NeuroLab.ControlPlane.Client
import NeuroLab.ControlPlane.Sample

/-!
# The time of a provider call

A call asks for a token, sends its request, and may do both a second time after a 401. Each of
these requests is tried as often as the settings say, with a pause between two attempts, so
that the time of a call has a bound that the answers of the network do not change. The lease
of the task is a setting of its own.
-/

namespace NeuroLab.ControlPlane

open Python Common

/-! ## Time -/

/-- The time an event takes at most: an attempt ends with its timeout. -/
def Event.seconds : Event → ℚ
  | attempt _ timeout => timeout
  | sleep delay => delay.value
  | clock => 0

/-- The time of all that a client did. -/
def GigaChatClient.spent (client : GigaChatClient) : ℚ := (client.events.map Event.seconds).sum

/-- The time of a run. -/
def elapsed {α : Type} (x : Method α) (client : GigaChatClient) : ℚ := (x.after client).spent - client.spent

/-- The time of one request: its attempts and the pauses between them. -/
def patience (retryAttempts : ℤ) (timeout : ℕ) : ℚ := retryAttempts.toNat * timeout + 30 * (retryAttempts.toNat - 1 : ℕ)

variable {α : Type} {py : Interpreter} {env : Env} {settings : ClientSettings} {outside : Outside} {client : GigaChatClient}
  {request : Request} {label : Str} {timeout : ℕ} {lane : Json} {task : Fields} {op : Operation}

theorem spent_note (event : Event) (client : GigaChatClient) : (client.note event).spent = client.spent + event.seconds := by
  rw [GigaChatClient.spent, GigaChatClient.note, List.map_cons, List.sum_cons, add_comm]
  rfl

theorem spent_cache (lane : Json) (token : Option Token) (client : GigaChatClient) :
    (client.cache lane token).spent = client.spent := rfl

theorem tokens_cache (lane : Json) (token : Option Token) (client : GigaChatClient) :
    (client.cache lane token).tokens lane = token := by
  rw [GigaChatClient.cache]
  exact if_pos rfl

theorem patience_nonneg (retryAttempts : ℤ) (timeout : ℕ) : 0 ≤ patience retryAttempts timeout := by
  rw [patience]
  positivity

/-- Without attempts there is nothing to wait for. -/
theorem patience_of_nonpos {retryAttempts : ℤ} (h : retryAttempts ≤ 0) (timeout : ℕ) : patience retryAttempts timeout = 0 := by
  rw [patience, Int.toNat_of_nonpos h]
  norm_num

/-! ## The bound -/

theorem costs_note (event : Event) : Costs GigaChatClient.spent (modify (GigaChatClient.note event) : Method PUnit) event.seconds :=
  .of_modify fun client => (spent_note event client).le

theorem costs_cache (lane : Json) (token : Option Token) :
    Costs GigaChatClient.spent (modify (GigaChatClient.cache lane token) : Method PUnit) 0 :=
  .of_modify fun client => by rw [spent_cache, add_zero]

theorem costs_attempted (x : Except PyExc α) : Costs GigaChatClient.spent (attempted x) 0 := by
  cases x with
  | ok a => exact .of_pure a
  | error exc => exact .of_throw _

theorem costs_providerError (message : Str) (statusCode : Option ℕ) :
    Costs GigaChatClient.spent (providerError message statusCode : Method α) 0 := .of_throw _

theorem costs_urlopen : Costs GigaChatClient.spent (urlopen outside request timeout) timeout :=
  .bind_of_free .of_get (fun _ => .bind_free (costs_note (.attempt request timeout)) fun _ => .of_pure _)
    (Nat.cast_nonneg timeout)

theorem costs_soon : Costs GigaChatClient.spent (soon outside) 0 :=
  .bind_of_free .of_get (fun _ => .bind_free (costs_note .clock) fun _ => .of_pure _) le_rfl

theorem costs_sleep {delay : Number} (h : delay.value ≤ 30) : Costs GigaChatClient.spent (sleep delay) 30 := by
  unfold sleep
  split
  · exact (Costs.of_throw _).mono (by norm_num)
  · exact (costs_note (.sleep delay)).mono h

/-- No pause is longer than thirty seconds, whatever the header says. -/
theorem value_retryDelay_le (attempt : ℕ) (retryAfter : Option Str) : (retryDelay attempt retryAfter).value ≤ 30 := by
  have hclamp : ∀ x : Number, (x.min (.int 30)).value ≤ 30 := fun x => by
    have hthirty : (Number.int 30).value = 30 := rfl
    unfold Number.min
    split
    · exact hthirty.le
    next hnot =>
      cases x with
      | int n => simpa [Number.lt, Number.value] using hnot
      | double d => simpa [Number.lt, Number.value] using hnot
      | infinite negative => norm_num [Number.value]
      | nan => norm_num [Number.value]
  exact hclamp _

/-- The loop costs its attempts and the pauses between them, by induction on the attempts that remain. -/
theorem costs_requestFrom (retryAttempts : ℤ) (k m : ℕ) (hn : (k : ℤ) + m = retryAttempts) :
    Costs GigaChatClient.spent (requestFrom outside retryAttempts request label timeout (List.range' k m))
      (m * timeout + 30 * (m - 1 : ℕ)) := by
  induction m generalizing k with
  | zero => exact (costs_providerError _ none).mono (by norm_num)
  | succ m ih =>
    have htimeout : (0 : ℚ) ≤ timeout := Nat.cast_nonneg timeout
    have hlater := ih (k + 1) (by push_cast at hn ⊢; omega)
    have hpause : ∀ delay : Number, delay.value ≤ 30 → (k : ℤ) + 1 < retryAttempts →
        Costs GigaChatClient.spent (sleep delay >>= fun _ =>
          requestFrom outside retryAttempts request label timeout (List.range' (k + 1) m)) (m * timeout + 30 * m) := by
      intro delay hdelay hk
      have hpos : 1 ≤ m := by push_cast at hn; omega
      have hcast : ((m - 1 : ℕ) : ℚ) = m - 1 := Nat.cast_pred hpos
      refine ((costs_sleep hdelay).bind (fun _ => hlater) (by positivity)).mono ?_
      rw [hcast]
      linarith
    rw [List.range'_succ, requestFrom]
    have hfree : (0 : ℚ) ≤ m * timeout + 30 * m := by positivity
    have hsum : (timeout : ℚ) + (m * timeout + 30 * m) ≤ (m + 1 : ℕ) * timeout + 30 * (m + 1 - 1 : ℕ) := by
      rw [Nat.add_sub_cancel, Nat.cast_succ]
      linarith
    refine Costs.mono (Costs.bind costs_urlopen (fun answer => ?_) hfree) hsum
    cases answer with
    | answered body => exact (Costs.of_pure _).mono hfree
    | raised exc => exact (Costs.of_throw _).mono hfree
    | httpError code retryAfter =>
      simp only
      split
      next hretry => exact hpause _ (value_retryDelay_le k retryAfter) hretry.2
      next => exact (costs_providerError _ _).mono hfree
    | unreachable cls =>
      simp only
      split
      next hretry => exact hpause _ (by simp [Number.value]) hretry
      next => exact (costs_providerError _ _).mono hfree

theorem costs_requestJson (retryAttempts : ℤ) :
    Costs GigaChatClient.spent (requestJson outside retryAttempts request label timeout) (patience retryAttempts timeout) := by
  unfold requestJson patience
  rw [List.range_eq_range']
  rcases le_or_gt 0 retryAttempts with hpos | hneg
  · exact costs_requestFrom retryAttempts 0 retryAttempts.toNat (by omega)
  · rw [Int.toNat_of_nonpos hneg.le]
    exact (costs_providerError _ none).mono (by norm_num)

theorem costs_laneError (text : String) : Costs GigaChatClient.spent (laneError py text lane : Method α) 0 :=
  .bind_of_free (costs_attempted _) (fun _ => costs_providerError _ _) le_rfl

theorem costs_credentialFor : Costs GigaChatClient.spent (credentialFor py outside lane) 0 := by
  refine .bind_of_free (costs_attempted _) (fun _ => ?_) le_rfl
  cases (keyEnv outside lane).filter (· ≠ []) with
  | none => exact costs_laneError _
  | some key =>
    simp only
    cases (outside.getenv key).filter (· ≠ []) with
    | none => exact costs_laneError _
    | some credential => exact .of_pure _

theorem costs_cachedToken : Costs GigaChatClient.spent (cachedToken outside lane) 0 := by
  refine .bind_of_free (costs_attempted _) (fun _ => .bind_of_free .of_get (fun client => ?_) le_rfl) le_rfl
  cases client.tokens lane with
  | none => exact .of_pure _
  | some cached => exact .bind_of_free costs_soon (fun _ => .of_pure _) le_rfl

theorem costs_storeToken (response : Json) : Costs GigaChatClient.spent (storeToken outside lane response) 0 := by
  refine .bind_of_free (costs_attempted _) (fun fields => ?_) le_rfl
  simp only
  split
  · refine .bind_of_free (costs_attempted _) (fun expiry => .bind_of_free costs_soon (fun limit => ?_) le_rfl) le_rfl
    split
    · exact costs_providerError _ _
    · exact .bind_of_free (costs_cache lane _) (fun _ => .of_pure _) le_rfl
  · exact costs_providerError _ _

theorem costs_accessToken :
    Costs GigaChatClient.spent (accessToken py settings outside lane) (patience settings.retryAttempts 30) := by
  have hnonneg := patience_nonneg settings.retryAttempts 30
  refine .bind_of_free costs_cachedToken (fun cached => ?_) hnonneg
  cases cached with
  | some token => exact (Costs.of_pure _).mono hnonneg
  | none =>
    refine .bind_of_free (costs_attempted _) (fun _ => .bind_of_free costs_credentialFor (fun _ => ?_) hnonneg) hnonneg
    exact .bind_free (costs_requestJson _) fun response => costs_storeToken response

/-- Each round of `authorized_request_json` asks for a token and sends a request, by induction on the rounds. -/
theorem costs_authorizedFrom (requestFactory : Json → Except PyExc Request) (rounds : List ℕ) :
    Costs GigaChatClient.spent (authorizedFrom py settings outside lane requestFactory label timeout rounds)
      (rounds.length * (patience settings.retryAttempts 30 + patience settings.retryAttempts timeout)) := by
  have htoken := patience_nonneg settings.retryAttempts 30
  have hrequest := patience_nonneg settings.retryAttempts timeout
  induction rounds with
  | nil => exact (costs_providerError _ _).mono (by norm_num)
  | cons round later ih =>
    have hlater : (0 : ℚ) ≤ later.length * (patience settings.retryAttempts 30 + patience settings.retryAttempts timeout) := by
      positivity
    have hround : Costs GigaChatClient.spent
        (authorizedFrom py settings outside lane requestFactory label timeout (round :: later))
        (patience settings.retryAttempts 30 + (patience settings.retryAttempts timeout +
          later.length * (patience settings.retryAttempts 30 + patience settings.retryAttempts timeout))) := by
      refine .bind costs_accessToken (fun token => ?_) (by positivity)
      refine .bind_of_free (costs_attempted _) (fun request => ?_) (by positivity)
      refine .tryCatch (costs_requestJson _) (fun raised => ?_) hlater
      split
      · exact .bind_of_free (costs_cache lane none) (fun _ => ih) hlater
      · exact (Costs.of_throw _).mono hlater
    refine hround.mono (le_of_eq ?_)
    rw [List.length_cons, Nat.cast_succ]
    ring

/-- A call costs at most two rounds. -/
theorem costs_callProvider : Costs GigaChatClient.spent (callProvider env settings outside op task)
    (2 * (patience settings.retryAttempts 30 + patience settings.retryAttempts 120)) := by
  have htoken := patience_nonneg settings.retryAttempts 30
  have hrequest := patience_nonneg settings.retryAttempts 120
  refine .bind_of_free (costs_attempted _) (fun _ => ?_) (by positivity)
  exact costs_authorizedFrom _ (List.range 2)

theorem rounds_eq {retryAttempts : ℤ} (h : 0 < retryAttempts) :
    2 * (patience retryAttempts 30 + patience retryAttempts 120) = 420 * retryAttempts - 120 := by
  have hcast : ((retryAttempts.toNat - 1 : ℕ) : ℚ) = (retryAttempts.toNat : ℚ) - 1 := Nat.cast_pred (by omega)
  have hnat : ((retryAttempts.toNat : ℕ) : ℚ) = retryAttempts := by exact_mod_cast Int.toNat_of_nonneg h.le
  rw [patience, patience, hcast, hnat]
  push_cast
  ring

/-! ## The bound is reached -/

/-- The attempts that a client made. -/
def GigaChatClient.attempts (client : GigaChatClient) : ℕ := client.events.countP Event.isAttempt

/-- A client that made so many attempts and took so long since. -/
structure Waited (client client' : GigaChatClient) (attempts : ℕ) (seconds : ℚ) : Prop where
  attempts : client'.attempts = client.attempts + attempts
  spent : client'.spent = client.spent + seconds

theorem Waited.trans {client client' client'' : GigaChatClient} {m n : ℕ} {p q : ℚ} (h : Waited client client' m p)
    (h' : Waited client' client'' n q) : Waited client client'' (m + n) (p + q) where
  attempts := by rw [h'.attempts, h.attempts, add_assoc]
  spent := by rw [h'.spent, h.spent, add_assoc]

theorem waited_attempt (client : GigaChatClient) (request : Request) (timeout : ℕ) :
    Waited client (client.note (.attempt request timeout)) 1 timeout :=
  ⟨List.countP_cons_of_pos rfl, spent_note _ _⟩

theorem waited_sleep (client : GigaChatClient) (delay : Number) : Waited client (client.note (.sleep delay)) 0 delay.value :=
  ⟨List.countP_cons_of_neg Bool.false_ne_true, spent_note _ _⟩

theorem outcome_urlopen :
    (urlopen outside request timeout).outcome client =
      (.ok (outside.attempt client.attempts), client.note (.attempt request timeout)) := rfl

/-- The longest pause. -/
theorem retryDelay_sixty (attempt : ℕ) : retryDelay attempt (some (lit "60")) = .int 30 := by
  have hlit : lit "60" = [0x36, 0x30] := by decide
  have hfloat : floatOfText [0x36, 0x30] = some (.finite false 60 0) := by decide +kernel
  have hclamp : ((PyFloat.number (.finite false 60 0)).max (.int 1)).min (.int 30) = .int 30 := by decide +kernel
  rw [hlit]
  simp only [retryDelay, hfloat, Option.map_some, Option.getD_some, hclamp]

/-- Up to its last attempt a request waits as long as it can, by induction on the attempts that remain. -/
theorem requestFrom_waits (request : Request) (label : Str) (timeout : ℕ) {retryAttempts : ℤ} {start : ℕ} (k m : ℕ) (hn : (k : ℤ) + m + 1 = retryAttempts)
    (hstart : client.attempts = start + k)
    (hanswers : ∀ i, i < k + m → outside.attempt (start + i) = .httpError 429 (some (lit "60"))) :
    ∃ client', Waited client client' m (m * (timeout + 30)) ∧
      (requestFrom outside retryAttempts request label timeout (List.range' k (m + 1))).outcome client =
        (requestFrom outside retryAttempts request label timeout [k + m]).outcome client' := by
  induction m generalizing k client with
  | zero => exact ⟨client, ⟨rfl, by simp⟩, rfl⟩
  | succ m ih =>
    have hanswer : outside.attempt client.attempts = .httpError 429 (some (lit "60")) := by
      rw [hstart]
      exact hanswers k (by omega)
    have hpause : (sleep (retryDelay k (some (lit "60")))).outcome (client.note (.attempt request timeout)) =
        (.ok (), (client.note (.attempt request timeout)).note (.sleep (.int 30))) := by
      rw [retryDelay_sixty]
      rfl
    have hwaited := (waited_attempt client request timeout).trans (waited_sleep _ (.int 30))
    obtain ⟨client', hlater, hrun⟩ := ih (k + 1) (by push_cast at hn ⊢; omega)
      (by rw [hwaited.attempts, hstart]; omega) (fun i hi => hanswers i (by omega))
    refine ⟨client', ?_, ?_⟩
    · have hcount : 1 + 0 + m = m + 1 := by omega
      have hseconds : (timeout : ℚ) + (Number.int 30).value + m * (timeout + 30) = (m + 1 : ℕ) * (timeout + 30) := by
        have hthirty : (Number.int 30).value = 30 := rfl
        rw [hthirty, Nat.cast_succ]
        ring
      have hboth := hwaited.trans hlater
      rw [hcount, hseconds] at hboth
      exact hboth
    · rw [List.range'_succ, requestFrom, Program.outcome_bind_of_ok outcome_urlopen, hanswer]
      simp only
      rw [if_pos ⟨rfl, by push_cast at hn; omega⟩, Program.outcome_bind_of_ok hpause, hrun, Nat.add_right_comm k 1 m]
      rfl

namespace Sample

/-- A response of the OAuth endpoint. -/
def tokenResponse : Json := .obj [(lit "access_token", .str (lit "token")), (lit "expires_at", .int 4102444800)]

/-- A network that is overloaded until the last attempt at a request, then grants a token or rejects it. -/
def slowAttempt (n i : ℕ) : Attempt :=
  if i % n + 1 < n then .httpError 429 (some (lit "60"))
  else if i / n % 2 = 0 then .answered tokenResponse
  else .httpError 401 none

/-- The start of the epoch. -/
def epoch : Double := ⟨false, 0, 0, by decide, .inl rfl⟩

/-- The outside of a worker with one credential. -/
def slowOutside (n : ℕ) : Outside where
  attempt := slowAttempt n
  time := fun _ => epoch
  getenv := fun name => if name = lit "GIGACHAT_KEY_A1" then some (lit "key") else none

end Sample

/-- What a request meets in the slow network after so many others. -/
def slowResult (label : Str) (round : ℕ) : Except Raised Json :=
  if round % 2 = 0 then .ok Sample.tokenResponse
  else .error ⟨.provider (label ++ lit " failed: " ++ decimal 401), some 401⟩

theorem slow_request (request : Request) (label : Str) (timeout : ℕ) {n round : ℕ} (hn : 0 < n) (hround : client.attempts = round * n) :
    ∃ client', Waited client client' n (patience n timeout) ∧
      (requestJson (Sample.slowOutside n) n request label timeout).outcome client = (slowResult label round, client') := by
  obtain ⟨m, rfl⟩ := Nat.exists_eq_add_one_of_ne_zero hn.ne'
  have hanswer : ∀ i, i < m + 1 → (Sample.slowOutside (m + 1)).attempt (round * (m + 1) + i) =
      if i < m then .httpError 429 (some (lit "60"))
      else if round % 2 = 0 then .answered Sample.tokenResponse else .httpError 401 none := by
    intro i hi
    have hmod : (round * (m + 1) + i) % (m + 1) = i := by
      rw [Nat.mul_add_mod', Nat.mod_eq_of_lt hi]
    have hdiv : (round * (m + 1) + i) / (m + 1) = round := by
      rw [Nat.add_comm, Nat.add_mul_div_right _ _ hn, Nat.div_eq_of_lt hi, Nat.zero_add]
    simp only [Sample.slowOutside, Sample.slowAttempt, hmod, hdiv, Nat.add_lt_add_iff_right]
  have hpauses : ∀ i, i < 0 + m →
      (Sample.slowOutside (m + 1)).attempt (round * (m + 1) + i) = .httpError 429 (some (lit "60")) := fun i hi => by
    rw [hanswer i (by omega), if_pos (by omega)]
  obtain ⟨client', hwaited, hrun⟩ := requestFrom_waits request label timeout 0 m
    (show ((0 : ℕ) : ℤ) + m + 1 = (m + 1 : ℕ) by push_cast; ring) hround hpauses
  have hlast : (Sample.slowOutside (m + 1)).attempt client'.attempts =
      if round % 2 = 0 then .answered Sample.tokenResponse else .httpError 401 none := by
    rw [hwaited.attempts, hround, hanswer m (by omega), if_neg (lt_irrefl m)]
  have hboth := hwaited.trans (waited_attempt client' request timeout)
  refine ⟨client'.note (.attempt request timeout), ?_, ?_⟩
  · have hseconds : (m : ℚ) * (timeout + 30) + timeout = patience (m + 1 : ℕ) timeout := by
      rw [patience, Int.toNat_natCast, Nat.add_sub_cancel, Nat.cast_succ]
      ring
    rw [hseconds] at hboth
    exact hboth
  · rw [requestJson, Int.toNat_natCast, List.range_eq_range', hrun, requestFrom,
      Program.outcome_bind_of_ok outcome_urlopen, hlast, slowResult]
    by_cases heven : round % 2 = 0
    · rw [if_pos heven, if_pos heven]
      rfl
    · rw [if_neg heven, if_neg heven]
      simp only
      rw [if_neg fun hretry => absurd hretry.1 (by decide)]
      rfl

/-- The token of a response is cached, if it expires later. -/
theorem storeToken_of_later {lane : Json} {fields : Fields} {expiry limit : Number}
    (htoken : truthy (getD fields (lit "access_token") .null) = true)
    (hexpiry : normalizeExpiryTimestamp (if truthy (getD fields (lit "expires_at") .null) then
      getD fields (lit "expires_at") .null else getD fields (lit "exp") .null) = .ok expiry)
    (hsoon : (soon outside).outcome client = (.ok limit, client.note .clock)) (hlater : expiry.le limit = false) :
    (storeToken outside lane (.obj fields)).outcome client =
      (.ok (getD fields (lit "access_token") .null),
        (client.note .clock).cache lane (some ⟨getD fields (lit "access_token") .null, expiry⟩)) := by
  have hfields : (attempted (asDict (.obj fields))).outcome client = (.ok fields, client) := rfl
  have hnormalized : (attempted (.ok expiry : Except PyExc Number)).outcome client = (.ok expiry, client) := rfl
  rw [storeToken, Program.outcome_bind_of_ok hfields]
  simp only [htoken, if_true, hexpiry]
  rw [Program.outcome_bind_of_ok hnormalized, Program.outcome_bind_of_ok hsoon, if_neg (by simp [hlater])]
  rfl

/-- A lane without a token gets that of the OAuth response. -/
theorem accessToken_of_response {lane response : Json} {credential data : Str} {client' : GigaChatClient}
    (hlane : hashed lane = .ok ()) (hnone : client.tokens lane = none)
    (hdata : urlencode [(lit "scope", settings.scope)] = some data)
    (hcredential : (credentialFor py outside lane).outcome client = (.ok credential, client))
    (hrequest : (requestJson outside settings.retryAttempts ⟨settings.oauthUrl, data, lit "Basic " ++ credential⟩
      (lit "GigaChat OAuth") 30).outcome client = (.ok response, client')) :
    (accessToken py settings outside lane).outcome client = (storeToken outside lane response).outcome client' := by
  have hhashed : (attempted (hashed lane)).outcome client = (.ok (), client) := by
    rw [hlane]
    rfl
  have hcached : (cachedToken outside lane).outcome client = (.ok none, client) := by
    rw [cachedToken, Program.outcome_bind_of_ok hhashed, Program.outcome_bind_of_ok (Program.outcome_get client), hnone]
    rfl
  have hencoded : (attempted ((urlencode [(lit "scope", settings.scope)]).elim
      (.error (.value (lit "UnicodeEncodeError"))) .ok)).outcome client = (.ok data, client) := by
    rw [hdata]
    rfl
  rw [accessToken, Program.outcome_bind_of_ok hcached]
  simp only
  rw [Program.outcome_bind_of_ok hencoded, Program.outcome_bind_of_ok hcredential, Program.outcome_bind_of_ok hrequest]

/-- The token of the response is cached. -/
theorem slow_store (lane : Json) (n : ℕ) (client : GigaChatClient) :
    ∃ client', Waited client client' 0 0 ∧
      (storeToken (Sample.slowOutside n) lane Sample.tokenResponse).outcome client = (.ok (.str (lit "token")), client') := by
  let fields : Fields := [(lit "access_token", .str (lit "token")), (lit "expires_at", .int 4102444800)]
  have htoken : truthy (getD fields (lit "access_token") .null) = true := by decide
  have hreported : (if truthy (getD fields (lit "expires_at") .null) then getD fields (lit "expires_at") .null
      else getD fields (lit "exp") .null) = .int 4102444800 := by decide
  have hfresh : ((normalizeExpiryTimestamp (.int 4102444800)).toOption.any fun expiry =>
      !expiry.le ((Number.double Sample.epoch).plus 60)) = true := by
    decide +kernel
  obtain ⟨expiry, hexpiry, hlater⟩ := (Option.any_eq_true _ _).mp hfresh
  have hnormalized : normalizeExpiryTimestamp (.int 4102444800) = .ok expiry := by
    generalize normalizeExpiryTimestamp (.int 4102444800) = normalized at hexpiry ⊢
    cases normalized with
    | error exc => cases hexpiry
    | ok value =>
      cases hexpiry
      rfl
  have hsoon : (soon (Sample.slowOutside n)).outcome client =
      (.ok ((Number.double Sample.epoch).plus 60), client.note .clock) := rfl
  refine ⟨(client.note .clock).cache lane (some ⟨.str (lit "token"), expiry⟩), ?_, ?_⟩
  · refine ⟨List.countP_cons_of_neg Bool.false_ne_true, ?_⟩
    rw [spent_cache, spent_note]
    rfl
  · exact storeToken_of_later htoken (hreported ▸ hnormalized) hsoon (by simpa using hlater)

/-- In the slow network a lane without a token gets one after the longest time. -/
theorem slow_token {n round : ℕ} (hn : 0 < n) (hround : client.attempts = round * n) (heven : round % 2 = 0)
    (hnone : client.tokens (.str (lit "primary")) = none) (hretries : settings.retryAttempts = n)
    (hscope : (urlencode [(lit "scope", settings.scope)]).isSome = true) :
    ∃ client', Waited client client' n (patience n 30) ∧
      (accessToken py settings (Sample.slowOutside n) (.str (lit "primary"))).outcome client =
        (.ok (.str (lit "token")), client') := by
  obtain ⟨data, hdata⟩ := Option.isSome_iff_exists.mp hscope
  have hcredential : (credentialFor py (Sample.slowOutside n) (.str (lit "primary"))).outcome client =
      (.ok (lit "key"), client) := rfl
  obtain ⟨client', hwaited, hrequest⟩ :=
    slow_request ⟨settings.oauthUrl, data, lit "Basic " ++ lit "key"⟩ (lit "GigaChat OAuth") 30 hn hround
  obtain ⟨client'', hstored, hstore⟩ := slow_store (.str (lit "primary")) n client'
  rw [slowResult, if_pos heven, ← hretries] at hrequest
  refine ⟨client'', ?_, ?_⟩
  · have hboth := hwaited.trans hstored
    rw [add_zero, add_zero] at hboth
    exact hboth
  · rw [accessToken_of_response rfl hnone hdata hcredential hrequest, hstore]

/-- In the slow network a round without a token takes the longest time and ends with a 401. -/
theorem slow_round (py : Interpreter) (label : Str) (timeout : ℕ) {n round : ℕ} (hn : 0 < n) (hround : client.attempts = 2 * round * n)
    (hnone : client.tokens (.str (lit "primary")) = none) (hretries : settings.retryAttempts = n)
    (hscope : (urlencode [(lit "scope", settings.scope)]).isSome = true) {requestFactory : Json → Except PyExc Request}
    (hrequest : requestFactory (.str (lit "token")) = .ok request) (attempt : ℕ) (later : List ℕ) :
    ∃ client', Waited client client' (2 * n) (patience n 30 + patience n timeout) ∧
      (authorizedFrom py settings (Sample.slowOutside n) (.str (lit "primary")) requestFactory label timeout
        (attempt :: later)).outcome client =
      if attempt = 0 then
        (authorizedFrom py settings (Sample.slowOutside n) (.str (lit "primary")) requestFactory label timeout later).outcome
          (client'.cache (.str (lit "primary")) none)
      else (.error ⟨.provider (label ++ lit " failed: " ++ decimal 401), some 401⟩, client') := by
  obtain ⟨client', hwaited, htoken⟩ := slow_token hn hround (by omega) hnone hretries hscope
  have hnext : client'.attempts = (2 * round + 1) * n := by rw [hwaited.attempts, hround, ← Nat.succ_mul]
  obtain ⟨client'', hwaited', hresult⟩ := slow_request request label timeout hn hnext
  have hfactory : (attempted (requestFactory (.str (lit "token")))).outcome client' = (.ok request, client') := by
    rw [hrequest]
    rfl
  rw [slowResult, if_neg (by omega), ← hretries] at hresult
  refine ⟨client'', ?_, ?_⟩
  · have hboth := hwaited.trans hwaited'
    rw [← two_mul] at hboth
    exact hboth
  · rw [authorizedFrom, Program.outcome_bind_of_ok htoken, Program.outcome_bind_of_ok hfactory,
      Program.outcome_tryCatch_of_error hresult]
    by_cases hfirst : attempt = 0
    · rw [if_pos ⟨rfl, hfirst⟩, if_pos hfirst]
      rfl
    · rw [if_neg fun h => hfirst h.2, if_neg hfirst]
      rfl

/-- In the slow network a call takes the longest time. -/
theorem slow_rounds (py : Interpreter) (settings : ClientSettings) (label : Str) {n : ℕ} (hn : 0 < n) (hretries : settings.retryAttempts = n)
    (hscope : (urlencode [(lit "scope", settings.scope)]).isSome = true) {requestFactory : Json → Except PyExc Request}
    (hrequest : requestFactory (.str (lit "token")) = .ok request) :
    elapsed (authorizedRequestJson py settings (Sample.slowOutside n) (.str (lit "primary")) requestFactory label timeout)
      .initial = 2 * (patience n 30 + patience n timeout) := by
  have hstart : GigaChatClient.initial.attempts = 2 * 0 * n := by
    rw [mul_zero, zero_mul]
    rfl
  obtain ⟨client', hfirst, hrun⟩ := slow_round py label timeout hn hstart rfl hretries hscope hrequest 0 [1]
  have hnext : (client'.cache (.str (lit "primary")) none).attempts = 2 * 1 * n := by
    change client'.attempts = _
    rw [hfirst.attempts, hstart]
    omega
  have hnone : (client'.cache (.str (lit "primary")) none).tokens (.str (lit "primary")) = none :=
    tokens_cache _ none client'
  obtain ⟨client'', hsecond, hrun'⟩ := slow_round py label timeout hn hnext hnone hretries hscope hrequest 1 []
  have hafter : (authorizedRequestJson py settings (Sample.slowOutside n) (.str (lit "primary")) requestFactory label
      timeout).after .initial = client'' := by
    rw [Program.after, authorizedRequestJson, show List.range 2 = [0, 1] from rfl, hrun, if_pos rfl, hrun', if_neg one_ne_zero]
  rw [elapsed, hafter, hsecond.spent, spent_cache, hfirst.spent]
  ring

namespace Sample

/-- The settings of a default installation, but for the attempts. -/
def clientSettings (retryAttempts : ℤ) : ClientSettings where
  retryAttempts
  baseUrl := lit "https://api.giga.chat"
  oauthUrl := lit "https://ngw.devices.sberbank.ru:9443/api/v2/oauth"
  scope := lit "GIGACHAT_API_PERS"

/-- An embeddings task. -/
def embedding : Fields := [(lit "model", .str (lit "GigaEmbeddings-3B-2025-09")), (lit "input", .str (lit "hi"))]

end Sample

/-- The longest call. -/
theorem slow_call (config : Config) {n : ℕ} (hn : 0 < n) :
    elapsed (callProvider ⟨config, Sample.py, Sample.driver⟩ (Sample.clientSettings n) (Sample.slowOutside n) .embed Sample.embedding)
      .initial = 2 * (patience n 30 + patience n 120) := by
  let factory := requestFactory ⟨config, Sample.py, Sample.driver⟩ (Sample.clientSettings n) .embed Sample.embedding
  have hcheck : (attempted (checkRequest .embed Sample.embedding)).outcome GigaChatClient.initial = (.ok (), .initial) := rfl
  have hlane : getD Sample.embedding (lit "credential_lane") (.str (lit "primary")) = .str (lit "primary") := by decide
  obtain ⟨request, hrequest⟩ : ∃ request, factory (.str (lit "token")) = .ok request := by
    have hbody : requestBody config .embed Sample.embedding = Sample.embedding := rfl
    have hdumps : Sample.py.dumps (.obj Sample.embedding) = .ok (dumps Sample.py.floatRepr (.obj Sample.embedding)) :=
      if_neg (by decide)
    have hsome : (utf8 (dumps Sample.py.floatRepr (.obj Sample.embedding))).isSome = true := by decide +kernel
    obtain ⟨data, hdata⟩ := Option.isSome_iff_exists.mp hsome
    refine ⟨⟨lit "https://api.giga.chat" ++ lit "/v1/embeddings", data, lit "Bearer " ++ lit "token"⟩, ?_⟩
    simp only [factory, requestFactory, hbody, hdumps, hdata, Interpreter.str_str, bind, Except.bind, Option.elim]
    rfl
  have hscope : (urlencode [(lit "scope", lit "GIGACHAT_API_PERS")]).isSome = true := by decide +kernel
  rw [← slow_rounds Sample.py (Sample.clientSettings n) (lit "GigaChat embeddings") hn rfl hscope hrequest, elapsed, elapsed]
  unfold Program.after
  rw [callProvider, Program.outcome_bind_of_ok hcheck, hlane]

/-- No sequence of answers takes a call beyond the lease, exactly when two rounds of all attempts fit into it. -/
theorem lease_covers_calls_iff (config : Config) (retryAttempts : ℤ) :
    (∀ py driver settings outside op task client, settings.retryAttempts = retryAttempts →
      elapsed (callProvider ⟨config, py, driver⟩ settings outside op task) client ≤ config.taskLeaseSeconds) ↔
    retryAttempts ≤ 0 ∨ 420 * retryAttempts ≤ config.taskLeaseSeconds + 120 := by
  constructor
  · intro h
    rcases le_or_gt retryAttempts 0 with hneg | hpos
    · exact .inl hneg
    · have hslow := h Sample.py Sample.driver (Sample.clientSettings retryAttempts) (Sample.slowOutside retryAttempts.toNat) .embed
        Sample.embedding .initial rfl
      obtain ⟨n, rfl⟩ := Int.eq_ofNat_of_zero_le hpos.le
      rw [Int.toNat_natCast, slow_call config (by omega), rounds_eq hpos] at hslow
      refine .inr ?_
      have hcast : (420 : ℚ) * ((n : ℤ) : ℚ) ≤ config.taskLeaseSeconds + 120 := by linarith
      exact_mod_cast hcast
  · rintro hfits py driver settings outside op task client rfl
    have hcosts : Costs GigaChatClient.spent (callProvider ⟨config, py, driver⟩ settings outside op task) _ :=
      costs_callProvider
    have hcosts := hcosts client
    have hlease : (0 : ℚ) ≤ config.taskLeaseSeconds := Nat.cast_nonneg _
    have hbound : 2 * (patience settings.retryAttempts 30 + patience settings.retryAttempts 120) ≤ (config.taskLeaseSeconds : ℚ) := by
      rcases le_or_gt settings.retryAttempts 0 with hneg | hpos
      · rw [patience_of_nonpos hneg, patience_of_nonpos hneg, add_zero, mul_zero]
        exact hlease
      · rw [rounds_eq hpos]
        have hfits := hfits.resolve_left (not_le.mpr hpos)
        have hcast : (420 : ℚ) * settings.retryAttempts ≤ config.taskLeaseSeconds + 120 := by exact_mod_cast hfits
        linarith
    rw [elapsed]
    linarith

/-- With the default settings the longest call takes 1980 seconds, and the lease ends after 900. -/
theorem default_lease_ends_first :
    ¬∀ py driver settings outside op task client, settings.retryAttempts = 5 →
      elapsed (callProvider ⟨Sample.env.config, py, driver⟩ settings outside op task) client ≤
        Sample.env.config.taskLeaseSeconds := by
  intro h
  have hslow := h Sample.py Sample.driver (Sample.clientSettings 5) (Sample.slowOutside 5) .embed Sample.embedding .initial rfl
  have hfive : elapsed (callProvider ⟨Sample.env.config, Sample.py, Sample.driver⟩ (Sample.clientSettings 5)
      (Sample.slowOutside 5) .embed Sample.embedding) .initial = 420 * (5 : ℤ) - 120 :=
    (slow_call Sample.env.config (Nat.succ_pos 4)).trans (rounds_eq (by norm_num))
  have hlease : Sample.env.config.taskLeaseSeconds = 900 := by decide
  rw [hfive, hlease] at hslow
  norm_num at hslow

end NeuroLab.ControlPlane
