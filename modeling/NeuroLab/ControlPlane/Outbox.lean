import NeuroLab.ControlPlane.Deliveries

/-!
# The dispatch outbox

The row of an accepted request waits in the outbox until a dispatcher has claimed it,
pushed its payload and acknowledged the push, each in its own step. Seen from one row,
every transaction leaves it alone or makes one of a few moves; a dispatcher's claim is
fenced by the id it drew, and what it pushes is the text of the payload it was given.
-/

namespace NeuroLab.ControlPlane

open Python Common

variable {env : Env} {s s' : State} {a : Action} {h : History State Action} {fresh : Uuid}

/-- The outbox row of a task. -/
abbrev State.outbox (s : State) (T : Uuid) : Option OutboxRow := s.store.db.outbox.find? T

/-! ## The moves of one row -/

/-- The moves of the outbox row of task `T` in one transaction stamped `now`. -/
inductive OutboxStep (env : Env) (now : ℕ) (db : Database) (T : Uuid) :
    Tx → Option OutboxRow → Option OutboxRow → Prop
  | keep {tx : Tx} (old : Option OutboxRow) : OutboxStep env now db T tx old old
  | insert {payload : Fields} {o : OutboxRow} : env.jsonb (.obj payload) = some o.payload →
      o.deliveredAt = none → o.deliveryClaimId = none →
      OutboxStep env now db T (.recordQueuedTask T payload) none (some o)
  | claim {c : Uuid} {o : OutboxRow} : claimableOutbox env.config now db o = true →
      OutboxStep env now db T (.claimPendingOutbox c) (some o) (some (o.claim now c))
  | deliver {c : Uuid} {o : OutboxRow} : o.deliveredAt = none → o.deliveryClaimId = some c →
      OutboxStep env now db T (.markOutboxDelivered T c) (some o) (some (o.deliver now))
  | note {c : Uuid} {exc : PyExc} {o : OutboxRow} : o.deliveredAt = none →
      OutboxStep env now db T (.recordOutboxDeliveryError T c exc) (some o) (some (o.noteError exc))
  | delete {o : OutboxRow} : db.taskMatches T (fun t => t.status.terminal) = true → o.deliveredAt.isSome →
      OutboxStep env now db T .cleanupTerminalOutbox (some o) none

/-- An update of a claimed row makes the move of the row it selects, or none. -/
theorem OutboxStep.of_claimed {env : Env} {now : ℕ} {tx : Tx} {db : Database} {id c : Uuid}
    {set : OutboxRow → OutboxRow} (hset : ∀ r, (set r).taskId = r.taskId)
    (move : ∀ o : OutboxRow, o.deliveredAt = none → o.deliveryClaimId = some c →
      OutboxStep env now db id tx (some o) (some (set o))) (T : Uuid) :
    OutboxStep env now db T tx (db.outbox.find? T) ((db.updateClaimedOutbox id c set hset).outbox.find? T) := by
  rw [Database.updateClaimedOutbox, Table.find?_update]
  cases ho : db.outbox.find? T with
  | none => exact .keep none
  | some o =>
    rw [Option.map_some]
    split
    · next hsel =>
      simp only [Bool.and_eq_true, decide_eq_true_eq, Option.isNone_iff_eq_none] at hsel
      have hT : T = id := (Table.key_of_find? ho).symm.trans hsel.1.1
      subst hT
      exact move o hsel.1.2 hsel.2
    · exact .keep _

/-- The rows `claim_pending_outbox` chooses. -/
def outboxCandidates (config : Config) (now : ℕ) (db : Database) : List OutboxRow :=
  ((db.outbox.rows.filter (claimableOutbox config now db)).mergeSort fun r r' =>
    decide (r.createdAt ≤ r'.createdAt)).take config.outboxBatchSize

theorem claimPendingOutbox_eq (config : Config) (now : ℕ) (c : Uuid) (db : Database) :
    claimPendingOutbox config now c db =
      (let ids := (outboxCandidates config now db).map OutboxRow.taskId
       let outbox := db.outbox.update (fun r => decide (r.taskId ∈ ids)) (OutboxRow.claim now c)
         (OutboxRow.claim_taskId now c)
       ({ db with outbox }, (outboxCandidates config now db).map fun r => (r.taskId, r.payload, c))) := rfl

/-- A candidate is a stored row that is claimable. -/
theorem mem_outboxCandidates {config : Config} {now : ℕ} {db : Database} {o : OutboxRow}
    (ho : o ∈ outboxCandidates config now db) :
    db.outbox.find? o.taskId = some o ∧ claimableOutbox config now db o = true := by
  have hsorted := List.mem_of_mem_take ho
  rw [List.mem_mergeSort, List.mem_filter] at hsorted
  exact ⟨(Table.mem_rows_iff _ o).mp hsorted.1, hsorted.2⟩

/-- A claim of outbox rows rewrites the candidates. -/
theorem claimPendingOutbox_outbox (config : Config) (now : ℕ) (c : Uuid) (db : Database) (T : Uuid) :
    (claimPendingOutbox config now c db).1.outbox.find? T = (db.outbox.find? T).map fun o =>
      if o ∈ outboxCandidates config now db then o.claim now c else o := by
  simp only [claimPendingOutbox_eq, Table.find?_update]
  cases ho : db.outbox.find? T with
  | none => rfl
  | some o =>
    have hmem : o.taskId ∈ (outboxCandidates config now db).map OutboxRow.taskId ↔
        o ∈ outboxCandidates config now db := by
      constructor
      · intro hid
        obtain ⟨o', ho', hkey⟩ := List.mem_map.mp hid
        have hstored := (mem_outboxCandidates ho').1
        rw [hkey, Table.key_of_find? ho, ho] at hstored
        rwa [Option.some.inj hstored]
      · intro hcandidate
        exact List.mem_map.mpr ⟨o, hcandidate, rfl⟩
    simp only [Option.map_some, decide_eq_true_eq, hmem]

theorem claimRow_outbox (now : ℕ) (row : TaskRow) (E : Uuid) (db : Database) :
    (claimRow now row E db).1.outbox = db.outbox := by
  cases hu : uncertainAttempt db row.id with
  | some a => rw [claimRow_of_uncertain now E hu]; rfl
  | none => rw [claimRow_of_certain now E hu]; rfl

theorem recoverRow_outbox (config : Config) (now : ℕ) (row : TaskRow) (db : Database) :
    (recoverRow config now row db).1.outbox = db.outbox := by
  unfold recoverRow
  split <;> rfl

/-- Every transaction makes at most one move on an outbox row. -/
theorem exec_outbox {now : ℕ} {db db' : Database} {tx : Tx} {reply : Reply}
    (h : tx.exec env now db = some (db', reply)) (T : Uuid) :
    OutboxStep env now db T tx (db.outbox.find? T) (db'.outbox.find? T) := by
  cases Performed.of_exec h with
  | claimTask =>
    rw [claimRow_outbox]
    exact .keep _
  | recover =>
    rw [recoverRow_outbox]
    exact .keep _
  | @reap observed =>
    rw [(reap_frame env.config now observed db).2.2]
    exact .keep _
  | claimPendingOutbox =>
    rw [claimPendingOutbox_outbox]
    cases ho : db.outbox.find? T with
    | none => exact .keep none
    | some o =>
      rw [Option.map_some]
      split
      · next hcandidate => exact .claim (mem_outboxCandidates hcandidate).2
      · exact .keep _
  | markOutboxDelivered => exact .of_claimed _ (fun o ho hc => .deliver ho hc) T
  | recordOutboxDeliveryError => exact .of_claimed _ (fun o ho _ => .note ho) T
  | cleanupTerminalOutbox =>
    change OutboxStep _ _ _ _ _ _ ((db.outbox.delete _).find? T)
    rw [Table.find?_delete]
    cases ho : db.outbox.find? T with
    | none => exact .keep none
    | some o =>
      rw [Option.filter_some]
      split
      · exact .keep _
      · next hsel =>
        simp only [Bool.not_eq_true', Bool.not_eq_false, Bool.and_eq_true, Table.key_of_find? ho] at hsel
        obtain ⟨t, ht, -⟩ := (Option.any_eq_true _ _).mp hsel.2
        exact .delete hsel.1 (by rw [ht]; rfl)
  | recordQueuedTask hrow hpayload =>
    change OutboxStep _ _ _ _ _ _ ((db.outbox.insert _).find? T)
    rw [Table.find?_insert]
    cases ho : db.outbox.find? T with
    | some o => exact .keep _
    | none =>
      rw [Option.none_or]
      split
      · next hT =>
        subst hT
        exact .insert hpayload rfl rfl
      · exact .keep none
  | _ => exact .keep _

/-- A step makes at most one move on an outbox row. -/
theorem step_outbox (h : step env s a = some s') (T : Uuid) :
    s'.outbox T = s.outbox T ∨ ∃ tx, a.tx? env s = some tx ∧
      OutboxStep env s.clock s.store.db T tx (s.outbox T) (s'.outbox T) := by
  rcases step_db h with ⟨tx, reply, htx, hexec⟩ | ⟨-, hdb⟩
  · exact Or.inr ⟨tx, htx, exec_outbox hexec T⟩
  · exact Or.inl (by simp only [State.outbox, hdb])

/-! ## What dispatchers hold -/

/-- Whatever row of the task is under a claim that was drawn has a payload of a kind. -/
structure Under (s : State) (T c : Uuid) (P : Json → Prop) : Prop where
  issued : c ∈ s.issued
  row : ∀ o, s.outbox T = some o → o.deliveryClaimId = some c → P o.payload

/-- The claim of a dispatcher fits a row: if the row is still under the claim, it has the payload the
dispatcher was given. -/
abbrev Fits (s : State) (T c : Uuid) (p : Json) : Prop := Under s T c fun q => q = p

/-- A text decodes to a payload that names a task. -/
structure TextOf (env : Env) (raw : Str) (T : Uuid) (p : Json) : Prop where
  loads : env.py.loads raw = .ok p
  names : Names env raw T

/-- A text was pushed to the task list by a worker in the past. -/
def Pushed (env : Env) (h : History State Action) (raw : Str) : Prop :=
  ∃ x ∈ h, (∃ w fresh outcome, x.2 = .work w fresh outcome) ∧ x.2.cmd? env x.1 = some (.rpushTasks raw)

/-- The claims a dispatcher has still to publish. -/
def Pc.waiting : Pc → List (Uuid × Json × Uuid)
  | publish claimed => claimed
  | push _ _ _ rest => rest
  | mark _ _ rest => rest
  | noteError _ _ _ rest => rest
  | _ => []

/-- A worker stands in a dispatch pass, behind its claim. -/
def Pc.dispatching : Pc → Bool
  | publish _ => true
  | push _ _ _ _ => true
  | mark _ _ _ => true
  | noteError _ _ _ _ => true
  | _ => false

/-- What a dispatcher holds fits the rows, what it pushes is the text of its payload, and what it is
about to acknowledge has been pushed. -/
structure Dispatches (env : Env) (h : History State Action) (s : State) (pc : Pc) : Prop where
  waiting : ∀ e ∈ pc.waiting, e.2.1.plain = true ∧ Fits s e.1 e.2.2 e.2.1
  push : ∀ T raw c rest, pc = .push T raw c rest → ∃ p, TextOf env raw T p ∧ Fits s T c p
  mark : ∀ T c rest, pc = .mark T c rest → ∃ raw p, TextOf env raw T p ∧ Fits s T c p ∧ Pushed env h raw

theorem Dispatches.of_idle {pc : Pc} (hidle : pc.dispatching = false) : Dispatches env h s pc where
  waiting e he := by
    have hnone : pc.waiting = [] := by
      cases pc <;> first | rfl | cases hidle
    rw [hnone] at he
    cases he
  push T raw c rest hpc := by
    rw [hpc] at hidle
    cases hidle
  mark T c rest hpc := by
    rw [hpc] at hidle
    cases hidle

/-- The stages of a dispatch pass. -/
def Stage.dispatching : Stage → Bool
  | publish => true
  | push => true
  | mark => true
  | noteError => true
  | _ => false

theorem Pc.dispatching_eq (pc : Pc) : pc.dispatching = pc.stage.dispatching := by
  cases pc <;> rfl

/-- A worker outside the dispatch pass does not come into one but by claiming. -/
theorem all_idle {pc : Pc} (hidle : pc.dispatching = false) (hclaim : pc ≠ .claimOutbox) :
    (pc.op env fresh).All fun p => p.dispatching = false := by
  have hnext : pc.stage.next.all (fun st => !st.dispatching) = true := by
    cases pc <;> first | rfl | exact absurd rfl hclaim | cases hidle
  exact Op.All.mono (all_outside hnext) fun p hp => p.dispatching_eq.trans hp

/-- The id of a claim is drawn in its step. -/
theorem issued_of_claim {c : Uuid} (h : step env s a = some s')
    (htx : a.tx? env s = some (.claimPendingOutbox c)) : c ∉ s.issued ∧ c ∈ s'.issued := by
  rcases Action.tx?_eq_some htx with ⟨w, fresh, outcome, rfl, hpc⟩ | ⟨r, outcome, rfl, hpc⟩
  · cases hw : s.workers w <;> rw [hw] at hpc <;> cases hpc
    have hissued := (step_work h).2.2.2.2
    rw [hw] at hissued
    simp only [Pc.draws, if_true] at hissued
    exact ⟨hissued.1, hissued.2 ▸ List.mem_cons_self⟩
  · cases hr : s.requests r <;> rw [hr] at hpc <;> cases hpc

/-- A step keeps the kind: it leaves the payload alone, and a later claim is under another id. -/
theorem Under.next {T c : Uuid} {P : Json → Prop} (hs : Under s T c P) (h : step env s a = some s') :
    Under s' T c P where
  issued := step_issued h hs.issued
  row o ho hc := by
    rcases step_outbox h T with heq | ⟨tx, htx, hmove⟩
    · exact hs.row o (heq ▸ ho) hc
    · generalize hold : s.outbox T = old at hmove
      rw [ho] at hmove
      cases hmove with
      | keep => exact hs.row o hold hc
      | insert _ _ hnone => rw [hnone] at hc; cases hc
      | @claim c' o' _ =>
        -- the claim that is stored now was drawn in this step
        have hsame : c' = c := Option.some.inj hc
        exact absurd hs.issued (hsame ▸ (issued_of_claim h htx).1)
      | deliver => cases hc
      | @note c' exc o' _ => exact hs.row o' hold hc

/-- The text of a plain payload decodes to it. -/
theorem textOf_dumps {p : Json} (hplain : p.plain = true) {fields : Fields} {T : Uuid} {raw : Str}
    (hvalid : validatePayloadWithTaskId env.py p = .ok (fields, T)) (hdumps : env.py.dumps p = .ok raw) :
    TextOf env raw T p := by
  unfold Interpreter.dumps at hdumps
  split at hdumps
  · cases hdumps
  · next hdepth =>
    cases hdumps
    have hloads : env.py.loads (dumps env.py.floatRepr p) = .ok p := by
      rw [Interpreter.loads, loads_dumps env.py.floatRepr hplain (Nat.le_of_not_lt hdepth)]
    exact ⟨hloads, fields, by rw [identifyDelivery, hloads]; exact hvalid⟩

/-- The claims a step hands out, whether or not its answer arrives. -/
def Action.claims (env : Env) (s : State) (a : Action) : List (Uuid × Json × Uuid) :=
  match (a.tx? env s).bind fun tx => tx.exec env s.clock s.store.db with
  | some (_, .claimed rows) => rows
  | _ => []

/-- A claim that a step hands out is that of a claimable row, under an identifier just drawn. -/
theorem step_claims (h : step env s a = some s') {T c : Uuid} {p : Json} (hclaim : (T, p, c) ∈ a.claims env s) :
    ∃ o, s.outbox T = some o ∧ claimableOutbox env.config s.clock s.store.db o = true ∧ o.payload = p ∧
      s'.outbox T = some (o.claim s.clock c) ∧ c ∉ s.issued ∧ c ∈ s'.issued := by
  unfold Action.claims at hclaim
  split at hclaim
  · next db rows hbind =>
    obtain ⟨tx, htx, hexec⟩ := Option.bind_eq_some_iff.mp hbind
    have hdb : s'.store.db = db := by
      rcases step_db h with ⟨tx', reply', htx', hexec'⟩ | ⟨hnone, -⟩
      · rw [htx] at htx'
        cases htx'
        rw [hexec] at hexec'
        cases hexec'
        rfl
      · rw [htx] at hnone
        cases hnone
    cases tx with
    | claimPendingOutbox c' =>
      cases hexec
      rw [claimPendingOutbox_eq] at hclaim
      obtain ⟨o, ho, heq⟩ := List.mem_map.mp hclaim
      cases heq
      obtain ⟨hstored, hclaimable⟩ := mem_outboxCandidates ho
      refine ⟨o, hstored, hclaimable, rfl, ?_, ?_⟩
      · rw [State.outbox, hdb, claimPendingOutbox_outbox, hstored, Option.map_some, if_pos ho]
      · exact issued_of_claim h htx
    | claimTask id payload X => obtain ⟨_, _, heq⟩ := Option.map_eq_some_iff.mp hexec; cases heq
    | recordProviderAttempt id X payload => obtain ⟨_, _, heq⟩ := Option.map_eq_some_iff.mp hexec; cases heq
    | recordCompletion id X c => obtain ⟨_, _, heq⟩ := Option.map_eq_some_iff.mp hexec; cases heq
    | recordFailed id X exc => obtain ⟨_, _, heq⟩ := Option.map_eq_some_iff.mp hexec; cases heq
    | recover id payload => obtain ⟨_, _, heq⟩ := Option.map_eq_some_iff.mp hexec; cases heq
    | recordQueuedTask id payload => obtain ⟨_, _, heq⟩ := Option.map_eq_some_iff.mp hexec; cases heq
    | _ => cases hexec
  · cases hclaim

/-! ## Plain payloads -/

/-- The payload of a request in progress. -/
def RequestPc.payload? : RequestPc → Option Fields
  | depth _ payload _ => some payload
  | budget _ payload _ => some payload
  | record _ payload => some payload
  | _ => none

/-- The task a request in progress is about: its id and its payload. -/
def RequestPc.subject? : RequestPc → Option (Uuid × Fields)
  | depth id payload _ => some (id, payload)
  | budget id payload _ => some (id, payload)
  | record id payload => some (id, payload)
  | _ => none

theorem RequestPc.payload?_eq (pc : RequestPc) : pc.payload? = pc.subject?.map Prod.snd := by
  cases pc <;> rfl

/-- The request that records a task. -/
theorem request_of_record {T : Uuid} {payload : Fields}
    (htx : a.tx? env s = some (.recordQueuedTask T payload)) :
    ∃ q, (s.requests q).subject? = some (T, payload) := by
  rcases Action.tx?_eq_some htx with ⟨w, fresh, outcome, rfl, hpc⟩ | ⟨q, outcome, rfl, hpc⟩
  · cases hw : s.workers w <;> rw [hw] at hpc <;> cases hpc
  · cases hq : s.requests q <;> rw [hq] at hpc <;> cases hpc
    exact ⟨q, by rw [hq]; rfl⟩

/-- Requests and outbox rows hold plain payloads. -/
structure PlainPayloads (s : State) : Prop where
  requests : ∀ r payload, (s.requests r).payload? = some payload → (Json.obj payload).plain = true
  rows : ∀ T o, s.outbox T = some o → o.payload.plain = true

/-- A request keeps its subject. -/
theorem subject_wp {now : ℕ} {store : Store} (pc : RequestPc) : (pc.op env).wp env now store fun _ p =>
    ∀ x, p.subject? = some x → pc.subject? = some x := by
  have unnamed : ∀ {P : Uuid × Fields → Prop} (x : Uuid × Fields), none = some x → P x := by
    rintro P x ⟨⟩
  cases pc with
  | idle => trivial
  | answered answer => trivial
  | depth id payload lane =>
    refine ⟨fun exc => unnamed, ?_, fun exc => unnamed⟩
    simp only [Command.exec]
    split
    · exact unnamed
    · exact fun _ hp => hp
  | budget id payload lane =>
    refine ⟨fun exc => unnamed, fun db reply hexec => ⟨?_, fun exc => unnamed⟩⟩
    cases hexec
    simp only
    split
    · exact unnamed
    · exact fun _ hp => hp
  | record id payload => exact ⟨fun exc => unnamed, fun db reply hexec => ⟨unnamed, fun exc => unnamed⟩⟩

/-- A new request is about a task whose id it has just drawn. -/
theorem step_submit {r : ℕ} {request : TaskRequest} {id : Uuid} {time : ℕ}
    (h : step env s (.submit r request id time) = some s') :
    id ∉ s.issued ∧ id ∈ s'.issued ∧
      ∀ q, s'.requests q = if q = r then createTask request id time else s.requests q := by
  simp only [step] at h
  split at h
  · obtain ⟨drawn, hdrawn, rfl⟩ := Option.map_eq_some_iff.mp h
    unfold State.draw at hdrawn
    split at hdrawn
    · cases hdrawn
    · next hfresh =>
      cases hdrawn
      exact ⟨hfresh, List.mem_cons_self, fun q => rfl⟩
  · cases h

/-- A request has its subject from the step before, or is new. -/
theorem step_request_subject (h : step env s a = some s') {q : ℕ} {x : Uuid × Fields}
    (hq : (s'.requests q).subject? = some x) :
    (s.requests q).subject? = some x ∨
      ∃ request time, a = .submit q request x.1 time ∧ x.2 = dashboardPayload request x.1 time := by
  cases a with
  | work w fresh outcome =>
    left
    rwa [(step_work h).2.2.1] at hq
  | serve r outcome =>
    left
    obtain ⟨hperform, -, -, hothers⟩ := step_serve h
    by_cases hqr : q = r
    · subst hqr
      exact (perform_cases hperform).2.2 _ (subject_wp (s.requests q)) x hq
    · rwa [hothers q hqr] at hq
  | tick micros => cases h; exact Or.inl hq
  | enqueue raw => cases h; exact Or.inl hq
  | crash w => cases h; exact Or.inl hq
  | start w =>
    simp only [step] at h
    split at h
    · cases h; exact Or.inl hq
    · cases h
  | abandon r =>
    cases h
    by_cases hqr : q = r
    · subst hqr
      simp [State.setRequest, RequestPc.subject?] at hq
    · exact Or.inl (by simpa [State.setRequest, hqr] using hq)
  | submit r request id time =>
    rw [(step_submit h).2.2 q] at hq
    split at hq
    · next hqr =>
      subst hqr
      right
      unfold createTask at hq
      split at hq
      · cases hq
        exact ⟨request, time, rfl, rfl⟩
      · cases hq
    · exact Or.inl hq

/-- Payloads are plain in every reachable state. -/
theorem run_plain (run : (system env).Run h s) : PlainPayloads s := by
  refine run.invariant ⟨fun r payload hr => ?_, fun T o ho => ?_⟩ fun s a s' hs hstep => ⟨?_, ?_⟩
  · cases hr
  · cases ho
  · intro q payload hq
    rw [RequestPc.payload?_eq] at hq
    obtain ⟨⟨id, _⟩, hsubject, rfl⟩ := Option.map_eq_some_iff.mp hq
    rcases step_request_subject hstep hsubject with hbefore | ⟨request, time, -, hpayload⟩
    · exact hs.requests q _ (by rw [RequestPc.payload?_eq, hbefore]; rfl)
    · exact hpayload ▸ (dashboardPayload_plain request id time).1
  · intro T o ho
    rcases step_outbox hstep T with heq | ⟨tx, htx, hmove⟩
    · exact hs.rows T o (heq ▸ ho)
    · generalize hold : s.outbox T = old at hmove
      rw [ho] at hmove
      cases hmove with
      | keep => exact hs.rows T o hold
      | @insert payload _ hstored =>
        obtain ⟨r, hr⟩ := request_of_record htx
        have hplain : (Json.obj payload).plain = true :=
          hs.requests r payload (by rw [RequestPc.payload?_eq, hr]; rfl)
        unfold Env.jsonb at hstored
        split at hstored
        · cases hstored
        · exact ((env.driver.jsonb_reordered _ _ hplain hstored).preserves hplain).1
      | @claim c o' _ => exact hs.rows T o' hold
      | @deliver c o' _ _ => exact hs.rows T o' hold
      | @note c exc o' _ => exact hs.rows T o' hold

/-! ## Dispatchers in a run -/

/-- Claims that wait stay plain and fitting. -/
theorem waiting_next {rest : List (Uuid × Json × Uuid)} (hstep : step env s a = some s')
    (hs : ∀ e ∈ rest, e.2.1.plain = true ∧ Fits s e.1 e.2.2 e.2.1) :
    ∀ e ∈ rest, e.2.1.plain = true ∧ Fits s' e.1 e.2.2 e.2.1 :=
  fun e he => ⟨(hs e he).1, (hs e he).2.next hstep⟩

/-- A worker that does not stay keeps what a dispatcher must hold. -/
theorem Dispatches.stay {pc : Pc} (hs : Dispatches env h s pc) (hstep : step env s a = some s') :
    Dispatches env ((s, a) :: h) s' pc where
  waiting := waiting_next hstep hs.waiting
  push T raw c rest hpc := by
    obtain ⟨p, htext, hfits⟩ := hs.push T raw c rest hpc
    exact ⟨p, htext, hfits.next hstep⟩
  mark T c rest hpc := by
    obtain ⟨raw, p, htext, hfits, x, hx, hpushed⟩ := hs.mark T c rest hpc
    exact ⟨raw, p, htext, hfits.next hstep, x, List.mem_cons_of_mem _ hx, hpushed⟩

/-- A dispatcher between two claims has only to keep those that wait. -/
theorem dispatches_publish {rest : List (Uuid × Json × Uuid)}
    (hrest : ∀ e ∈ rest, e.2.1.plain = true ∧ Fits s e.1 e.2.2 e.2.1) : Dispatches env h s (.publish rest) where
  waiting := hrest
  push T raw c rest' hpush := by cases hpush
  mark T c rest' hmark := by cases hmark

/-- Where publishing a claim has raised, only the claims behind it wait. -/
theorem dispatches_publishFailed {T c : Uuid} {rest : List (Uuid × Json × Uuid)} {exc : PyExc}
    (hrest : ∀ e ∈ rest, e.2.1.plain = true ∧ Fits s e.1 e.2.2 e.2.1) :
    Dispatches env h s (publishFailed T c rest exc) := by
  unfold publishFailed
  split
  · exact ⟨hrest, nofun, nofun⟩
  · exact .of_idle rfl

/-- The next claim of a pass is pushed as the text of its payload. -/
theorem dispatches_publishNext {claimed : List (Uuid × Json × Uuid)}
    (hs : ∀ e ∈ claimed, e.2.1.plain = true ∧ Fits s e.1 e.2.2 e.2.1) :
    Dispatches env h s (publishNext env claimed) := by
  unfold publishNext
  split
  · exact .of_idle rfl
  · next T p c rest =>
    have hrest := fun e he => hs e (List.mem_cons_of_mem _ he)
    obtain ⟨hplain, hfits⟩ := hs _ List.mem_cons_self
    split
    · exact dispatches_publishFailed hrest
    · next fields id hvalid =>
      split
      · exact dispatches_publishFailed hrest
      · next hid =>
        split
        · exact dispatches_publishFailed hrest
        · next raw hdumps =>
          have hid : id = T := not_not.mp hid
          subst hid
          refine ⟨hrest, fun T' raw' c' rest' hpc => ?_, nofun⟩
          cases hpc
          exact ⟨p, textOf_dumps hplain hvalid hdumps, hfits⟩

/-- The step of a dispatcher itself. -/
theorem work_dispatches {w : ℕ} {outcome : Outcome} (hs : Dispatches env h s (s.workers w))
    (hplain : PlainPayloads s) (hstep : step env s (.work w fresh outcome) = some s') :
    Dispatches env ((s, .work w fresh outcome) :: h) s' (s'.workers w) := by
  have hperform := (step_work hstep).1
  have hwaiting := waiting_next hstep hs.waiting
  cases hpc : s.workers w with
  | claimOutbox =>
    have htx : outcome = .done → (Action.work w fresh outcome).tx? env s = some (.claimPendingOutbox fresh) := by
      intro hdone
      rw [Action.tx?, hpc, hdone]
      rfl
    rw [hpc] at hperform
    cases outcome with
    | done =>
      rw [← (Prod.mk.inj (Option.some.inj hperform)).2]
      refine dispatches_publish fun e he => ?_
      have hclaim : (e.1, e.2.1, e.2.2) ∈ (Action.work w fresh .done).claims env s := by
        rw [Action.claims, htx rfl]
        exact he
      obtain ⟨o, ho, -, hpayload, ho', -, hissued⟩ := step_claims hstep hclaim
      refine ⟨hpayload ▸ hplain.rows e.1 o ho, hissued, fun o' hrow _ => ?_⟩
      rw [ho'] at hrow
      cases hrow
      exact hpayload
    | lost exc =>
      rw [← (Prod.mk.inj (Option.some.inj hperform)).2]
      refine .of_idle ?_
      simp only
      split <;> rfl
    | refused exc =>
      rw [← (Prod.mk.inj (Option.some.inj hperform)).2]
      refine .of_idle ?_
      simp only
      split <;> rfl
    | due b => cases hperform
    | responded body => cases hperform
    | raised exc => cases hperform
  | publish claimed =>
    rw [hpc] at hperform hwaiting
    cases outcome with
    | done =>
      rw [← (Prod.mk.inj (Option.some.inj hperform)).2]
      exact dispatches_publishNext hwaiting
    | _ => cases hperform
  | push T raw c rest =>
    obtain ⟨p, htext, hfits⟩ := hs.push T raw c rest hpc
    rw [hpc] at hperform hwaiting
    cases outcome with
    | done =>
      rw [← (Prod.mk.inj (Option.some.inj hperform)).2]
      refine ⟨hwaiting, by rintro _ _ _ _ ⟨⟩, fun T' c' rest' hmark => ?_⟩
      cases hmark
      refine ⟨raw, p, htext, hfits.next hstep, _, List.mem_cons_self, ⟨w, fresh, .done, rfl⟩, ?_⟩
      rw [Action.cmd?, hpc]
      rfl
    | lost exc =>
      rw [← (Prod.mk.inj (Option.some.inj hperform)).2]
      exact dispatches_publishFailed hwaiting
    | refused exc =>
      rw [← (Prod.mk.inj (Option.some.inj hperform)).2]
      exact dispatches_publishFailed hwaiting
    | due b => cases hperform
    | responded body => cases hperform
    | raised exc => cases hperform
  | mark T c rest =>
    rw [hpc] at hperform hwaiting
    refine (perform_cases hperform).2.2 (fun _ p => Dispatches env _ s' p) ?_
    exact ⟨fun exc => dispatches_publishFailed hwaiting, fun db reply _ =>
      ⟨dispatches_publish hwaiting, fun exc => dispatches_publishFailed hwaiting⟩⟩
  | noteError T c exc rest =>
    rw [hpc] at hperform hwaiting
    refine (perform_cases hperform).2.2 (fun _ p => Dispatches env _ s' p) ?_
    have hnoted : ∀ exc : PyExc, Dispatches env ((s, .work w fresh outcome) :: h) s'
        (if exc.isPsycopg then .publish rest else .down) := by
      intro exc
      split
      · exact dispatches_publish hwaiting
      · exact .of_idle rfl
    exact ⟨hnoted, fun db reply _ => ⟨dispatches_publish hwaiting, hnoted⟩⟩
  | _ =>
    refine .of_idle ((perform_cases hperform).2.2 (fun _ p => p.dispatching = false) ?_)
    rw [hpc]
    exact (all_idle rfl (by intro hclaim; cases hclaim)).wp fun _ _ hp => hp

/-- In every reachable state the dispatchers hold what they must. -/
theorem run_dispatches (run : (system env).Run h s) : ∀ w, Dispatches env h s (s.workers w) := by
  induction run with
  | start => exact fun w => .of_idle rfl
  | @step h s s' a run hstep ih =>
    intro w
    cases step_worker hstep w with
    | stay _ hsame => exact hsame ▸ (ih w).stay hstep
    | start hstart => exact .of_idle (by rw [hstart]; rfl)
    | crash hcrash => exact .of_idle (by rw [hcrash]; rfl)
    | work => exact work_dispatches (ih w) (run_plain run) hstep

end NeuroLab.ControlPlane
