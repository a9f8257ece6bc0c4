import Mathlib.Logic.Relation
import NeuroLab.ControlPlane.Effects
import NeuroLab.ControlPlane.Sample

/-!
# One recovery pass

`recover_stale_deliveries` reads the processing list once and goes through it. Each entry
has its own transaction and its own script, and a `psycopg.Error` of the one or a `RedisError`
of the other is logged. Two failures end the pass: that of the script which moves a malformed
entry to the dead letters, as it stands in the handler of another exception, outside every
`try`, and a transaction's exception of another type, such as the `UnicodeEncodeError` with
which psycopg rejects a lone surrogate.
-/

namespace NeuroLab.ControlPlane

open Python Common

/-! ## The pass -/

/-- How a transaction or a script ends: it takes effect and answers, it is refused, or it takes effect and its answer
is lost. -/
inductive StepEnd (ε : Type)
  | done
  | refused (exc : ε)
  | lost (exc : ε)
deriving DecidableEq

/-- What an entry of the list meets: the time and the end of its transaction, the exception of an insertion that
psycopg or PostgreSQL rejects, and the end of its script. A script raises a `RedisError`, here its class; what a
transaction raises is of any type. -/
structure EntryEnds where
  now : ℕ
  transaction : StepEnd PyExc
  rejection : PyExc
  script : StepEnd Str
deriving DecidableEq

/-- What becomes of an entry, `failed` for one whose step failed under a handler. -/
inductive Fate
  | requeued
  | acknowledged
  | deadLettered
  | leftAlone
  | failed
deriving DecidableEq

/-- A script, with its answer or its `RedisError`. -/
def runScript (redis : Redis) (cmd : Command) : StepEnd Str → Redis × Except PyExc RedisReply
  | .done => ((cmd.exec redis).1, .ok (cmd.exec redis).2)
  | .refused cls => (redis, .error (.redis cls))
  | .lost cls => ((cmd.exec redis).1, .error (.redis cls))

/-- The transaction of an entry, with its two answers or its exception. -/
def runTransaction (env : Env) (id : Uuid) (payload : Fields) (db : Database) (ends : EntryEnds) :
    Database × Except PyExc (Bool × Bool) :=
  match ends.transaction with
  | .done =>
    match recover env ends.now id payload db with
    | some (db, answers) => (db, .ok answers)
    | none => (db, .error ends.rejection)
  | .refused exc => (db, .error exc)
  | .lost exc =>
    match recover env ends.now id payload db with
    | some (db, _) => (db, .error exc)
    | none => (db, .error ends.rejection)

/-- The fate that a script's answer stands for. -/
def fateOf (fate : Fate) (reply : RedisReply) : Fate := if reply = .number 1 then fate else .leftAlone

/-- A script under the last handler of the loop's body. -/
def updateWith (redis : Redis) (cmd : Command) (fate : Fate) (script : StepEnd Str) : Redis × Fate :=
  match runScript redis cmd script with
  | (redis, .ok reply) => (redis, fateOf fate reply)
  | (redis, .error _) => (redis, .failed)

/-- The last part of the loop's body, after the transaction answered. -/
def updateDelivery (redis : Redis) (raw : Str) (answers : Bool × Bool) (script : StepEnd Str) : Redis × Fate :=
  if answers.1 then updateWith redis (.requeueStaleDelivery raw) .requeued script
  else if answers.2 then updateWith redis (.lremProcessing raw) .acknowledged script
  else (redis, .leftAlone)

/-- The body of the loop of `recover_stale_deliveries`. -/
def recoverDelivery (env : Env) (store : Store) (raw : Str) (ends : EntryEnds) : Store × Except PyExc Fate :=
  match identifyDelivery env.py raw with
  | .error exc =>
    if isMalformed exc then
      match runScript store.redis (.deadLetterProcessingDelivery raw) ends.script with
      | (redis, .ok reply) => ({ store with redis }, .ok (fateOf .deadLettered reply))
      | (redis, .error exc) => ({ store with redis }, .error exc)
    else (store, .error exc)
  | .ok (payload, id) =>
    match runTransaction env id payload store.db ends with
    | (db, .error exc) => ({ store with db }, if exc.isPsycopg then .ok .failed else .error exc)
    | (db, .ok answers) =>
      let (redis, fate) := updateDelivery store.redis raw answers ends.script
      ({ db, redis }, .ok fate)

/-- `recover_stale_deliveries` over the entries it read, with what becomes of those it tried. -/
def recoverStaleDeliveries (env : Env) : List (Str × EntryEnds) → Store → Store × List (Except PyExc Fate)
  | [], store => (store, [])
  | (raw, ends) :: rest, store =>
    match recoverDelivery env store raw ends with
    | (store, .error exc) => (store, [.error exc])
    | (store, .ok fate) =>
      let (store, results) := recoverStaleDeliveries env rest store
      (store, .ok fate :: results)

/-- What becomes of an entry that is the only one in the list. -/
def recoverAlone (env : Env) (store : Store) (entry : Str × EntryEnds) : Except PyExc Fate :=
  (recoverDelivery env { store with redis := { store.redis with processing := [entry.1] } } entry.1 entry.2).2

variable {env : Env} {store store' : Store} {raw : Str} {ends : EntryEnds} {now : ℕ} {db db' : Database}
  {payload : Fields} {id : Uuid} {row : TaskRow}

/-! ## The pass of a worker -/

/-- One operation of a worker at a time. -/
def Operates (env : Env) (now : ℕ) (before after : Store × Pc) : Prop :=
  ∃ fresh outcome, perform env now before.1 (before.2.op env fresh) outcome = some after

/-- The outcome of an operation that ends so. -/
def StepEnd.outcome {ε : Type} (raised : ε → PyExc) : StepEnd ε → Outcome
  | done => .done
  | refused exc => .refused (raised exc)
  | lost exc => .lost (raised exc)

theorem perform_script {π : Type} (cmd : Command) (k : Except PyExc RedisReply → π) (script : StepEnd Str) :
    perform env now store (.redis cmd k) (script.outcome .redis) =
      some ({ store with redis := (runScript store.redis cmd script).1 }, k (runScript store.redis cmd script).2) := by
  cases script <;> rfl

/-- Where a worker goes on behind the transaction of an entry. -/
def afterTransaction (raw : Str) (rest : List Str) : Except PyExc (Bool × Bool) → Pc
  | .error exc => if exc.isPsycopg then .recovering rest else .reapTasks
  | .ok answers => if answers.1 then .requeue raw rest else if answers.2 then .acknowledge raw rest else .recovering rest

/-- An insertion that is rejected is a transaction that is refused, whatever its end would have been. -/
theorem perform_recover (rest : List Str) (ends : EntryEnds) :
    Operates env ends.now (store, .recover raw payload id rest)
      ({ store with db := (runTransaction env id payload store.db ends).1 },
        afterTransaction raw rest (runTransaction env id payload store.db ends).2) := by
  have hrefused (exc : PyExc) :
      Operates env ends.now (store, .recover raw payload id rest) (store, afterTransaction raw rest (.error exc)) :=
    ⟨0, .refused exc, rfl⟩
  unfold runTransaction
  cases ends.transaction with
  | refused exc => exact hrefused exc
  | done =>
    simp only
    cases hrecover : recover env ends.now id payload store.db with
    | none => exact hrefused ends.rejection
    | some result => exact ⟨0, .done, by simp [Pc.op, perform, Tx.exec, hrecover, afterTransaction]⟩
  | lost exc =>
    simp only
    cases hrecover : recover env ends.now id payload store.db with
    | none => exact hrefused ends.rejection
    | some result => exact ⟨0, .lost exc, by simp [Pc.op, perform, Tx.exec, hrecover, afterTransaction]⟩

/-- A worker of the control plane takes an entry of its list so, and goes on behind it or with the reaper. -/
theorem recoverDelivery_operates (rest : List Str) :
    Relation.ReflTransGen (Operates env ends.now) (store, .recovering (raw :: rest))
      ((recoverDelivery env store raw ends).1,
        match (recoverDelivery env store raw ends).2 with
        | .ok _ => .recovering rest
        | .error _ => .reapTasks) := by
  refine .head (b := (store, recoverNext env (raw :: rest))) ⟨0, .done, rfl⟩ ?_
  rw [recoverNext]
  unfold recoverDelivery
  cases identifyDelivery env.py raw with
  | error exc =>
    simp only
    by_cases hmalformed : isMalformed exc = true
    · rw [if_pos hmalformed, if_pos hmalformed]
      refine .single ⟨0, ends.script.outcome .redis, (perform_script ..).trans ?_⟩
      generalize runScript store.redis (.deadLetterProcessingDelivery raw) ends.script = answered
      obtain ⟨redis, answer⟩ := answered
      cases answer <;> rfl
    · rw [if_neg hmalformed, if_neg hmalformed]
  | ok named =>
    obtain ⟨payload, id⟩ := named
    refine .head (perform_recover rest ends) ?_
    simp only
    generalize runTransaction env id payload store.db ends = ran
    obtain ⟨db, answers⟩ := ran
    cases answers with
    | error exc =>
      simp only [afterTransaction]
      cases exc.isPsycopg <;> exact .refl
    | ok answers =>
      obtain ⟨recovered, terminal⟩ := answers
      unfold updateDelivery
      cases recovered with
      | true => exact .single ⟨0, ends.script.outcome .redis, (perform_script ..).trans (by cases ends.script <;> rfl)⟩
      | false =>
        cases terminal with
        | true => exact .single ⟨0, ends.script.outcome .redis, (perform_script ..).trans (by cases ends.script <;> rfl)⟩
        | false => exact .refl

/-! ## One entry -/

/-- The two answers of the transaction, from the row it finds. -/
def answersOf (config : Config) (now : ℕ) : Option TaskRow → Bool × Bool
  | none => (true, false)
  | some r => (recoverable config now r, !recoverable config now r && r.status.terminal)

theorem recoverRow_answers (config : Config) (now : ℕ) (row : TaskRow) (db : Database) :
    (recoverRow config now row db).2 = answersOf config now (db.tasks.find? row.id) := by
  unfold recoverRow Database.taskMatches
  cases db.tasks.find? row.id <;> rfl

/-- The scripts of the pass, each of which answers whether the entry was still in the list. -/
theorem runScript_answer {redis : Redis} (hmem : raw ∈ redis.processing) (cmd : Command)
    (hcmd : cmd ∈ [.requeueStaleDelivery raw, .lremProcessing raw, .deadLetterProcessingDelivery raw])
    (script : StepEnd Str) :
    (runScript redis cmd script).2 =
      match script with
      | .done => .ok (.number 1)
      | .refused cls => .error (.redis cls)
      | .lost cls => .error (.redis cls) := by
  have hreply : (cmd.exec redis).2 = .number 1 := by
    simp only [List.mem_cons, List.not_mem_nil, or_false] at hcmd
    rcases hcmd with rfl | rfl | rfl <;> simp [Command.exec, hmem]
  cases script with
  | done => rw [runScript, hreply]
  | refused cls => rfl
  | lost cls => rfl

/-- The fate of an entry whose transaction answered. -/
def fateWith (answers : Bool × Bool) : StepEnd Str → Fate
  | .done => if answers.1 then .requeued else if answers.2 then .acknowledged else .leftAlone
  | .refused _ | .lost _ => if answers.1 || answers.2 then .failed else .leftAlone

theorem updateWith_fate {redis : Redis} (hmem : raw ∈ redis.processing) {cmd : Command}
    (hcmd : cmd ∈ [.requeueStaleDelivery raw, .lremProcessing raw, .deadLetterProcessingDelivery raw]) (fate : Fate)
    (script : StepEnd Str) : (updateWith redis cmd fate script).2 = if script = .done then fate else .failed := by
  have hanswer := runScript_answer hmem cmd hcmd script
  unfold updateWith
  generalize runScript redis cmd script = answered at hanswer ⊢
  obtain ⟨redis', answer⟩ := answered
  simp only at hanswer
  subst hanswer
  cases script <;> rfl

theorem updateDelivery_fate {redis : Redis} (hmem : raw ∈ redis.processing) (answers : Bool × Bool) (script : StepEnd Str) :
    (updateDelivery redis raw answers script).2 = fateWith answers script := by
  obtain ⟨recovered, terminal⟩ := answers
  unfold updateDelivery
  cases recovered with
  | true =>
    rw [if_pos rfl, updateWith_fate hmem (by simp)]
    cases script <;> rfl
  | false =>
    rw [if_neg Bool.false_ne_true]
    cases terminal with
    | true =>
      rw [if_pos rfl, updateWith_fate hmem (by simp)]
      cases script <;> rfl
    | false => cases script <;> rfl

/-- What the transaction of an entry raises, by whether its insertion is accepted. -/
def EntryEnds.raised (ends : EntryEnds) (accepted : Bool) : Option PyExc :=
  match ends.transaction with
  | .done => if accepted then none else some ends.rejection
  | .refused exc => some exc
  | .lost exc => some (if accepted then exc else ends.rejection)

/-- Whether the columns of `tasks` take an entry's insertion. -/
def accepts (env : Env) (now : ℕ) (id : Uuid) (payload : Fields) : Bool :=
  (newTask env now (.str (uuidText id)) payload).isSome

theorem runTransaction_answers (env : Env) (id : Uuid) (payload : Fields) (db : Database) (ends : EntryEnds) :
    (runTransaction env id payload db ends).2 =
      (ends.raised (accepts env ends.now id payload)).elim (.ok (answersOf env.config ends.now (db.tasks.find? id)))
        .error := by
  unfold runTransaction EntryEnds.raised accepts recover
  cases hrow : newTask env ends.now (.str (uuidText id)) payload with
  | none => cases ends.transaction <;> rfl
  | some row =>
    cases ends.transaction with
    | done =>
      rw [Option.map_some]
      simp only [recoverRow_answers, newTask_id hrow, Option.isSome_some, if_true, Option.elim_none]
    | refused exc => rfl
    | lost exc => rfl

/-- What becomes of an entry of the list, from the rows of the tasks. -/
def resultOf (env : Env) (found : Uuid → Option TaskRow) (entry : Str × EntryEnds) : Except PyExc Fate :=
  match identifyDelivery env.py entry.1 with
  | .error exc =>
    if isMalformed exc then
      match entry.2.script with
      | .done => .ok .deadLettered
      | .refused cls => .error (.redis cls)
      | .lost cls => .error (.redis cls)
    else .error exc
  | .ok (payload, id) =>
    match entry.2.raised (accepts env entry.2.now id payload) with
    | some exc => if exc.isPsycopg then .ok .failed else .error exc
    | none => .ok (fateWith (answersOf env.config entry.2.now (found id)) entry.2.script)

theorem recoverDelivery_result (hmem : raw ∈ store.redis.processing) :
    (recoverDelivery env store raw ends).2 = resultOf env store.db.tasks.find? (raw, ends) := by
  unfold recoverDelivery resultOf
  cases identifyDelivery env.py raw with
  | error exc =>
    have hanswer := runScript_answer hmem (.deadLetterProcessingDelivery raw) (by simp) ends.script
    simp only
    split
    · generalize runScript store.redis (.deadLetterProcessingDelivery raw) ends.script = answered at hanswer ⊢
      obtain ⟨redis, answer⟩ := answered
      simp only at hanswer
      subst hanswer
      cases ends.script <;> rfl
    · rfl
  | ok named =>
    obtain ⟨payload, id⟩ := named
    have hanswers := runTransaction_answers env id payload store.db ends
    simp only
    generalize runTransaction env id payload store.db ends = ran at hanswers ⊢
    obtain ⟨db, answers⟩ := ran
    simp only at hanswers
    subst hanswers
    cases ends.raised (accepts env ends.now id payload) with
    | some exc => rfl
    | none => simp only [Option.elim_none, updateDelivery_fate hmem]

theorem recoverAlone_eq (entry : Str × EntryEnds) :
    recoverAlone env store entry = resultOf env store.db.tasks.find? entry :=
  recoverDelivery_result (List.mem_singleton_self entry.1)

/-! ## What an entry leaves behind -/

/-- A task that an earlier entry of the pass has returned to the queue, where alone this one would have done so. -/
def Returned (config : Config) (now : ℕ) (before after : Option TaskRow) : Prop :=
  (∃ r, after = some r ∧ r.status = .queued) ∧ ∀ r, before = some r → recoverable config now r = true

/-- The store a pass has reached: the entries that remain are still in the list, and each task is as it was or has
been returned to the queue. -/
structure Reached (config : Config) (start store : Store) (now : ℕ) (remaining : List Str) : Prop where
  present : ∀ raw, remaining.count raw ≤ store.redis.processing.count raw
  tasks : ∀ id, store.db.tasks.find? id = start.db.tasks.find? id ∨
    Returned config now (start.db.tasks.find? id) (store.db.tasks.find? id)

/-- An expired lease stays expired. -/
theorem recoverable_mono {config : Config} {later : ℕ} (hle : now ≤ later) {r : TaskRow}
    (h : recoverable config now r = true) : recoverable config later r = true := by
  simp only [recoverable, Bool.or_eq_true, Bool.and_eq_true, Option.any_eq_true, decide_eq_true_eq] at h ⊢
  rcases h with hqueued | ⟨hrunning, t, ht, hexpired⟩
  · exact .inl hqueued
  · exact .inr ⟨hrunning, t, ht, hexpired.trans_le hle⟩

theorem recoverable_of_queued {config : Config} {r : TaskRow} (h : r.status = .queued) : recoverable config now r = true := by
  rw [recoverable, isQueued, h]
  rfl

theorem Returned.mono {config : Config} {later : ℕ} (hle : now ≤ later) {before after : Option TaskRow}
    (h : Returned config now before after) : Returned config later before after :=
  ⟨h.1, fun r hr => recoverable_mono hle (h.2 r hr)⟩

/-- A task that was returned to the queue is recovered, as it would have been alone. -/
theorem Returned.answers {config : Config} {before after : Option TaskRow} (h : Returned config now before after) :
    answersOf config now after = answersOf config now before := by
  obtain ⟨⟨r, rfl, hqueued⟩, hbefore⟩ := h
  have hafter : answersOf config now (some r) = (true, false) := by
    rw [answersOf, recoverable_of_queued hqueued]
    rfl
  rw [hafter]
  cases before with
  | none => rfl
  | some r' =>
    rw [answersOf, hbefore r' rfl]
    rfl

/-- The recovery transaction leaves each task as it was or returns it to the queue. -/
theorem recover_tasks {answers : Bool × Bool} (h : recover env now id payload db = some (db', answers)) (T : Uuid) :
    db'.tasks.find? T = db.tasks.find? T ∨ Returned env.config now (db.tasks.find? T) (db'.tasks.find? T) := by
  obtain ⟨row, hrow, hresult⟩ := Option.map_eq_some_iff.mp h
  have hdb : db' = (recoverRow env.config now row db).1 := (congrArg Prod.fst hresult).symm
  obtain ⟨-, hqueued, -⟩ := newTask_eq_some hrow
  subst hdb
  unfold recoverRow
  split
  next habsent =>
    rw [Database.insertTask_tasks]
    by_cases hT : row.id = T
    · subst hT
      rw [Option.isNone_iff_eq_none] at habsent
      rw [habsent, if_pos rfl]
      refine .inr ⟨⟨row, rfl, hqueued⟩, fun r hr => ?_⟩
      cases hr
    · rw [if_neg hT, Option.or_none]
      exact .inl rfl
  next =>
    rw [Database.updateTask_tasks]
    split
    next hT =>
      cases hfound : db.tasks.find? T with
      | none => exact .inl rfl
      | some r =>
        rw [Option.map_some]
        by_cases hrecoverable : recoverable env.config now r = true
        · rw [if_pos hrecoverable]
          refine .inr ⟨⟨r.release, rfl, rfl⟩, fun r' hr' => ?_⟩
          cases hr'
          exact hrecoverable
        · rw [if_neg hrecoverable]
          exact .inl rfl
    next => exact .inl rfl

theorem Returned.of_recover {answers : Bool × Bool} {start : Database} {T : Uuid}
    (hstart : db.tasks.find? T = start.tasks.find? T ∨ Returned env.config now (start.tasks.find? T) (db.tasks.find? T))
    (h : recover env now id payload db = some (db', answers)) :
    db'.tasks.find? T = start.tasks.find? T ∨ Returned env.config now (start.tasks.find? T) (db'.tasks.find? T) := by
  rcases recover_tasks h T with hsame | hreturned
  · rw [hsame]
    exact hstart
  · refine .inr ⟨hreturned.1, fun r hr => ?_⟩
    rcases hstart with hsame | hearlier
    · exact hreturned.2 r (hsame.trans hr)
    · exact hearlier.2 r hr

/-- A script of the pass removes its entry from the list, at most. -/
theorem runScript_processing (redis : Redis) (raw : Str) (cmd : Command)
    (hcmd : cmd ∈ [.requeueStaleDelivery raw, .lremProcessing raw, .deadLetterProcessingDelivery raw])
    (script : StepEnd Str) :
    (runScript redis cmd script).1.processing = redis.processing ∨
      (runScript redis cmd script).1.processing = redis.processing.erase raw := by
  have hexec : (cmd.exec redis).1.processing = redis.processing ∨
      (cmd.exec redis).1.processing = redis.processing.erase raw := by
    simp only [List.mem_cons, List.not_mem_nil, or_false] at hcmd
    rcases hcmd with rfl | rfl | rfl
    · by_cases hmem : raw ∈ redis.processing <;> simp [Command.exec, hmem]
    · exact .inr rfl
    · by_cases hmem : raw ∈ redis.processing <;> simp [Command.exec, hmem]
  cases script with
  | done => exact hexec
  | refused cls => exact .inl rfl
  | lost cls => exact hexec

theorem updateWith_redis (redis : Redis) (cmd : Command) (fate : Fate) (script : StepEnd Str) :
    (updateWith redis cmd fate script).1 = (runScript redis cmd script).1 := by
  unfold updateWith
  generalize runScript redis cmd script = answered
  obtain ⟨redis', answer⟩ := answered
  cases answer <;> rfl

theorem updateDelivery_processing {redis : Redis} (answers : Bool × Bool) (script : StepEnd Str) :
    (updateDelivery redis raw answers script).1.processing = redis.processing ∨
      (updateDelivery redis raw answers script).1.processing = redis.processing.erase raw := by
  unfold updateDelivery
  split
  · rw [updateWith_redis]
    exact runScript_processing redis raw _ (by simp) script
  · split
    · rw [updateWith_redis]
      exact runScript_processing redis raw _ (by simp) script
    · exact .inl rfl

theorem runTransaction_db (env : Env) (id : Uuid) (payload : Fields) (db : Database) (ends : EntryEnds) :
    (runTransaction env id payload db ends).1 = db ∨
      ∃ answers, recover env ends.now id payload db = some ((runTransaction env id payload db ends).1, answers) := by
  unfold runTransaction
  cases ends.transaction with
  | refused exc => exact .inl rfl
  | done =>
    cases recover env ends.now id payload db with
    | none => exact .inl rfl
    | some result => exact .inr ⟨result.2, rfl⟩
  | lost exc =>
    cases recover env ends.now id payload db with
    | none => exact .inl rfl
    | some result => exact .inr ⟨result.2, rfl⟩

/-- The store behind an entry: the list without it, at most, and the tables of its transaction, at most. -/
theorem recoverDelivery_store (env : Env) (store : Store) (raw : Str) (ends : EntryEnds) :
    ((recoverDelivery env store raw ends).1.redis.processing = store.redis.processing ∨
      (recoverDelivery env store raw ends).1.redis.processing = store.redis.processing.erase raw) ∧
    ((recoverDelivery env store raw ends).1.db = store.db ∨
      ∃ payload id answers, recover env ends.now id payload store.db =
        some ((recoverDelivery env store raw ends).1.db, answers)) := by
  unfold recoverDelivery
  cases identifyDelivery env.py raw with
  | error exc =>
    simp only
    split
    · have hprocessing := runScript_processing store.redis raw (.deadLetterProcessingDelivery raw) (by simp) ends.script
      generalize runScript store.redis (.deadLetterProcessingDelivery raw) ends.script = answered at hprocessing ⊢
      obtain ⟨redis, answer⟩ := answered
      cases answer <;> exact ⟨hprocessing, .inl rfl⟩
    · exact ⟨.inl rfl, .inl rfl⟩
  | ok named =>
    obtain ⟨payload, id⟩ := named
    have hran := runTransaction_db env id payload store.db ends
    simp only
    generalize runTransaction env id payload store.db ends = ran at hran ⊢
    obtain ⟨db, answers⟩ := ran
    have hdb : db = store.db ∨ ∃ payload id answers, recover env ends.now id payload store.db = some (db, answers) :=
      hran.imp_right fun ⟨answers, h⟩ => ⟨payload, id, answers, h⟩
    cases answers with
    | error exc => exact ⟨.inl rfl, hdb⟩
    | ok answers =>
      refine ⟨?_, hdb⟩
      exact updateDelivery_processing answers ends.script

/-- The next entry of the pass. -/
theorem Reached.next {start : Store} {remaining : List Str}
    (h : Reached env.config start store now (raw :: remaining)) (hclock : now ≤ ends.now) :
    Reached env.config start (recoverDelivery env store raw ends).1 ends.now remaining := by
  obtain ⟨hprocessing, hdb⟩ := recoverDelivery_store env store raw ends
  constructor
  · intro other
    have hpresent := h.present other
    rw [List.count_cons] at hpresent
    rcases hprocessing with hsame | herased
    · rw [hsame]
      omega
    · rw [herased, List.count_erase]
      omega
  · intro T
    have htasks := (h.tasks T).imp_right (Returned.mono hclock)
    rcases hdb with hsame | ⟨payload, id, answers, hrecover⟩
    · rw [hsame]
      exact htasks
    · exact Returned.of_recover htasks hrecover

/-- An entry meets in the pass what it meets alone. -/
theorem Reached.result {start : Store} {remaining : List Str}
    (h : Reached env.config start store now (raw :: remaining)) (hclock : now ≤ ends.now) :
    (recoverDelivery env store raw ends).2 = recoverAlone env start (raw, ends) := by
  have hmem : raw ∈ store.redis.processing := by
    have hpresent := h.present raw
    rw [List.count_cons_self] at hpresent
    exact List.count_pos_iff.mp (by omega)
  have hanswers : ∀ id, answersOf env.config ends.now (store.db.tasks.find? id) =
      answersOf env.config ends.now (start.db.tasks.find? id) := by
    intro id
    rcases h.tasks id with hsame | hreturned
    · rw [hsame]
    · exact (hreturned.mono hclock).answers
  rw [recoverDelivery_result hmem, recoverAlone_eq]
  unfold resultOf
  cases identifyDelivery env.py raw with
  | error exc => rfl
  | ok named => simp only [hanswers]

/-! ## The whole pass -/

/-- The results up to the first exception. -/
def upToError {ε α : Type} : List (Except ε α) → List (Except ε α)
  | [] => []
  | .error e :: _ => [.error e]
  | .ok a :: rest => .ok a :: upToError rest

/-- The pass takes the entries as they would fare alone, up to the first exception, by induction on the entries. -/
theorem recoverStaleDeliveries_results {start : Store} {entries : List (Str × EntryEnds)}
    (h : Reached env.config start store now (entries.map Prod.fst))
    (hclock : (now :: entries.map (·.2.now)).Pairwise (· ≤ ·)) :
    (recoverStaleDeliveries env entries store).2 = upToError (entries.map (recoverAlone env start)) := by
  induction entries generalizing store now with
  | nil => rfl
  | cons entry rest ih =>
    obtain ⟨raw, ends⟩ := entry
    rw [List.map_cons, List.pairwise_cons] at hclock
    have hfirst : now ≤ ends.now := hclock.1 _ List.mem_cons_self
    have hresult := h.result hfirst
    have hnext := ih (h.next hfirst) hclock.2
    rw [recoverStaleDeliveries, List.map_cons, ← hresult]
    generalize recoverDelivery env store raw ends = delivered at hnext ⊢
    obtain ⟨store', result⟩ := delivered
    cases result with
    | error exc => rfl
    | ok fate =>
      rw [upToError, ← hnext]

theorem upToError_length_iff {ε α : Type} (results : List (Except ε α)) :
    (upToError results).length = results.length ↔
      ∀ i e, i + 1 < results.length → results[i]? ≠ some (.error e) := by
  induction results with
  | nil => simp [upToError]
  | cons result rest ih =>
    cases result with
    | error e =>
      rw [upToError]
      constructor
      · intro h i e' hi
        simp only [List.length_cons, List.length_nil] at h hi
        omega
      · intro h
        cases rest with
        | nil => rfl
        | cons next rest => exact absurd rfl (h 0 e (by simp))
    | ok a =>
      rw [upToError, List.length_cons, List.length_cons, Nat.add_right_cancel_iff, ih]
      constructor
      · intro h i e hi
        cases i with
        | zero => simp
        | succ i => exact h i e (by simpa using hi)
      · intro h i e hi
        exact h (i + 1) e (by simpa using hi)

/-- Without an exception before the last, all the results are there. -/
theorem upToError_of_length {ε α : Type} {results : List (Except ε α)}
    (h : (upToError results).length = results.length) : upToError results = results := by
  induction results with
  | nil => rfl
  | cons result rest ih =>
    cases result with
    | error e =>
      cases rest with
      | nil => rfl
      | cons next rest => simp [upToError] at h
    | ok a =>
      rw [upToError] at h ⊢
      rw [ih (by simpa using h)]

/-- An entry ends the pass: reading it raises what its handler does not catch, the script that moves it to the dead
letters fails, or its transaction raises what is no `psycopg.Error`. -/
inductive Raises (env : Env) (entry : Str × EntryEnds) : Prop
  | reading {exc : PyExc} : identifyDelivery env.py entry.1 = .error exc → (isMalformed exc = true → entry.2.script ≠ .done) →
      Raises env entry
  | transaction {payload : Fields} {id : Uuid} {exc : PyExc} : identifyDelivery env.py entry.1 = .ok (payload, id) →
      entry.2.raised (accepts env entry.2.now id payload) = some exc → exc.isPsycopg = false → Raises env entry

theorem raises_iff_of_error {entry : Str × EntryEnds} {exc : PyExc} (hread : identifyDelivery env.py entry.1 = .error exc) :
    Raises env entry ↔ (isMalformed exc = true → entry.2.script ≠ .done) := by
  constructor
  · intro h
    cases h with
    | reading hread' hscript =>
      cases hread.symm.trans hread'
      exact hscript
    | transaction hread' => cases hread.symm.trans hread'
  · exact .reading hread

theorem raises_iff_of_ok {entry : Str × EntryEnds} (hread : identifyDelivery env.py entry.1 = .ok (payload, id)) :
    Raises env entry ↔
      ∃ exc, entry.2.raised (accepts env entry.2.now id payload) = some exc ∧ exc.isPsycopg = false := by
  constructor
  · intro h
    cases h with
    | reading hread' => cases hread.symm.trans hread'
    | transaction hread' hraised hother =>
      cases hread.symm.trans hread'
      exact ⟨_, hraised, hother⟩
  · rintro ⟨exc, hraised, hother⟩
    exact .transaction hread hraised hother

theorem recoverAlone_error_iff {entry : Str × EntryEnds} :
    (∃ exc, recoverAlone env store entry = .error exc) ↔ Raises env entry := by
  rw [recoverAlone_eq, resultOf]
  cases hread : identifyDelivery env.py entry.1 with
  | error exc =>
    rw [raises_iff_of_error hread]
    by_cases hmalformed : isMalformed exc = true
    · simp only [hmalformed, if_true, forall_const]
      cases entry.2.script <;> simp
    · simp [hmalformed]
  | ok named =>
    obtain ⟨payload, id⟩ := named
    rw [raises_iff_of_ok hread]
    simp only
    cases entry.2.raised (accepts env entry.2.now id payload) with
    | none => simp
    | some exc => cases hpsycopg : exc.isPsycopg <;> simp [hpsycopg]

/-- Every entry is tried, and one whose own steps succeed ends as it would alone. -/
def Isolated (env : Env) (entries : List (Str × EntryEnds)) (store : Store) : Prop :=
  (recoverStaleDeliveries env entries store).2.length = entries.length ∧
    ∀ (i : ℕ) (entry : Str × EntryEnds) (fate : Fate), entries[i]? = some entry → recoverAlone env store entry = .ok fate → fate ≠ .failed →
      (recoverStaleDeliveries env entries store).2[i]? = some (.ok fate)

/-- A pass isolates its entries exactly when none but the last of them raises. -/
theorem recovery_isolated_iff {env : Env} {store : Store} {entries : List (Str × EntryEnds)}
    (hlist : store.redis.processing = entries.map Prod.fst) (hclock : (entries.map (·.2.now)).Pairwise (· ≤ ·)) :
    Isolated env entries store ↔
      ∀ i entry, i + 1 < entries.length → entries[i]? = some entry → ¬Raises env entry := by
  have hstart : Reached env.config store store 0 (entries.map Prod.fst) :=
    ⟨fun raw => by rw [hlist], fun _ => .inl rfl⟩
  have hresults := recoverStaleDeliveries_results hstart
    (List.pairwise_cons.mpr ⟨fun _ _ => Nat.zero_le _, hclock⟩)
  rw [Isolated, hresults]
  have hlength : (upToError (entries.map (recoverAlone env store))).length = entries.length ↔
      ∀ i entry, i + 1 < entries.length → entries[i]? = some entry → ¬Raises env entry := by
    have hiff := upToError_length_iff (entries.map (recoverAlone env store))
    rw [List.length_map] at hiff
    rw [hiff]
    constructor
    · intro h i entry hi hentry hraises
      obtain ⟨exc, hexc⟩ := recoverAlone_error_iff.mpr hraises
      exact h i exc hi (by rw [List.getElem?_map, hentry, Option.map_some, hexc])
    · intro h i exc hi hexc
      rw [List.getElem?_map] at hexc
      obtain ⟨entry, hentry, hexc⟩ := Option.map_eq_some_iff.mp hexc
      exact h i entry hi hentry (recoverAlone_error_iff.mp ⟨exc, hexc⟩)
  rw [← hlength]
  constructor
  · exact fun h => h.1
  · intro h
    refine ⟨h, fun i entry fate hentry hfate _ => ?_⟩
    rw [upToError_of_length (by rw [h, List.length_map]), List.getElem?_map, hentry, Option.map_some, hfate]

/-- Two entries of the list: a malformed one, and one that names the sample task. -/
def Sample.stale (script : StepEnd Str) : List (Str × EntryEnds) :=
  [(lit "x", ⟨0, .done, .type, script⟩), (Sample.raw Sample.task [], ⟨0, .done, .type, .done⟩)]

/-- The store in which these entries are in processing. -/
def Sample.staleStore : Store where
  db := Database.empty
  redis := ⟨[], [lit "x", Sample.raw Sample.task []], []⟩

theorem Sample.stale_first :
    recoverAlone Sample.env Sample.staleStore (lit "x", ⟨0, .done, .type, .done⟩) = .ok .deadLettered := by
  decide +kernel

theorem recovery_isolated_sample : Isolated Sample.env (Sample.stale .done) Sample.staleStore :=
  (recovery_isolated_iff rfl (by simp [Sample.stale])).mpr fun i entry hi hentry hraises => by
    have hi : i + 1 < 2 := hi
    obtain rfl : i = 0 := by omega
    cases hentry
    obtain ⟨exc, hexc⟩ := recoverAlone_error_iff.mpr hraises
    cases Sample.stale_first.symm.trans hexc

/-- The entry behind a malformed one is not tried when the dead letters refuse the latter. -/
theorem malformed_entry_not_isolated :
    ¬Isolated Sample.env (Sample.stale (.refused (lit "ConnectionError"))) Sample.staleStore := by
  intro h
  have hlength : (recoverStaleDeliveries Sample.env (Sample.stale (.refused (lit "ConnectionError")))
      Sample.staleStore).2.length = 1 := by
    decide +kernel
  cases hlength.symm.trans h.1

/-- Nor is the entry behind one with a lone surrogate, which psycopg does not encode. -/
theorem surrogate_entry_not_isolated :
    let surrogate := Sample.raw Sample.task [(lit "model", .str [0xD800])]
    ¬Isolated Sample.env
      [(surrogate, ⟨0, .done, .value (lit "UnicodeEncodeError"), .done⟩), (lit "x", ⟨0, .done, .type, .done⟩)]
      ⟨.empty, ⟨[], [surrogate, lit "x"], []⟩⟩ := by
  intro surrogate h
  have hlength : (recoverStaleDeliveries Sample.env
      [(surrogate, ⟨0, .done, .value (lit "UnicodeEncodeError"), .done⟩), (lit "x", ⟨0, .done, .type, .done⟩)]
      ⟨.empty, ⟨[], [surrogate, lit "x"], []⟩⟩).2.length = 1 := by
    decide +kernel
  cases hlength.symm.trans h.1

end NeuroLab.ControlPlane
