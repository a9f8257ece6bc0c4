import NeuroLab.ControlPlane.Ledger

/-!
# Deliveries in the hands of workers

A worker that claims a delivery has read it with the lenient validator; a worker that
recovers one or moves it to the dead-letter list has read it with the strict one. What
the two make of one text decides whether it can be both executed and dead-lettered, and
what the claim of a duplicate finds decides whether handling it is inert.
-/

namespace NeuroLab.ControlPlane

open Python Common

variable {env : Env} {s s' : State} {a : Action} {h : History State Action} {fresh : Uuid}

/-! ## Where a delivery in hand was read -/

/-- A delivery names a task, by the strict validator. -/
def Names (env : Env) (raw : Str) (T : Uuid) : Prop :=
  ∃ payload, identifyDelivery env.py raw = .ok (payload, T)

instance (env : Env) (raw : Str) (T : Uuid) : Decidable (Names env raw T) :=
  decidable_of_iff ((identifyDelivery env.py raw).toOption.any fun r => decide (r.2 = T)) (by
    rw [Names]
    cases identifyDelivery env.py raw with
    | error exc => simp [Except.toOption]
    | ok r => simp [Except.toOption, Prod.ext_iff])

/-- PostgreSQL and the strict validator agree on an id that both can read. -/
theorem uuid_eq_of_taskId {payload : Fields} {T U : Uuid} (htaskId : taskId env.py payload = .ok T)
    (huuid : env.driver.uuid (getD payload (lit "task_id") .null) = some U) : U = T := by
  rw [taskId] at htaskId
  split at htaskId
  · cases htaskId
  · next v hv =>
    rw [getD, hv, Option.getD_some] at huuid
    split at htaskId
    · cases htaskId
    · next text htext =>
      split at htaskId
      · cases htaskId
      · next hid =>
        cases htaskId
        exact env.driver.uuid_agrees v text U T huuid htext hid

/-- What a worker has read of the delivery in its hands. -/
def Pc.Origin (env : Env) : Pc → Prop
  | bury raw => ∃ exc, readDelivery env.py raw = .error exc ∧ exc.isTypeOrValue = true
  | deadLetter raw _ => ∃ exc, identifyDelivery env.py raw = .error exc ∧ isMalformed exc = true
  | recover raw payload id _ => identifyDelivery env.py raw = .ok (payload, id)
  | claim d => ∃ fresh, readNext env fresh d.raw = .claim d
  | _ => True

theorem recoverNext_origin (raws : List Str) : (recoverNext env raws).Origin env := by
  unfold recoverNext
  split
  · trivial
  · split
    · next hidentify => exact hidentify
    · next exc hidentify =>
      split
      · next hmalformed => exact ⟨exc, hidentify, hmalformed⟩
      · trivial

theorem readNext_origin (raw : Str) : (readNext env fresh raw).Origin env := by
  cases hread : readDelivery env.py raw with
  | error exc =>
    simp only [readNext, hread]
    split
    · next hvalue => exact ⟨exc, hread, hvalue⟩
    · trivial
  | ok payload =>
    have hnext : readNext env fresh raw = .claim ⟨raw, payload, claimedId fresh payload⟩ := by
      rw [readNext, hread]
    rw [hnext]
    exact ⟨fresh, hnext⟩

/-- The stages with a delivery that was read. -/
def Stage.reading : Stage → Bool
  | bury => true
  | deadLetter => true
  | recover => true
  | claim => true
  | _ => false

theorem Pc.Origin.of_idle {pc : Pc} (hidle : pc.stage.reading = false) : pc.Origin env := by
  cases pc <;> trivial

/-- Every operation leaves the worker with a delivery it has read. -/
theorem all_origin (pc : Pc) : (pc.op env fresh).All (Pc.Origin env) := by
  have elsewhere : pc.stage.next.all (fun st => !st.reading) = true → (pc.op env fresh).All (Pc.Origin env) :=
    fun hnext => Op.All.mono (all_outside hnext) fun p hp => .of_idle hp
  cases pc with
  | recovering raws => exact recoverNext_origin raws
  | deliver raw => exact readNext_origin raw
  | _ => exact elsewhere rfl

/-- In every reachable state the workers have read the deliveries in their hands. -/
theorem run_origin (run : (system env).Run h s) (w : ℕ) : (s.workers w).Origin env := by
  refine run.invariant (P := fun s => (s.workers w).Origin env) trivial fun s a s' hs hstep => ?_
  cases step_worker hstep w with
  | stay _ hsame => exact hsame ▸ hs
  | start hstart => rw [hstart]; trivial
  | crash hcrash => rw [hcrash]; trivial
  | work hperform =>
    exact (perform_cases hperform).2.2 _ ((all_origin (s.workers w)).wp fun _ _ hp => hp)

/-- A delivery under claim was accepted by the lenient validator, and its id comes from it. -/
theorem readNext_eq_claim {raw : Str} {d : Delivery} (hd : readNext env fresh raw = .claim d) :
    d.raw = raw ∧ readDelivery env.py raw = .ok d.payload ∧ d.taskId = claimedId fresh d.payload := by
  unfold readNext at hd
  split at hd
  · split at hd <;> cases hd
  · next payload hread =>
    cases hd
    exact ⟨rfl, hread, rfl⟩

/-! ## Executed and dead-lettered -/

/-- A step in which a worker obtains a lease for a delivery. -/
def Executes (env : Env) (raw : Str) (s : State) (a : Action) : Prop :=
  ∃ w fresh outcome d, a = .work w fresh outcome ∧ s.workers w = .claim d ∧ d.raw = raw ∧
    (a.grant? env s).isSome

/-- A lease was obtained for a delivery in the past. -/
def Executed (env : Env) (raw : Str) (h : History State Action) : Prop := ∃ x ∈ h, Executes env raw x.1 x.2

/-- A delivery that the lenient validator accepts and the insertion takes, while the strict validator
finds it malformed. -/
def JudgedApart (env : Env) (raw : Str) : Prop :=
  ∃ payload exc now fresh, readDelivery env.py raw = .ok payload ∧
    (newTask env now (claimedId fresh payload) payload).isSome ∧
    identifyDelivery env.py raw = .error exc ∧ isMalformed exc = true

/-- A worker reads the delivery it has taken. -/
theorem step_deliver {w : ℕ} {raw : Str} (hw : s.workers w = .deliver raw) (hfresh : fresh ∉ s.issued) :
    ∃ s', step env s (.work w fresh .done) = some s' ∧ s'.clock = s.clock ∧ s'.store = s.store ∧
      s'.issued = fresh :: s.issued ∧ s'.workers w = readNext env fresh raw := by
  have hperform : perform env s.clock s.store ((s.workers w).op env fresh) .done =
      some (s.store, readNext env fresh raw) := by
    rw [hw]
    rfl
  exact ⟨_, step_draw (by rw [hw]; rfl) hfresh hperform, rfl, rfl, rfl, if_pos rfl⟩

/-- A claim whose insertion is accepted takes effect. -/
theorem step_claim {w : ℕ} {d : Delivery} {row : TaskRow} (hw : s.workers w = .claim d) (hfresh : fresh ∉ s.issued)
    (hrow : newTask env s.clock d.taskId d.payload = some row) :
    ∃ s', step env s (.work w fresh .done) = some s' ∧ s'.store.redis = s.store.redis ∧
      s'.store.db = (claimRow s.clock row fresh s.store.db).1 ∧
      (Action.work w fresh .done).grant? env s = (claimRow s.clock row fresh s.store.db).2 ∧
      s'.workers w = match (claimRow s.clock row fresh s.store.db).2 with
        | some lease => .attempt d lease
        | none => .ack d.raw := by
  have hexec : Tx.exec env s.clock s.store.db (.claimTask d.taskId d.payload fresh) =
      some ((claimRow s.clock row fresh s.store.db).1, .lease (claimRow s.clock row fresh s.store.db).2) := by
    simp only [Tx.exec, claimTask, hrow, Option.map_some]
  have htx : (Action.work w fresh .done).tx? env s = some (.claimTask d.taskId d.payload fresh) := by
    rw [Action.tx?, hw]
    rfl
  have hgrant : (Action.work w fresh .done).grant? env s = (claimRow s.clock row fresh s.store.db).2 := by
    rw [Action.grant?, htx, Option.bind_some, hexec]
    rfl
  obtain ⟨pc, hpc, hperform⟩ : ∃ pc, (pc = match (claimRow s.clock row fresh s.store.db).2 with
        | some lease => Pc.attempt d lease
        | none => .ack d.raw) ∧
      perform env s.clock s.store ((s.workers w).op env fresh) .done =
        some ({ s.store with db := (claimRow s.clock row fresh s.store.db).1 }, pc) := by
    refine ⟨_, rfl, ?_⟩
    rw [hw]
    change (Tx.exec env s.clock s.store.db (.claimTask d.taskId d.payload fresh)).map _ = _
    rw [hexec]
    cases (claimRow s.clock row fresh s.store.db).2 <;> rfl
  exact ⟨_, step_draw (by rw [hw]; rfl) hfresh hperform, rfl, rfl, hgrant, (if_pos rfl).trans hpc⟩

/-- Worker 0 takes a delivery that was pushed at some time. -/
theorem exists_taken (env : Env) (raw : Str) (now : ℕ) :
    ∃ h s, (system env).Run h s ∧ s.clock = now ∧ s.store = ⟨.empty, ⟨[], [raw], []⟩⟩ ∧
      s.workers 0 = .deliver raw ∧ s.workers 1 = .down ∧ s.issued = [] := by
  have run := ((((((System.Run.start (M := system env)).step (a := .tick now) rfl).step
    (a := .enqueue raw) rfl).step (a := .start 0) rfl).step (a := .work 0 0 (.due false)) rfl).step
    (a := .work 0 0 (.due false)) rfl).step (a := .work 0 0 (.due false)) rfl
  have run := run.step (a := .work 0 0 .done) rfl
  exact ⟨_, _, run, Nat.zero_add now, rfl, rfl, rfl, rfl⟩

/-- What one worker makes of the store alone, by the outcomes of its operations. -/
def alone (env : Env) (now : ℕ) : Store → Pc → List Outcome → Option (Store × Pc)
  | store, pc, [] => some (store, pc)
  | store, pc, outcome :: rest =>
    if pc.draws then none
    else (perform env now store (pc.op env 0) outcome).bind fun r => alone env now r.1 r.2 rest

/-- A run goes on with one worker alone. -/
theorem exists_alone (run : (system env).Run h s) {w : ℕ} {outcomes : List Outcome} {store : Store} {pc : Pc}
    (halone : alone env s.clock s.store (s.workers w) outcomes = some (store, pc)) :
    ∃ later s', (system env).Run (later ++ h) s' ∧ s'.clock = s.clock ∧ s'.store = store ∧
      s'.issued = s.issued ∧ s'.workers w = pc ∧ ∀ v, v ≠ w → s'.workers v = s.workers v := by
  induction outcomes generalizing h s with
  | nil =>
    cases halone
    exact ⟨[], s, run, rfl, rfl, rfl, rfl, fun _ _ => rfl⟩
  | cons outcome rest ih =>
    rw [alone] at halone
    split at halone
    · cases halone
    · next hdraws =>
      obtain ⟨⟨store₁, pc₁⟩, hperform, hrest⟩ := Option.bind_eq_some_iff.mp halone
      have hdraws' : (s.workers w).draws = false := by simpa using hdraws
      have hstep : (system env).step s (.work w 0 outcome) = some ({ s with store := store₁ }.setWorker w pc₁) :=
        step_perform hdraws' hperform
      obtain ⟨later, s', run', hclock, hstore, hissued, hpc, hothers⟩ := ih (run.step hstep)
        (by simpa [State.setWorker] using hrest)
      refine ⟨later ++ [_], s', by simpa using run', hclock, hstore, hissued, hpc, fun v hv => ?_⟩
      rw [hothers v hv]
      simp [State.setWorker, hv]

/-- A worker that starts can dead-letter the malformed delivery at the head of the processing list. -/
theorem exists_dead {raw : Str} {rest : List Str} {exc : PyExc} {w : ℕ} (run : (system env).Run h s)
    (hw : s.workers w = .down) (hlist : s.store.redis.processing = raw :: rest)
    (hidentify : identifyDelivery env.py raw = .error exc) (hmalformed : isMalformed exc = true) :
    ∃ later s', (system env).Run (later ++ h) s' ∧ s'.clock = s.clock ∧ s'.store.db = s.store.db ∧
      s'.issued = s.issued ∧ raw ∈ s'.store.redis.dead ∧ ∀ v, v ≠ w → s'.workers v = s.workers v := by
  have hnext : recoverNext env (raw :: rest) = .deadLetter raw rest := by
    simp only [recoverNext, hidentify, hmalformed, if_true]
  have hstart : (system env).step s (.start w) = some (s.setWorker w .outboxDue) := if_pos hw
  have hpc : (s.setWorker w .outboxDue).workers w = .outboxDue := by simp [State.setWorker]
  have halone : alone env s.clock s.store .outboxDue
      [.due false, .due false, .due true, .done, .done, .done] =
        some (⟨s.store.db, ((Command.deadLetterProcessingDelivery raw).exec s.store.redis).1⟩,
          .recovering rest) := by
    have hread : alone env s.clock s.store .outboxDue [.due false, .due false, .due true, .done, .done, .done] =
        alone env s.clock s.store (recoverNext env s.store.redis.processing) [.done] := rfl
    rw [hread, hlist, hnext]
    rfl
  obtain ⟨later, s', run', hclock, hstore, hissued, -, hothers⟩ :=
    exists_alone (run.step hstart) (hpc ▸ halone)
  refine ⟨later ++ [_], s', by simpa using run', hclock, by rw [hstore], hissued, ?_, fun v hv => ?_⟩
  · rw [hstore]
    simp [Command.exec, hlist]
  · rw [hothers v hv]
    simp [State.setWorker, hv]

/-- A delivery that the validators judge apart can be dead-lettered by one worker and executed by
another. -/
theorem dead_and_executed {raw : Str} (hraw : JudgedApart env raw) :
    ∃ h s, (system env).Run h s ∧ Executed env raw h ∧ raw ∈ s.store.redis.dead := by
  obtain ⟨payload, exc, now, fresh, hread, hnew, hidentify, hmalformed⟩ := hraw
  obtain ⟨row, hrow⟩ := Option.isSome_iff_exists.mp hnew
  have hnext : readNext env fresh raw = .claim ⟨raw, payload, claimedId fresh payload⟩ := by
    rw [readNext, hread]
  obtain ⟨execution, hexecution⟩ : ∃ execution : Uuid, execution ≠ fresh := by
    by_cases hzero : fresh = 0
    · exact ⟨1, by rw [hzero]; decide⟩
    · exact ⟨0, Ne.symm hzero⟩
  obtain ⟨_, s, run, hclock, hstore, hw, hdown, hissued⟩ := exists_taken env raw now
  obtain ⟨_, s₁, run₁, hclock₁, hdb₁, hissued₁, hdead, hothers⟩ :=
    exists_dead run hdown (by rw [hstore]) hidentify hmalformed
  have hunused : fresh ∉ s₁.issued := by
    rw [hissued₁, hissued]
    exact List.not_mem_nil
  obtain ⟨s₂, hstep₂, hclock₂, hstore₂, hissued₂, hw₂⟩ :=
    step_deliver ((hothers 0 (by decide)).trans hw) hunused
  rw [hnext] at hw₂
  obtain ⟨s₃, hstep₃, hredis, -, hgrant, -⟩ := step_claim hw₂
    (by rw [hissued₂, hissued₁, hissued]; simpa using hexecution) (by rw [hclock₂, hclock₁, hclock]; exact hrow)
  have run₃ := run_next (run_next run₁ hstep₂) hstep₃
  refine ⟨_, s₃, run₃, ⟨_, List.mem_cons_self, 0, execution, .done, _, rfl, hw₂, rfl, ?_⟩,
    by rw [hredis, hstore₂]; exact hdead⟩
  rw [hgrant, hstore₂, hdb₁, hstore]
  have hfree : uncertainAttempt Database.empty row.id = none := rfl
  rw [claimRow_of_certain _ _ hfree]
  have hqueued := (newTask_unclaimed hrow).queued
  simp [Database.taskMatches, Database.empty, isQueued, hqueued]

/-- A command puts only its own text into the dead-letter list. -/
theorem exec_dead {r : Redis} {cmd : Command} {raw : Str} (hraw : raw ∈ (cmd.exec r).1.dead) :
    raw ∈ r.dead ∨ cmd = .rpushDead raw ∨ cmd = .deadLetterProcessingDelivery raw := by
  cases cmd with
  | rpushDead raw' =>
    rcases List.mem_append.mp hraw with hold | hnew
    · exact Or.inl hold
    · exact Or.inr (Or.inl (by rw [List.mem_singleton.mp hnew]))
  | deadLetterProcessingDelivery raw' =>
    simp only [Command.exec] at hraw
    split at hraw
    · rcases List.mem_append.mp hraw with hold | hnew
      · exact Or.inl hold
      · exact Or.inr (Or.inr (by rw [List.mem_singleton.mp hnew]))
    · exact Or.inl hraw
  | blmove =>
    simp only [Command.exec] at hraw
    split at hraw <;> exact Or.inl hraw
  | requeueStaleDelivery raw' =>
    simp only [Command.exec] at hraw
    split at hraw <;> exact Or.inl hraw
  | _ => exact Or.inl hraw

/-- A dead-lettered delivery was found malformed by one of the validators. -/
theorem run_dead (run : (system env).Run h s) : ∀ raw ∈ s.store.redis.dead,
    (∃ exc, readDelivery env.py raw = .error exc) ∨
      ∃ exc, identifyDelivery env.py raw = .error exc ∧ isMalformed exc = true := by
  induction run with
  | start =>
    intro raw hraw
    cases hraw
  | @step h s s' a run hstep ih =>
    intro raw hraw
    rw [(step_store hstep).2] at hraw
    cases hcmd : a.cmd? env s with
    | none =>
      rw [hcmd] at hraw
      exact ih raw hraw
    | some cmd =>
      rw [hcmd] at hraw
      rcases exec_dead hraw with hold | rfl | rfl
      · exact ih raw hold
      · rcases Action.cmd?_eq_some hcmd with ⟨w, fresh, outcome, rfl, hpc⟩ | hread | ⟨_, -, hpush⟩
        · have horigin := run_origin run w
          cases hw : s.workers w <;> rw [hw] at hpc horigin <;> cases hpc
          obtain ⟨exc, hexc, -⟩ := horigin
          exact Or.inl ⟨exc, hexc⟩
        · cases hread
        · cases hpush
      · rcases Action.cmd?_eq_some hcmd with ⟨w, fresh, outcome, rfl, hpc⟩ | hread | ⟨_, -, hpush⟩
        · have horigin := run_origin run w
          cases hw : s.workers w <;> rw [hw] at hpc horigin <;> cases hpc
          exact Or.inr horigin
        · cases hread
        · cases hpush

/-- An executed delivery was accepted by the lenient validator and by the insertion. -/
theorem read_of_executed (run : (system env).Run h s) {raw : Str} (hexecuted : Executed env raw h) :
    ∃ payload now fresh, readDelivery env.py raw = .ok payload ∧
      (newTask env now (claimedId fresh payload) payload).isSome := by
  obtain ⟨x, hx, w, fresh, outcome, d, ha, hw, hraw, hgranted⟩ := hexecuted
  obtain ⟨earlier, s', run', hstep⟩ := run.step_of_mem hx
  have horigin := run_origin run' w
  rw [hw] at horigin
  obtain ⟨drawn, hnext⟩ := horigin
  obtain ⟨-, hread, htaskId⟩ := readNext_eq_claim hnext
  rw [hraw] at hread
  refine ⟨d.payload, x.1.clock, drawn, hread, ?_⟩
  obtain ⟨lease, hlease⟩ := Option.isSome_iff_exists.mp hgranted
  obtain ⟨tx, htx, hbind⟩ := Option.bind_eq_some_iff.mp hlease
  obtain ⟨⟨db, reply⟩, hexec, -⟩ := Option.bind_eq_some_iff.mp hbind
  have hclaim : tx = .claimTask d.taskId d.payload fresh := by
    rw [ha] at htx
    have hpc := Pc.commits_eq_some htx
    rw [hw] at hpc
    exact (Option.some.inj hpc).symm
  subst hclaim
  obtain ⟨_, hclaimed, -⟩ := Option.map_eq_some_iff.mp hexec
  obtain ⟨row, hrow, -⟩ := Option.map_eq_some_iff.mp hclaimed
  rw [← htaskId, hrow]
  rfl

/-- **Executed and dead-lettered are disjoint exactly for the deliveries judged alike.** No run both
executes a delivery and moves it to the dead-letter list, if and only if the delivery is not one that
the lenient validator and the insertion accept and the strict validator finds malformed. -/
theorem executed_dead_disjoint_iff (env : Env) (raw : Str) :
    (∀ h s, (system env).Run h s → ¬ (Executed env raw h ∧ raw ∈ s.store.redis.dead)) ↔
      ¬ JudgedApart env raw := by
  constructor
  · intro hdisjoint hapart
    obtain ⟨h, s, run, hboth⟩ := dead_and_executed hapart
    exact hdisjoint h s run hboth
  · intro halike h s run hboth
    obtain ⟨hexecuted, hdead⟩ := hboth
    obtain ⟨payload, now, fresh, hread, hnew⟩ := read_of_executed run hexecuted
    rcases run_dead run raw hdead with ⟨exc, herror⟩ | ⟨exc, hidentify, hmalformed⟩
    · rw [hread] at herror
      cases herror
    · exact halike ⟨payload, exc, now, fresh, hread, hnew, hidentify, hmalformed⟩

/-- A delivery without a task id is executed under a fresh one, and dead-lettered by recovery. -/
theorem unnamed_delivery_executed_and_dead :
    ¬ ∀ raw h s, (system Sample.env).Run h s → ¬ (Executed Sample.env raw h ∧ raw ∈ s.store.redis.dead) := by
  have hapart : JudgedApart Sample.env (dumps Sample.py.floatRepr (.obj Sample.unnamed)) :=
    ⟨Sample.unnamed, .key, 0, 1, by decide +kernel, by decide +kernel, by decide +kernel, rfl⟩
  obtain ⟨h, s, run, hboth⟩ := dead_and_executed hapart
  intro hdisjoint
  exact hdisjoint _ h s run hboth

end NeuroLab.ControlPlane
