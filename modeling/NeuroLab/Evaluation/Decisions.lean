import NeuroLab.Evaluation.Registration

/-!
# Competing decisions on evaluators

Connections register evaluators, record runs and decide candidates, one statement after
another. What a connection has written is seen by the others after its COMMIT; until then
it holds the rows and keys it wrote, and a statement of another connection that runs into
one of them waits. The UPDATE of a decision takes its candidate only while it is open, so
a candidate that was promoted or reverted is decided once and for all.
-/

namespace NeuroLab.Evaluation

open Python Common Postgres

/-! ## Connections -/

/-- The states an evaluator does not leave. -/
def EvaluatorState.terminal : EvaluatorState → Bool
  | proposed | shadow => false
  | promoted | reverted => true

/-- The statement a connection executes next, or what its COMMIT makes visible. -/
inductive Phase
  | insertVersion (evaluator : EvaluatorVersion)
  | commitVersion (row : Option EvaluatorVersionRow)
  | insertRun (run : EvaluationRun)
  | commitRun (row : EvaluatorRunRow)
  | selectRuns (decision : EvaluatorDecision)
  | updateCandidate (decision : EvaluatorDecision)
  | insertDecision (decision : EvaluatorDecision)
  | commitDecision (row : EvaluatorDecisionRow)

/-- The first statement of a call; the other operations leave the evaluators alone. -/
def Call.phase? : Call → Option Phase
  | persistEvaluatorVersion evaluator => some (.insertVersion evaluator)
  | persistEvaluationRun run => some (.insertRun run)
  | persistEvaluatorDecision decision => some (.selectRuns decision)
  | _ => none

/-- A row or key that an open transaction has written. -/
inductive Lock
  | version (id : Uuid)
  | label (key : EvaluatorKind × Str)
  | candidate (id : Uuid)
  | run (id : Uuid)
  | decision (id : Uuid)
deriving DecidableEq

/-- What an INSERT of an evaluator locks. -/
def EvaluatorVersionRow.locks (row : EvaluatorVersionRow) : List Lock := [.version row.id, .label row.labelKey]

/-- What a connection holds until it ends. -/
def Phase.locks : Phase → List Lock
  | insertVersion _ | insertRun _ | selectRuns _ | updateCandidate _ => []
  | commitVersion row => row.toList.flatMap (·.locks)
  | commitRun row => [.run row.id]
  | insertDecision decision => (uuid decision.candidateEvaluatorId).toList.map .candidate
  | commitDecision row => [.candidate row.candidateEvaluatorId, .decision row.id]

/-- An open connection. -/
structure Connection where
  number : ℕ
  phase : Phase

/-- The committed tables and the open connections. -/
structure Connections where
  db : Evaluators
  open_ : Table Connection.number

/-- How a statement ends. -/
inductive Reply
  | waits
  | fails
  | goesOn (phase : Phase)

/-- Whether the runs of a decision belong to its two evaluators. -/
def matchesRuns (db : Evaluators) (decision : EvaluatorDecision) : Bool :=
  match uuid decision.baselineRunId, uuid decision.candidateRunId with
  | some baselineRunId, some candidateRunId => sameEvaluators db decision baselineRunId candidateRunId
  | _, _ => false

namespace Connections

variable (s : Connections)

/-- Whether another connection holds one of the locks. -/
def blocked (number : ℕ) (locks : List Lock) : Bool :=
  s.open_.rows.any fun c => decide (c.number ≠ number) && c.phase.locks.any (· ∈ locks)

/-- The next statement of a connection. -/
def execute (server : Server) (number : ℕ) : Phase → Reply
  | .insertVersion evaluator =>
    match newEvaluatorVersion evaluator with
    | none => .fails
    | some row =>
      if (s.db.versions.taken? row.labelKey).isNone && s.blocked number row.locks then .waits
      else match s.db.versions.insertNew row with
        | none => .fails
        | some (versions, inserted) =>
          if inserted.isSome && !(row.parentId.all fun parent => (versions.find? parent).isSome) then .fails
          else .goesOn (.commitVersion inserted)
  | .insertRun run =>
    match newEvaluatorRun run with
    | none => .fails
    | some row =>
      if s.blocked number [.run row.id] then .waits
      else if (s.db.versions.find? row.evaluatorId).isSome && (s.db.runs.find? row.id).isNone then
        .goesOn (.commitRun row)
      else .fails
  | .selectRuns decision => if matchesRuns s.db decision then .goesOn (.updateCandidate decision) else .fails
  | .updateCandidate decision =>
    match uuid decision.candidateEvaluatorId with
    | none => .fails
    | some id =>
      if s.blocked number [.candidate id] then .waits
      else if (s.db.versions.find? id).any (·.isOpen) then .goesOn (.insertDecision decision)
      else .fails
  | .insertDecision decision =>
    match newEvaluatorDecision server decision with
    | none => .fails
    | some row =>
      if s.blocked number [.decision row.id] then .waits
      else if (s.db.decisions.find? row.id).isNone && (s.db.versions.find? row.baselineEvaluatorId).isSome &&
          (s.db.runs.find? row.baselineRunId).isSome && (s.db.runs.find? row.candidateRunId).isSome then
        .goesOn (.commitDecision row)
      else .fails
  | .commitVersion _ | .commitRun _ | .commitDecision _ => .waits

/-- The tables after a COMMIT. -/
def committed : Phase → Option Evaluators
  | .commitVersion none => some s.db
  | .commitVersion (some row) => (s.db.versions.insertNew row).map fun inserted => { s.db with versions := inserted.1 }
  | .commitRun row => some { s.db with runs := s.db.runs.insert row }
  | .commitDecision row =>
    some
      { s.db with
        versions := s.db.versions.update (fun r => r.id = row.candidateEvaluatorId && r.isOpen)
          (fun r => { r with state := row.decision.state }) (fun _ => rfl) fun _ => rfl
        decisions := s.db.decisions.insert row }
  | .insertVersion _ | .insertRun _ | .selectRuns _ | .updateCandidate _ | .insertDecision _ => none

/-- A connection ends, and what it has not committed is gone. -/
def close (number : ℕ) : Connections := { s with open_ := s.open_.delete fun c => c.number = number }

/-- A connection goes on. -/
def goOn (number : ℕ) (phase : Phase) : Connections :=
  { s with open_ := s.open_.update (fun c => c.number = number) (fun c => { c with phase }) fun _ => rfl }

/-- What follows from the reply to a statement; a failure rolls back. -/
def proceed (number : ℕ) : Reply → Option Connections
  | .waits => none
  | .fails => some (s.close number)
  | .goesOn phase => some (s.goOn number phase)

end Connections

/-- What happens next. -/
inductive ConnectionAction
  | call (call : Call)
  | start (number : ℕ) (call : Call)
  | next (number : ℕ)
  | commit (number : ℕ)
  | abort (number : ℕ)

/-- One step of a connection, or a call of another operation. -/
def connectionStep (server : Server) (s : Connections) : ConnectionAction → Option Connections
  | .call call => if call.phase?.isSome then none else some { s with db := (call.run server s.db).1 }
  | .start number call =>
    if (s.open_.find? number).isSome then none
    else call.phase?.map fun phase => { s with open_ := s.open_.insert ⟨number, phase⟩ }
  | .next number => (s.open_.find? number).bind fun c => s.proceed number (s.execute server number c.phase)
  | .commit number =>
    (s.open_.find? number).bind fun c => (s.committed c.phase).map fun db => { s.close number with db }
  | .abort number => (s.open_.find? number).map fun _ => s.close number

/-- Connections in any interleaving. -/
def connections (server : Server) : System Connections ConnectionAction where
  init := ⟨.empty, .empty⟩
  step := connectionStep server

variable {server : Server} {db db' : Evaluators} {s s' : Connections}

/-! ## What an open transaction holds -/

/-- A lock still fits the committed tables: a key is not stored, a candidate is stored and open. -/
def Lock.Fits (db : Evaluators) : Lock → Prop
  | version id => db.versions.find? id = none
  | label key => db.versions.taken? key = none
  | candidate id => ∃ r, db.versions.find? id = some r ∧ r.isOpen = true
  | run id => db.runs.find? id = none
  | decision id => db.decisions.find? id = none

/-- Locks are held by one connection each, and fit the tables as long as they are held. -/
structure Locked (s : Connections) : Prop where
  fits : ∀ c ∈ s.open_.rows, ∀ l ∈ c.phase.locks, l.Fits s.db
  exclusive : ∀ c ∈ s.open_.rows, ∀ c' ∈ s.open_.rows, ∀ l ∈ c.phase.locks, l ∈ c'.phase.locks → c.number = c'.number

theorem SameEvaluators.fits (h : SameEvaluators db db') {l : Lock} (hl : l.Fits db) : l.Fits db' := by
  cases l <;> simpa only [Lock.Fits, h.versions, h.runs, h.decisions] using hl

theorem locks_of_phase? {call : Call} {phase : Phase} (h : call.phase? = some phase) : phase.locks = [] := by
  cases call <;> cases h <;> rfl

theorem Connections.blocked_eq_false {number : ℕ} {locks : List Lock} (h : s.blocked number locks = false) :
    ∀ c ∈ s.open_.rows, c.number ≠ number → ∀ l ∈ c.phase.locks, l ∉ locks := by
  simpa [Connections.blocked] using h

/-- Where no lock is taken, the held ones stay exclusive. -/
theorem Locked.of_held (h : Locked s) (hfits : ∀ c ∈ s'.open_.rows, ∀ l ∈ c.phase.locks, l.Fits s'.db)
    (hheld : ∀ c' ∈ s'.open_.rows, ∀ l ∈ c'.phase.locks, ∃ c ∈ s.open_.rows, c.number = c'.number ∧ l ∈ c.phase.locks) :
    Locked s' := by
  refine ⟨hfits, fun c hc c' hc' l hl hl' => ?_⟩
  obtain ⟨c₁, hc₁, hnumber, hl₁⟩ := hheld c hc l hl
  obtain ⟨c₂, hc₂, hnumber', hl₂⟩ := hheld c' hc' l hl'
  rw [← hnumber, ← hnumber', h.exclusive c₁ hc₁ c₂ hc₂ l hl₁ hl₂]

/-- A connection that ends gives its locks back. -/
theorem Locked.close (h : Locked s) (number : ℕ) : Locked (s.close number) := by
  have hmem : ∀ c ∈ (s.close number).open_.rows, c ∈ s.open_.rows := fun c hc => List.mem_of_mem_filter hc
  exact h.of_held (fun c hc => h.fits c (hmem c hc)) fun c hc l hl => ⟨c, hmem c hc, rfl, hl⟩

/-- A connection that goes on may take locks that fit and that no other connection holds. -/
theorem Locked.goOn (h : Locked s) {c : Connection} (hc : s.open_.find? c.number = some c) {phase : Phase}
    (hfits : ∀ l ∈ phase.locks, l.Fits s.db)
    (hnew : ∀ l ∈ phase.locks, l ∈ c.phase.locks ∨ s.blocked c.number [l] = false) : Locked (s.goOn c.number phase) := by
  have hopen : ∀ c' ∈ s.open_.rows, c'.number = c.number → c' = c := fun c' hc' =>
    s.open_.eq_of_key_eq hc' ((s.open_.find?_eq_some_iff _ _).mp hc).1
  have hmem : ∀ c' ∈ (s.goOn c.number phase).open_.rows,
      (c' ∈ s.open_.rows ∧ c'.number ≠ c.number) ∨ c' = { c with phase } := by
    intro c' hc'
    obtain ⟨c₁, hc₁, rfl⟩ := List.mem_map.mp hc'
    by_cases hnumber : c₁.number = c.number
    · rw [hopen c₁ hc₁ hnumber, if_pos (decide_eq_true rfl)]
      exact .inr rfl
    · rw [if_neg (by simpa using hnumber)]
      exact .inl ⟨hc₁, hnumber⟩
  -- a lock of another connection is none that this one holds or takes
  have hother : ∀ c' ∈ s.open_.rows, c'.number ≠ c.number → ∀ l ∈ c'.phase.locks, l ∉ phase.locks := by
    intro c' hc' hnumber l hl hmem
    rcases hnew l hmem with hown | hblocked
    · exact hnumber (h.exclusive c' hc' c ((s.open_.find?_eq_some_iff _ _).mp hc).1 l hl hown)
    · exact Connections.blocked_eq_false hblocked c' hc' hnumber l hl (List.mem_singleton_self l)
  constructor
  · intro c' hc' l hl
    rcases hmem c' hc' with ⟨hc', -⟩ | rfl
    · exact h.fits c' hc' l hl
    · exact hfits l hl
  · intro c₁ hc₁ c₂ hc₂ l hl₁ hl₂
    rcases hmem c₁ hc₁ with ⟨hc₁, hnumber₁⟩ | rfl
    · rcases hmem c₂ hc₂ with ⟨hc₂, -⟩ | rfl
      · exact h.exclusive c₁ hc₁ c₂ hc₂ l hl₁ hl₂
      · exact absurd hl₂ (hother c₁ hc₁ hnumber₁ l hl₁)
    · rcases hmem c₂ hc₂ with ⟨hc₂, hnumber₂⟩ | rfl
      · exact absurd hl₁ (hother c₂ hc₂ hnumber₂ l hl₂)
      · rfl

theorem newEvaluatorDecision_eq_some {decision : EvaluatorDecision} {row : EvaluatorDecisionRow}
    (h : newEvaluatorDecision server decision = some row) :
    uuid decision.baselineEvaluatorId = some row.baselineEvaluatorId ∧
      uuid decision.candidateEvaluatorId = some row.candidateEvaluatorId ∧
      uuid decision.baselineRunId = some row.baselineRunId ∧ uuid decision.candidateRunId = some row.candidateRunId ∧
      row.decision = decision.decision := by
  simp only [newEvaluatorDecision, Option.bind_eq_bind, Option.bind_eq_some_iff] at h
  obtain ⟨_, -, _, hbaseline, _, hcandidate, _, hbaselineRun, _, hcandidateRun, _, -, _, -, hrow⟩ := h
  split at hrow
  · cases hrow
    exact ⟨hbaseline, hcandidate, hbaselineRun, hcandidateRun, rfl⟩
  · cases hrow

theorem Connections.blocked_of_mem {number : ℕ} {locks : List Lock} (h : s.blocked number locks = false) {l : Lock}
    (hl : l ∈ locks) : s.blocked number [l] = false := by
  have hothers := blocked_eq_false h
  simp only [blocked, List.any_eq_false, Bool.and_eq_true, decide_eq_true_eq, List.any_eq_true, List.mem_singleton]
  rintro c hc ⟨hnumber, l', hl', rfl⟩
  exact hothers c hc hnumber l' hl' hl

/-- A statement that goes on leaves its connection with locks that fit, the new ones held by nobody else. -/
theorem locks_of_execute {number : ℕ} {phase phase' : Phase} (h : s.execute server number phase = .goesOn phase')
    (hown : ∀ l ∈ phase.locks, l.Fits s.db) :
    (∀ l ∈ phase'.locks, l.Fits s.db) ∧ ∀ l ∈ phase'.locks, l ∈ phase.locks ∨ s.blocked number [l] = false := by
  cases phase with
  | insertVersion evaluator =>
    rw [Connections.execute] at h
    split at h
    · cases h
    next row hrow =>
      split at h
      · cases h
      next hwaits =>
        split at h
        · cases h
        next versions inserted hinsert =>
          split at h
          · cases h
          cases h
          rcases Indexed.insertNew_cases hinsert with ⟨-, -, rfl⟩ | ⟨htaken, hkey, -, rfl⟩
          · exact ⟨List.forall_mem_nil _, List.forall_mem_nil _⟩
          have hfree : s.db.versions.find? row.id = none := by
            rwa [Table.mem_keys_iff, Bool.not_eq_true, Option.isSome_eq_false_iff, Option.isNone_iff_eq_none] at hkey
          rw [htaken, Option.isNone_none, Bool.true_and, Bool.not_eq_true] at hwaits
          have hlocks : (Phase.commitVersion (some row)).locks = row.locks := List.append_nil _
          rw [hlocks]
          refine ⟨?_, fun l hl => .inr (Connections.blocked_of_mem hwaits hl)⟩
          simpa [EvaluatorVersionRow.locks] using ⟨hfree, htaken⟩
  | insertRun run =>
    rw [Connections.execute] at h
    split at h
    · cases h
    next row hrow =>
      split at h
      · cases h
      next hwaits =>
        rw [Bool.not_eq_true] at hwaits
        split at h
        next hrefers =>
          cases h
          rw [Bool.and_eq_true, Option.isNone_iff_eq_none] at hrefers
          refine ⟨?_, fun l hl => .inr (Connections.blocked_of_mem hwaits hl)⟩
          simpa [Phase.locks, Lock.Fits] using hrefers.2
        · cases h
  | selectRuns decision =>
    rw [Connections.execute] at h
    split at h
    · cases h
      exact ⟨List.forall_mem_nil _, List.forall_mem_nil _⟩
    · cases h
  | updateCandidate decision =>
    rw [Connections.execute] at h
    split at h
    · cases h
    next id hid =>
      split at h
      · cases h
      next hwaits =>
        rw [Bool.not_eq_true] at hwaits
        split at h
        next hopen =>
          cases h
          have hlocks : (Phase.insertDecision decision).locks = [.candidate id] := by rw [Phase.locks, hid]; rfl
          rw [hlocks]
          refine ⟨?_, fun l hl => .inr (Connections.blocked_of_mem hwaits hl)⟩
          simpa [Lock.Fits] using (Option.any_eq_true _ _).mp hopen
        · cases h
  | insertDecision decision =>
    rw [Connections.execute] at h
    split at h
    · cases h
    next row hrow =>
      split at h
      · cases h
      next hwaits =>
        rw [Bool.not_eq_true] at hwaits
        split at h
        next hrefers =>
          cases h
          simp only [Bool.and_eq_true, Option.isNone_iff_eq_none] at hrefers
          have hcandidate : Lock.candidate row.candidateEvaluatorId ∈ (Phase.insertDecision decision).locks := by
            rw [Phase.locks, (newEvaluatorDecision_eq_some hrow).2.1]
            exact List.mem_singleton_self _
          constructor
          · rintro l (_ | ⟨_, _ | ⟨_, ⟨⟩⟩⟩)
            · exact hown _ hcandidate
            · exact hrefers.1.1.1
          · rintro l (_ | ⟨_, _ | ⟨_, ⟨⟩⟩⟩)
            · exact .inl hcandidate
            · exact .inr hwaits
        · cases h
  | commitVersion | commitRun | commitDecision =>
    rw [Connections.execute] at h
    cases h

/-- What a COMMIT does to the tables. -/
inductive Commits (db : Evaluators) : Phase → Evaluators → Prop
  | conflict : Commits db (.commitVersion none) db
  | version {row : EvaluatorVersionRow} {versions : Indexed EvaluatorVersionRow.id EvaluatorVersionRow.labelKey} :
      db.versions.find? row.id = none → versions.rows = db.versions.rows ++ [row] →
        (∀ k, versions.find? k = if row.id = k then some row else db.versions.find? k) →
          Commits db (.commitVersion (some row)) { db with versions }
  | run {row : EvaluatorRunRow} : Commits db (.commitRun row) { db with runs := db.runs.insert row }
  | decision {row : EvaluatorDecisionRow} {r : EvaluatorVersionRow}
      {versions : Indexed EvaluatorVersionRow.id EvaluatorVersionRow.labelKey} {decisions : Table EvaluatorDecisionRow.id} :
      db.versions.find? row.candidateEvaluatorId = some r → r.isOpen = true →
        versions.rows.map (·.labelKey) = db.versions.rows.map (·.labelKey) →
        (∀ k, versions.find? k =
          if row.candidateEvaluatorId = k then some { r with state := row.decision.state } else db.versions.find? k) →
          decisions.rows = db.decisions.rows ++ [row] →
            Commits db (.commitDecision row) { db with versions, decisions }

/-- A COMMIT under locks that fit. -/
theorem commits_of_committed {phase : Phase} (h : s.committed phase = some db') (hown : ∀ l ∈ phase.locks, l.Fits s.db) :
    Commits s.db phase db' := by
  cases phase with
  | commitVersion row =>
    cases row with
    | none =>
      cases h
      exact .conflict
    | some row =>
      have hfree : s.db.versions.find? row.id = none := hown (.version row.id) (by simp [Phase.locks, EvaluatorVersionRow.locks])
      have htaken : s.db.versions.taken? row.labelKey = none :=
        hown (.label row.labelKey) (by simp [Phase.locks, EvaluatorVersionRow.locks])
      obtain ⟨⟨versions, inserted⟩, hinsert, rfl⟩ := Option.map_eq_some_iff.mp h
      obtain ⟨versions', hupsert, hfind⟩ :=
        s.db.versions.upsert_of_free (fun _ => false) (fun r => r) (fun _ => rfl) (fun _ => rfl) hfree htaken
      cases hinsert.symm.trans hupsert
      rcases Indexed.insertNew_cases hinsert with ⟨htaken', -⟩ | ⟨-, -, hrows, -⟩
      · rw [htaken] at htaken'
        cases htaken'
      · exact .version hfree hrows hfind
  | commitRun row =>
    cases h
    exact .run
  | commitDecision row =>
    cases h
    obtain ⟨r, hr, hopen⟩ : ∃ r, s.db.versions.find? row.candidateEvaluatorId = some r ∧ r.isOpen = true :=
      hown (.candidate row.candidateEvaluatorId) List.mem_cons_self
    have hfree : s.db.decisions.find? row.id = none :=
      hown (.decision row.id) (List.mem_cons_of_mem _ List.mem_cons_self)
    refine .decision hr hopen ?_ (fun k => ?_) ?_
    · change (List.map _ (List.map _ _)) = _
      rw [List.map_map]
      refine List.map_congr_left fun r _ => ?_
      change EvaluatorVersionRow.labelKey (if _ then _ else _) = _
      split <;> rfl
    · refine Indexed.find?_update_one _ _ _ _ _ hr (by simpa [hopen] using Table.key_of_find? hr) ?_ k
      intro r' hr'
      rw [Bool.and_eq_true, decide_eq_true_eq] at hr'
      exact hr'.1
    · rw [Table.insert, dif_neg]
      rw [Table.mem_keys_iff, hfree]
      exact Bool.false_ne_true
  | insertVersion | insertRun | selectRuns | updateCandidate | insertDecision => cases h

/-- A COMMIT leaves alone what other connections hold. -/
theorem Commits.fits {phase : Phase} (h : Commits db phase db') {l : Lock} (hl : l ∉ phase.locks) (hfits : l.Fits db) :
    l.Fits db' := by
  cases h with
  | conflict => exact hfits
  | @version row versions hfree hrows hfind =>
    have hlocks : ¬(l = .version row.id ∨ l = .label row.labelKey) := by
      simpa [Phase.locks, EvaluatorVersionRow.locks] using hl
    cases l with
    | version id =>
      have hid : row.id ≠ id := fun hid => hlocks (.inl (congrArg Lock.version hid.symm))
      exact (hfind id).trans ((if_neg hid).trans hfits)
    | label key =>
      have hkey : row.labelKey ≠ key := fun hkey => hlocks (.inr (hkey ▸ rfl))
      have hfits : key ∉ db.versions.rows.map (·.labelKey) := (db.versions.taken?_eq_none_iff key).mp hfits
      refine (versions.taken?_eq_none_iff key).mpr ?_
      rw [hrows, List.map_append, List.mem_append, not_or]
      exact ⟨hfits, by simpa using Ne.symm hkey⟩
    | candidate id =>
      obtain ⟨r, hr, hopen⟩ := hfits
      have hid : row.id ≠ id := by
        rintro rfl
        rw [hfree] at hr
        cases hr
      exact ⟨r, (hfind id).trans ((if_neg hid).trans hr), hopen⟩
    | run id => exact hfits
    | decision id => exact hfits
  | @run row =>
    cases l with
    | run id =>
      have hid : row.id ≠ id := fun hid => hl (hid ▸ List.mem_singleton_self _)
      have hfits : db.runs.find? id = none := hfits
      change (db.runs.insert row).find? id = none
      rw [Table.find?_insert, hfits, if_neg hid, Option.none_or]
    | _ => exact hfits
  | @decision row r versions decisions hr hopen hlabels hfind hrows =>
    have hlocks : ¬(l = .candidate row.candidateEvaluatorId ∨ l = .decision row.id) := by simpa [Phase.locks] using hl
    cases l with
    | version id =>
      have hfits : db.versions.find? id = none := hfits
      have hid : row.candidateEvaluatorId ≠ id := by
        rintro rfl
        rw [hr] at hfits
        cases hfits
      exact (hfind id).trans ((if_neg hid).trans hfits)
    | label key =>
      have hfits : key ∉ db.versions.rows.map (·.labelKey) := (db.versions.taken?_eq_none_iff key).mp hfits
      refine (versions.taken?_eq_none_iff key).mpr ?_
      rwa [hlabels]
    | candidate id =>
      obtain ⟨r', hr', hopen'⟩ := hfits
      have hid : row.candidateEvaluatorId ≠ id := fun hid => hlocks (.inl (congrArg Lock.candidate hid.symm))
      exact ⟨r', (hfind id).trans ((if_neg hid).trans hr'), hopen'⟩
    | run id => exact hfits
    | decision id =>
      have hid : row.id ≠ id := fun hid => hlocks (.inr (hid ▸ rfl))
      have hfits : ∀ r ∈ db.decisions.rows, r.id ≠ id := (db.decisions.find?_eq_none_iff id).mp hfits
      refine (decisions.find?_eq_none_iff id).mpr fun r' hr' => ?_
      rw [hrows, List.mem_append, List.mem_singleton] at hr'
      rcases hr' with hr' | rfl
      · exact hfits r' hr'
      · exact hid

/-- The other operations leave the evaluators alone. -/
theorem sameEvaluators_of_run {call : Call} (h : call.phase? = none) (db : Evaluators) :
    SameEvaluators db (call.run server db).1 := by
  cases call with
  | persistResponseReplayDiagnostics id run diagnostics => exact persistResponseReplayDiagnostics_evaluators id run diagnostics db
  | persistSolutionAsset asset => exact persistSolutionAsset_evaluators asset db
  | persistSolutionOutcomes now asset outcomes => exact persistSolutionOutcomes_evaluators now asset outcomes db
  | _ => cases h

/-- What a step does: a call of another operation, a connection that begins, goes on or ends without a trace, and
a COMMIT. -/
inductive Stepped (server : Server) (s : Connections) : ConnectionAction → Connections → Prop
  | call {call : Call} : call.phase? = none → Stepped server s (.call call) { s with db := (call.run server s.db).1 }
  | start {number : ℕ} {call : Call} {phase : Phase} : s.open_.find? number = none → call.phase? = some phase →
      Stepped server s (.start number call) { s with open_ := s.open_.insert ⟨number, phase⟩ }
  | failed {number : ℕ} {c : Connection} : s.open_.find? number = some c →
      s.execute server number c.phase = .fails → Stepped server s (.next number) (s.close number)
  | next {number : ℕ} {c : Connection} {phase : Phase} : s.open_.find? number = some c →
      s.execute server number c.phase = .goesOn phase → Stepped server s (.next number) (s.goOn number phase)
  | commit {number : ℕ} {c : Connection} {db : Evaluators} : s.open_.find? number = some c →
      s.committed c.phase = some db → Stepped server s (.commit number) { s.close number with db }
  | abort (number : ℕ) : Stepped server s (.abort number) (s.close number)

theorem stepped {a : ConnectionAction} (h : (connections server).step s a = some s') : Stepped server s a s' := by
  cases a with
  | call call =>
    change (if _ then _ else _) = _ at h
    split at h
    · cases h
    next hnone =>
      cases h
      exact .call (Option.not_isSome_iff_eq_none.mp hnone)
  | start number call =>
    change (if _ then _ else _) = _ at h
    split at h
    · cases h
    next hnone =>
      obtain ⟨phase, hphase, rfl⟩ := Option.map_eq_some_iff.mp h
      exact .start (Option.not_isSome_iff_eq_none.mp hnone) hphase
  | next number =>
    obtain ⟨c, hc, h⟩ := Option.bind_eq_some_iff.mp h
    cases hreply : s.execute server number c.phase with
    | waits =>
      rw [hreply] at h
      cases h
    | fails =>
      rw [hreply] at h
      cases h
      exact .failed hc hreply
    | goesOn phase =>
      rw [hreply] at h
      cases h
      exact .next hc hreply
  | commit number =>
    obtain ⟨c, hc, h⟩ := Option.bind_eq_some_iff.mp h
    obtain ⟨db, hdb, rfl⟩ := Option.map_eq_some_iff.mp h
    exact .commit hc hdb
  | abort number =>
    obtain ⟨c, -, rfl⟩ := Option.map_eq_some_iff.mp h
    exact .abort number

theorem Locked.next {a : ConnectionAction} (h : Locked s) (hstep : (connections server).step s a = some s') :
    Locked s' := by
  cases stepped hstep with
  | call hcall =>
    exact h.of_held (fun c hc l hl => (sameEvaluators_of_run hcall s.db).fits (h.fits c hc l hl))
      fun c hc l hl => ⟨c, hc, rfl, hl⟩
  | @start number call phase hnone hphase =>
    have hmem : ∀ c ∈ (s.open_.insert ⟨number, phase⟩).rows, ∀ l ∈ c.phase.locks, c ∈ s.open_.rows := by
      intro c hc l hl
      have hfind := (Table.mem_rows_iff _ c).mp hc
      rw [Table.find?_insert] at hfind
      cases hold : s.open_.find? c.number with
      | some c' =>
        rw [hold] at hfind
        cases hfind
        exact (Table.mem_rows_iff _ _).mpr hold
      | none =>
        rw [hold, Option.none_or] at hfind
        split at hfind
        · cases hfind
          rw [locks_of_phase? hphase] at hl
          cases hl
        · cases hfind
    exact h.of_held (fun c hc l hl => h.fits c (hmem c hc l hl) l hl) fun c hc l hl => ⟨c, hmem c hc l hl, rfl, hl⟩
  | failed => exact h.close _
  | @next number c phase hc hreply =>
    have hmem := (s.open_.find?_eq_some_iff _ _).mp hc
    obtain rfl := hmem.2
    obtain ⟨hfits, hnew⟩ := locks_of_execute hreply (h.fits c hmem.1)
    exact h.goOn hc hfits hnew
  | @commit number c db hc hdb =>
    have hmem := (s.open_.find?_eq_some_iff _ _).mp hc
    have hcommits := commits_of_committed hdb (h.fits c hmem.1)
    refine (h.close number).of_held (fun c' hc' l hl => ?_) fun c' hc' l hl => ⟨c', hc', rfl, hl⟩
    have hother : c'.number ≠ c.number := by
      rw [hmem.2]
      simpa using (List.mem_filter.mp hc').2
    refine hcommits.fits (fun hown => hother ?_) ((h.close number).fits c' hc' l hl)
    exact h.exclusive c' (List.mem_of_mem_filter hc') c hmem.1 l hl hown
  | abort => exact h.close _

/-- In every run, locks are exclusive and fit. -/
theorem run_locked {h : History Connections ConnectionAction} (run : (connections server).Run h s) : Locked s :=
  run.invariant ⟨fun _ hc => absurd hc List.not_mem_nil, fun _ hc => absurd hc List.not_mem_nil⟩
    fun _ _ _ hs => hs.next

/-! ## A connection alone -/

section Alone

variable {number : ℕ} {phase phase' : Phase}

/-- The tables with one open connection. -/
def Connections.one (db : Evaluators) (number : ℕ) (phase : Phase) : Connections :=
  ⟨db, [⟨number, phase⟩], List.nodup_singleton _⟩

@[simp] theorem Connections.one_db : (Connections.one db number phase).db = db := rfl

@[simp] theorem Connections.blocked_one (locks : List Lock) : (Connections.one db number phase).blocked number locks = false := by
  simp [Connections.one, Connections.blocked]

@[simp] theorem Connections.find?_connection_one :
    (Connections.one db number phase).open_.find? number = some ⟨number, phase⟩ := by
  simp [Connections.one, Table.find?]

@[simp] theorem Connections.close_one : (Connections.one db number phase).close number = ⟨db, .empty⟩ := by
  simp [Connections.one, Connections.close, Table.delete, Table.empty]

@[simp] theorem Connections.goOn_one : (Connections.one db number phase).goOn number phase' = .one db number phase' := by
  simp [Connections.one, Connections.goOn, Table.update]

/-- The remaining statements of a connection, and its COMMIT unless one of them fails, lead to the tables. -/
def Finishes (server : Server) (number : ℕ) (s : Connections) (db' : Evaluators) : Prop :=
  ∃ actions : List ConnectionAction, (∀ a ∈ actions, a = .next number ∨ a = .commit number) ∧
    ∀ h, ∃ h', (connections server).execute h s actions = some (h', ⟨db', .empty⟩)

theorem Finishes.cons {a : ConnectionAction} (ha : a = .next number ∨ a = .commit number)
    (hstep : (connections server).step s a = some s') (h : Finishes server number s' db') : Finishes server number s db' := by
  obtain ⟨actions, hactions, hrest⟩ := h
  refine ⟨a :: actions, List.forall_mem_cons.mpr ⟨ha, hactions⟩, fun h => ?_⟩
  obtain ⟨h', hh'⟩ := hrest ((s, a) :: h)
  refine ⟨h', ?_⟩
  rw [System.execute, hstep]
  exact hh'

theorem Finishes.closed (server : Server) (number : ℕ) (db : Evaluators) : Finishes server number ⟨db, .empty⟩ db :=
  ⟨[], fun _ ha => absurd ha List.not_mem_nil, fun h => ⟨h, rfl⟩⟩

theorem Finishes.fails (h : (Connections.one db number phase).execute server number phase = .fails) :
    Finishes server number (.one db number phase) db := by
  refine .cons (.inl rfl) ?_ (.closed server number db)
  change ((Connections.one db number phase).open_.find? number).bind _ = _
  rw [Connections.find?_connection_one, Option.bind_some, h, Connections.proceed, Connections.close_one]

theorem Finishes.goesOn (h : (Connections.one db number phase).execute server number phase = .goesOn phase')
    (hrest : Finishes server number (.one db number phase') db') : Finishes server number (.one db number phase) db' := by
  refine .cons (.inl rfl) ?_ hrest
  change ((Connections.one db number phase).open_.find? number).bind _ = _
  rw [Connections.find?_connection_one, Option.bind_some, h, Connections.proceed, Connections.goOn_one]

theorem Finishes.commits (h : (Connections.one db number phase).committed phase = some db') :
    Finishes server number (.one db number phase) db' := by
  refine .cons (.inr rfl) ?_ (.closed server number db')
  change ((Connections.one db number phase).open_.find? number).bind _ = _
  rw [Connections.find?_connection_one, Option.bind_some, h, Option.map_some, Connections.close_one]

/-- A registration. -/
theorem finishes_version (evaluator : EvaluatorVersion) :
    Finishes server number (.one db number (.insertVersion evaluator)) (persistEvaluatorVersion evaluator db).1 := by
  unfold persistEvaluatorVersion
  rw [afterwards_fst]
  cases hrow : newEvaluatorVersion evaluator with
  | none => exact .fails (by rw [Connections.execute, hrow])
  | some row =>
    change Finishes _ _ _ (transaction db _ (statement (db.versions.insertNew row) >>= _)).1
    cases hinsert : db.versions.insertNew row with
    | none => exact .fails (by simp [Connections.execute, hrow, hinsert])
    | some inserted =>
      obtain ⟨versions, inserted⟩ := inserted
      change Finishes _ _ _ (transaction db _ (if _ then _ else _)).1
      split
      next hparent => exact .fails (by simp [Connections.execute, hrow, hinsert, hparent])
      next hparent =>
        have hgoes : (Connections.one db number (.insertVersion evaluator)).execute server number
            (.insertVersion evaluator) = .goesOn (.commitVersion inserted) := by
          simp [Connections.execute, hrow, hinsert, hparent]
        refine .goesOn hgoes (.commits ?_)
        rcases Indexed.insertNew_cases hinsert with ⟨-, rfl, rfl⟩ | ⟨-, -, -, rfl⟩
        · rfl
        · exact congrArg (Option.map _) hinsert

/-- The recording of a run. -/
theorem finishes_run (run : EvaluationRun) :
    Finishes server number (.one db number (.insertRun run)) (persistEvaluationRun run db).1 := by
  unfold persistEvaluationRun
  cases hrow : newEvaluatorRun run with
  | none => exact .fails (by rw [Connections.execute, hrow])
  | some row =>
    change Finishes _ _ _ (transaction db _ (statement (db.versions.find? row.evaluatorId) >>= _)).1
    cases hversion : db.versions.find? row.evaluatorId with
    | none => exact .fails (by simp [Connections.execute, hrow, hversion])
    | some r =>
      change Finishes _ _ _ (transaction db _ (if _ then _ else _)).1
      split
      next hstored =>
        exact .fails (by simpa [Connections.execute, hrow, hversion] using Option.isSome_iff_ne_none.mp hstored)
      next hstored =>
        rw [Option.not_isSome_iff_eq_none] at hstored
        have hgoes : (Connections.one db number (.insertRun run)).execute server number (.insertRun run) =
            .goesOn (.commitRun row) := by
          simp [Connections.execute, hrow, hversion, hstored]
        exact .goesOn hgoes (.commits rfl)

/-- The last statement of a decision. -/
theorem finishes_insertDecision (decision : EvaluatorDecision) (candidateId : Uuid)
    (hcandidate : uuid decision.candidateEvaluatorId = some candidateId)
    (versions : Indexed EvaluatorVersionRow.id EvaluatorVersionRow.labelKey)
    (hversions : versions = db.versions.update (fun r => r.id = candidateId && r.isOpen)
      (fun r => { r with state := decision.decision.state }) (fun _ => rfl) fun _ => rfl) :
    Finishes server number (.one db number (.insertDecision decision))
      (transaction db "evaluator decision persistence failed" do
        let row ← statement (newEvaluatorDecision server decision)
        let _ ← statement (db.versions.find? row.baselineEvaluatorId)
        let _ ← statement (db.runs.find? row.baselineRunId)
        let _ ← statement (db.runs.find? row.candidateRunId)
        if (db.decisions.find? row.id).isSome then .error none
        else .ok ({ db with versions, decisions := db.decisions.insert row }, uuidText row.id) : Outcome Evaluators Str).1 := by
  cases hrow : newEvaluatorDecision server decision with
  | none => exact .fails (by rw [Connections.execute, hrow])
  | some row =>
    obtain ⟨-, hrowCandidate, -, -, hdecision⟩ := newEvaluatorDecision_eq_some hrow
    cases hcandidate.symm.trans hrowCandidate
    change Finishes _ _ _ (transaction db _ (statement (db.versions.find? row.baselineEvaluatorId) >>= _)).1
    cases hbaseline : db.versions.find? row.baselineEvaluatorId with
    | none => exact .fails (by simp [Connections.execute, hrow, hbaseline])
    | some baseline =>
      change Finishes _ _ _ (transaction db _ (statement (db.runs.find? row.baselineRunId) >>= _)).1
      cases hbaselineRun : db.runs.find? row.baselineRunId with
      | none => exact .fails (by simp [Connections.execute, hrow, hbaselineRun])
      | some baselineRun =>
        change Finishes _ _ _ (transaction db _ (statement (db.runs.find? row.candidateRunId) >>= _)).1
        cases hcandidateRun : db.runs.find? row.candidateRunId with
        | none => exact .fails (by simp [Connections.execute, hrow, hcandidateRun])
        | some candidateRun =>
          change Finishes _ _ _ (transaction db _ (if _ then _ else _)).1
          split
          next hstored =>
            refine .fails ?_
            have hstored := Option.isSome_iff_ne_none.mp hstored
            simp [Connections.execute, hrow, hstored]
          next hstored =>
            rw [Option.not_isSome_iff_eq_none] at hstored
            have hgoes : (Connections.one db number (.insertDecision decision)).execute server number
                (.insertDecision decision) = .goesOn (.commitDecision row) := by
              simp [Connections.execute, hrow, hbaseline, hbaselineRun, hcandidateRun, hstored]
            refine .goesOn hgoes (.commits ?_)
            rw [Connections.committed, hversions, hdecision]
            rfl

/-- A decision. -/
theorem finishes_decision (decision : EvaluatorDecision) :
    Finishes server number (.one db number (.selectRuns decision)) (persistEvaluatorDecision server decision db).1 := by
  unfold persistEvaluatorDecision
  cases hbaselineRun : uuid decision.baselineRunId with
  | none => exact .fails (by simp [Connections.execute, matchesRuns, hbaselineRun])
  | some baselineRunId =>
    change Finishes _ _ _ (transaction db _ (statement (uuid decision.candidateRunId) >>= _)).1
    cases hcandidateRun : uuid decision.candidateRunId with
    | none => exact .fails (by simp [Connections.execute, matchesRuns, hcandidateRun])
    | some candidateRunId =>
      change Finishes _ _ _ (transaction db _ (if _ then _ else _)).1
      split
      next hmismatch =>
        refine .fails ?_
        have hmatches : matchesRuns db decision = false := by
          rw [matchesRuns, hbaselineRun, hcandidateRun]
          rw [Bool.not_eq_true'] at hmismatch
          exact hmismatch
        rw [Connections.execute, Connections.one_db, hmatches]
        rfl
      next hmatch =>
        have hmatches : matchesRuns db decision = true := by
          rw [matchesRuns, hbaselineRun, hcandidateRun]
          rw [Bool.not_eq_true, Bool.not_eq_false'] at hmatch
          exact hmatch
        have hgoes : (Connections.one db number (.selectRuns decision)).execute server number (.selectRuns decision) =
            .goesOn (.updateCandidate decision) := by
          rw [Connections.execute, Connections.one_db, hmatches]
          rfl
        refine .goesOn hgoes ?_
        cases hcandidate : uuid decision.candidateEvaluatorId with
        | none => exact .fails (by rw [Connections.execute, hcandidate])
        | some candidateId =>
          change Finishes _ _ _ (transaction db _ (match (db.versions.find? candidateId).filter (·.isOpen) with
            | none => _
            | some _ => _)).1
          cases hopen : (db.versions.find? candidateId).filter (·.isOpen) with
          | none =>
            refine .fails ?_
            have hany : (db.versions.find? candidateId).any (·.isOpen) = false := by
              rw [← Option.isSome_filter, hopen, Option.isSome_none]
            simp [Connections.execute, hcandidate, hany]
          | some r =>
            have hany : (db.versions.find? candidateId).any (·.isOpen) = true := by
              rw [← Option.isSome_filter, hopen, Option.isSome_some]
            have hgoes : (Connections.one db number (.updateCandidate decision)).execute server number
                (.updateCandidate decision) = .goesOn (.insertDecision decision) := by
              simp [Connections.execute, hcandidate, hany]
            exact .goesOn hgoes (finishes_insertDecision decision candidateId hcandidate _ rfl)

/-- Alone, a connection leaves the tables as the operation does. -/
theorem execute_alone {call : Call} (hphase : call.phase? = some phase) (h : History Connections ConnectionAction) :
    ∃ actions h', (∀ a ∈ actions, a = .next number ∨ a = .commit number) ∧
      (connections server).execute h ⟨db, .empty⟩ (.start number call :: actions) =
        some (h', ⟨(call.run server db).1, .empty⟩) := by
  have hfinishes : Finishes server number (.one db number phase) (call.run server db).1 := by
    cases call <;> cases hphase
    · exact finishes_version _
    · exact finishes_run _
    · exact finishes_decision _
  obtain ⟨actions, hactions, hrest⟩ := hfinishes
  obtain ⟨h', hh'⟩ := hrest ((⟨db, .empty⟩, .start number call) :: h)
  refine ⟨actions, h', hactions, ?_⟩
  have hstep : (connections server).step ⟨db, .empty⟩ (.start number call) = some (.one db number phase) := by
    simp only [connections, connectionStep, hphase]
    rfl
  rw [System.execute, hstep]
  exact hh'

end Alone

/-! ## Decisions are final -/

theorem EvaluatorVersionRow.isOpen_eq (r : EvaluatorVersionRow) : r.isOpen = !r.state.terminal := by
  rw [isOpen]
  cases r.state <;> rfl

/-- A step moves an evaluator only by the COMMIT of a decision on it, while it is open. -/
theorem moved_of_step {a : ConnectionAction} (hlocked : Locked s) (hstep : (connections server).step s a = some s')
    {id : Uuid} {r : EvaluatorVersionRow} (hr : s.db.versions.find? id = some r) :
    s'.db.versions.find? id = some r ∨
      r.isOpen = true ∧ ∃ number row, a = .commit number ∧ s'.db.decisions.rows = s.db.decisions.rows ++ [row] ∧
        row.candidateEvaluatorId = id ∧ s'.db.versions.find? id = some { r with state := row.decision.state } := by
  cases stepped hstep with
  | call hcall => exact .inl ((sameEvaluators_of_run hcall s.db).versions ▸ hr)
  | @commit number c db hc hdb =>
    have hcommits := commits_of_committed hdb (hlocked.fits c ((s.open_.find?_eq_some_iff _ _).mp hc).1)
    generalize c.phase = phase at hcommits
    cases hcommits with
    | conflict => exact .inl hr
    | @version row versions hfree hrows hfind =>
      have hid : row.id ≠ id := by
        rintro rfl
        rw [hr] at hfree
        cases hfree
      exact .inl ((hfind id).trans ((if_neg hid).trans hr))
    | run => exact .inl hr
    | @decision row r' versions decisions hr' hopen hlabels hfind hrows =>
      by_cases hid : row.candidateEvaluatorId = id
      · subst hid
        cases hr.symm.trans hr'
        exact .inr ⟨hopen, number, row, rfl, hrows, rfl, (hfind _).trans (if_pos rfl)⟩
      · exact .inl ((hfind id).trans ((if_neg hid).trans hr))
  | _ => exact .inl hr

/-- An evaluator that was promoted or reverted stays as it is. -/
theorem terminal_of_step {a : ConnectionAction} (hlocked : Locked s) (hstep : (connections server).step s a = some s')
    {id : Uuid} {r : EvaluatorVersionRow} (hr : s.db.versions.find? id = some r) (hterminal : r.state.terminal = true) :
    s'.db.versions.find? id = some r := by
  rcases moved_of_step hlocked hstep hr with hkept | ⟨hopen, -⟩
  · exact hkept
  · rw [r.isOpen_eq, hterminal] at hopen
    cases hopen

/-- A final decision left its candidate in its state, and was the last one on it. -/
structure Final (db : Evaluators) : Prop where
  decided : ∀ row ∈ db.decisions.rows, row.decision.state.terminal = true →
    ∃ r, db.versions.find? row.candidateEvaluatorId = some r ∧ r.state = row.decision.state
  last : db.decisions.rows.Pairwise fun earlier later =>
    earlier.decision.state.terminal = true → later.candidateEvaluatorId ≠ earlier.candidateEvaluatorId

/-- Where evaluators in a final state and decisions are the same, final decisions are. -/
theorem Final.congr (h : Final db) (hdecisions : db'.decisions.rows = db.decisions.rows)
    (hversions : ∀ id r, db.versions.find? id = some r → r.state.terminal = true → db'.versions.find? id = some r) :
    Final db' := by
  refine ⟨fun row hrow hterminal => ?_, hdecisions ▸ h.last⟩
  obtain ⟨r, hr, hstate⟩ := h.decided row (hdecisions ▸ hrow) hterminal
  exact ⟨r, hversions _ r hr (hstate ▸ hterminal), hstate⟩

theorem Final.next {a : ConnectionAction} (h : Final s.db) (hlocked : Locked s)
    (hstep : (connections server).step s a = some s') : Final s'.db := by
  have hkept : ∀ id r, s.db.versions.find? id = some r → r.state.terminal = true → s'.db.versions.find? id = some r :=
    fun id r hr hterminal => terminal_of_step hlocked hstep hr hterminal
  cases stepped hstep with
  | call hcall => exact h.congr (congrArg Table.rows (sameEvaluators_of_run hcall s.db).decisions) hkept
  | @commit number c db hc hdb =>
    have hcommits := commits_of_committed hdb (hlocked.fits c ((s.open_.find?_eq_some_iff _ _).mp hc).1)
    generalize c.phase = phase at hcommits
    cases hcommits with
    | @decision row r versions decisions hr hopen hlabels hfind hrows =>
      have hmoved : versions.find? row.candidateEvaluatorId = some { r with state := row.decision.state } :=
        (hfind _).trans (if_pos rfl)
      constructor
      · intro row' hrow' hterminal
        rcases List.mem_append.mp (hrows ▸ hrow') with hold | hnew
        · obtain ⟨r', hr', hstate⟩ := h.decided row' hold hterminal
          exact ⟨r', hkept _ r' hr' (hstate ▸ hterminal), hstate⟩
        · obtain rfl := List.mem_singleton.mp hnew
          exact ⟨_, hmoved, rfl⟩
      · change decisions.rows.Pairwise _
        rw [hrows, List.pairwise_append]
        refine ⟨h.last, List.pairwise_singleton _ _, fun earlier hearlier later hlater hterminal hsame => ?_⟩
        obtain rfl := List.mem_singleton.mp hlater
        -- the candidate was open, so no final decision on it was recorded
        obtain ⟨r', hr', hstate⟩ := h.decided earlier hearlier hterminal
        rw [← hsame] at hr'
        cases hr.symm.trans hr'
        rw [r.isOpen_eq, hstate, hterminal] at hopen
        cases hopen
    | _ => exact h.congr rfl hkept
  | _ => exact h.congr rfl hkept

theorem run_final {h : History Connections ConnectionAction} (run : (connections server).Run h s) : Final s.db := by
  refine run.history_invariant (P := fun _ s => Final s.db) (G := fun _ _ => True) ?_ ?_ fun _ _ => trivial
  · exact ⟨fun _ hrow => absurd hrow List.not_mem_nil, List.Pairwise.nil⟩
  · exact fun h s a s' run hfinal _ hstep => hfinal.next (run_locked run) hstep

/-- In every interleaving, an evaluator that was promoted or reverted stays as it is; the state of a stored
evaluator changes only by a COMMIT that records the decision on it; no decision on a candidate is recorded after one
that promoted or reverted it; and only a COMMIT changes the tables of the evaluators, so that a connection that fails
leaves no trace. A call by itself that raises leaves no trace either. -/
theorem decisions_atomic_and_terminal {h : History Connections ConnectionAction} (run : (connections server).Run h s) :
    (∀ x ∈ h, ∀ id r, x.1.db.versions.find? id = some r → r.state.terminal = true →
        s.db.versions.find? id = some r) ∧
      (∀ a s', (connections server).step s a = some s' → ∀ id r r', s.db.versions.find? id = some r →
        s'.db.versions.find? id = some r' → r'.state ≠ r.state →
          ∃ number row, a = .commit number ∧ s'.db.decisions.rows = s.db.decisions.rows ++ [row] ∧
            row.candidateEvaluatorId = id ∧ row.decision.state = r'.state) ∧
      (s.db.decisions.rows.Pairwise fun earlier later =>
        earlier.decision.state.terminal = true → later.candidateEvaluatorId ≠ earlier.candidateEvaluatorId) ∧
      (∀ number s', (connections server).step s (.next number) = some s' ∨
        (connections server).step s (.abort number) = some s' → s'.db = s.db) ∧
      ∀ decision db raised db', persistEvaluatorDecision server decision db = (db', .error raised) → db' = db := by
  refine ⟨?_, fun a s' hstep id r r' hr hr' hchanged => ?_, (run_final run).last, fun number s' hstep => ?_, ?_⟩
  · refine run.history_invariant (G := fun _ _ => True) (P := fun h s => ∀ x ∈ h, ∀ id r,
      x.1.db.versions.find? id = some r → r.state.terminal = true → s.db.versions.find? id = some r)
      (fun _ hx => absurd hx List.not_mem_nil) ?_ fun _ _ => trivial
    intro h s a s' run hkept _ hstep x hx id r hr hterminal
    refine terminal_of_step (run_locked run) hstep ?_ hterminal
    rcases List.mem_cons.mp hx with rfl | hx
    · exact hr
    · exact hkept x hx id r hr hterminal
  · rcases moved_of_step (run_locked run) hstep hr with hkept | ⟨-, number, row, rfl, hrows, hid, hmoved⟩
    · cases hr'.symm.trans hkept
      exact absurd rfl hchanged
    · cases hr'.symm.trans hmoved
      exact ⟨number, row, rfl, hrows, hid, rfl⟩
  · rcases hstep with hstep | hstep
    · cases stepped hstep <;> rfl
    · cases stepped hstep
      rfl
  · intro decision db raised db' hraised
    refine transaction_cases (Q := fun outcome => outcome = (db', .error raised) → db' = db) ?_ ?_ hraised
    · intro e h
      exact (congrArg Prod.fst h).symm
    · intro db₁ text _ h
      cases (Prod.mk.inj h).2

/-! ## Two decisions on one candidate -/

/-- The second evaluator as a shadow under its own label. -/
def Sample.shadow : EvaluatorVersion :=
  { Sample.second with
    version := lit "scoring_v2"
    state := .shadow
    described := by decide +kernel }

theorem Sample.isName_holdoutRead : isName (lit "holdout_read") = true := by decide

/-- A decision on the second evaluator. -/
def Sample.decision (id : Uuid) (decision : Decision) : EvaluatorDecision :=
  decisionOf id Sample.first Sample.shadow Sample.firstRun Sample.secondRun decision (lit "holdout_read")
    Sample.isName_holdoutRead

/-- The evaluators and their runs, and a connection for each of two decisions. -/
def Sample.competing : List ConnectionAction :=
  ([.persistEvaluatorVersion Sample.first, .persistEvaluatorVersion Sample.shadow,
      .persistEvaluationRun Sample.firstRun, .persistEvaluationRun Sample.secondRun].flatMap
    fun call => [.start 1 call, .next 1, .commit 1]) ++
  [.start 1 (.persistEvaluatorDecision (Sample.decision 31 .promoted)),
    .start 2 (.persistEvaluatorDecision (Sample.decision 32 .reverted)),
    .next 1, .next 2, .next 1, .next 1, .commit 1, .next 2]

/-- The candidate is promoted, and the decision to revert it fails. -/
theorem decisions_atomic_and_terminal_competing :
    ∃ h s, (connections Research.Sample.server).Run h s ∧ s.open_.rows.isEmpty = true ∧
      s.db.decisions.rows.map (·.decision) = [.promoted] ∧
      (s.db.decisions.rows.Pairwise fun earlier later =>
        earlier.decision.state.terminal = true → later.candidateEvaluatorId ≠ earlier.candidateEvaluatorId) ∧
      ∀ x ∈ h, ∀ id r, x.1.db.versions.find? id = some r → r.state.terminal = true →
        s.db.versions.find? id = some r := by
  obtain ⟨h, s, run, htest⟩ := System.exists_run (connections Research.Sample.server) Sample.competing
    (fun _ s => s.open_.rows.isEmpty && decide (s.db.decisions.rows.map (·.decision) = [.promoted])) (by decide +kernel)
  rw [Bool.and_eq_true] at htest
  have hdecisions := decisions_atomic_and_terminal run
  exact ⟨h, s, run, htest.1, of_decide_eq_true htest.2, hdecisions.2.2.1, hdecisions.1⟩

end NeuroLab.Evaluation
