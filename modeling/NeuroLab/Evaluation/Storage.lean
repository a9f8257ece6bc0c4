import NeuroLab.Common.Transition
import NeuroLab.Common.Upsert
import NeuroLab.Evaluation.Records
import NeuroLab.Postgres.Columns
import NeuroLab.Postgres.Transaction

/-!
# Receipts of the evaluator evolution in PostgreSQL

The tables of evaluators, their runs and decisions, of the response replay and of the
solution memory, and the operations of `evaluator_storage`. A `JSONB` of metrics or
diagnostics is kept as the record it encodes.
-/

namespace NeuroLab.Evaluation

open Python Common Postgres Research

/-! ## Rows -/

/-- A row of `evaluator_versions`. -/
structure EvaluatorVersionRow where
  id : Uuid
  kind : EvaluatorKind
  versionLabel : Str
  parentId : Option Uuid
  definitionSha256 : Str
  frozenCaseSetSha256 : Str
  activeCaseSetSha256 : Str
  state : EvaluatorState
  proposedBy : Str
deriving DecidableEq

/-- The unique key of `evaluator_versions`. -/
def EvaluatorVersionRow.labelKey (r : EvaluatorVersionRow) : EvaluatorKind × Str := (r.kind, r.versionLabel)

/-- A nullable `UUID` parameter. -/
def uuid? : Option Str → Option (Option Uuid)
  | none => some none
  | some s => (uuid s).map some

/-- The row of `INSERT INTO evaluator_versions`. -/
def newEvaluatorVersion (evaluator : EvaluatorVersion) : Option EvaluatorVersionRow := do
  let id ← uuid evaluator.evaluatorId
  let versionLabel ← text evaluator.version
  let parentId ← uuid? evaluator.parentEvaluatorId
  let definitionSha256 ← char64 evaluator.definitionSha256
  let frozenCaseSetSha256 ← char64 evaluator.frozenCaseSetSha256
  let activeCaseSetSha256 ← char64 evaluator.activeCaseSetSha256
  let proposedBy ← text evaluator.proposedBy
  let row : EvaluatorVersionRow :=
    { id, kind := evaluator.kind, versionLabel, parentId, definitionSha256, frozenCaseSetSha256,
      activeCaseSetSha256, state := evaluator.state, proposedBy }
  if [definitionSha256, frozenCaseSetSha256, activeCaseSetSha256].all isDigest then some row else none

/-- A row of `evaluator_runs`. -/
structure EvaluatorRunRow where
  id : Uuid
  evaluatorId : Uuid
  cohortSha256 : Str
  assessor : Str
  assessorRole : AssessorRole
  metrics : EvaluationMetrics
  evaluatedCaseCount : ℤ
deriving DecidableEq

/-- The row of `INSERT INTO evaluator_runs`. -/
def newEvaluatorRun (run : EvaluationRun) : Option EvaluatorRunRow := do
  let id ← uuid run.runId
  let evaluatorId ← uuid run.evaluatorId
  let cohortSha256 ← char64 run.cohortSha256
  let assessor ← text run.assessor
  let row : EvaluatorRunRow :=
    { id, evaluatorId, cohortSha256, assessor, assessorRole := run.assessorRole, metrics := run.metrics,
      evaluatedCaseCount := run.metrics.evaluatedCaseCount }
  if isDigest cohortSha256 && isInteger row.evaluatedCaseCount && decide (0 < row.evaluatedCaseCount) then some row
  else none

/-- A row of `evaluator_run_diagnostics`. -/
structure DiagnosticsRow where
  id : Uuid
  evaluatorRunId : Uuid
  diagnosticVersion : Str
  cases : List ResponseReplayDiagnostic
deriving DecidableEq

/-- The unique key of `evaluator_run_diagnostics`. -/
def DiagnosticsRow.receiptKey (r : DiagnosticsRow) : Uuid × Str := (r.evaluatorRunId, r.diagnosticVersion)

/-- A row of `evaluator_decisions`. -/
structure EvaluatorDecisionRow where
  id : Uuid
  baselineEvaluatorId : Uuid
  candidateEvaluatorId : Uuid
  baselineRunId : Uuid
  candidateRunId : Uuid
  decision : Decision
  reasonCodes : List Str
  policyVersion : Str
deriving DecidableEq

/-- The row of `INSERT INTO evaluator_decisions`. -/
def newEvaluatorDecision (server : Server) (decision : EvaluatorDecision) : Option EvaluatorDecisionRow := do
  let id ← uuid decision.decisionId
  let baselineEvaluatorId ← uuid decision.baselineEvaluatorId
  let candidateEvaluatorId ← uuid decision.candidateEvaluatorId
  let baselineRunId ← uuid decision.baselineRunId
  let candidateRunId ← uuid decision.candidateRunId
  let reasonCodes ← texts decision.reasonCodes
  let policyVersion ← text decision.policyVersion
  if server.octets (strings reasonCodes) ≤ 2048 then
    some { id, baselineEvaluatorId, candidateEvaluatorId, baselineRunId, candidateRunId,
           decision := decision.decision, reasonCodes, policyVersion }
  else none

/-- A row of `solution_assets`. -/
structure SolutionAssetRow where
  id : Uuid
  kind : AssetKind
  label : Str
  contentSha256 : Str
  state : AssetState
deriving DecidableEq

/-- The unique key of `solution_assets`. -/
def SolutionAssetRow.contentKey (r : SolutionAssetRow) : AssetKind × Str := (r.kind, r.contentSha256)

/-- The row of `INSERT INTO solution_assets`. -/
def newSolutionAsset (asset : SolutionAsset) : Option SolutionAssetRow := do
  let id ← uuid asset.assetId
  let label ← text asset.label
  let contentSha256 ← char64 asset.contentSha256
  if 3 ≤ label.length ∧ label.length ≤ 160 ∧ isDigest contentSha256 = true then
    some { id, kind := asset.kind, label, contentSha256, state := asset.state }
  else none

/-- A new state leaves the keys of an asset as they are. -/
theorem SolutionAssetRow.id_of_state (state : AssetState) (r : SolutionAssetRow) : { r with state }.id = r.id := rfl

theorem SolutionAssetRow.contentKey_of_state (state : AssetState) (r : SolutionAssetRow) :
    { r with state }.contentKey = r.contentKey := rfl

/-- A row of `solution_outcomes`. -/
structure SolutionOutcomeRow where
  id : Uuid
  assetId : Uuid
  syntheticRunSha256 : Str
  evaluatorRunId : Uuid
  outcome : OutcomeKind
  primaryQuality : ℚ
  safetyQuality : ℚ
  recordedAt : ℕ
deriving DecidableEq

/-- The unique key of `solution_outcomes`. -/
def SolutionOutcomeRow.receiptKey (r : SolutionOutcomeRow) : Uuid × Str × Uuid :=
  (r.assetId, r.syntheticRunSha256, r.evaluatorRunId)

/-- The row of `INSERT INTO solution_outcomes`. -/
def newSolutionOutcome (id : Uuid) (now : ℕ) (outcome : SolutionOutcome) : Option SolutionOutcomeRow := do
  let assetId ← uuid outcome.assetId
  let syntheticRunSha256 ← char64 outcome.syntheticRunSha256
  let evaluatorRunId ← uuid outcome.evaluatorRunId
  if isDigest syntheticRunSha256 && inUnit outcome.primaryQuality && inUnit outcome.safetyQuality then
    some { id, assetId, syntheticRunSha256, evaluatorRunId, outcome := outcome.outcome,
           primaryQuality := outcome.primaryQuality, safetyQuality := outcome.safetyQuality, recordedAt := now }
  else none

/-- The tables of the evaluator evolution. -/
structure Evaluators where
  versions : Indexed EvaluatorVersionRow.id EvaluatorVersionRow.labelKey
  runs : Table EvaluatorRunRow.id
  diagnostics : Indexed DiagnosticsRow.id DiagnosticsRow.receiptKey
  decisions : Table EvaluatorDecisionRow.id
  assets : Indexed SolutionAssetRow.id SolutionAssetRow.contentKey
  outcomes : Indexed SolutionOutcomeRow.id SolutionOutcomeRow.receiptKey

/-- The empty schema. -/
def Evaluators.empty : Evaluators := ⟨.empty, .empty, .empty, .empty, .empty, .empty⟩

/-! ## Evaluators -/

/-- Whether a stored evaluator is the one given, as the texts compared. -/
def EvaluatorVersionRow.isVersion (r : EvaluatorVersionRow) (evaluator : EvaluatorVersion) : Bool :=
  decide (r.parentId.map uuidText = evaluator.parentEvaluatorId) &&
    decide (r.definitionSha256 = evaluator.definitionSha256) &&
    decide (r.frozenCaseSetSha256 = evaluator.frozenCaseSetSha256) &&
    decide (r.activeCaseSetSha256 = evaluator.activeCaseSetSha256) && decide (r.state = evaluator.state) &&
    decide (r.proposedBy = evaluator.proposedBy)

/-- `persist_evaluator_version`. -/
def persistEvaluatorVersion (evaluator : EvaluatorVersion) (db : Evaluators) : Outcome Evaluators Str :=
  afterwards
    (transaction db "evaluator version persistence failed" do
      let row ← statement (newEvaluatorVersion evaluator)
      let (versions, inserted) ← statement (db.versions.insertNew row)
      if inserted.isSome && !(row.parentId.all fun parent => (versions.find? parent).isSome) then .error none
      else .ok ({ db with versions }, inserted.or (versions.taken? row.labelKey)))
    fun
    | none => .error (.storage (lit "evaluator version label already exists"))
    | some r =>
      if r.isVersion evaluator then .ok (uuidText r.id)
      else .error (.storage (lit "evaluator version label conflicts with an immutable definition"))

/-- `persist_evaluation_run`. -/
def persistEvaluationRun (run : EvaluationRun) (db : Evaluators) : Outcome Evaluators Str :=
  transaction db "evaluation run persistence failed" do
    let row ← statement (newEvaluatorRun run)
    let _ ← statement (db.versions.find? row.evaluatorId)
    if (db.runs.find? row.id).isSome then .error none
    else .ok ({ db with runs := db.runs.insert row }, uuidText row.id)

/-- `persist_response_replay_diagnostics`. -/
def persistResponseReplayDiagnostics (server : Server) (id : Uuid) (run : EvaluationRun)
    (diagnostics : List ResponseReplayDiagnostic) (db : Evaluators) : Outcome Evaluators Str :=
  match validateResponseReplayDiagnostics diagnostics with
  | .error _ => (db, .error (.storage (lit "response replay diagnostics are malformed")))
  | .ok () =>
    afterwards
      (transaction db "response replay diagnostics persistence failed" do
        let runId ← statement (uuid run.runId)
        let row : DiagnosticsRow := { id, evaluatorRunId := runId, diagnosticVersion, cases := diagnostics }
        if 2048 < server.octets (.arr (diagnostics.map (·.asJson))) then .error none
        else
          let (stored, inserted) ← statement (db.diagnostics.insertNew row)
          if inserted.isSome && (db.runs.find? runId).isNone then .error none
          else .ok ({ db with diagnostics := stored }, inserted.or (stored.taken? row.receiptKey)))
      fun
      | none => .error (.storage (lit "response replay diagnostic receipt conflicts with immutable content"))
      | some r =>
        if r.cases = diagnostics then .ok (uuidText r.id)
        else .error (.storage (lit "response replay diagnostic receipt conflicts with immutable content"))

/-- Whether an evaluator may still be decided. -/
def EvaluatorVersionRow.isOpen (r : EvaluatorVersionRow) : Bool := r.state = .proposed || r.state = .shadow

/-- `run_evaluators`: the evaluators of the selected runs. -/
def runEvaluators (db : Evaluators) (baselineRunId candidateRunId : Uuid) : List Str :=
  (db.runs.rows.filter fun r => r.id = baselineRunId || r.id = candidateRunId).map fun r => uuidText r.evaluatorId

/-- Two lists with the same items, as sets are compared. -/
def sameItems (items items' : List Str) : Bool := items.all (· ∈ items') && items'.all (· ∈ items)

/-- The comparison of the evaluators of the runs with those of a decision. -/
def sameEvaluators (db : Evaluators) (decision : EvaluatorDecision) (baselineRunId candidateRunId : Uuid) : Bool :=
  sameItems (runEvaluators db baselineRunId candidateRunId) [decision.baselineEvaluatorId, decision.candidateEvaluatorId]

/-- `persist_evaluator_decision`. -/
def persistEvaluatorDecision (server : Server) (decision : EvaluatorDecision) (db : Evaluators) :
    Outcome Evaluators Str :=
  transaction db "evaluator decision persistence failed" do
    let baselineRunId ← statement (uuid decision.baselineRunId)
    let candidateRunId ← statement (uuid decision.candidateRunId)
    if !sameEvaluators db decision baselineRunId candidateRunId then
      .error (some (lit "decision runs do not match evaluator identities"))
    else
      let candidateId ← statement (uuid decision.candidateEvaluatorId)
      match (db.versions.find? candidateId).filter (·.isOpen) with
      | none => .error (some (lit "candidate evaluator is not eligible for a state transition"))
      | some _ =>
        let versions := db.versions.update (fun r => r.id = candidateId && r.isOpen)
          (fun r => { r with state := decision.decision.state }) (fun _ => rfl) fun _ => rfl
        let row ← statement (newEvaluatorDecision server decision)
        let _ ← statement (db.versions.find? row.baselineEvaluatorId)
        let _ ← statement (db.runs.find? row.baselineRunId)
        let _ ← statement (db.runs.find? row.candidateRunId)
        if (db.decisions.find? row.id).isSome then .error none
        else .ok ({ db with versions, decisions := db.decisions.insert row }, uuidText row.id)

/-! ## Solution memory -/

/-- `persist_solution_asset`. -/
def persistSolutionAsset (asset : SolutionAsset) (db : Evaluators) : Outcome Evaluators Str :=
  afterwards
    (transaction db "solution asset persistence failed" do
      let row ← statement (newSolutionAsset asset)
      let (assets, inserted) ← statement (db.assets.insertNew row)
      .ok ({ db with assets }, inserted.or (assets.taken? row.contentKey)))
    fun
    | none => .error (.storage (lit "solution asset conflicts with an immutable receipt"))
    | some r =>
      if r.label = asset.label then .ok (uuidText r.id)
      else .error (.storage (lit "solution asset conflicts with an immutable receipt"))

/-- One statement of the loop over the outcomes, with the id drawn for its outcome. -/
def insertOutcome (now : ℕ) (db : Evaluators) (drawn : Uuid × SolutionOutcome) : Option Evaluators := do
  let row ← newSolutionOutcome drawn.1 now drawn.2
  let (outcomes, inserted) ← db.outcomes.insertNew row
  if inserted.isSome && !((db.assets.find? row.assetId).isSome && (db.runs.find? row.evaluatorRunId).isSome) then none
  else some { db with outcomes }

/-- `ORDER BY recorded_at, id`. -/
def recordedBefore (x y : SolutionOutcomeRow) : Bool :=
  decide (x.recordedAt < y.recordedAt) || (decide (x.recordedAt = y.recordedAt) && decide (x.id.toNat ≤ y.id.toNat))

/-- The stored outcomes of an asset. -/
def outcomeHistory (db : Evaluators) (asset : SolutionAsset) (assetId : Uuid) : Option (List SolutionOutcome) :=
  ((db.outcomes.rows.filter fun r => r.assetId = assetId).insertionSort fun x y => recordedBefore x y = true).mapM
    fun r => SolutionOutcome.make
      { assetId := asset.assetId, syntheticRunSha256 := r.syntheticRunSha256,
        evaluatorRunId := uuidText r.evaluatorRunId, outcome := r.outcome, primaryQuality := r.primaryQuality,
        safetyQuality := r.safetyQuality }

/-- `persist_solution_outcomes`. -/
def persistSolutionOutcomes (now : ℕ) (asset : SolutionAsset) (outcomes : List (Uuid × SolutionOutcome))
    (db : Evaluators) : Outcome Evaluators Str :=
  afterwards
    (transaction db "solution outcome persistence failed" do
      let db' ← statement (outcomes.foldlM (insertOutcome now) db)
      let assetId ← statement (uuid asset.assetId)
      let history ← statement (outcomeHistory db' asset assetId)
      let state ← statement (nextAssetState asset history).toOption
      .ok
        ({ db' with
            assets := db'.assets.update (fun r => r.id = assetId) (fun r => { r with state })
              (SolutionAssetRow.id_of_state state) (SolutionAssetRow.contentKey_of_state state) },
          (db'.assets.find? assetId).map (·.id)))
    fun
    | none => .error (.storage (lit "solution asset does not exist"))
    | some id => .ok (uuidText id)

/-! ## Calls -/

/-- A call of an operation, with the ids it draws and the clock it reads. -/
inductive Call
  | persistEvaluatorVersion (evaluator : EvaluatorVersion)
  | persistEvaluationRun (run : EvaluationRun)
  | persistResponseReplayDiagnostics (id : Uuid) (run : EvaluationRun) (diagnostics : List ResponseReplayDiagnostic)
  | persistEvaluatorDecision (decision : EvaluatorDecision)
  | persistSolutionAsset (asset : SolutionAsset)
  | persistSolutionOutcomes (now : ℕ) (asset : SolutionAsset) (outcomes : List (Uuid × SolutionOutcome))

/-- What a call does to the tables, and what it returns or raises. -/
def Call.run (server : Server) (db : Evaluators) : Call → Outcome Evaluators Str
  | persistEvaluatorVersion evaluator => Evaluation.persistEvaluatorVersion evaluator db
  | persistEvaluationRun run => Evaluation.persistEvaluationRun run db
  | persistResponseReplayDiagnostics id run diagnostics =>
    Evaluation.persistResponseReplayDiagnostics server id run diagnostics db
  | persistEvaluatorDecision decision => Evaluation.persistEvaluatorDecision server decision db
  | persistSolutionAsset asset => Evaluation.persistSolutionAsset asset db
  | persistSolutionOutcomes now asset outcomes => Evaluation.persistSolutionOutcomes now asset outcomes db

end NeuroLab.Evaluation
