import NeuroLab.Evaluation.Evolution
import NeuroLab.Evaluation.Storage
import NeuroLab.Research.Sample

/-!
# The registration of evaluators

An evaluator is registered under its kind and label. A second registration returns the id
of the stored row if the row carries the same texts: the id is not among them, the state
is, although decisions rewrite it, and a parent is compared as it was written.
-/

namespace NeuroLab.Evaluation

open Python Common Postgres

/-- The tables under calls in any order. -/
def memory (server : Server) : System Evaluators Call where
  init := .empty
  step db call := some (call.run server db).1

variable {server : Server} {db db' : Evaluators} {evaluator : EvaluatorVersion}

/-! ## What a registration does -/

/-- A stored row is the evaluator, apart from its state. -/
structure EvaluatorVersionRow.Identifies (r : EvaluatorVersionRow) (evaluator : EvaluatorVersion) : Prop where
  id : uuid evaluator.evaluatorId = some r.id
  label : r.labelKey = (evaluator.kind, evaluator.version)
  parent : uuid? evaluator.parentEvaluatorId = some r.parentId
  definition : r.definitionSha256 = evaluator.definitionSha256
  cases : r.frozenCaseSetSha256 = evaluator.frozenCaseSetSha256 ∧
    r.activeCaseSetSha256 = evaluator.activeCaseSetSha256
  proposedBy : r.proposedBy = evaluator.proposedBy

/-- A registration inserts the evaluator, returns a stored row that is the evaluator, or raises; only the
insertion changes the tables. -/
inductive Faithful (db : Evaluators) (evaluator : EvaluatorVersion) : Outcome Evaluators Str → Prop
  | inserted {row : EvaluatorVersionRow} {versions : Indexed EvaluatorVersionRow.id EvaluatorVersionRow.labelKey} :
      row.Identifies evaluator → row.state = evaluator.state → db.versions.find? row.id = none →
        (∀ k, versions.find? k = if row.id = k then some row else db.versions.find? k) →
          Faithful db evaluator ({ db with versions }, .ok (uuidText row.id))
  | stored {r : EvaluatorVersionRow} : db.versions.find? r.id = some r → r.Identifies evaluator →
      Faithful db evaluator (db, .ok (uuidText r.id))
  | raised (e : Raised) : Faithful db evaluator (db, .error e)

/-- The evaluator was registered before, and its id returned. -/
def RegisteredAs (h : History Evaluators Call) (evaluator : EvaluatorVersion) (id : Str) : Prop :=
  ∃ before, (before, .persistEvaluatorVersion evaluator) ∈ h ∧ (persistEvaluatorVersion evaluator before).2 = .ok id

/-- The parent is stored, or it is the evaluator itself. -/
def ParentStored (db : Evaluators) (row : EvaluatorVersionRow) : Prop :=
  ∀ parent ∈ row.parentId, parent = row.id ∨ (db.versions.find? parent).isSome

/-- Where the evaluator can be stored: a row with its texts under its label has its id, such a row keeps the
state the evaluator was registered in, and a parent that is stored with it is written canonically. -/
structure Registrable (h : History Evaluators Call) (db : Evaluators) (evaluator : EvaluatorVersion)
    (row : EvaluatorVersionRow) : Prop where
  same_id : ∀ r, db.versions.taken? row.labelKey = some r → r.isVersion evaluator = true → r.id = row.id
  same_state : ∀ id r, RegisteredAs h evaluator id → db.versions.taken? row.labelKey = some r →
    r.state = evaluator.state
  canonical : db.versions.taken? row.labelKey = none → db.versions.find? row.id = none → ParentStored db row →
    row.parentId.map uuidText = evaluator.parentEvaluatorId

/-- The row of an evaluator is the evaluator, in its state. -/
theorem newEvaluatorVersion_identifies {row : EvaluatorVersionRow} (h : newEvaluatorVersion evaluator = some row) :
    row.Identifies evaluator ∧ row.state = evaluator.state := by
  have hdigest : ∀ {s t : Str}, isDigest s = true → char64 s = some t → t = s := fun hs ht =>
    Option.some.inj (ht.symm.trans (char64_of_isDigest hs))
  simp only [newEvaluatorVersion, Option.bind_eq_bind, Option.bind_eq_some_iff] at h
  obtain ⟨id, hid, label, hlabel, parent, hparent, definition, hdefinition, frozen, hfrozen, active, hactive,
    proposedBy, hproposed, hrow⟩ := h
  split at hrow
  · cases hrow
    refine ⟨⟨hid, ?_, hparent, hdigest evaluator.described.2.2 hdefinition,
      ⟨hdigest (isDigest_sha256 _) hfrozen, hdigest (isDigest_sha256 _) hactive⟩, text_eq_some hproposed⟩, rfl⟩
    rw [EvaluatorVersionRow.labelKey, text_eq_some hlabel]
  · cases hrow

/-- The reply to a registration that ends with a row. -/
def registered (evaluator : EvaluatorVersion) (r : EvaluatorVersionRow) : Except Raised Str :=
  if r.isVersion evaluator then .ok (uuidText r.id)
  else .error (.storage (lit "evaluator version label conflicts with an immutable definition"))

/-- The ways a registration can go. -/
inductive Registration (db : Evaluators) (evaluator : EvaluatorVersion) : Outcome Evaluators Str → Prop
  | unreadable (e : Raised) : newEvaluatorVersion evaluator = none → Registration db evaluator (db, .error e)
  | refused (e : Raised) {row : EvaluatorVersionRow} : newEvaluatorVersion evaluator = some row →
      db.versions.taken? row.labelKey = none → (db.versions.find? row.id = none → ¬ParentStored db row) →
        Registration db evaluator (db, .error e)
  | taken {row r : EvaluatorVersionRow} : newEvaluatorVersion evaluator = some row →
      db.versions.taken? row.labelKey = some r → Registration db evaluator (db, registered evaluator r)
  | inserted {row : EvaluatorVersionRow} {versions : Indexed EvaluatorVersionRow.id EvaluatorVersionRow.labelKey} :
      newEvaluatorVersion evaluator = some row → db.versions.taken? row.labelKey = none →
        db.versions.find? row.id = none → ParentStored db row →
          (∀ k, versions.find? k = if row.id = k then some row else db.versions.find? k) →
            Registration db evaluator ({ db with versions }, registered evaluator row)

/-- The insertion finds the parent if it was stored, or is the evaluator itself. -/
theorem parentStored_iff {row : EvaluatorVersionRow}
    {versions : Indexed EvaluatorVersionRow.id EvaluatorVersionRow.labelKey}
    (hfind : ∀ k, versions.find? k = if row.id = k then some row else db.versions.find? k) :
    (row.parentId.all fun parent => (versions.find? parent).isSome) = true ↔ ParentStored db row := by
  rw [ParentStored, Option.all_eq_true]
  refine forall₂_congr fun parent _ => ?_
  rw [hfind]
  by_cases hself : row.id = parent
  · simp [hself]
  · simp [hself, Ne.symm hself]

/-- A registration whose row is inserted, or runs into a row of its label. -/
theorem persistEvaluatorVersion_of_inserted {row r : EvaluatorVersionRow} {inserted : Option EvaluatorVersionRow}
    {versions : Indexed EvaluatorVersionRow.id EvaluatorVersionRow.labelKey}
    (hrow : newEvaluatorVersion evaluator = some row) (hinsert : db.versions.insertNew row = some (versions, inserted))
    (hparent : (inserted.isSome && !row.parentId.all fun parent => (versions.find? parent).isSome) = false)
    (hr : inserted.or (versions.taken? row.labelKey) = some r) :
    persistEvaluatorVersion evaluator db = ({ db with versions }, registered evaluator r) := by
  have hcommit : (if inserted.isSome && !row.parentId.all fun parent => (versions.find? parent).isSome then .error none
      else .ok ({ db with versions }, inserted.or (versions.taken? row.labelKey)) :
      Block (Evaluators × Option EvaluatorVersionRow)) = .ok ({ db with versions }, some r) := by
    rw [hparent, hr]
    rfl
  unfold persistEvaluatorVersion
  rw [hrow]
  change afterwards (transaction db _ (statement (db.versions.insertNew row) >>= _)) _ = _
  rw [hinsert]
  exact congrArg (fun block => afterwards (transaction db _ block) _) hcommit

/-- A registration goes one of these ways. -/
theorem registration_cases (evaluator : EvaluatorVersion) (db : Evaluators) :
    Registration db evaluator (persistEvaluatorVersion evaluator db) := by
  cases hrow : newEvaluatorVersion evaluator with
  | none =>
    unfold persistEvaluatorVersion
    rw [hrow]
    exact .unreadable _ hrow
  | some row =>
    cases htaken : db.versions.taken? row.labelKey with
    | some r =>
      have hinsert : db.versions.insertNew row = some (db.versions, none) := by
        rw [Indexed.insertNew, Indexed.upsert, htaken]
        rfl
      rw [persistEvaluatorVersion_of_inserted hrow hinsert rfl htaken]
      exact .taken hrow htaken
    | none =>
      cases hfree : db.versions.find? row.id with
      | some r =>
        have hinsert : db.versions.insertNew row = none := by
          rw [Indexed.insertNew, Indexed.upsert, htaken]
          refine dif_neg fun hkeys => hkeys.1 ((db.versions.mem_keys_iff _).mpr ?_)
          rw [hfree]
          rfl
        unfold persistEvaluatorVersion
        rw [hrow]
        change Registration _ _ (afterwards (transaction db _ (statement (db.versions.insertNew row) >>= _)) _)
        rw [hinsert]
        exact .refused _ hrow htaken fun hnone => absurd (hfree.symm.trans hnone) (Option.some_ne_none r)
      | none =>
        obtain ⟨versions, hinsert, hfind⟩ := db.versions.upsert_of_free (fun _ => false) (fun r => r) (fun _ => rfl)
          (fun _ => rfl) hfree htaken
        cases hparent : row.parentId.all fun parent => (versions.find? parent).isSome with
        | false =>
          unfold persistEvaluatorVersion
          rw [hrow]
          change Registration _ _ (afterwards (transaction db _ (statement (db.versions.insertNew row) >>= _)) _)
          rw [Indexed.insertNew, hinsert]
          change Registration _ _ (afterwards (transaction db _ (if !_ then _ else _)) _)
          rw [hparent]
          refine .refused _ hrow htaken fun _ hstored => ?_
          rw [(parentStored_iff hfind).mpr hstored] at hparent
          cases hparent
        | true =>
          rw [persistEvaluatorVersion_of_inserted hrow hinsert (by rw [hparent]; rfl) rfl]
          exact .inserted hrow htaken hfree ((parentStored_iff hfind).mp hparent) hfind

/-! ## What stays stored -/

/-- Every evaluator stays stored, perhaps in another state. -/
def Kept (db db' : Evaluators) : Prop :=
  ∀ k r, db.versions.find? k = some r → ∃ r', db'.versions.find? k = some r' ∧ { r' with state := r.state } = r

theorem Kept.of_eq (h : db'.versions = db.versions) : Kept db db' := by
  intro k r hr
  exact ⟨r, by rw [h]; exact hr, rfl⟩

/-- A registration keeps what is stored. -/
theorem kept_of_version (evaluator : EvaluatorVersion) (db : Evaluators) :
    Kept db (persistEvaluatorVersion evaluator db).1 := by
  have hcases := registration_cases evaluator db
  generalize persistEvaluatorVersion evaluator db = outcome at hcases
  cases hcases with
  | inserted _ _ hfree _ hfind =>
    intro k r hr
    refine ⟨r, ?_, rfl⟩
    rw [hfind]
    split
    · next hk =>
      rw [← hk, hfree] at hr
      cases hr
    · exact hr
  | _ => exact .of_eq rfl

/-- A decision rewrites the state of its candidate. -/
theorem kept_of_decision (server : Server) (decision : EvaluatorDecision) (db : Evaluators) :
    Kept db (persistEvaluatorDecision server decision db).1 := by
  unfold persistEvaluatorDecision
  refine transaction_cases (Q := fun outcome => Kept db outcome.1) (fun _ => .of_eq rfl) fun db' text h => ?_
  obtain ⟨baselineRunId, -, h⟩ := bind_eq_ok_iff.mp h
  obtain ⟨candidateRunId, -, h⟩ := bind_eq_ok_iff.mp h
  split at h
  · cases h
  obtain ⟨candidateId, -, h⟩ := bind_eq_ok_iff.mp h
  split at h
  · cases h
  extract_lets versions at h
  obtain ⟨row, -, h⟩ := bind_eq_ok_iff.mp h
  obtain ⟨_, -, h⟩ := bind_eq_ok_iff.mp h
  obtain ⟨_, -, h⟩ := bind_eq_ok_iff.mp h
  obtain ⟨_, -, h⟩ := bind_eq_ok_iff.mp h
  split at h
  · cases h
  cases h
  intro k r hr
  have hfind := db.versions.find?_update (fun r => r.id = candidateId && r.isOpen)
    (fun r => { r with state := decision.decision.state }) (fun _ => rfl) (fun _ => rfl) k
  rw [hr, Option.map_some] at hfind
  by_cases hsel : (decide (r.id = candidateId) && r.isOpen) = true
  · rw [if_pos hsel] at hfind
    exact ⟨_, hfind, rfl⟩
  · rw [if_neg hsel] at hfind
    exact ⟨r, hfind, rfl⟩

/-- Evaluators, runs and decisions are the same. -/
structure SameEvaluators (db db' : Evaluators) : Prop where
  versions : db'.versions = db.versions
  runs : db'.runs = db.runs
  decisions : db'.decisions = db.decisions

theorem SameEvaluators.refl (db : Evaluators) : SameEvaluators db db := ⟨rfl, rfl, rfl⟩

/-- Diagnostics are stored beside the evaluators. -/
theorem persistResponseReplayDiagnostics_evaluators (id : Uuid) (run : EvaluationRun)
    (diagnostics : List ResponseReplayDiagnostic) (db : Evaluators) :
    SameEvaluators db (persistResponseReplayDiagnostics server id run diagnostics db).1 := by
  unfold persistResponseReplayDiagnostics
  split
  · exact .refl db
  rw [afterwards_fst]
  refine transaction_cases (Q := fun outcome => SameEvaluators db outcome.1) (fun _ => .refl db) fun db' text h => ?_
  obtain ⟨runId, -, h⟩ := bind_eq_ok_iff.mp h
  split at h
  · cases h
  obtain ⟨⟨stored, inserted⟩, -, h⟩ := bind_eq_ok_iff.mp h
  dsimp only at h
  split at h
  · cases h
  · cases h
    exact ⟨rfl, rfl, rfl⟩

/-- Assets are stored beside the evaluators. -/
theorem persistSolutionAsset_evaluators (asset : SolutionAsset) (db : Evaluators) :
    SameEvaluators db (persistSolutionAsset asset db).1 := by
  unfold persistSolutionAsset
  rw [afterwards_fst]
  refine transaction_cases (Q := fun outcome => SameEvaluators db outcome.1) (fun _ => .refl db) fun db' text h => ?_
  obtain ⟨row, -, h⟩ := bind_eq_ok_iff.mp h
  obtain ⟨_, -, h⟩ := bind_eq_ok_iff.mp h
  cases h
  exact ⟨rfl, rfl, rfl⟩

/-- Outcomes are stored beside the evaluators. -/
theorem persistSolutionOutcomes_evaluators (now : ℕ) (asset : SolutionAsset) (outcomes : List (Uuid × SolutionOutcome))
    (db : Evaluators) : SameEvaluators db (persistSolutionOutcomes now asset outcomes db).1 := by
  unfold persistSolutionOutcomes
  rw [afterwards_fst]
  refine transaction_cases (Q := fun outcome => SameEvaluators db outcome.1) (fun _ => .refl db) fun db' text h => ?_
  obtain ⟨db₁, hfold, h⟩ := bind_eq_ok_iff.mp h
  obtain ⟨assetId, -, h⟩ := bind_eq_ok_iff.mp h
  obtain ⟨history, -, h⟩ := bind_eq_ok_iff.mp h
  obtain ⟨state, -, h⟩ := bind_eq_ok_iff.mp h
  cases h
  have hsame : SameEvaluators db db₁ := by
    refine foldlM_invariant (P := SameEvaluators db) (statement_eq_ok_iff.mp hfold) (.refl db) ?_
    intro db₁ drawn db₂ _ hsame hinsert
    simp only [insertOutcome, Option.bind_eq_bind, Option.bind_eq_some_iff] at hinsert
    obtain ⟨row, -, ⟨stored, inserted⟩, -, hinsert⟩ := hinsert
    split at hinsert
    · cases hinsert
    · cases hinsert
      exact ⟨hsame.versions, hsame.runs, hsame.decisions⟩
  exact ⟨hsame.versions, hsame.runs, hsame.decisions⟩

/-- A run is stored beside the evaluators. -/
theorem persistEvaluationRun_versions (run : EvaluationRun) (db : Evaluators) :
    (persistEvaluationRun run db).1.versions = db.versions := by
  refine transaction_cases (Q := fun outcome : Outcome Evaluators Str => outcome.1.versions = db.versions) (fun _ => rfl) fun db' text h => ?_
  obtain ⟨row, -, h⟩ := bind_eq_ok_iff.mp h
  obtain ⟨_, -, h⟩ := bind_eq_ok_iff.mp h
  split at h
  · cases h
  · cases h
    rfl

/-- Every call keeps every evaluator. -/
theorem kept_of_run (call : Call) (db : Evaluators) : Kept db (call.run server db).1 := by
  cases call with
  | persistEvaluatorVersion evaluator => exact kept_of_version evaluator db
  | persistEvaluationRun run => exact .of_eq (persistEvaluationRun_versions run db)
  | persistResponseReplayDiagnostics id run diagnostics =>
    exact .of_eq (persistResponseReplayDiagnostics_evaluators id run diagnostics db).versions
  | persistEvaluatorDecision decision => exact kept_of_decision server decision db
  | persistSolutionAsset asset => exact .of_eq (persistSolutionAsset_evaluators asset db).versions
  | persistSolutionOutcomes now asset outcomes =>
    exact .of_eq (persistSolutionOutcomes_evaluators now asset outcomes db).versions

/-- The comparison of a stored row with an evaluator. -/
theorem isVersion_iff {r : EvaluatorVersionRow} : r.isVersion evaluator = true ↔
    r.parentId.map uuidText = evaluator.parentEvaluatorId ∧ r.definitionSha256 = evaluator.definitionSha256 ∧
      r.frozenCaseSetSha256 = evaluator.frozenCaseSetSha256 ∧ r.activeCaseSetSha256 = evaluator.activeCaseSetSha256 ∧
        r.state = evaluator.state ∧ r.proposedBy = evaluator.proposedBy := by
  simp only [EvaluatorVersionRow.isVersion, Bool.and_eq_true, decide_eq_true_eq, and_assoc]

/-- A registration returns the id of a row that compares equal. -/
theorem registered_eq_ok_iff {r : EvaluatorVersionRow} {id : Str} :
    registered evaluator r = .ok id ↔ r.isVersion evaluator = true ∧ uuidText r.id = id := by
  unfold registered
  by_cases h : r.isVersion evaluator = true <;> simp [h]

/-- A registration that returned an id left a row with that id under its label. -/
theorem stored_of_ok {id : Str} (h : (persistEvaluatorVersion evaluator db).2 = .ok id) :
    ∃ row r, newEvaluatorVersion evaluator = some row ∧
      (persistEvaluatorVersion evaluator db).1.versions.taken? row.labelKey = some r ∧ uuidText r.id = id ∧
        r.isVersion evaluator = true := by
  have hcases := registration_cases evaluator db
  generalize persistEvaluatorVersion evaluator db = outcome at hcases h
  cases hcases with
  | unreadable => cases h
  | refused => cases h
  | @taken row r hrow htaken =>
    obtain ⟨hversion, hid⟩ := registered_eq_ok_iff.mp h
    exact ⟨row, r, hrow, htaken, hid, hversion⟩
  | @inserted row versions hrow _ _ _ hfind =>
    obtain ⟨hversion, hid⟩ := registered_eq_ok_iff.mp h
    have hstored : versions.find? row.id = some row := by rw [hfind, if_pos rfl]
    exact ⟨row, row, hrow, Indexed.taken?_of_find? hstored, hid, hversion⟩

/-- A registered evaluator stays stored under its label and the id returned, perhaps in another state. -/
theorem stored_of_registered {h : History Evaluators Call} (run : (memory server).Run h db) {id : Str}
    (hregistered : RegisteredAs h evaluator id) :
    ∃ row r, newEvaluatorVersion evaluator = some row ∧ db.versions.taken? row.labelKey = some r ∧
      uuidText r.id = id ∧ ({ r with state := evaluator.state } : EvaluatorVersionRow).isVersion evaluator = true := by
  induction run with
  | start =>
    obtain ⟨before, hmem, -⟩ := hregistered
    cases hmem
  | @step h db₀ db₁ call _ hstep ih =>
    cases hstep
    obtain ⟨before, hmem, hok⟩ := hregistered
    rcases List.mem_cons.mp hmem with hlast | hmem
    · cases hlast
      obtain ⟨row, r, hrow, htaken, hid, hversion⟩ := stored_of_ok hok
      have hstate : r.state = evaluator.state := (isVersion_iff.mp hversion).2.2.2.2.1
      exact ⟨row, r, hrow, htaken, hid, by rw [← hstate]; exact hversion⟩
    · obtain ⟨row, r, hrow, htaken, hid, hversion⟩ := ih ⟨before, hmem, hok⟩
      obtain ⟨hfind, hlabel⟩ := Indexed.taken?_eq_some htaken
      have hkept : Kept db₀ (call.run server db₀).1 := kept_of_run call db₀
      obtain ⟨r', hr', heq⟩ := hkept _ _ hfind
      have hlabel' : r'.labelKey = row.labelKey := by rw [← hlabel, ← heq]; rfl
      refine ⟨row, r', hrow, hlabel' ▸ Indexed.taken?_of_find? hr', ?_, ?_⟩
      · rw [← hid, ← heq]
      · rw [← heq] at hversion
        exact hversion

/-! ## When registrations are faithful and idempotent -/

/-- A row that compares equal and has the id of the evaluator is the evaluator. -/
theorem identifies_of_isVersion {row r : EvaluatorVersionRow} (hrow : newEvaluatorVersion evaluator = some row)
    (hlabel : r.labelKey = row.labelKey) (hversion : r.isVersion evaluator = true) (hid : r.id = row.id) :
    r.Identifies evaluator := by
  obtain ⟨identifies, -⟩ := newEvaluatorVersion_identifies hrow
  obtain ⟨hparent, hdefinition, hfrozen, hactive, -, hproposed⟩ := isVersion_iff.mp hversion
  refine ⟨by rw [hid]; exact identifies.id, hlabel.trans identifies.label, ?_, hdefinition, ⟨hfrozen, hactive⟩, hproposed⟩
  rw [← hparent]
  cases r.parentId with
  | none => rfl
  | some parent =>
    change (uuid (uuidText parent)).map some = some (some parent)
    rw [uuid_uuidText]
    rfl

/-- An insertion changes the tables. -/
theorem ne_of_inserted {row : EvaluatorVersionRow} {versions : Indexed EvaluatorVersionRow.id EvaluatorVersionRow.labelKey}
    (hfree : db.versions.find? row.id = none)
    (hfind : ∀ k, versions.find? k = if row.id = k then some row else db.versions.find? k) :
    ({ db with versions } : Evaluators) ≠ db := by
  intro heq
  have hsome : versions.find? row.id = some row := by rw [hfind, if_pos rfl]
  have hversions : versions = db.versions := congrArg Evaluators.versions heq
  rw [hversions, hfree] at hsome
  cases hsome

/-- An id returned is that of a row that is the evaluator. -/
theorem Faithful.of_ok {id : Str} (h : Faithful db evaluator (db', .ok id)) :
    ∃ r : EvaluatorVersionRow, r.Identifies evaluator ∧ uuidText r.id = id := by
  generalize houtcome : ((db', .ok id) : Outcome Evaluators Str) = outcome at h
  cases h with
  | @inserted row _ identifies => exact ⟨row, identifies, (Except.ok.inj (Prod.mk.inj houtcome).2).symm⟩
  | @stored r _ identifies => exact ⟨r, identifies, (Except.ok.inj (Prod.mk.inj houtcome).2).symm⟩
  | raised => cases (Prod.mk.inj houtcome).2

/-- What raises changes nothing. -/
theorem Faithful.of_raised {e : Raised} (h : Faithful db evaluator (db', .error e)) : db' = db := by
  generalize houtcome : ((db', .error e) : Outcome Evaluators Str) = outcome at h
  cases h with
  | raised => exact (Prod.mk.inj houtcome).1
  | _ => cases (Prod.mk.inj houtcome).2

/-- A registration is faithful, and idempotent over every history of calls, exactly if a row with the texts of
the evaluator under its label has its id, that row still has the state the evaluator was registered in, and a
parent stored with it is written canonically. -/
theorem registration_iff {h : History Evaluators Call} (run : (memory server).Run h db) (evaluator : EvaluatorVersion) :
    (Faithful db evaluator (persistEvaluatorVersion evaluator db) ∧
      ∀ id, RegisteredAs h evaluator id → (persistEvaluatorVersion evaluator db).2 = .ok id) ↔
        ∀ row, newEvaluatorVersion evaluator = some row → Registrable h db evaluator row := by
  have hcases := registration_cases evaluator db
  generalize persistEvaluatorVersion evaluator db = outcome at hcases
  constructor
  · rintro ⟨faithful, idempotent⟩ row hrow
    obtain ⟨identifies, -⟩ := newEvaluatorVersion_identifies hrow
    cases hcases with
    | unreadable _ hnone => exact absurd (hrow.symm.trans hnone) nofun
    | refused _ hrow' htaken hparent =>
      cases hrow.symm.trans hrow'
      refine ⟨fun r hr _ => absurd (hr.symm.trans htaken) nofun, fun id r _ hr => absurd (hr.symm.trans htaken) nofun, ?_⟩
      exact fun _ hfree hstored => absurd hstored (hparent hfree)
    | @taken _ r hrow' htaken =>
      cases hrow.symm.trans hrow'
      refine ⟨fun r' hr' hversion => ?_, fun id r' hregistered hr' => ?_, fun hnone => absurd (htaken.symm.trans hnone) nofun⟩
      · cases htaken.symm.trans hr'
        rw [registered, if_pos hversion] at faithful
        obtain ⟨r', identifies', hid⟩ := faithful.of_ok
        rw [← uuidText_injective hid]
        exact Option.some.inj (identifies'.id.symm.trans identifies.id)
      · cases htaken.symm.trans hr'
        exact (isVersion_iff.mp (registered_eq_ok_iff.mp (idempotent id hregistered)).1).2.2.2.2.1
    | inserted hrow' htaken hfree hparent hfind =>
      cases hrow.symm.trans hrow'
      refine ⟨fun r hr _ => absurd (hr.symm.trans htaken) nofun, fun id r _ hr => absurd (hr.symm.trans htaken) nofun, ?_⟩
      intro _ _ _
      by_contra hparents
      rw [registered, if_neg fun hversion => hparents (isVersion_iff.mp hversion).1] at faithful
      exact ne_of_inserted hfree hfind faithful.of_raised
  · intro registrable
    cases hcases with
    | unreadable e hnone =>
      refine ⟨.raised e, fun id hregistered => ?_⟩
      obtain ⟨row, _, hrow, -⟩ := stored_of_registered run hregistered
      exact absurd (hrow.symm.trans hnone) nofun
    | refused e hrow htaken =>
      refine ⟨.raised e, fun id hregistered => ?_⟩
      obtain ⟨_, r, hrow', hr, -⟩ := stored_of_registered run hregistered
      cases hrow.symm.trans hrow'
      exact absurd (hr.symm.trans htaken) nofun
    | @taken row r hrow htaken =>
      have hconditions := registrable row hrow
      constructor
      · cases hversion : r.isVersion evaluator with
        | true =>
          rw [registered, if_pos hversion]
          obtain ⟨hfind, hlabel⟩ := Indexed.taken?_eq_some htaken
          exact .stored hfind (identifies_of_isVersion hrow hlabel hversion (hconditions.same_id r htaken hversion))
        | false =>
          rw [registered, if_neg (by simp [hversion])]
          exact .raised _
      · intro id hregistered
        obtain ⟨_, r', hrow', hr', hid, hversion⟩ := stored_of_registered run hregistered
        cases hrow.symm.trans hrow'
        cases htaken.symm.trans hr'
        rw [← hconditions.same_state id r hregistered htaken] at hversion
        exact registered_eq_ok_iff.mpr ⟨hversion, hid⟩
    | @inserted row versions hrow htaken hfree hparent hfind =>
      have hconditions := registrable row hrow
      obtain ⟨identifies, hstate⟩ := newEvaluatorVersion_identifies hrow
      have hversion : row.isVersion evaluator = true :=
        isVersion_iff.mpr ⟨hconditions.canonical htaken hfree hparent, identifies.definition, identifies.cases.1,
          identifies.cases.2, hstate, identifies.proposedBy⟩
      rw [registered, if_pos hversion]
      refine ⟨.inserted identifies hstate hfree hfind, fun id hregistered => ?_⟩
      obtain ⟨_, r, hrow', hr, -⟩ := stored_of_registered run hregistered
      cases hrow.symm.trans hrow'
      exact absurd (hr.symm.trans htaken) nofun

/-- The first evaluator again, under another id. -/
def Sample.renamed : EvaluatorVersion := Sample.original 4

/-- The first evaluator is stored. -/
theorem Sample.exists_registered : ∃ h db, (memory Research.Sample.server).Run h db ∧
    (persistEvaluatorVersion Sample.renamed db).2 = .ok (uuidText 1) := by
  obtain ⟨h, db, run, htest⟩ := System.exists_run (memory Research.Sample.server)
    [.persistEvaluatorVersion Sample.first]
    (fun _ db => decide ((persistEvaluatorVersion Sample.renamed db).2 = .ok (uuidText 1))) (by decide +kernel)
  exact ⟨h, db, run, of_decide_eq_true htest⟩

/-- A run with a stored evaluator. -/
theorem registration_iff_registered :
    ∃ h db, (memory Research.Sample.server).Run h db ∧
      ((Faithful db Sample.first (persistEvaluatorVersion Sample.first db) ∧
        ∀ id, RegisteredAs h Sample.first id → (persistEvaluatorVersion Sample.first db).2 = .ok id) ↔
          ∀ row, newEvaluatorVersion Sample.first = some row → Registrable h db Sample.first row) := by
  obtain ⟨h, db, run, -⟩ := Sample.exists_registered
  exact ⟨h, db, run, registration_iff run Sample.first⟩

/-- A registration can return the id of another evaluator. -/
theorem other_evaluator_returned :
    ¬∀ (server : Server) (h : History Evaluators Call) (db : Evaluators), (memory server).Run h db →
      ∀ evaluator, Faithful db evaluator (persistEvaluatorVersion evaluator db) ∧
        ∀ id, RegisteredAs h evaluator id → (persistEvaluatorVersion evaluator db).2 = .ok id := by
  intro claimed
  obtain ⟨h, db, run, hreply⟩ := Sample.exists_registered
  have faithful := (claimed _ h db run Sample.renamed).1
  generalize persistEvaluatorVersion Sample.renamed db = outcome at faithful hreply
  obtain ⟨db', reply⟩ := outcome
  cases hreply
  obtain ⟨r, identifies, hid⟩ := faithful.of_ok
  have hrenamed : uuid Sample.renamed.evaluatorId = some 4 := uuid_uuidText 4
  have hone : r.id = 1 := uuidText_injective hid
  rw [identifies.id, hone] at hrenamed
  revert hrenamed
  decide

end NeuroLab.Evaluation
