import NeuroLab.Evaluation.Decisions

/-!
# Whose runs a decision is stored with

`persist_evaluator_decision` compares the evaluators of the two runs with the two evaluators of the
decision as sets. A decision that names its two runs the wrong way round passes, and is stored
although neither run belongs to the evaluator it is given for.
-/

namespace NeuroLab.Evaluation

open Python Common Postgres Research

/-! ## Runs and evaluators -/

/-- The stored run of an id belongs to an evaluator. -/
def BelongsTo (db : Evaluators) (runId evaluatorId : Str) : Prop :=
  ∃ id r, uuid runId = some id ∧ db.runs.find? id = some r ∧ uuid evaluatorId = some r.evaluatorId

/-- Both runs of a decision belong to their evaluators. -/
def OwnRuns (db : Evaluators) (decision : EvaluatorDecision) : Prop :=
  BelongsTo db decision.baselineRunId decision.baselineEvaluatorId ∧
    BelongsTo db decision.candidateRunId decision.candidateEvaluatorId

/-- Each run of a decision belongs to the other one of two evaluators, which are named by the texts of their ids. -/
structure Exchanged (db : Evaluators) (decision : EvaluatorDecision) (row : EvaluatorDecisionRow) : Prop where
  baseline : ∃ r, db.runs.find? row.baselineRunId = some r ∧ uuidText r.evaluatorId = decision.candidateEvaluatorId
  candidate : ∃ r, db.runs.find? row.candidateRunId = some r ∧ uuidText r.evaluatorId = decision.baselineEvaluatorId
  distinct : decision.baselineEvaluatorId ≠ decision.candidateEvaluatorId

/-- A decision that could be stored, whatever its runs are. -/
structure Recordable (server : Server) (db : Evaluators) (decision : EvaluatorDecision) (row : EvaluatorDecisionRow) :
    Prop where
  row_new : newEvaluatorDecision server decision = some row
  candidate_open : ∃ r, db.versions.find? row.candidateEvaluatorId = some r ∧ r.isOpen = true
  baseline_stored : ∃ r, db.versions.find? row.baselineEvaluatorId = some r
  id_new : db.decisions.find? row.id = none

variable {server : Server} {db : Evaluators} {decision : EvaluatorDecision} {row : EvaluatorDecisionRow}

/-! ## The check of the runs -/

theorem mem_runEvaluators {baselineRunId candidateRunId : Uuid} {b c : EvaluatorRunRow}
    (hb : db.runs.find? baselineRunId = some b) (hc : db.runs.find? candidateRunId = some c) (t : Str) :
    t ∈ runEvaluators db baselineRunId candidateRunId ↔ t = uuidText b.evaluatorId ∨ t = uuidText c.evaluatorId := by
  have hrow : ∀ {k : Uuid} {a r : EvaluatorRunRow}, db.runs.find? k = some a → r ∈ db.runs.rows → r.id = k → r = a := by
    intro k a r ha hr hk
    rw [db.runs.mem_rows_iff, hk, ha] at hr
    exact (Option.some.inj hr).symm
  rw [runEvaluators, List.mem_map]
  constructor
  · rintro ⟨r, hr, ht⟩
    rw [List.mem_filter, Bool.or_eq_true, decide_eq_true_eq, decide_eq_true_eq] at hr
    rcases hr.2 with hid | hid
    · exact Or.inl (by rw [← ht, hrow hb hr.1 hid])
    · exact Or.inr (by rw [← ht, hrow hc hr.1 hid])
  · have hmem : ∀ {k : Uuid} {a : EvaluatorRunRow}, db.runs.find? k = some a → a ∈ db.runs.rows ∧ a.id = k := by
      intro k a ha
      have hid := Table.key_of_find? ha
      exact ⟨(db.runs.mem_rows_iff a).mpr (hid ▸ ha), hid⟩
    rintro (ht | ht)
    · exact ⟨b, List.mem_filter.mpr ⟨(hmem hb).1, by simp [(hmem hb).2]⟩, ht.symm⟩
    · exact ⟨c, List.mem_filter.mpr ⟨(hmem hc).1, by simp [(hmem hc).2]⟩, ht.symm⟩

/-- Two evaluators are the two named in one order or the other. -/
theorem sameEvaluators_iff {baselineRunId candidateRunId : Uuid} {b c : EvaluatorRunRow}
    (hb : db.runs.find? baselineRunId = some b) (hc : db.runs.find? candidateRunId = some c) :
    sameEvaluators db decision baselineRunId candidateRunId = true ↔
      (uuidText b.evaluatorId = decision.baselineEvaluatorId ∧ uuidText c.evaluatorId = decision.candidateEvaluatorId) ∨
        (uuidText b.evaluatorId = decision.candidateEvaluatorId ∧
          uuidText c.evaluatorId = decision.baselineEvaluatorId) := by
  rw [← Set.pair_eq_pair_iff, Set.ext_iff, sameEvaluators, sameItems, Bool.and_eq_true, List.all_eq_true, List.all_eq_true]
  simp only [decide_eq_true_eq, mem_runEvaluators hb hc, List.mem_cons, List.not_mem_nil, or_false,
    Set.mem_insert_iff, Set.mem_singleton_iff]
  exact ⟨fun h t => ⟨h.1 t, h.2 t⟩, fun h => ⟨fun t => (h t).mp, fun t => (h t).mpr⟩⟩

/-! ## What is stored -/

/-- A decision is stored exactly when it could be, and its runs are those of its evaluators in some order. -/
theorem decision_returns_iff :
    (∃ id, (persistEvaluatorDecision server decision db).2 = .ok id) ↔
      ∃ row b c, Recordable server db decision row ∧ db.runs.find? row.baselineRunId = some b ∧
        db.runs.find? row.candidateRunId = some c ∧
        ((uuidText b.evaluatorId = decision.baselineEvaluatorId ∧ uuidText c.evaluatorId = decision.candidateEvaluatorId) ∨
          (uuidText b.evaluatorId = decision.candidateEvaluatorId ∧
            uuidText c.evaluatorId = decision.baselineEvaluatorId)) := by
  unfold persistEvaluatorDecision
  rw [exists_congr fun id => transaction_returns_iff]
  constructor
  · rintro ⟨id, db', h⟩
    obtain ⟨baselineRunId, hbaselineRun, h⟩ := bind_eq_ok_iff.mp h
    obtain ⟨candidateRunId, hcandidateRun, h⟩ := bind_eq_ok_iff.mp h
    split at h
    · cases h
    next hsame =>
    obtain ⟨candidateId, hcandidate, h⟩ := bind_eq_ok_iff.mp h
    split at h
    · cases h
    next v hopen =>
    extract_lets versions at h
    obtain ⟨row, hrow, h⟩ := bind_eq_ok_iff.mp h
    obtain ⟨baseline, hbaseline, h⟩ := bind_eq_ok_iff.mp h
    obtain ⟨b, hb, h⟩ := bind_eq_ok_iff.mp h
    obtain ⟨c, hc, h⟩ := bind_eq_ok_iff.mp h
    split at h
    · cases h
    next hnew =>
    rw [statement_eq_ok_iff] at hbaselineRun hcandidateRun hcandidate hrow hbaseline hb hc
    obtain ⟨-, hcandidate', hbaselineRun', hcandidateRun', -⟩ := newEvaluatorDecision_eq_some hrow
    cases hbaselineRun.symm.trans hbaselineRun'
    cases hcandidateRun.symm.trans hcandidateRun'
    cases hcandidate.symm.trans hcandidate'
    have hopen' := Option.filter_eq_some_iff.mp hopen
    refine ⟨row, b, c, ⟨hrow, ⟨v, hopen'⟩, ⟨baseline, hbaseline⟩, ?_⟩, hb, hc, ?_⟩
    · rwa [Bool.not_eq_true, Option.isSome_eq_false_iff, Option.isNone_iff_eq_none] at hnew
    · rw [Bool.not_eq_true, Bool.not_eq_false'] at hsame
      exact (sameEvaluators_iff hb hc).mp hsame
  · rintro ⟨row, b, c, ⟨hrow, ⟨v, hv, hopen⟩, ⟨baseline, hbaseline⟩, hnew⟩, hb, hc, hruns⟩
    obtain ⟨-, hcandidate, hbaselineRun, hcandidateRun, -⟩ := newEvaluatorDecision_eq_some hrow
    have hsame := (sameEvaluators_iff hb hc).mpr hruns
    have hfilter := Option.filter_eq_some_iff.mpr ⟨hv, hopen⟩
    let versions := db.versions.update (fun r => r.id = row.candidateEvaluatorId && r.isOpen)
      (fun r => { r with state := decision.decision.state }) (fun _ => rfl) fun _ => rfl
    refine ⟨uuidText row.id, { db with versions, decisions := db.decisions.insert row }, ?_⟩
    refine bind_eq_ok_iff.mpr ⟨row.baselineRunId, statement_eq_ok_iff.mpr hbaselineRun, ?_⟩
    refine bind_eq_ok_iff.mpr ⟨row.candidateRunId, statement_eq_ok_iff.mpr hcandidateRun, ?_⟩
    refine (if_neg (by rw [Bool.not_eq_true, Bool.not_eq_false']; exact hsame)).trans ?_
    refine bind_eq_ok_iff.mpr ⟨row.candidateEvaluatorId, statement_eq_ok_iff.mpr hcandidate, ?_⟩
    rw [hfilter]
    refine bind_eq_ok_iff.mpr ⟨row, statement_eq_ok_iff.mpr hrow, ?_⟩
    refine bind_eq_ok_iff.mpr ⟨baseline, statement_eq_ok_iff.mpr hbaseline, ?_⟩
    refine bind_eq_ok_iff.mpr ⟨b, statement_eq_ok_iff.mpr hb, ?_⟩
    refine bind_eq_ok_iff.mpr ⟨c, statement_eq_ok_iff.mpr hc, ?_⟩
    rw [hnew]
    rfl

/-- A decision that is not stored changes nothing. -/
theorem unchanged_of_not_returned (h : ¬∃ id, (persistEvaluatorDecision server decision db).2 = .ok id) :
    (persistEvaluatorDecision server decision db).1 = db := by
  revert h
  unfold persistEvaluatorDecision
  refine transaction_cases (Q := fun outcome => (¬∃ id, outcome.2 = .ok id) → outcome.1 = db) (fun _ _ => rfl) ?_
  intro db' id _ h
  exact absurd ⟨id, rfl⟩ h

/-! ## The claim of the check -/

/-- A decision is stored with the runs of its evaluators only, and changes nothing otherwise, exactly when it is
not one that could be stored and has its runs exchanged. -/
theorem own_runs_iff (server : Server) (db : Evaluators) (decision : EvaluatorDecision) :
    ((∀ id, (persistEvaluatorDecision server decision db).2 = .ok id → OwnRuns db decision) ∧
        (¬OwnRuns db decision → (persistEvaluatorDecision server decision db).1 = db)) ↔
      ¬∃ row, Recordable server db decision row ∧ Exchanged db decision row := by
  constructor
  · rintro ⟨howned, -⟩ ⟨row, recordable, ⟨b, hb, hbtext⟩, ⟨c, hc, hctext⟩, hdistinct⟩
    obtain ⟨id, hid⟩ := decision_returns_iff.mpr ⟨row, b, c, recordable, hb, hc, Or.inr ⟨hbtext, hctext⟩⟩
    obtain ⟨⟨_, r, hrun, hr, hevaluator⟩, -⟩ := howned id hid
    obtain ⟨-, -, hbaselineRun, -, -⟩ := newEvaluatorDecision_eq_some recordable.row_new
    cases hrun.symm.trans hbaselineRun
    cases hr.symm.trans hb
    rw [← hctext, uuid_uuidText] at hevaluator
    apply hdistinct
    rw [← hctext, ← hbtext, Option.some.inj hevaluator]
  · intro hexchanged
    have howned : ∀ id, (persistEvaluatorDecision server decision db).2 = .ok id → OwnRuns db decision := by
      intro id hid
      obtain ⟨row, b, c, recordable, hb, hc, hruns⟩ := decision_returns_iff.mp ⟨id, hid⟩
      obtain ⟨-, -, hbaselineRun, hcandidateRun, -⟩ := newEvaluatorDecision_eq_some recordable.row_new
      have hown : uuidText b.evaluatorId = decision.baselineEvaluatorId ∧
          uuidText c.evaluatorId = decision.candidateEvaluatorId := by
        rcases hruns with hown | ⟨hbtext, hctext⟩
        · exact hown
        · by_cases hdistinct : decision.baselineEvaluatorId = decision.candidateEvaluatorId
          · exact ⟨hbtext.trans hdistinct.symm, hctext.trans hdistinct⟩
          · exact absurd ⟨row, recordable, ⟨b, hb, hbtext⟩, ⟨c, hc, hctext⟩, hdistinct⟩ hexchanged
      refine ⟨⟨_, b, hbaselineRun, hb, ?_⟩, ⟨_, c, hcandidateRun, hc, ?_⟩⟩
      · rw [← hown.1, uuid_uuidText]
      · rw [← hown.2, uuid_uuidText]
    refine ⟨howned, fun hnot => unchanged_of_not_returned ?_⟩
    rintro ⟨id, hid⟩
    exact hnot (howned id hid)

/-- The decision to promote the second evaluator, with its two runs the wrong way round. -/
def Sample.exchanged : EvaluatorDecision :=
  decisionOf 31 Sample.first Sample.shadow Sample.secondRun Sample.firstRun .promoted (lit "holdout_read")
    Sample.isName_holdoutRead

/-- A reachable state stores a decision neither of whose runs belongs to its evaluator. -/
theorem exchanged_decision_stored :
    ¬∀ (server : Server) (h : History Evaluators Call) (db : Evaluators), (memory server).Run h db →
      ∀ decision id, (persistEvaluatorDecision server decision db).2 = .ok id → OwnRuns db decision := by
  intro claimed
  obtain ⟨h, db, run, htest⟩ := System.exists_run (memory Research.Sample.server)
    [.persistEvaluatorVersion Sample.first, .persistEvaluatorVersion Sample.shadow,
      .persistEvaluationRun Sample.firstRun, .persistEvaluationRun Sample.secondRun]
    (fun _ db => decide ((persistEvaluatorDecision Research.Sample.server Sample.exchanged db).2 = .ok (uuidText 31)) &&
      decide ((db.runs.find? 2).map (·.evaluatorId) = some 2)) (by decide +kernel)
  rw [Bool.and_eq_true, decide_eq_true_eq, decide_eq_true_eq] at htest
  obtain ⟨⟨id, r, hid, hr, hevaluator⟩, -⟩ := claimed _ h db run Sample.exchanged _ htest.1
  have hid' : uuid Sample.exchanged.baselineRunId = some 2 := uuid_uuidText 2
  have hevaluator' : uuid Sample.exchanged.baselineEvaluatorId = some 1 := uuid_uuidText 1
  cases hid.symm.trans hid'
  rw [hr, Option.map_some] at htest
  rw [hevaluator'] at hevaluator
  have hsame : (1 : Uuid) = 2 := (Option.some.inj hevaluator).trans (Option.some.inj htest.2)
  exact absurd hsame (by decide)

end NeuroLab.Evaluation
