import NeuroLab.Common.Ratchet
import NeuroLab.Evaluation.Records

/-!
# The evolution of evaluators

A candidate is promoted over the promoted evaluator it extends when an independent run on
the same cohort is better by a margin and no worse in safety and calibration. Every gate
looks at one candidate and its direct baseline; what holds along a lineage of promotions
follows from that, or does not.
-/

namespace NeuroLab.Evaluation

open Python

/-! ## Decisions -/

/-- The ids of a decision are well formed. -/
theorem isUuid_uuidText (id : Uuid) : isUuid (uuidText id) = true := by
  rw [isUuid, parseUuid_uuidText]
  rfl

/-- `_decision`, under a fresh id and for one reason. -/
def decisionOf (id : Uuid) (baseline candidate : EvaluatorVersion) (baselineRun candidateRun : EvaluationRun)
    (decision : Decision) (reason : Str) (named : isName reason = true) : EvaluatorDecision where
  decisionId := uuidText id
  baselineEvaluatorId := baseline.evaluatorId
  candidateEvaluatorId := candidate.evaluatorId
  baselineRunId := baselineRun.runId
  candidateRunId := candidateRun.runId
  decision := decision
  reasonCodes := [reason]
  policyVersion := lit "evaluator-evolution-v1"
  identified := by
    simp [isUuid_uuidText, baseline.identified.1, candidate.identified.1, baselineRun.identified.1,
      candidateRun.identified.1]
  reasoned := ⟨List.cons_ne_nil _ _, by simpa using named⟩

/-- `_MINIMUM_HOLDOUT_CASES`. -/
def minimumHoldoutCases : ℤ := 20

/-- `_PRIMARY_IMPROVEMENT`. -/
def primaryImprovement : ℚ := 2 / 100

/-- `decide_evaluator_transition`, or its `EvaluatorEvolutionError`. -/
def decideEvaluatorTransition (id : Uuid) (baseline candidate : EvaluatorVersion)
    (baselineRun candidateRun : EvaluationRun) : Except Str EvaluatorDecision :=
  let decided (decision : Decision) (reason : Str) (named : isName reason = true) : Except Str EvaluatorDecision :=
    .ok (decisionOf id baseline candidate baselineRun candidateRun decision reason named)
  let before := baselineRun.metrics
  let after := candidateRun.metrics
  if baseline.state ≠ .promoted ∨ candidate.parentEvaluatorId ≠ some baseline.evaluatorId ∨
      candidate.kind ≠ baseline.kind then
    .error (lit "candidate must extend one promoted evaluator of the same kind")
  else if baselineRun.evaluatorId ≠ baseline.evaluatorId ∨ candidateRun.evaluatorId ≠ candidate.evaluatorId then
    .error (lit "evaluation run is not linked to its evaluator")
  else if baselineRun.cohortSha256 ≠ candidateRun.cohortSha256 then
    decided .shadow (lit "cohort_not_comparable") (by decide)
  else if ¬baseline.frozenCaseIds ⊆ candidate.activeCaseIds then
    decided .reverted (lit "frozen_cases_missing") (by decide)
  else if candidateRun.assessorRole ≠ .independentEvaluator ∨ candidateRun.assessor = candidate.proposedBy then
    decided .shadow (lit "independent_evaluation_required") (by decide)
  else if min before.evaluatedCaseCount after.evaluatedCaseCount < minimumHoldoutCases then
    decided .shadow (lit "holdout_too_small") (by decide)
  else if after.safetyQuality < before.safetyQuality then
    decided .reverted (lit "safety_regression") (by decide)
  else if after.primaryQuality < before.primaryQuality then
    decided .reverted (lit "primary_regression") (by decide)
  else if after.primaryQuality < before.primaryQuality + primaryImprovement then
    decided .shadow (lit "improvement_not_yet_material") (by decide)
  else if after.calibrationQuality < before.calibrationQuality then
    decided .shadow (lit "calibration_not_improved") (by decide)
  else decided .promoted (lit "independent_holdout_improvement") (by decide)

/-! ## Promotions -/

/-- The candidate is promoted over the baseline on these runs. -/
def Promotes (baseline candidate : EvaluatorVersion) (baselineRun candidateRun : EvaluationRun) : Prop :=
  ∃ id decision, decideEvaluatorTransition id baseline candidate baselineRun candidateRun = .ok decision ∧
    decision.decision = .promoted

/-- All gates of a promotion. -/
structure Gates (baseline candidate : EvaluatorVersion) (baselineRun candidateRun : EvaluationRun) : Prop where
  extends_promoted : baseline.state = .promoted ∧ candidate.parentEvaluatorId = some baseline.evaluatorId ∧
    candidate.kind = baseline.kind
  linked : baselineRun.evaluatorId = baseline.evaluatorId ∧ candidateRun.evaluatorId = candidate.evaluatorId
  comparable : baselineRun.cohortSha256 = candidateRun.cohortSha256
  frozen : baseline.frozenCaseIds ⊆ candidate.activeCaseIds
  independent : candidateRun.assessorRole = .independentEvaluator ∧ candidateRun.assessor ≠ candidate.proposedBy
  enough : 20 ≤ baselineRun.metrics.evaluatedCaseCount ∧ 20 ≤ candidateRun.metrics.evaluatedCaseCount
  safe : baselineRun.metrics.safetyQuality ≤ candidateRun.metrics.safetyQuality
  improved : baselineRun.metrics.primaryQuality + 2 / 100 ≤ candidateRun.metrics.primaryQuality
  calibrated : baselineRun.metrics.calibrationQuality ≤ candidateRun.metrics.calibrationQuality

/-- A value that the first branch does not give is that of the second one. -/
theorem else_of_ite {α : Type*} {c : Prop} [Decidable c] {x y z : α} (h : (if c then x else y) = z) (hx : x ≠ z) :
    ¬c ∧ y = z := by
  by_cases hc : c
  · rw [if_pos hc] at h
    exact absurd h hx
  · rw [if_neg hc] at h
    exact ⟨hc, h⟩

/-- A promotion passes every gate, and only then. -/
theorem promotes_iff {baseline candidate : EvaluatorVersion} {baselineRun candidateRun : EvaluationRun} :
    Promotes baseline candidate baselineRun candidateRun ↔ Gates baseline candidate baselineRun candidateRun := by
  constructor
  · rintro ⟨id, decision, hdecided, hpromoted⟩
    unfold decideEvaluatorTransition at hdecided
    extract_lets decided before after at hdecided
    have hnot : ∀ {d : Decision} {reason : Str} {named : isName reason = true}, d ≠ .promoted →
        decided d reason named ≠ .ok decision := by
      intro d reason named hd heq
      exact hd (by rw [← hpromoted, ← Except.ok.inj heq]; rfl)
    obtain ⟨hextends, hdecided⟩ := else_of_ite hdecided (fun h => by cases h)
    obtain ⟨hlinked, hdecided⟩ := else_of_ite hdecided (fun h => by cases h)
    obtain ⟨hcohort, hdecided⟩ := else_of_ite hdecided (hnot (by decide))
    obtain ⟨hfrozen, hdecided⟩ := else_of_ite hdecided (hnot (by decide))
    obtain ⟨hindependent, hdecided⟩ := else_of_ite hdecided (hnot (by decide))
    obtain ⟨hcases, hdecided⟩ := else_of_ite hdecided (hnot (by decide))
    obtain ⟨hsafe, hdecided⟩ := else_of_ite hdecided (hnot (by decide))
    obtain ⟨-, hdecided⟩ := else_of_ite hdecided (hnot (by decide))
    obtain ⟨himproved, hdecided⟩ := else_of_ite hdecided (hnot (by decide))
    obtain ⟨hcalibrated, -⟩ := else_of_ite hdecided (hnot (by decide))
    push Not at hextends hlinked hcohort hfrozen hindependent hcases hsafe himproved hcalibrated
    exact ⟨hextends, hlinked, hcohort, hfrozen, hindependent, le_min_iff.mp hcases, hsafe, himproved, hcalibrated⟩
  · intro gates
    have hcases : minimumHoldoutCases ≤
        min baselineRun.metrics.evaluatedCaseCount candidateRun.metrics.evaluatedCaseCount := le_min_iff.mpr gates.enough
    have himproved : baselineRun.metrics.primaryQuality + primaryImprovement ≤ candidateRun.metrics.primaryQuality :=
      gates.improved
    have hprimary : baselineRun.metrics.primaryQuality ≤ candidateRun.metrics.primaryQuality := by
      linarith [gates.improved]
    refine ⟨0, decisionOf 0 baseline candidate baselineRun candidateRun .promoted
      (lit "independent_holdout_improvement") (by decide), ?_, rfl⟩
    refine (if_neg (by push Not; exact gates.extends_promoted)).trans ?_
    refine (if_neg (by push Not; exact gates.linked)).trans ?_
    refine (if_neg (by push Not; exact gates.comparable)).trans ?_
    refine (if_neg (by push Not; exact gates.frozen)).trans ?_
    refine (if_neg (by push Not; exact gates.independent)).trans ?_
    refine (if_neg (not_lt.mpr hcases)).trans ?_
    refine (if_neg (not_lt.mpr gates.safe)).trans ?_
    refine (if_neg (not_lt.mpr hprimary)).trans ?_
    refine (if_neg (not_lt.mpr himproved)).trans ?_
    exact if_neg (not_lt.mpr gates.calibrated)

/-! ## A concrete lineage -/

/-- An evaluator of the article scoring, with its cases and its parent. -/
def Sample.version (id : Uuid) (parent : Option Uuid) (frozen active : List Str)
    (distinct : frozen ≠ [] ∧ frozen.Nodup ∧ active.Nodup)
    (named : ∀ caseId ∈ frozen ++ active, isName caseId = true) (subset : frozen ⊆ active) : EvaluatorVersion where
  evaluatorId := uuidText id
  kind := .articleScoring
  version := lit "scoring_v1"
  proposedBy := lit "author_one"
  definitionSha256 := List.replicate 64 0x61
  frozenCaseIds := frozen
  activeCaseIds := active
  state := .promoted
  parentEvaluatorId := parent.map uuidText
  identified := by cases parent <;> simp [isUuid_uuidText]
  described := by decide +kernel
  cases_distinct := distinct
  cases_named := named
  frozen_active := subset

theorem Sample.isDigest_cohort : isDigest (List.replicate 64 0x62) = true := by decide

/-- An independent run of an evaluator on the holdout cohort. -/
def Sample.evaluation (evaluator : Uuid) (quality : ℚ) (bounded : isQuality quality = true) : EvaluationRun where
  runId := uuidText evaluator
  evaluatorId := uuidText evaluator
  cohortSha256 := List.replicate 64 0x62
  assessor := lit "critic_one"
  assessorRole := .independentEvaluator
  metrics :=
    { primaryQuality := quality, safetyQuality := 9 / 10, calibrationQuality := 8 / 10, costEfficiency := 7 / 10,
      evaluatedCaseCount := 24,
      accepted := ⟨by decide, by simp only [List.all_cons, bounded]; decide +kernel⟩ }
  identified := ⟨isUuid_uuidText evaluator, isUuid_uuidText evaluator, Sample.isDigest_cohort⟩
  assessor_named := by decide +kernel

/-- An evaluator without a parent freezes one case. -/
def Sample.original (id : Uuid) : EvaluatorVersion :=
  Sample.version id none [lit "case_a"] [lit "case_a"] (by decide) (by decide) (by decide)

def Sample.first : EvaluatorVersion := Sample.original 1

/-- Its successor keeps that case active, but freezes another. -/
def Sample.second : EvaluatorVersion :=
  Sample.version 2 (some 1) [lit "case_b"] [lit "case_a", lit "case_b"] (by decide) (by decide) (by decide)

/-- The successor of that one has dropped the case. -/
def Sample.third : EvaluatorVersion :=
  Sample.version 3 (some 2) [lit "case_b"] [lit "case_b"] (by decide) (by decide) (by decide)

/-- The runs of the three get better by a tenth each. -/
def Sample.firstRun : EvaluationRun := Sample.evaluation 1 (5 / 10) (by decide +kernel)

def Sample.secondRun : EvaluationRun := Sample.evaluation 2 (6 / 10) (by decide +kernel)

def Sample.thirdRun : EvaluationRun := Sample.evaluation 3 (7 / 10) (by decide +kernel)

/-- The first successor is promoted, and so is the second. -/
theorem Sample.promotes : Promotes Sample.first Sample.second Sample.firstRun Sample.secondRun ∧
    Promotes Sample.second Sample.third Sample.secondRun Sample.thirdRun := by
  have hfirst : Gates Sample.first Sample.second Sample.firstRun Sample.secondRun := by
    constructor <;> decide +kernel
  have hsecond : Gates Sample.second Sample.third Sample.secondRun Sample.thirdRun := by
    constructor <;> decide +kernel
  exact ⟨promotes_iff.mpr hfirst, promotes_iff.mpr hsecond⟩

/-! ## Frozen cases along a lineage -/

/-- The candidate was promoted over the baseline on some pair of runs. -/
def Succeeds (baseline candidate : EvaluatorVersion) : Prop :=
  ∃ baselineRun candidateRun, Promotes baseline candidate baselineRun candidateRun

/-- The candidate drops none of the cases that the baseline no longer freezes. -/
def KeepsUnfrozen (frozen : List Str) (baseline candidate : EvaluatorVersion) : Prop :=
  ∀ caseId ∈ frozen, caseId ∉ baseline.frozenCaseIds → caseId ∈ candidate.activeCaseIds

/-- The gate guards what the baseline freezes, so the rest decides. -/
theorem Succeeds.keeps_iff {baseline candidate : EvaluatorVersion} (h : Succeeds baseline candidate) (frozen : List Str) :
    frozen ⊆ candidate.activeCaseIds ↔ KeepsUnfrozen frozen baseline candidate := by
  obtain ⟨baselineRun, candidateRun, hpromotes⟩ := h
  have hguarded := (promotes_iff.mp hpromotes).frozen
  constructor
  · intro hsubset caseId hcase _
    exact hsubset hcase
  · intro hkeeps caseId hcase
    by_cases hfrozen : caseId ∈ baseline.frozenCaseIds
    · exact hguarded hfrozen
    · exact hkeeps caseId hcase hfrozen

/-- The frozen cases of the first member of a lineage stay active in every member, exactly if no candidate
drops one of them that its own baseline no longer freezes. -/
theorem frozen_survive_iff {origin : EvaluatorVersion} {rest : List EvaluatorVersion}
    (lineage : List.IsChain Succeeds (origin :: rest)) :
    (∀ version ∈ origin :: rest, origin.frozenCaseIds ⊆ version.activeCaseIds) ↔
      List.IsChain (KeepsUnfrozen origin.frozenCaseIds) (origin :: rest) := by
  have survive : ∀ (first : EvaluatorVersion) (rest : List EvaluatorVersion),
      List.IsChain Succeeds (first :: rest) →
        ((∀ version ∈ rest, origin.frozenCaseIds ⊆ version.activeCaseIds) ↔
          List.IsChain (KeepsUnfrozen origin.frozenCaseIds) (first :: rest)) := by
    intro first rest hchain
    induction rest generalizing first with
    | nil => simp
    | cons next rest ih =>
      obtain ⟨hstep, hrest⟩ := List.isChain_cons_cons.mp hchain
      rw [List.forall_mem_cons, List.isChain_cons_cons, hstep.keeps_iff, ih next hrest]
  rw [List.forall_mem_cons, survive origin rest lineage]
  exact and_iff_right origin.frozen_active

/-- A lineage with one promotion. -/
theorem frozen_survive_iff_promoted :
    List.IsChain Succeeds [Sample.first, Sample.second] ∧
      ((∀ version ∈ [Sample.first, Sample.second], Sample.first.frozenCaseIds ⊆ version.activeCaseIds) ↔
        List.IsChain (KeepsUnfrozen Sample.first.frozenCaseIds) [Sample.first, Sample.second]) := by
  have lineage : List.IsChain Succeeds [Sample.first, Sample.second] :=
    List.isChain_cons_cons.mpr ⟨⟨_, _, Sample.promotes.1⟩, List.isChain_singleton _⟩
  exact ⟨lineage, frozen_survive_iff lineage⟩

/-- Two promotions drop a case that the first evaluator had frozen. -/
theorem frozen_case_dropped :
    ¬∀ (origin : EvaluatorVersion) (rest : List EvaluatorVersion), List.IsChain Succeeds (origin :: rest) →
      ∀ version ∈ origin :: rest, origin.frozenCaseIds ⊆ version.activeCaseIds := by
  intro hsurvive
  have lineage : List.IsChain Succeeds [Sample.first, Sample.second, Sample.third] :=
    List.isChain_cons_cons.mpr
      ⟨⟨_, _, Sample.promotes.1⟩,
        List.isChain_cons_cons.mpr ⟨⟨_, _, Sample.promotes.2⟩, List.isChain_singleton _⟩⟩
  have hactive := hsurvive _ _ lineage Sample.third (by simp)
  revert hactive
  decide +kernel

/-! ## The ratchet -/

section Ratchet

variable {κ : Type} {identity : EvaluatorVersion → κ} {run : κ → EvaluationRun}

/-- A quality lies between nothing and everything. -/
theorem EvaluationMetrics.primaryQuality_bounded (metrics : EvaluationMetrics) :
    0 ≤ metrics.primaryQuality ∧ metrics.primaryQuality ≤ 1 := by
  have haccepted := List.all_eq_true.mp metrics.accepted.2 metrics.primaryQuality List.mem_cons_self
  simpa [isQuality] using haccepted

/-- In a lineage in which every evaluator, however told apart, has one run: all runs share a cohort, the
primary quality rises by two hundredths with every promotion, safety and calibration never fall, every
promoted run is an independent one of twenty cases or more, there are at most fifty promotions, and no
evaluator occurs twice. -/
theorem promotion_ratchet {origin : EvaluatorVersion} {rest : List EvaluatorVersion}
    (lineage : List.IsChain (fun baseline candidate => Promotes baseline candidate (run (identity baseline))
      (run (identity candidate))) (origin :: rest)) :
    (∀ version ∈ origin :: rest, (run (identity version)).cohortSha256 = (run (identity origin)).cohortSha256) ∧
    (run (identity origin)).metrics.primaryQuality + 2 / 100 * rest.length ≤
      (run (identity ((origin :: rest).getLast (List.cons_ne_nil origin rest)))).metrics.primaryQuality ∧
    List.Pairwise (fun earlier later =>
      (run (identity earlier)).metrics.safetyQuality ≤ (run (identity later)).metrics.safetyQuality ∧
        (run (identity earlier)).metrics.calibrationQuality ≤ (run (identity later)).metrics.calibrationQuality)
      (origin :: rest) ∧
    (∀ candidate ∈ rest, (run (identity candidate)).assessorRole = .independentEvaluator ∧
      (run (identity candidate)).assessor ≠ candidate.proposedBy ∧
      20 ≤ (run (identity candidate)).metrics.evaluatedCaseCount) ∧
    rest.length ≤ 50 ∧ ((origin :: rest).map identity).Nodup := by
  have gates : List.IsChain (fun baseline candidate => Gates baseline candidate (run (identity baseline))
      (run (identity candidate))) (origin :: rest) := lineage.imp fun _ _ h => promotes_iff.mp h
  have himproved := Common.Ratchet.measure_getLast
    (m := fun version => (run (identity version)).metrics.primaryQuality) (fun _ _ h => h.improved) gates
  refine ⟨fun version hversion => ?_, himproved, ?_, fun candidate hcandidate => ?_, ?_, ?_⟩
  · have hcohort : List.Pairwise (fun earlier later =>
        (run (identity earlier)).cohortSha256 = (run (identity later)).cohortSha256) (origin :: rest) :=
      Common.Ratchet.pairwise
        (S := fun earlier later => (run (identity earlier)).cohortSha256 = (run (identity later)).cohortSha256)
        (fun _ _ _ => Eq.trans) (fun _ _ h => h.comparable) gates
    rcases List.mem_cons.mp hversion with rfl | hrest
    · rfl
    · exact (List.rel_of_pairwise_cons hcohort hrest).symm
  · exact Common.Ratchet.pairwise (fun _ _ _ hab hbc => ⟨hab.1.trans hbc.1, hab.2.trans hbc.2⟩)
      (fun _ _ h => ⟨h.safe, h.calibrated⟩) gates
  · obtain ⟨baseline, h⟩ := Common.Ratchet.exists_step gates hcandidate
    exact ⟨h.independent.1, h.independent.2, h.enough.2⟩
  · have hfirst := (run (identity origin)).metrics.primaryQuality_bounded.1
    have hlast := (run (identity ((origin :: rest).getLast (List.cons_ne_nil origin rest)))).metrics.primaryQuality_bounded.2
    have hlength : (rest.length : ℚ) ≤ 50 := by linarith
    exact_mod_cast hlength
  · refine Common.Ratchet.nodup (m := fun version => (run (identity version)).metrics.primaryQuality)
      (by norm_num) (fun _ _ h => h.improved) (fun _ _ h => ?_) gates
    rw [h]

/-- Two promotions, with the runs told apart by the ids of their evaluators. -/
theorem promotion_ratchet_promoted :
    ∃ run : Str → EvaluationRun,
      List.IsChain (fun baseline candidate => Promotes baseline candidate (run baseline.evaluatorId)
        (run candidate.evaluatorId)) [Sample.first, Sample.second, Sample.third] ∧
      [Sample.first.evaluatorId, Sample.second.evaluatorId, Sample.third.evaluatorId].Nodup := by
  let run (id : Str) : EvaluationRun :=
    if id = uuidText 1 then Sample.firstRun else if id = uuidText 2 then Sample.secondRun else Sample.thirdRun
  have hfirst : run Sample.first.evaluatorId = Sample.firstRun := if_pos rfl
  have hsecond : run Sample.second.evaluatorId = Sample.secondRun :=
    (if_neg (by decide +kernel)).trans (if_pos rfl)
  have hthird : run Sample.third.evaluatorId = Sample.thirdRun :=
    (if_neg (by decide +kernel)).trans (if_neg (by decide +kernel))
  have lineage : List.IsChain (fun baseline candidate => Promotes baseline candidate (run baseline.evaluatorId)
      (run candidate.evaluatorId)) [Sample.first, Sample.second, Sample.third] := by
    refine List.isChain_cons_cons.mpr ⟨?_, List.isChain_cons_cons.mpr ⟨?_, List.isChain_singleton _⟩⟩
    · rw [hfirst, hsecond]
      exact Sample.promotes.1
    · rw [hsecond, hthird]
      exact Sample.promotes.2
  have hratchet := @promotion_ratchet Str EvaluatorVersion.evaluatorId run _ _ lineage
  exact ⟨run, lineage, hratchet.2.2.2.2.2⟩

end Ratchet

end NeuroLab.Evaluation
