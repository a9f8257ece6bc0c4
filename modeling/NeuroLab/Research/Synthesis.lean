import NeuroLab.Evaluation.Storage
import NeuroLab.Research.Sample

/-!
# The synthesis gate over the operations of the repository

The gate asks for a mean reproducibility that only the classifier's assessments can
provide, and the classifier never finds any: claims carry reproducibility scores of their
own, in another table. So no state the operations reach opens the gate, in whatever order
the un-ordered SELECT returns the corpus.
-/

namespace NeuroLab.Research

open Python Common Postgres

variable {site : Site}

/-! ## The schema -/

/-- The schema `it_research`: the corpus and the evaluators. -/
structure Store where
  corpus : Database
  evaluators : Evaluation.Evaluators

/-- A call of either storage module. -/
inductive StoreCall (py : Interpreter)
  | corpus (call : Call py)
  | evaluators (call : Evaluation.Call)

/-- The schema under calls in any order. -/
def store (site : Site) : System Store (StoreCall site.host.py) where
  init := ⟨.empty, .empty⟩
  step db
    | .corpus call => some { db with corpus := (call.run site db.corpus).1 }
    | .evaluators call => some { db with evaluators := (call.run site.server db.evaluators).1 }

/-! ## What the gate reads -/

/-- No source has a reproducibility score. -/
def Unreproduced (db : Database) : Prop := ∀ k a, db.assessments.find? k = some a → a.reproducibility = 0

/-- No call of the corpus stores a reproducibility score. -/
theorem unreproduced_step {db db' : Database} {call : Call site.host.py} {reply : Except Raised Str}
    (heffect : Effect site db call (db', reply)) (h : Unreproduced db) : Unreproduced db' := by
  cases heffect with
  | run hassessments _ _ hfold =>
    intro k a ha
    rcases (ingested_of_run hassessments hfold).assessment k a ha with hold | hzero
    · exact h k a hold
    · exact hzero
  | _ => exact h

/-- No source has a reproducibility score in any state of a run. -/
theorem unreproduced_of_run {h : History Store (StoreCall site.host.py)} {db : Store} (run : (store site).Run h db) :
    Unreproduced db.corpus := by
  have hempty : Unreproduced .empty := fun _ _ ha => nomatch ha
  refine run.invariant (P := fun db => Unreproduced db.corpus) hempty fun s call s' hs hstep => ?_
  cases call with
  | corpus call =>
    cases hstep
    have heffect : Effect site s.corpus call ((call.run site s.corpus).1, (call.run site s.corpus).2) :=
      effect_of_run call
    exact unreproduced_step heffect hs
  | evaluators call =>
    cases hstep
    exact hs

/-- The loaded corpus has the scores of its table. -/
theorem loadCorpusAssessments_unreproduced {db : Database} (h : Unreproduced db) :
    ∀ a ∈ loadCorpusAssessments db, a.reproducibility = 0 := by
  intro a ha
  obtain ⟨o, -, hrow⟩ := List.mem_filterMap.mp ha
  simp only [Option.bind_eq_bind, Option.bind_eq_some_iff] at hrow
  obtain ⟨s, -, row, hfound, heq⟩ := hrow
  cases heq
  exact h o.sourceKey row hfound

/-- In every state of every run of the operations, with any claims and scores, the gate collects evidence,
for every order of the loaded rows. -/
theorem gate_stays_closed {h : History Store (StoreCall site.host.py)} {db : Store} (run : (store site).Run h db)
    {assessments : List SourceAssessment} (hperm : assessments.Perm (loadCorpusAssessments db.corpus)) :
    (evaluateCoverage assessments {}).status = .collectingEvidence := by
  have hpolicy : 0 < ({} : CoveragePolicy).minimumReproducibilityMeanForBuildableLayers := by norm_num
  refine collecting_of_reproducibility_zero hpolicy fun a ha => ?_
  exact loadCorpusAssessments_unreproduced (unreproduced_of_run run) a (hperm.mem_iff.mp ha)

/-- An evaluator of the classifier. -/
def Sample.evaluator : Evaluation.EvaluatorVersion where
  evaluatorId := uuidText 9
  kind := .articleScoring
  version := lit "baseline_v1"
  proposedBy := lit "baseline_policy"
  definitionSha256 := Sample.pdfSha256
  frozenCaseIds := [lit "case_one"]
  activeCaseIds := [lit "case_one", lit "case_two"]
  state := .promoted
  parentEvaluatorId := none
  identified := by decide +kernel
  described := by decide +kernel
  cases_distinct := by decide +kernel
  cases_named := by decide +kernel
  frozen_active := by decide +kernel

/-- A verified source, a claim with full reproducibility and an evaluator leave the gate closed. -/
theorem gate_stays_closed_verified :
    ∃ (h : History Store (StoreCall Sample.site.host.py)) (db : Store), (store Sample.site).Run h db ∧
      ((loadCorpusAssessments db.corpus).map (·.verificationStatus) = [.contentVerified] ∧
        (evaluateCoverage (loadCorpusAssessments db.corpus) {}).status = .collectingEvidence) := by
  obtain ⟨h, db, run, htest⟩ := System.exists_run (store Sample.site)
    (Sample.acquire.map .corpus ++
      [.corpus (.persistReviewedClaim 7 70 (Sample.claim .human)),
        .evaluators (.persistEvaluatorVersion Sample.evaluator)])
    (fun _ (db : Store) => decide ((loadCorpusAssessments db.corpus).map (·.verificationStatus) = [.contentVerified]) &&
      decide (db.evaluators.versions.rows.length = 1)) (by decide +kernel)
  obtain ⟨hverified, -⟩ := Bool.and_eq_true_iff.mp htest
  exact ⟨h, db, run, of_decide_eq_true hverified, gate_stays_closed run (List.Perm.refl _)⟩

end NeuroLab.Research
