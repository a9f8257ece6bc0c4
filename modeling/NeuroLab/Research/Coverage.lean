import NeuroLab.Common.Champions
import NeuroLab.Research.Corpus

/-!
# What opens the coverage gate

The gate of `evaluate_coverage` said without its loop: each source stands with the first of its
best verified assessments, and the gate is open when the counts of these and their mean reach
the thresholds of the policy.
-/

namespace NeuroLab.Research

open Python Common

/-- The rank of an assessment's verification. -/
def SourceAssessment.rank (a : SourceAssessment) : ℕ := a.verificationStatus.rank

/-- The assessment that stands for a source: the first of the highest verification rank among those of its key. -/
def representative (assessments : List SourceAssessment) (key : Str) : Option SourceAssessment :=
  champion SourceAssessment.sourceKey SourceAssessment.rank assessments key

/-- The keys of the sources. -/
def sourceKeys (assessments : List SourceAssessment) : List Str := (assessments.map SourceAssessment.sourceKey).dedup

/-- The corpus with one assessment for each source. -/
def representatives (assessments : List SourceAssessment) : List SourceAssessment :=
  (sourceKeys assessments).filterMap (representative assessments)

/-- The reproducibility scores of component and feature sources. -/
def buildableScores (assessments : List SourceAssessment) : List ℚ :=
  ((representatives assessments).filter SourceAssessment.buildable).map SourceAssessment.reproducibility

/-- The thresholds of a policy are reached. -/
structure Covered (assessments : List SourceAssessment) (policy : CoveragePolicy) : Prop where
  sources : policy.minimumUniqueSources ≤ (sourceKeys assessments).length
  providers : policy.minimumProviderProvenance ≤ (assessments.map fun a => a.item.provider).toFinset.card
  layers : ∀ layer, policy.minimumSourcesPerLayer ≤
    (representatives assessments).countP fun a => layer ∈ a.architectureLayers
  verified : policy.minimumContentVerifiedSources ≤
    (sourceKeys assessments).countP fun key => ∃ a ∈ assessments, a.sourceKey = key ∧ a.verificationStatus = .contentVerified
  reproducibility : policy.minimumReproducibilityMeanForBuildableLayers ≤
    if buildableScores assessments = [] then 0 else (buildableScores assessments).sum / (buildableScores assessments).length

/-! ## The loop -/

theorem remember_eq : remember = keepBest SourceAssessment.sourceKey SourceAssessment.rank := by
  funext byKey a
  unfold remember keepBest
  cases byKey.find? fun previous => previous.sourceKey = a.sourceKey with
  | none => rfl
  | some previous => rfl

theorem deduplicated_eq (assessments : List SourceAssessment) :
    deduplicated assessments = champions SourceAssessment.sourceKey SourceAssessment.rank assessments := by
  rw [deduplicated, champions, remember_eq]

/-- The loop keeps the representatives. -/
theorem deduplicated_perm (assessments : List SourceAssessment) :
    (deduplicated assessments).Perm (representatives assessments) := by
  rw [deduplicated_eq]
  exact champions_perm assessments

theorem length_deduplicated (assessments : List SourceAssessment) :
    (deduplicated assessments).length = (sourceKeys assessments).length := by
  rw [deduplicated_eq, ← List.length_map SourceAssessment.sourceKey]
  exact (keys_champions_perm assessments).length_eq

/-- A source stands with a verified assessment if it has one. -/
theorem representative_verified {assessments : List SourceAssessment} {key : Str} {a : SourceAssessment}
    (h : representative assessments key = some a) :
    a.verificationStatus = .contentVerified ↔
      ∃ b ∈ assessments, b.sourceKey = key ∧ b.verificationStatus = .contentVerified := by
  constructor
  · intro hverified
    obtain ⟨hmem, hkey⟩ := champion_mem h
    exact ⟨a, hmem, hkey, hverified⟩
  · rintro ⟨b, hmem, hkey, hverified⟩
    have hle : b.rank ≤ a.rank := List.le_of_mem_argmax (List.mem_filter.mpr ⟨hmem, decide_eq_true hkey⟩) h
    rw [SourceAssessment.rank, SourceAssessment.rank, hverified] at hle
    cases hstatus : a.verificationStatus with
    | contentVerified => rfl
    | metadataObserved => rw [hstatus] at hle; exact absurd hle (by decide)
    | metadataCorroborated => rw [hstatus] at hle; exact absurd hle (by decide)

/-- The verified sources are those with a verified assessment. -/
theorem countP_verified (assessments : List SourceAssessment) :
    ((representatives assessments).countP fun a => a.verificationStatus = .contentVerified) =
      (sourceKeys assessments).countP fun key =>
        ∃ a ∈ assessments, a.sourceKey = key ∧ a.verificationStatus = .contentVerified := by
  rw [representatives, List.countP_filterMap]
  apply List.countP_congr
  intro key hkey
  cases h : representative assessments key with
  | none => exact absurd (List.mem_dedup.mp hkey) (champion_eq_none_iff.mp h)
  | some a =>
    rw [Option.map_some, Option.getD_some, decide_eq_true_eq, decide_eq_true_eq]
    exact representative_verified h

/-! ## The gate -/

/-- The gate is open exactly when nothing of the policy is unmet. -/
theorem ready_iff_unmet (assessments : List SourceAssessment) (policy : CoveragePolicy) :
    (evaluateCoverage assessments policy).status = .readyForSynthesis ↔
      (evaluateCoverage assessments policy).unmetRequirements = [] := by
  have gate : ∀ unmet : List Str,
      (if unmet.isEmpty then SynthesisStatus.readyForSynthesis else .collectingEvidence) = .readyForSynthesis ↔ unmet = [] := by
    intro unmet
    cases unmet with
    | nil => exact iff_of_true rfl rfl
    | cons text unmet => exact iff_of_false nofun nofun
  exact gate _

/-- The mean the gate reads is that of the representatives. -/
theorem mean_buildable (assessments : List SourceAssessment) :
    mean (((deduplicated assessments).filter (·.buildable)).map (·.reproducibility)) =
      if buildableScores assessments = [] then 0 else (buildableScores assessments).sum / (buildableScores assessments).length := by
  have hperm := ((deduplicated_perm assessments).filter (·.buildable)).map (·.reproducibility)
  have hmean : mean (((deduplicated assessments).filter (·.buildable)).map (·.reproducibility)) =
      mean (buildableScores assessments) := by
    rw [mean, mean, hperm.sum_eq, hperm.length_eq, buildableScores]
  rw [hmean]
  split
  · rename_i hnone
    rw [hnone, mean, List.sum_nil, zero_div]
  · rfl

/-- Nothing is unmet exactly when the thresholds are reached. -/
theorem unmet_iff_covered (assessments : List SourceAssessment) (policy : CoveragePolicy) :
    (evaluateCoverage assessments policy).unmetRequirements = [] ↔ Covered assessments policy := by
  have hproviders : (assessments.map fun a => a.item.provider).dedup.length =
      (assessments.map fun a => a.item.provider).toFinset.card := rfl
  have hlayers : ∀ layer, layer ∈ layers := by rintro ⟨⟩ <;> decide
  unfold evaluateCoverage
  simp only [List.append_eq_nil_iff, List.flatMap_eq_nil_iff, List.map_eq_nil_iff, List.forall_mem_map,
    ite_eq_right_iff, List.cons_ne_nil, imp_false, not_lt, sub_nonpos, hproviders, mean_buildable, length_deduplicated,
    (deduplicated_perm assessments).countP_eq, hlayers, forall_true_left,
    countP_verified]
  constructor
  · rintro ⟨⟨⟨⟨sources, providers⟩, perLayer⟩, verified⟩, reproducibility⟩
    exact ⟨sources, providers, perLayer, verified, reproducibility⟩
  · intro h
    exact ⟨⟨⟨⟨h.sources, h.providers⟩, h.layers⟩, h.verified⟩, h.reproducibility⟩

/-- The gate is open exactly when nothing is unmet, and exactly when the thresholds are reached. -/
theorem coverage_gate (assessments : List SourceAssessment) (policy : CoveragePolicy) :
    ((evaluateCoverage assessments policy).status = .readyForSynthesis ↔
        (evaluateCoverage assessments policy).unmetRequirements = []) ∧
      ((evaluateCoverage assessments policy).status = .readyForSynthesis ↔ Covered assessments policy) :=
  ⟨ready_iff_unmet assessments policy,
    (ready_iff_unmet assessments policy).trans (unmet_iff_covered assessments policy)⟩

/-! ## The order of the assessments -/

/-- The assessments of a source differ in the item they assess only. -/
def Dependent (assessments : List SourceAssessment) : Prop :=
  ∀ a ∈ assessments, ∀ b ∈ assessments, a.sourceKey = b.sourceKey → { b with item := a.item } = a

section Order

variable {assessments assessments' : List SourceAssessment} {β : Type} {f : SourceAssessment → β}

/-- What does not read the item is the same for the assessments of a source. -/
theorem Dependent.apply_eq (h : Dependent assessments) (hf : ∀ a item, f { a with item } = f a) {a b : SourceAssessment}
    (ha : a ∈ assessments) (hb : b ∈ assessments) (hkey : a.sourceKey = b.sourceKey) : f a = f b := by
  rw [← h a ha b hb hkey]
  exact hf b a.item

/-- What does not read the item is kept in any order of the assessments. -/
theorem Dependent.map_deduplicated (h : Dependent assessments) (hperm : assessments.Perm assessments')
    (hf : ∀ a item, f { a with item } = f a) :
    ((deduplicated assessments).map f).Perm ((deduplicated assessments').map f) := by
  rw [deduplicated_eq, deduplicated_eq]
  exact map_champions_perm hperm f fun a ha b hb hkey => h.apply_eq hf ha hb hkey

theorem Dependent.countP_deduplicated (h : Dependent assessments) (hperm : assessments.Perm assessments')
    {p : SourceAssessment → Bool} (hp : ∀ a item, p { a with item } = p a) :
    (deduplicated assessments).countP p = (deduplicated assessments').countP p := by
  have hmap := (h.map_deduplicated hperm hp).countP_eq id
  rwa [List.countP_map, List.countP_map] at hmap

/-- The gate does not depend on the order of the assessments. -/
theorem Dependent.evaluateCoverage_eq (h : Dependent assessments) (hperm : assessments.Perm assessments')
    (policy : CoveragePolicy) : evaluateCoverage assessments policy = evaluateCoverage assessments' policy := by
  have hlength : (deduplicated assessments).length = (deduplicated assessments').length := by
    have hmap := (h.map_deduplicated hperm (f := fun a => a.sourceKey) fun _ _ => rfl).length_eq
    rwa [List.length_map, List.length_map] at hmap
  have hproviders : (assessments.map fun a => a.item.provider).dedup.length =
      (assessments'.map fun a => a.item.provider).dedup.length := (hperm.map _).dedup.length_eq
  have hlayers : ∀ layer, ((deduplicated assessments).countP fun a => layer ∈ a.architectureLayers) =
      (deduplicated assessments').countP fun a => layer ∈ a.architectureLayers :=
    fun layer => h.countP_deduplicated hperm fun _ _ => rfl
  have hverified : ((deduplicated assessments).countP fun a => a.verificationStatus = .contentVerified) =
      (deduplicated assessments').countP fun a => a.verificationStatus = .contentVerified :=
    h.countP_deduplicated hperm fun _ _ => rfl
  have hscores : ∀ l : List SourceAssessment, (l.filter (·.buildable)).map (·.reproducibility) =
      ((l.map fun a => (a.buildable, a.reproducibility)).filter Prod.fst).map Prod.snd := by
    intro l
    rw [List.filter_map, List.map_map]
    rfl
  have hmean : mean (((deduplicated assessments).filter (·.buildable)).map (·.reproducibility)) =
      mean (((deduplicated assessments').filter (·.buildable)).map (·.reproducibility)) := by
    have hpairs := ((h.map_deduplicated hperm (f := fun a => (a.buildable, a.reproducibility))
      fun _ _ => rfl).filter Prod.fst).map Prod.snd
    rw [hscores, hscores, mean, mean, hpairs.sum_eq, hpairs.length_eq]
  unfold evaluateCoverage
  simp only [hlength, hproviders, hlayers, hverified, hmean]

end Order

end NeuroLab.Research
