import NeuroLab.Evaluation.Evolution

/-!
# The laws of an asset's state

`next_asset_state` counts the outcomes of an asset and does not read their order. A history that
retires its asset does so with whatever outcomes are added to it, and one with a failure or a
regression never leaves it a candidate again; promotion needs repeated successes that are safe and good.
-/

namespace NeuroLab.Evaluation

open Python

/-- The outcomes of one asset: at least one, and of no other asset. -/
structure OutcomeHistory (asset : SolutionAsset) where
  outcomes : List SolutionOutcome
  nonempty : outcomes ≠ []
  owned : ∀ item ∈ outcomes, item.assetId = asset.assetId

/-- The successes among the outcomes. -/
def successes (outcomes : List SolutionOutcome) : List SolutionOutcome := outcomes.filter fun item => item.outcome = .success

/-- How many outcomes are regressions. -/
def regressions (outcomes : List SolutionOutcome) : ℕ := outcomes.countP fun item => item.outcome = .regression

/-- Whether something failed or regressed. -/
def hasFailed (outcomes : List SolutionOutcome) : Bool :=
  outcomes.any fun item => item.outcome = .failure || item.outcome = .regression

/-- What promotes an asset. -/
structure Proven (outcomes : List SolutionOutcome) : Prop where
  repeated : 3 ≤ (successes outcomes).length
  safe : ∀ item ∈ successes outcomes, 9 / 10 ≤ item.safetyQuality
  good : 8 / 10 ≤ ((successes outcomes).map (·.primaryQuality)).sum / (successes outcomes).length

/-- The conditions of the code, in its order. -/
theorem proven_iff {outcomes : List SolutionOutcome} :
    (3 ≤ (successes outcomes).length ∧ (∀ item ∈ successes outcomes, 9 / 10 ≤ item.safetyQuality) ∧
        8 / 10 ≤ ((successes outcomes).map (·.primaryQuality)).sum / (successes outcomes).length) ↔ Proven outcomes :=
  ⟨fun h => ⟨h.1, h.2.1, h.2.2⟩, fun h => ⟨h.repeated, h.safe, h.good⟩⟩

instance (outcomes : List SolutionOutcome) : Decidable (Proven outcomes) := decidable_of_iff _ proven_iff

/-- The state that a history decides. -/
def decidedState (outcomes : List SolutionOutcome) : AssetState :=
  if 2 ≤ regressions outcomes then .retired
  else if Proven outcomes then .promoted
  else if hasFailed outcomes then .watchlist
  else .candidate

variable {asset : SolutionAsset} {outcomes outcomes' : List SolutionOutcome}

/-- On the outcomes of its asset, `next_asset_state` returns. -/
theorem OutcomeHistory.nextAssetState_eq (h : OutcomeHistory asset) :
    nextAssetState asset h.outcomes = .ok (decidedState h.outcomes) := by
  have hall : h.outcomes.filter (fun item => item.assetId = asset.assetId) = h.outcomes :=
    List.filter_eq_self.mpr fun item hitem => decide_eq_true (h.owned item hitem)
  unfold nextAssetState
  rw [hall]
  extract_lets relevant successful
  have hown : ¬(relevant.length ≠ h.outcomes.length ∨ relevant = []) := by
    rintro (hlength | hnil)
    · exact hlength rfl
    · exact h.nonempty hnil
  rw [if_neg hown]
  unfold decidedState
  by_cases hretired : 2 ≤ regressions h.outcomes
  · rw [if_pos hretired]
    exact if_pos hretired
  rw [if_neg hretired]
  refine (if_neg hretired).trans ?_
  by_cases hproven : Proven h.outcomes
  · rw [if_pos hproven]
    exact if_pos (proven_iff.mpr hproven)
  rw [if_neg hproven]
  refine (if_neg fun hconditions => hproven (proven_iff.mp hconditions)).trans ?_
  by_cases hfailed : hasFailed h.outcomes = true
  · rw [if_pos hfailed]
    exact if_pos hfailed
  · rw [if_neg hfailed]
    exact if_neg hfailed

/-! ## The order of the outcomes -/

theorem Proven.perm (hperm : outcomes.Perm outcomes') (h : Proven outcomes) : Proven outcomes' := by
  have hsuccesses : (successes outcomes).Perm (successes outcomes') := hperm.filter _
  refine ⟨?_, ?_, ?_⟩
  · exact hsuccesses.length_eq ▸ h.repeated
  · exact fun item hitem => h.safe item (hsuccesses.mem_iff.mpr hitem)
  · rw [← hsuccesses.length_eq, ← (hsuccesses.map _).sum_eq]
    exact h.good

theorem decidedState_perm (hperm : outcomes.Perm outcomes') : decidedState outcomes = decidedState outcomes' := by
  have hregressions : regressions outcomes = regressions outcomes' := hperm.countP_eq _
  have hproven : Proven outcomes ↔ Proven outcomes' := ⟨.perm hperm, .perm hperm.symm⟩
  have hfailed : hasFailed outcomes = hasFailed outcomes' := hperm.any_eq
  unfold decidedState
  simp only [hregressions, hproven, hfailed]

/-- The outcomes of an asset in another order. -/
def OutcomeHistory.reorder (h : OutcomeHistory asset) (hperm : outcomes.Perm h.outcomes) : OutcomeHistory asset where
  outcomes := outcomes
  nonempty := fun hnil => h.nonempty (List.nil_perm.mp (hnil ▸ hperm))
  owned := fun item hitem => h.owned item (hperm.mem_iff.mp hitem)

/-! ## More outcomes -/

theorem decidedState_eq_retired_iff : decidedState outcomes = .retired ↔ 2 ≤ regressions outcomes := by
  unfold decidedState
  split_ifs with h <;> simp [h]

/-- An asset retired stays retired. -/
theorem retired_of_extension (hsub : outcomes.Subperm outcomes') (h : decidedState outcomes = .retired) :
    decidedState outcomes' = .retired := by
  rw [decidedState_eq_retired_iff] at h ⊢
  exact h.trans (hsub.countP_le _)

theorem hasFailed_iff : hasFailed outcomes = true ↔ ∃ item ∈ outcomes, item.outcome = .failure ∨ item.outcome = .regression := by
  rw [hasFailed, List.any_eq_true]
  simp only [Bool.or_eq_true, decide_eq_true_eq]

/-- An asset that failed is no candidate. -/
theorem ne_candidate_of_extension (hsub : outcomes.Subperm outcomes') (h : hasFailed outcomes = true) :
    decidedState outcomes' ≠ .candidate := by
  have hfailed : hasFailed outcomes' = true := by
    obtain ⟨item, hitem, houtcome⟩ := hasFailed_iff.mp h
    exact hasFailed_iff.mpr ⟨item, hsub.subset hitem, houtcome⟩
  unfold decidedState
  rw [if_pos hfailed]
  split_ifs <;> exact nofun

theorem decidedState_eq_promoted_iff : decidedState outcomes = .promoted ↔ regressions outcomes ≤ 1 ∧ Proven outcomes := by
  unfold decidedState
  split_ifs with hretired hproven
  · exact iff_of_false nofun fun h => absurd hretired (by omega)
  · exact iff_of_true rfl ⟨by omega, hproven⟩
  · exact iff_of_false nofun fun h => hproven h.2
  · exact iff_of_false nofun fun h => hproven h.2

/-- The state of an asset does not depend on the order of its outcomes; an asset that is retired stays so, and one
that failed or regressed is never a candidate again, with whatever outcomes are added; and an asset is promoted
exactly with at most one regression and at least three successes, all of them safe and good on the whole. -/
theorem asset_state_laws (h : OutcomeHistory asset) :
    (∃ state, nextAssetState asset h.outcomes = .ok state) ∧
      (∀ outcomes, outcomes.Perm h.outcomes → nextAssetState asset outcomes = nextAssetState asset h.outcomes) ∧
      (∀ h' : OutcomeHistory asset, h.outcomes.Subperm h'.outcomes →
        (nextAssetState asset h.outcomes = .ok .retired → nextAssetState asset h'.outcomes = .ok .retired) ∧
          ((∃ item ∈ h.outcomes, item.outcome = .failure ∨ item.outcome = .regression) →
            nextAssetState asset h'.outcomes ≠ .ok .candidate)) ∧
      (nextAssetState asset h.outcomes = .ok .promoted ↔ regressions h.outcomes ≤ 1 ∧ Proven h.outcomes) := by
  refine ⟨⟨_, h.nextAssetState_eq⟩, ?_, ?_, ?_⟩
  · intro outcomes hperm
    calc nextAssetState asset outcomes = .ok (decidedState outcomes) := (h.reorder hperm).nextAssetState_eq
      _ = .ok (decidedState h.outcomes) := congrArg Except.ok (decidedState_perm hperm)
      _ = nextAssetState asset h.outcomes := h.nextAssetState_eq.symm
  · intro h' hsub
    rw [h.nextAssetState_eq, h'.nextAssetState_eq]
    refine ⟨fun hretired => ?_, fun hfailed => ?_⟩
    · exact congrArg Except.ok (retired_of_extension hsub (Except.ok.inj hretired))
    · exact fun hcandidate => ne_candidate_of_extension hsub (hasFailed_iff.mpr hfailed) (Except.ok.inj hcandidate)
  · rw [h.nextAssetState_eq, Except.ok.injEq]
    exact decidedState_eq_promoted_iff

namespace Sample

/-- An asset. -/
def component : SolutionAsset where
  assetId := uuidText 7
  kind := .codeComponent
  label := lit "component"
  contentSha256 := List.replicate 64 0x61
  state := .candidate
  identified := isUuid_uuidText 7
  described := by decide +kernel

/-- An outcome of the asset, safe and good. -/
def outcome (kind : OutcomeKind) : SolutionOutcome where
  assetId := uuidText 7
  syntheticRunSha256 := List.replicate 64 0x61
  evaluatorRunId := uuidText 1
  outcome := kind
  primaryQuality := 9 / 10
  safetyQuality := 9 / 10
  accepted := by
    simp only [SolutionOutcomeFields.check, isUuid_uuidText, Bool.true_and]
    decide +kernel

/-- Outcomes of the asset. -/
def history (kinds : List OutcomeKind) (hkinds : kinds ≠ []) : OutcomeHistory component where
  outcomes := kinds.map outcome
  nonempty := fun hnil => hkinds (List.map_eq_nil_iff.mp hnil)
  owned := fun item hitem => by
    obtain ⟨kind, -, rfl⟩ := List.mem_map.mp hitem
    rfl

/-- A success, a failure and a regression. -/
def mixed : OutcomeHistory component := history [.success, .failure, .regression] (List.cons_ne_nil _ _)

/-- The same with another regression. -/
def regressed : OutcomeHistory component :=
  history [.success, .failure, .regression, .regression] (List.cons_ne_nil _ _)

/-- The same with three more successes, behind which the rest would promote the asset. -/
def recovered : OutcomeHistory component :=
  history [.success, .failure, .regression, .regression, .success, .success, .success] (List.cons_ne_nil _ _)

end Sample

/-- An asset that failed is watched, retired by its second regression and retired still with three more successes. -/
theorem asset_state_laws_retired :
    nextAssetState Sample.component Sample.mixed.outcomes = .ok .watchlist ∧
      nextAssetState Sample.component Sample.regressed.outcomes ≠ .ok .candidate ∧
      nextAssetState Sample.component Sample.regressed.outcomes = .ok .retired ∧
      nextAssetState Sample.component Sample.recovered.outcomes = .ok .retired := by
  have hmixed : Sample.mixed.outcomes.Subperm Sample.regressed.outcomes :=
    (List.sublist_append_left Sample.mixed.outcomes [Sample.outcome .regression]).subperm
  have hregressed : Sample.regressed.outcomes.Subperm Sample.recovered.outcomes :=
    (List.sublist_append_left Sample.regressed.outcomes (List.replicate 3 (Sample.outcome .success))).subperm
  have hretired : nextAssetState Sample.component Sample.regressed.outcomes = .ok .retired := by decide +kernel
  have hfailed : ∃ item ∈ Sample.mixed.outcomes, item.outcome = .failure ∨ item.outcome = .regression :=
    ⟨Sample.outcome .failure, List.mem_cons_of_mem _ List.mem_cons_self, .inl rfl⟩
  refine ⟨by decide +kernel, ?_, hretired, ?_⟩
  · exact ((asset_state_laws Sample.mixed).2.2.1 Sample.regressed hmixed).2 hfailed
  · exact ((asset_state_laws Sample.regressed).2.2.1 Sample.recovered hregressed).1 hretired

end NeuroLab.Evaluation
