import NeuroLab.Research.Claims
import NeuroLab.Research.Sample

/-!
# The verification status of a source

Discovery stores and refreshes sources, and its upsert leaves the status of a stored source
alone. The only statement that sets a status is the last one of `persist_reviewed_claim`,
for a human's claim, so the rank of a source never falls and rises with a human's claim only.
-/

namespace NeuroLab.Research

open Python Common Postgres

variable {site : Site} {db db' : Database}

/-- Every source stays, at the same rank or a higher one. -/
def RanksRise (db db' : Database) : Prop :=
  ∀ k s, db.sources.find? k = some s →
    ∃ s', db'.sources.find? k = some s' ∧ s.verificationStatus.rank ≤ s'.verificationStatus.rank

theorem RanksRise.refl (db : Database) : RanksRise db db := fun _ s hs => ⟨s, hs, le_refl _⟩

theorem RanksRise.trans {db₁ db₂ db₃ : Database} (h : RanksRise db₁ db₂) (h' : RanksRise db₂ db₃) :
    RanksRise db₁ db₃ := by
  intro k s hs
  obtain ⟨s₁, hs₁, hle⟩ := h k s hs
  obtain ⟨s₂, hs₂, hle'⟩ := h' k s₁ hs₁
  exact ⟨s₂, hs₂, hle.trans hle'⟩

/-- No status ranks above that of verified content. -/
theorem VerificationStatus.rank_le (status : VerificationStatus) : status.rank ≤ contentVerified.rank := by
  cases status <;> decide

/-- A call does not lower the rank of a source. -/
theorem ranksRise_of_effect {call : Call site.host.py} {reply : Except Raised Str}
    (heffect : Effect site db call (db', reply)) : RanksRise db db' := by
  cases heffect with
  | run hassessments _ _ hfold =>
    have hingested := ingested_of_run hassessments hfold
    intro k s hs
    obtain ⟨s', hs'⟩ := Option.isSome_iff_exists.mp (hingested.kept k (by rw [hs]; rfl))
    rcases hingested.source k s' hs' with ⟨s₀, hs₀, hstatus⟩ | ⟨hnone, -⟩
    · cases hs.symm.trans hs₀
      exact ⟨s', hs', le_of_eq (congrArg VerificationStatus.rank hstatus.symm)⟩
    · cases hs.symm.trans hnone
  | @claim _ _ _ claim =>
    cases hassessor : claim.assessment.assessor with
    | approvedModel =>
      rw [verifySource_model _ hassessor]
      exact .refl _
    | human =>
      intro k s hs
      refine ⟨_, (find?_verifySource_human _ hassessor k).trans (by rw [hs, Option.map_some]), ?_⟩
      split
      · exact s.verificationStatus.rank_le
      · exact le_refl _
  | _ => exact .refl _

/-- A human's claim on pages of a stored document of the source. -/
def ReviewsSource (db : Database) (call : Call site.host.py) (k : Str) : Prop :=
  ∃ id now claim documentId document, call = .persistReviewedClaim id now claim ∧
    claim.assessment.assessor = .human ∧ uuid claim.documentId = some documentId ∧
    db.documents.find? documentId = some document ∧ document.sourceKey = k ∧ claim.pageEnd ≤ document.pageCount

/-- A source becomes verified in a human's claim on one of its documents. -/
theorem reviewsSource_of_effect {call : Call site.host.py} {reply : Except Raised Str}
    (heffect : Effect site db call (db', reply)) {k : Str} {s' : SourceRow} (hs' : db'.sources.find? k = some s')
    (hverified : s'.verificationStatus = .contentVerified)
    (hbefore : ∀ s, db.sources.find? k = some s → s.verificationStatus ≠ .contentVerified) :
    ReviewsSource db call k := by
  cases heffect with
  | run hassessments _ _ hfold =>
    rcases (ingested_of_run hassessments hfold).source k s' hs' with ⟨s, hs, hstatus⟩ | ⟨-, hobserved⟩
    · exact absurd (hstatus.symm.trans hverified) (hbefore s hs)
    · cases hobserved.symm.trans hverified
  | @claim id documentId now claim document _ _ _ _ hid hdocument hpages =>
    cases hassessor : claim.assessment.assessor with
    | approvedModel =>
      rw [verifySource_model _ hassessor] at hs'
      exact absurd hverified (hbefore s' hs')
    | human =>
      replace hs' := (find?_verifySource_human _ hassessor k).symm.trans hs'
      obtain ⟨s, hs, rfl⟩ := Option.map_eq_some_iff.mp hs'
      by_cases hkey : char64 claim.sourceKey = some k
      · obtain ⟨hfound, hsource⟩ := Option.filter_eq_some_iff.mp hdocument
        have hdocumentKey : document.sourceKey = k :=
          Option.some.inj ((of_decide_eq_true hsource).symm.trans hkey)
        exact ⟨id, now, claim, documentId, document, rfl, hassessor, hid, hfound, hdocumentKey, hpages⟩
      · rw [if_neg hkey] at hverified
        exact absurd hverified (hbefore s hs)
  | _ => exact absurd hverified (hbefore s' hs')

/-- In every run of calls in any order: no source loses rank; a call that verifies a source is a human's
claim on pages of a stored document of that source; and a call that raises changes no row of any table. -/
theorem verification_ranked_and_gated {h : History Database (Call site.host.py)} (run : (corpus site).Run h db) :
    (∀ x ∈ h, RanksRise x.1 db) ∧
    (∀ x ∈ h, ∀ k s', (x.2.run site x.1).1.sources.find? k = some s' → s'.verificationStatus = .contentVerified →
      (∀ s, x.1.sources.find? k = some s → s.verificationStatus ≠ .contentVerified) → ReviewsSource x.1 x.2 k) ∧
    ∀ x ∈ h, ∀ e, (x.2.run site x.1).2 = .error e → (x.2.run site x.1).1 = x.1 := by
  refine ⟨?_, fun x _ k s' hs' hverified hbefore => ?_, fun x _ e he => unchanged_of_raised he⟩
  · refine run.related (R := RanksRise) (fun _ _ _ => RanksRise.trans) fun s call s' hstep => ?_
    obtain ⟨reply, heffect⟩ := effect_of_step hstep
    exact ranksRise_of_effect heffect
  · exact reviewsSource_of_effect (effect_of_run x.2) hs' hverified hbefore

/-- A run in which a human's claim verifies its source. -/
theorem verification_ranked_and_gated_verified :
    ∃ (h : History Database (Call Sample.site.host.py)) (db : Database), (corpus Sample.site).Run h db ∧
      db.sources.rows.any (fun s => s.verificationStatus = .contentVerified) = true ∧ ∀ x ∈ h, RanksRise x.1 db := by
  obtain ⟨h, db, run, htest⟩ := System.exists_run (corpus Sample.site)
    (Sample.acquire ++ [.persistReviewedClaim 7 70 (Sample.claim .human)])
    (fun _ (db : Database) => db.sources.rows.any fun s => s.verificationStatus = .contentVerified) (by decide +kernel)
  exact ⟨h, db, run, htest, (verification_ranked_and_gated run).1⟩

end NeuroLab.Research
