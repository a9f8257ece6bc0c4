import NeuroLab.Research.Claims
import NeuroLab.Research.Sample

/-!
# Evidence backed by a current human review

A verified source should have a reviewed claim that a human assessed, and an artifact
receipt should point to a reviewed claim of its source. Both are checked when they are
set; afterwards a claim with the same document and summary may rewrite the claim they rest
on. The property holds throughout a run exactly when no such rewrite takes the last
backing away.
-/

namespace NeuroLab.Research

open Python Common Postgres

variable {site : Site} {db db' : Database}

/-- The claim of an id backs a source: it is reviewed and a human assessed it. -/
def Backing (db : Database) (sourceKey : Str) (id : Uuid) : Prop :=
  ∃ c a, db.claims.find? id = some c ∧ c.sourceKey = sourceKey ∧ c.reviewerStatus = .reviewed ∧
    db.claimAssessments.find? id = some a ∧ a.assessor = .human

/-- Verified sources and artifact receipts rest on reviewed claims. -/
structure Backed (db : Database) : Prop where
  source : ∀ k s, db.sources.find? k = some s → s.verificationStatus = .contentVerified → ∃ id, Backing db k id
  artifact : ∀ k r, db.artifactReceipts.find? k = some r → ∃ c, db.claims.find? r.claimId = some c ∧
    c.sourceKey = r.sourceKey ∧ c.reviewerStatus = .reviewed

/-- What a call may overwrite: a model's claim, no reviewed claim with a receipt and none that alone backs a
verified source; a human's claim, one that a human assessed, unless another claim backs the source. -/
def LeavesBacking (db : Database) : Call site.host.py → Prop
  | .persistReviewedClaim _ _ claim => ∀ r, overwritten db claim = some r →
      match claim.assessment.assessor with
      | .approvedModel => r.reviewerStatus = .reviewed →
          (∀ k receipt, db.artifactReceipts.find? k = some receipt → receipt.claimId ≠ r.id) ∧
            ∀ s, db.sources.find? r.sourceKey = some s → s.verificationStatus = .contentVerified →
              ∃ id, id ≠ r.id ∧ Backing db r.sourceKey id
      | .human => (∃ a, db.claimAssessments.find? r.id = some a ∧ a.assessor = .human) ∨
          ∃ id, Backing db r.sourceKey id
  | _ => True

/-! ## One claim stored -/

section Stored

variable {claim : ReviewedClaim} {id : Uuid}

/-- Claims of other ids back what they backed. -/
theorem ClaimStored.backing_iff (h : ClaimStored db db' claim id) {sourceKey : Str} {k : Uuid} (hk : k ≠ id) :
    Backing db' sourceKey k ↔ Backing db sourceKey k := by
  unfold Backing
  rw [h.otherClaim k hk, h.otherAssessment k hk]

/-- The claim of a model awaits review. -/
theorem ClaimStored.not_reviewed (h : ClaimStored db db' claim id) (hmodel : claim.assessment.assessor = .approvedModel)
    {c : ClaimRow} (hc : db'.claims.find? id = some c) : c.reviewerStatus ≠ .reviewed := by
  obtain ⟨c', hc', -, hstatus⟩ := h.stored
  cases hc.symm.trans hc'
  rw [hstatus, ReviewedClaim.reviewerStatus, hmodel]
  exact nofun

/-- A human's claim backs its source if the assessment it found, if any, was a human's. -/
theorem ClaimStored.backing_of_human (h : ClaimStored db db' claim id) (hhuman : claim.assessment.assessor = .human)
    (hassessed : ∀ a, db.claimAssessments.find? id = some a → a.assessor = .human) {sourceKey : Str}
    (hkey : char64 claim.sourceKey = some sourceKey) : Backing db' sourceKey id := by
  obtain ⟨c, hc, hsource, hstatus⟩ := h.stored
  obtain ⟨a, ha, hassessor⟩ := h.assessed
  refine ⟨c, a, hc, Option.some.inj (hsource.symm.trans hkey), ?_, ha, ?_⟩
  · rw [hstatus, ReviewedClaim.reviewerStatus, hhuman]
    rfl
  · cases hfound : db.claimAssessments.find? id with
    | none =>
      rw [hassessor, hfound]
      exact hhuman
    | some a₀ =>
      rw [hassessor, hfound]
      exact hassessed a₀ hfound

/-- The source of the claim that a call overwrites is the claim's. -/
theorem sourceKey_of_overwritten {r : ClaimRow} (hlinked : ClaimsLinked db) (h : overwritten db claim = some r) :
    char64 claim.sourceKey = some r.sourceKey ∧ (db.sources.find? r.sourceKey).isSome = true := by
  obtain ⟨hfound, hkey⟩ := find?_of_overwritten h
  obtain ⟨d, hd, hsource⟩ := hlinked.source _ _ hfound
  rw [hd, Option.map_some, hsource] at hkey
  exact ⟨hkey, hsource ▸ hlinked.known _ _ hd⟩

/-- A model's claim may be stored over a reviewed one only if nothing rests on that one. -/
theorem ClaimStored.leaves_of_model {r : ClaimRow} (h : ClaimStored db db' claim r.id) (hbacked : Backed db')
    (hmodel : claim.assessment.assessor = .approvedModel) :
    (∀ k receipt, db.artifactReceipts.find? k = some receipt → receipt.claimId ≠ r.id) ∧
      ∀ s, db.sources.find? r.sourceKey = some s → s.verificationStatus = .contentVerified →
        ∃ id, id ≠ r.id ∧ Backing db r.sourceKey id := by
  constructor
  · intro k receipt hreceipt hid
    rw [← h.artifacts] at hreceipt
    obtain ⟨c, hc, -, hreviewed⟩ := hbacked.artifact k receipt hreceipt
    rw [hid] at hc
    exact h.not_reviewed hmodel hc hreviewed
  · intro s hs hverified
    have hsources := verifySource_model db.sources hmodel
    rw [← hsources, ← h.sources] at hs
    obtain ⟨id, hbacking⟩ := hbacked.source _ s hs hverified
    have hne : id ≠ r.id := by
      rintro rfl
      obtain ⟨c, _, hc, -, hreviewed, -⟩ := hbacking
      exact h.not_reviewed hmodel hc hreviewed
    exact ⟨id, hne, (h.backing_iff hne).mp hbacking⟩

/-- A human's claim may be stored over a model's only if another claim backs the source. -/
theorem ClaimStored.leaves_of_human {r : ClaimRow} (h : ClaimStored db db' claim r.id) (hlinked : ClaimsLinked db)
    (hr : overwritten db claim = some r) (hbacked : Backed db') (hhuman : claim.assessment.assessor = .human) :
    (∃ a, db.claimAssessments.find? r.id = some a ∧ a.assessor = .human) ∨ ∃ id, Backing db r.sourceKey id := by
  obtain ⟨hkey, hknown⟩ := sourceKey_of_overwritten hlinked hr
  obtain ⟨s, hs⟩ := Option.isSome_iff_exists.mp hknown
  have hverified : db'.sources.find? r.sourceKey = some s.verify := by
    rw [h.sources, find?_verifySource_human _ hhuman, hs, Option.map_some, if_pos hkey]
  obtain ⟨id, hbacking⟩ := hbacked.source _ _ hverified rfl
  by_cases hid : id = r.id
  · subst hid
    obtain ⟨-, a, -, -, -, ha, hassessor⟩ := hbacking
    obtain ⟨a', ha', hkept⟩ := h.assessed
    cases ha.symm.trans ha'
    have hfound := hlinked.assessed r.id
    rw [(find?_of_overwritten hr).1, Option.isSome_some] at hfound
    obtain ⟨a₀, ha₀⟩ := Option.isSome_iff_exists.mp hfound
    rw [hassessor, ha₀] at hkept
    exact Or.inl ⟨a₀, ha₀, hkept.symm⟩
  · exact Or.inr ⟨id, (h.backing_iff hid).mp hbacking⟩

/-- A model's claim that overwrites nothing in use keeps everything backed. -/
theorem ClaimStored.backed_of_model (h : ClaimStored db db' claim id) (hbacked : Backed db)
    (hmodel : claim.assessment.assessor = .approvedModel)
    (hguard : ∀ r, overwritten db claim = some r → r.reviewerStatus = .reviewed →
      (∀ k receipt, db.artifactReceipts.find? k = some receipt → receipt.claimId ≠ r.id) ∧
        ∀ s, db.sources.find? r.sourceKey = some s → s.verificationStatus = .contentVerified →
          ∃ id, id ≠ r.id ∧ Backing db r.sourceKey id) : Backed db' := by
  -- the claim stored before under the id, if any, is the one overwritten
  have hprevious : ∀ c, db.claims.find? id = some c → overwritten db claim = some c := by
    intro c hc
    have htarget := h.target
    split at htarget
    · next r hr =>
      subst htarget
      cases hc.symm.trans (find?_of_overwritten hr).1
      exact hr
    · cases hc.symm.trans htarget
  constructor
  · intro k s hs hverified
    rw [h.sources, verifySource_model _ hmodel] at hs
    obtain ⟨k₀, hbacking⟩ := hbacked.source k s hs hverified
    by_cases hid : k₀ = id
    · subst hid
      obtain ⟨c, _, hc, rfl, hreviewed, -⟩ := hbacking
      have hcid : c.id = k₀ := Table.key_of_find? hc
      obtain ⟨id', hne, hbacking'⟩ := (hguard c (hprevious c hc) hreviewed).2 s hs hverified
      rw [hcid] at hne
      exact ⟨id', (h.backing_iff hne).mpr hbacking'⟩
    · exact ⟨k₀, (h.backing_iff hid).mpr hbacking⟩
  · intro k receipt hreceipt
    rw [h.artifacts] at hreceipt
    obtain ⟨c, hc, hsource, hreviewed⟩ := hbacked.artifact k receipt hreceipt
    have hne : receipt.claimId ≠ id := by
      intro hid
      rw [hid] at hc
      have hcid : c.id = id := Table.key_of_find? hc
      exact (hguard c (hprevious c hc) hreviewed).1 k receipt hreceipt (hid.trans hcid.symm)
    exact ⟨c, (h.otherClaim _ hne).trans hc, hsource, hreviewed⟩

/-- A human's claim that finds a human's assessment, or another backing of the source, keeps everything backed. -/
theorem ClaimStored.backed_of_human (h : ClaimStored db db' claim id) (hlinked : ClaimsLinked db) (hbacked : Backed db)
    (hhuman : claim.assessment.assessor = .human)
    (hguard : ∀ r, overwritten db claim = some r →
      (∃ a, db.claimAssessments.find? r.id = some a ∧ a.assessor = .human) ∨ ∃ id, Backing db r.sourceKey id) :
    Backed db' := by
  have hsource : ∀ c, db.claims.find? id = some c → char64 claim.sourceKey = some c.sourceKey := by
    intro c hc
    have htarget := h.target
    split at htarget
    · next r hr =>
      subst htarget
      cases hc.symm.trans (find?_of_overwritten hr).1
      exact (sourceKey_of_overwritten hlinked hr).1
    · cases hc.symm.trans htarget
  -- what backed a source still does
  have keep : ∀ k k₀, Backing db k k₀ → Backing db' k k₀ := by
    intro k k₀ hbacking
    by_cases hid : k₀ = id
    · subst hid
      obtain ⟨c, a, hc, rfl, -, ha, hassessor⟩ := hbacking
      refine h.backing_of_human hhuman (fun a' ha' => ?_) (hsource c hc)
      cases ha.symm.trans ha'
      exact hassessor
    · exact (h.backing_iff hid).mpr hbacking
  constructor
  · intro k s hs hverified
    rw [h.sources, find?_verifySource_human _ hhuman] at hs
    obtain ⟨s₀, hs₀, rfl⟩ := Option.map_eq_some_iff.mp hs
    by_cases hkey : char64 claim.sourceKey = some k
    · have htarget := h.target
      split at htarget
      · next r hr =>
        subst htarget
        rcases hguard r hr with ⟨a, ha, hassessor⟩ | ⟨k₀, hbacking⟩
        · refine ⟨_, h.backing_of_human hhuman (fun a' ha' => ?_) hkey⟩
          cases ha.symm.trans ha'
          exact hassessor
        · cases (sourceKey_of_overwritten hlinked hr).1.symm.trans hkey
          exact ⟨k₀, keep _ _ hbacking⟩
      · refine ⟨_, h.backing_of_human hhuman (fun a ha => ?_) hkey⟩
        have hassessed := hlinked.assessed id
        rw [ha, htarget] at hassessed
        cases hassessed
    · rw [if_neg hkey] at hverified
      obtain ⟨k₀, hbacking⟩ := hbacked.source k s₀ hs₀ hverified
      exact ⟨k₀, keep _ _ hbacking⟩
  · intro k receipt hreceipt
    rw [h.artifacts] at hreceipt
    obtain ⟨c, hc, hkey, hreviewed⟩ := hbacked.artifact k receipt hreceipt
    by_cases hid : receipt.claimId = id
    · obtain ⟨c', hc', hkey', hstatus⟩ := h.stored
      rw [hid] at hc ⊢
      rw [hsource c hc] at hkey'
      refine ⟨c', hc', (Option.some.inj hkey').symm.trans hkey, ?_⟩
      rw [hstatus, ReviewedClaim.reviewerStatus, hhuman]
      rfl
    · exact ⟨c, (h.otherClaim _ hid).trans hc, hkey, hreviewed⟩

end Stored

/-! ## Runs -/

/-- Calls other than `persist_reviewed_claim` keep everything backed. -/
theorem backed_of_other {call : Call site.host.py} {reply : Except Raised Str} (hbacked : Backed db)
    (heffect : Effect site db call (db', reply)) (hcall : ∀ id now claim, call ≠ .persistReviewedClaim id now claim) :
    Backed db' := by
  cases heffect with
  | run hassessments _ _ hfold =>
    have hingested := ingested_of_run hassessments hfold
    have hframe := hingested.frame
    constructor
    · intro k s hs hverified
      rcases hingested.source k s hs with ⟨s₀, hs₀, hstatus⟩ | ⟨-, hobserved⟩
      · obtain ⟨id, hbacking⟩ := hbacked.source k s₀ hs₀ (hstatus.symm.trans hverified)
        rw [hframe]
        exact ⟨id, hbacking⟩
      · rw [hobserved] at hverified
        cases hverified
    · rw [hframe]
      exact hbacked.artifact
  | claim => exact absurd rfl (hcall _ _ _)
  | artifact _ hid hclaim hkey hreviewed hupserted =>
    refine ⟨hbacked.source, hupserted.forall hbacked.artifact ⟨_, hid ▸ hclaim, hkey, hreviewed⟩ fun r htaken => ?_⟩
    exact hbacked.artifact _ r (Indexed.taken?_eq_some htaken).1
  | _ => exact ⟨hbacked.source, hbacked.artifact⟩

/-- One call keeps everything backed exactly if it overwrites no claim in use. -/
theorem backed_step {call : Call site.host.py} (hlinked : ClaimsLinked db) (hbacked : Backed db)
    (hstep : (corpus site).step db call = some db') : Backed db' ↔ LeavesBacking db call := by
  by_cases hcall : ∀ id now claim, call ≠ .persistReviewedClaim id now claim
  · obtain ⟨reply, heffect⟩ := effect_of_step hstep
    refine iff_of_true (backed_of_other hbacked heffect hcall) ?_
    cases call with
    | persistReviewedClaim id now claim => exact absurd rfl (hcall id now claim)
    | _ => trivial
  · push Not at hcall
    obtain ⟨id, now, claim, rfl⟩ := hcall
    constructor
    · intro h' r hr
      have hrun : (persistReviewedClaim id now claim db).1 = db' := Option.some.inj hstep
      have hstored := claimStored_of_overwritten site id now hlinked hr
      rw [hrun] at hstored
      split
      · next hmodel => exact fun _ => hstored.leaves_of_model h' hmodel
      · next hhuman => exact hstored.leaves_of_human hlinked hr h' hhuman
    · intro hguard
      obtain ⟨reply, heffect⟩ := effect_of_step hstep
      rcases claimStored_of_effect hlinked heffect with ⟨-, -, rfl⟩ | ⟨k, hstored⟩
      · exact hbacked
      · cases hassessor : claim.assessment.assessor with
        | approvedModel =>
          refine hstored.backed_of_model hbacked hassessor fun r hr => ?_
          have hleaves := hguard r hr
          rw [hassessor] at hleaves
          exact hleaves
        | human =>
          refine hstored.backed_of_human hlinked hbacked hassessor fun r hr => ?_
          have hleaves := hguard r hr
          rw [hassessor] at hleaves
          exact hleaves

/-- Throughout a run all evidence is backed, exactly if no call overwrote a claim in use. -/
theorem backed_iff_leaves_backing {h : History Database (Call site.host.py)} (run : (corpus site).Run h db) :
    System.AllStates Backed h db ↔ System.AllSteps LeavesBacking h :=
  run.allStates_iff_allSteps ⟨fun _ _ hs => (nomatch hs), fun _ _ hr => (nomatch hr)⟩
    fun _ _ _ _ run hbacked hstep => backed_step (claimsLinked_of_run run) hbacked hstep

/-- A run with a verified source. -/
theorem backed_iff_leaves_backing_verified :
    ∃ (h : History Database (Call Sample.site.host.py)) (db : Database), (corpus Sample.site).Run h db ∧
      (db.sources.rows.any (fun s => s.verificationStatus = .contentVerified) = true ∧
        (System.AllStates Backed h db ↔ System.AllSteps LeavesBacking h)) := by
  obtain ⟨h, db, run, htest⟩ := System.exists_run (corpus Sample.site)
    (Sample.acquire ++ [.persistReviewedClaim 7 70 (Sample.claim .human)])
    (fun _ (db : Database) => db.sources.rows.any fun s => s.verificationStatus = .contentVerified) (by decide +kernel)
  exact ⟨h, db, run, htest, backed_iff_leaves_backing run⟩

/-- A model's claim takes the only review of a verified source back. -/
theorem verified_without_review :
    ∃ (h : History Database (Call Sample.site.host.py)) (db : Database), (corpus Sample.site).Run h db ∧
      ¬Backed db := by
  obtain ⟨h, db, run, htest⟩ := System.exists_run (corpus Sample.site)
    (Sample.acquire ++ [.persistReviewedClaim 7 70 (Sample.claim .human),
      .persistReviewedClaim 8 80 (Sample.claim .approvedModel)])
    (fun _ (db : Database) => db.sources.rows.any (fun s => s.verificationStatus = .contentVerified) &&
      db.claims.rows.all fun c => c.reviewerStatus = .needsReview) (by decide +kernel)
  obtain ⟨hverified, hawaiting⟩ := Bool.and_eq_true_iff.mp htest
  obtain ⟨s, hs, hverified⟩ := List.any_eq_true.mp hverified
  refine ⟨h, db, run, fun hbacked => ?_⟩
  obtain ⟨id, c, _, hc, -, hreviewed, -⟩ :=
    hbacked.source _ s ((db.sources.mem_rows_iff s).mp hs) (of_decide_eq_true hverified)
  have hmem := ((db.claims.find?_eq_some_iff id c).mp hc).1
  have hneeds : c.reviewerStatus = .needsReview := of_decide_eq_true (List.all_eq_true.mp hawaiting c hmem)
  rw [hreviewed] at hneeds
  cases hneeds

end NeuroLab.Research
