import NeuroLab.Research.Cards
import NeuroLab.Research.Claims

/-!
# What a model may overwrite

A call of a model should leave every human decision as it is, in every column: reviewed
claims, assessments of a human, decided cards. Cards are guarded by the WHERE of their
upsert. Claims are not: the upsert takes over the stored claim with the same document and
summary, whoever reviewed it.
-/

namespace NeuroLab.Research

open Python Common Postgres

variable {site : Site} {db db' : Database}

/-- A call that originates from a model. -/
def ModelOriginated : Call site.host.py → Prop
  | .persistReviewedClaim _ _ claim => claim.assessment.assessor = .approvedModel
  | .persistDocumentCard _ _ _ => True
  | .persistDiagramCard _ _ _ => True
  | _ => False

/-- Every human decision is kept in all its columns. -/
structure DecisionsKept (db db' : Database) : Prop where
  claim : ∀ k r, db.claims.find? k = some r → r.reviewerStatus = .reviewed → db'.claims.find? k = some r
  assessment : ∀ k a, db.claimAssessments.find? k = some a → a.assessor = .human →
    db'.claimAssessments.find? k = some a
  documentCard : ∀ k r, db.documentCards.find? k = some r → r.reviewerStatus ≠ .needsReview →
    db'.documentCards.find? k = some r
  diagramCard : ∀ k r, db.diagramCards.find? k = some r → r.reviewerStatus ≠ .needsReview →
    db'.diagramCards.find? k = some r

/-- The claim is not that of a stored claim which a human reviewed, nor of one whose human assessment has
other columns than the call writes. -/
def TakesOverNoDecision (db : Database) : Call site.host.py → Prop
  | .persistReviewedClaim _ now claim => ∀ r, overwritten db claim = some r →
      r.reviewerStatus ≠ .reviewed ∧
        ∀ a row, db.claimAssessments.find? r.id = some a → a.assessor = .human →
          newClaimAssessment r.id now claim.assessment = some row → row.revise a = a
  | _ => True

/-- Where a key is found, an upsert under it leaves the assigned row. -/
theorem find?_upsert_of_find? {row a : ClaimAssessmentRow} {k : Uuid} (hkey : row.claimId = k)
    (ha : db.claimAssessments.find? k = some a) :
    (db.claimAssessments.upsert row row.revise row.revise_claimId).find? k = some (row.revise a) := by
  rw [Table.find?_upsert, if_pos hkey, ha, Option.map_some, Option.getD_some]

/-- A claim that takes over a decision changes it. -/
theorem takesOverNoDecision_of_kept {call : Call site.host.py} (hmodel : ModelOriginated call)
    (h : DecisionsKept db (call.run site db).1) : TakesOverNoDecision db call := by
  cases call with
  | persistReviewedClaim id now claim =>
    intro r hr
    obtain ⟨row, assessment, claims, hrow, hassessment, hfind, hdb⟩ := persistReviewedClaim_of_overwritten id now hr
    have hfound := (find?_of_overwritten hr).1
    rw [Call.run, hdb] at h
    constructor
    · intro hreviewed
      have hkept : claims.find? r.id = some r := h.claim r.id r hfound hreviewed
      rw [hfind, if_pos rfl] at hkept
      have hsame : row.revise r = r := Option.some.inj hkept
      have hstatus := congrArg ClaimRow.reviewerStatus hsame
      have hassessor : claim.assessment.assessor = .approvedModel := hmodel
      rw [ClaimRow.revise_reviewerStatus, hreviewed, (newClaim_eq_some hrow).2.2.2.2, ReviewedClaim.reviewerStatus,
        hassessor] at hstatus
      cases hstatus
    · intro a row' ha hhuman hrow'
      cases hassessment.symm.trans hrow'
      have hkept := h.assessment r.id a ha hhuman
      rw [find?_upsert_of_find? (newClaimAssessment_eq_some hassessment).1 ha] at hkept
      exact Option.some.inj hkept
  | _ => trivial

/-- A claim that takes over no decision keeps the claims and assessments of humans. -/
theorem claims_kept_of_takesOverNoDecision {id : Uuid} {now : ℕ} {claim : ReviewedClaim} {reply : Except Raised Str}
    (hlinked : ClaimsLinked db) (h : TakesOverNoDecision db (.persistReviewedClaim id now claim : Call site.host.py))
    (heffect : Effect site db (.persistReviewedClaim id now claim) (db', reply)) :
    (∀ k r, db.claims.find? k = some r → r.reviewerStatus = .reviewed → db'.claims.find? k = some r) ∧
      ∀ k a, db.claimAssessments.find? k = some a → a.assessor = .human → db'.claimAssessments.find? k = some a := by
  cases heffect with
  | raised => exact ⟨fun _ _ hr _ => hr, fun _ _ ha _ => ha⟩
  | @claim _ _ _ _ _ row existing assessment claims hid hdocument hpages hrow hupserted hassessment =>
    have hclaimId := (newClaimAssessment_eq_some hassessment).1
    have hoverwritten := overwritten_eq hid hdocument hpages hrow hassessment
    cases hupserted with
    | @updated _ r₀ htaken _ hfind =>
      obtain ⟨hnot, hsame⟩ := h r₀ (hoverwritten.trans htaken)
      have hr₀ := (Indexed.taken?_eq_some htaken).1
      constructor
      · intro k r hr hreviewed
        refine (hfind k).trans ((if_neg ?_).trans hr)
        rintro rfl
        cases hr₀.symm.trans hr
        exact hnot hreviewed
      · intro k a ha hhuman
        by_cases hk : r₀.id = k
        · subst hk
          have hupdated := find?_upsert_of_find? hclaimId ha
          rwa [hsame a assessment ha hhuman hassessment] at hupdated
        · refine (Table.find?_upsert _ _ _ _ _).trans ((if_neg ?_).trans ha)
          rw [hclaimId]
          exact hk
    | inserted _ hfree hfind =>
      constructor
      · intro k r hr _
        refine (hfind k).trans ((if_neg ?_).trans hr)
        rintro rfl
        cases hfree.symm.trans hr
      · intro k a ha _
        refine (Table.find?_upsert _ _ _ _ _).trans ((if_neg ?_).trans ha)
        intro hk
        have hclaim := hlinked.assessed k
        rw [ha, ← hk, hclaimId, hfree] at hclaim
        cases hclaim

/-- In every reachable state a call of a model keeps every human decision, exactly if it stores no claim
over one. -/
theorem decisions_kept_iff {h : History Database (Call site.host.py)} (run : (corpus site).Run h db)
    {call : Call site.host.py} (hmodel : ModelOriginated call) :
    DecisionsKept db (call.run site db).1 ↔ TakesOverNoDecision db call := by
  refine ⟨takesOverNoDecision_of_kept hmodel, fun hsafe => ?_⟩
  have heffect : Effect site db call ((call.run site db).1, (call.run site db).2) := effect_of_run call
  have hclaims : (∀ k r, db.claims.find? k = some r → r.reviewerStatus = .reviewed →
        (call.run site db).1.claims.find? k = some r) ∧
      ∀ k a, db.claimAssessments.find? k = some a → a.assessor = .human →
        (call.run site db).1.claimAssessments.find? k = some a := by
    by_cases hcall : ∀ id now claim, call ≠ .persistReviewedClaim id now claim
    · obtain ⟨hclaims, hassessments⟩ := claims_kept heffect hcall
      rw [hclaims, hassessments]
      exact ⟨fun _ _ hr _ => hr, fun _ _ ha _ => ha⟩
    · push Not at hcall
      obtain ⟨id, now, claim, rfl⟩ := hcall
      exact claims_kept_of_takesOverNoDecision (claimsLinked_of_run run) hsafe heffect
  refine ⟨hclaims.1, hclaims.2, fun k r hr hdecided => ?_, fun k r hr hdecided => ?_⟩
  · obtain ⟨r', hr', hsame, -⟩ := documentCards_move heffect k r hr
    rw [hr', hsame hdecided]
  · obtain ⟨r', hr', hsame, -⟩ := diagramCards_move heffect k r hr
    rw [hr', hsame hdecided]

/-- A reachable state with a reviewed claim, and a model's card made in it. -/
theorem decisions_kept_iff_card :
    ∃ (h : History Database (Call Sample.site.host.py)) (db : Database) (call : Call Sample.site.host.py),
      (corpus Sample.site).Run h db ∧ ModelOriginated call ∧ TakesOverNoDecision db call ∧
        db.claims.rows.length = 1 ∧
        (DecisionsKept db (call.run Sample.site db).1 ↔ TakesOverNoDecision db call) := by
  obtain ⟨h, db, run, htest⟩ := System.exists_run (corpus Sample.site)
    (Sample.acquire ++ [.persistReviewedClaim 7 70 (Sample.claim .human)])
    (fun _ (db : Database) => decide (db.claims.rows.length = 1)) (by decide +kernel)
  exact ⟨h, db, .persistDocumentCard 5 50 Sample.documentCard, run, trivial, trivial, of_decide_eq_true htest,
    decisions_kept_iff run trivial⟩

/-- A model's claim with the summary of a reviewed claim takes the review back. -/
theorem review_taken_back :
    ∃ (h : History Database (Call Sample.site.host.py)) (db : Database) (call : Call Sample.site.host.py),
      (corpus Sample.site).Run h db ∧ ModelOriginated call ∧ ¬DecisionsKept db (call.run Sample.site db).1 := by
  obtain ⟨h, db, run, htest⟩ := System.exists_run (corpus Sample.site)
    (Sample.acquire ++ [.persistReviewedClaim 7 70 (Sample.claim .human)])
    (fun _ (db : Database) => (db.claims.find? 7).any (fun r => r.reviewerStatus = .reviewed) &&
      ((persistReviewedClaim 8 80 (Sample.claim .approvedModel) db).1.claims.find? 7).any
        fun r => r.reviewerStatus = .needsReview) (by decide +kernel)
  obtain ⟨hbefore, hafter⟩ := Bool.and_eq_true_iff.mp htest
  obtain ⟨r, hr, hreviewed⟩ := (Option.any_eq_true _ _).mp hbefore
  obtain ⟨r', hr', hawaiting⟩ := (Option.any_eq_true _ _).mp hafter
  refine ⟨h, db, .persistReviewedClaim 8 80 (Sample.claim .approvedModel), run, rfl, fun hkept => ?_⟩
  have hreviewed : r.reviewerStatus = .reviewed := of_decide_eq_true hreviewed
  have hawaiting : r'.reviewerStatus = .needsReview := of_decide_eq_true hawaiting
  cases (hkept.claim 7 r hr hreviewed).symm.trans hr'
  rw [hreviewed] at hawaiting
  cases hawaiting

end NeuroLab.Research
