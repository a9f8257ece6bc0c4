import NeuroLab.Python.JsonRoundTrip
import NeuroLab.Research.Calls

/-!
# Claims and the rows a new claim overwrites

A claim is keyed by its document and its summary, so a second claim with the same text
takes over the stored row: the upsert rewrites what the claim says and its status, and the
scores and rationale of its assessment, but not the assessor. What a call overwrites is
decided by the state before it.
-/

namespace NeuroLab.Research

open Python Common Postgres

variable {site : Site} {db db' : Database}

/-! ## What the constructor guarantees the tables -/

/-- What follows a printed number is left behind its digits. -/
theorem dropWhile_decimal (n : ℕ) {s : Str} (hs : ∀ c t, s = c :: t → isDigit c = false) :
    (decimal n ++ s).dropWhile isDigit = s := by
  have happend := List.takeWhile_append_dropWhile (p := isDigit) (l := decimal n ++ s)
  rw [span_decimal n hs] at happend
  exact List.append_cancel_left happend

/-- A printed number is a run of digits up to what follows it. -/
theorem dropPlus_decimal (n : ℕ) {s : Str} (hs : ∀ c t, s = c :: t → isDigit c = false) :
    dropPlus isDigit (decimal n ++ s) = some s := by
  rw [dropPlus, span_decimal n hs, dropWhile_decimal n hs]
  exact if_neg (by simpa using decimal_ne_nil n)

/-- The locator of a claim passes the CHECK of its column. -/
theorem isLocator_evidenceLocator (claim : ReviewedClaim) : isLocator claim.evidenceLocator = true := by
  have hdigits (n : ℕ) : dropPlus isDigit (decimal n) = some [] := by
    simpa using dropPlus_decimal n (s := []) nofun
  unfold ReviewedClaim.evidenceLocator
  split
  · have hprefix : (after? (lit "pages ") (lit "page " ++ decimal claim.pageStart)).or
        (after? (lit "page ") (lit "page " ++ decimal claim.pageStart)) = some (decimal claim.pageStart) := rfl
    rw [isLocator, hprefix, Option.bind_some, hdigits]
  · have hprefix : (after? (lit "pages ") (lit "pages " ++ decimal claim.pageStart ++ 0x2D :: decimal claim.pageEnd)).or
        (after? (lit "page ") (lit "pages " ++ decimal claim.pageStart ++ 0x2D :: decimal claim.pageEnd)) =
        some (decimal claim.pageStart ++ 0x2D :: decimal claim.pageEnd) := rfl
    have hstart := dropPlus_decimal claim.pageStart (s := 0x2D :: decimal claim.pageEnd) fun c t h => by
      cases h
      rfl
    rw [isLocator, hprefix, Option.bind_some, hstart]
    exact decide_eq_true (hdigits _)

/-- A claim whose summary can be stored has a row. -/
theorem exists_newClaim (id : Uuid) (now : ℕ) (claim : ReviewedClaim) {documentId : Uuid} {summary : Str}
    (hid : uuid claim.documentId = some documentId) (hsummary : text claim.summary = some summary) :
    ∃ row, newClaim id now claim = some row := by
  have hinline : spans 20 1200 isInline summary = true := text_eq_some hsummary ▸ claim.summary_inline
  simp [newClaim, char64_of_isDigest claim.sourceKey_digest, hid, hsummary, ClaimRow.check, hinline,
    isLocator_evidenceLocator]

/-- The columns of a new claim. -/
theorem newClaim_eq_some {id : Uuid} {now : ℕ} {claim : ReviewedClaim} {row : ClaimRow}
    (h : newClaim id now claim = some row) :
    row.id = id ∧ char64 claim.sourceKey = some row.sourceKey ∧ uuid claim.documentId = some row.documentId ∧
      text claim.summary = some row.claimSummary ∧ row.reviewerStatus = claim.reviewerStatus := by
  simp only [newClaim, Option.bind_eq_bind, Option.bind_eq_some_iff] at h
  obtain ⟨key, hkey, documentId, hid, summary, hsummary, h⟩ := h
  split at h
  · cases h
    exact ⟨rfl, hkey, hid, hsummary, rfl⟩
  · cases h

/-- A score of the unit interval is stored in it. -/
theorem exists_numeric43? {score : Option ℚ} (h : ∀ q ∈ score, 0 ≤ q ∧ q ≤ 1) :
    ∃ stored, numeric43? score = some stored ∧ stored.all inUnit = true := by
  cases score with
  | none => exact ⟨none, rfl, rfl⟩
  | some q =>
    obtain ⟨hnonneg, hle⟩ := h q rfl
    obtain ⟨q', hq', hunit⟩ := exists_numeric43 hnonneg hle
    exact ⟨some q', by rw [numeric43?, hq', Option.map_some], hunit⟩

/-- An assessment whose rationale can be stored has a row. -/
theorem exists_newClaimAssessment (claimId : Uuid) (now : ℕ) (assessment : ClaimAssessment) {rationale : List Str}
    (hrationale : texts assessment.rationale = some rationale) :
    ∃ row, newClaimAssessment claimId now assessment = some row := by
  have hscores := assessment.scores_inUnit
  simp only [List.forall_mem_cons] at hscores
  obtain ⟨hconceptual, hempirical, hreproducibility, hfeasibility, hindependence, -⟩ := hscores
  obtain ⟨conceptual, hconceptual, hconceptualUnit⟩ := exists_numeric43? hconceptual
  obtain ⟨empirical, hempirical, hempiricalUnit⟩ := exists_numeric43? hempirical
  obtain ⟨reproducibility, hreproducibility, hreproducibilityUnit⟩ := exists_numeric43? hreproducibility
  obtain ⟨feasibility, hfeasibility, hfeasibilityUnit⟩ := exists_numeric43? hfeasibility
  obtain ⟨independence, hindependence, hindependenceUnit⟩ := exists_numeric43? hindependence
  simp [newClaimAssessment, hconceptual, hempirical, hreproducibility, hfeasibility, hindependence, hrationale,
    ClaimAssessmentRow.check, hconceptualUnit, hempiricalUnit, hreproducibilityUnit, hfeasibilityUnit,
    hindependenceUnit]

/-- The columns of a new assessment. -/
theorem newClaimAssessment_eq_some {claimId : Uuid} {now : ℕ} {assessment : ClaimAssessment} {row : ClaimAssessmentRow}
    (h : newClaimAssessment claimId now assessment = some row) :
    row.claimId = claimId ∧ row.assessor = assessment.assessor ∧
      texts assessment.rationale = some row.rationale := by
  simp only [newClaimAssessment, Option.bind_eq_bind, Option.bind_eq_some_iff] at h
  obtain ⟨_, -, _, -, _, -, _, -, _, -, rationale, hrationale, h⟩ := h
  split at h
  · cases h
    exact ⟨rfl, rfl, hrationale⟩
  · cases h

/-! ## What a call overwrites -/

/-- The stored claim a call overwrites: the one with its document and its summary, if the document is found
and long enough and the texts of the claim can be stored. -/
def overwritten (db : Database) (claim : ReviewedClaim) : Option ClaimRow := do
  let documentId ← uuid claim.documentId
  let document ← selectDocument db documentId claim.sourceKey
  let summary ← text claim.summary
  let _ ← texts claim.assessment.rationale
  if claim.pageEnd ≤ document.pageCount then db.claims.taken? (documentId, summary) else none

/-- The row overwritten is stored. -/
theorem find?_of_overwritten {claim : ReviewedClaim} {r : ClaimRow} (h : overwritten db claim = some r) :
    db.claims.find? r.id = some r ∧ char64 claim.sourceKey = (db.documents.find? r.documentId).map (·.sourceKey) := by
  simp only [overwritten, Option.bind_eq_bind, Option.bind_eq_some_iff] at h
  obtain ⟨documentId, -, document, hdocument, summary, -, _, -, h⟩ := h
  split at h
  · obtain ⟨hfound, hkey⟩ := Indexed.taken?_eq_some h
    obtain ⟨hstored, hsource⟩ := Option.filter_eq_some_iff.mp hdocument
    have hid : r.documentId = documentId := congrArg Prod.fst hkey
    rw [hid, hstored, Option.map_some]
    exact ⟨hfound, of_decide_eq_true hsource⟩
  · cases h

/-- A call that succeeds overwrites the row its key is taken by, if any. -/
theorem overwritten_eq {id documentId : Uuid} {now : ℕ} {claim : ReviewedClaim} {document : DocumentRow}
    {row : ClaimRow} {claimId : Uuid} {assessment : ClaimAssessmentRow} (hid : uuid claim.documentId = some documentId)
    (hdocument : selectDocument db documentId claim.sourceKey = some document)
    (hpages : claim.pageEnd ≤ document.pageCount) (hrow : newClaim id now claim = some row)
    (hassessment : newClaimAssessment claimId now claim.assessment = some assessment) :
    overwritten db claim = db.claims.taken? row.summaryKey := by
  obtain ⟨-, -, hid', hsummary, -⟩ := newClaim_eq_some hrow
  obtain ⟨-, -, hrationale⟩ := newClaimAssessment_eq_some hassessment
  cases hid.symm.trans hid'
  simp [overwritten, hid, hdocument, hsummary, hrationale, hpages, ClaimRow.summaryKey]

/-- A call that overwrites a claim does so: it revises the claim and its assessment, and a human's
verifies the source. -/
theorem persistReviewedClaim_of_overwritten (id : Uuid) (now : ℕ) {claim : ReviewedClaim} {r : ClaimRow}
    (h : overwritten db claim = some r) :
    ∃ row assessment claims, newClaim id now claim = some row ∧
      newClaimAssessment r.id now claim.assessment = some assessment ∧
      (∀ k, claims.find? k = if r.id = k then some (row.revise r) else db.claims.find? k) ∧
      persistReviewedClaim id now claim db =
        ({ db with
            claims
            claimAssessments := db.claimAssessments.upsert assessment assessment.revise assessment.revise_claimId
            sources := verifySource db.sources claim },
          .ok (uuidText r.id)) := by
  simp only [overwritten, Option.bind_eq_bind, Option.bind_eq_some_iff] at h
  obtain ⟨documentId, hid, document, hdocument, summary, hsummary, rationale, hrationale, h⟩ := h
  split at h
  · next hpages =>
    obtain ⟨row, hrow⟩ := exists_newClaim id now claim hid hsummary
    obtain ⟨assessment, hassessment⟩ := exists_newClaimAssessment r.id now claim.assessment hrationale
    obtain ⟨-, -, hid', hsummary', -⟩ := newClaim_eq_some hrow
    have htaken : db.claims.taken? row.summaryKey = some r := by
      cases hid.symm.trans hid'
      cases hsummary.symm.trans hsummary'
      exact h
    have hrevised : ∃ claims, db.claims.upsert row (fun _ => true) row.revise (fun _ => rfl) (fun _ => rfl) =
          some (claims, some (row.revise r)) ∧
        ∀ k, claims.find? k = if r.id = k then some (row.revise r) else db.claims.find? k :=
      db.claims.upsert_of_taken row.revise (fun _ => rfl) (fun _ => rfl) htaken rfl
    obtain ⟨claims, hupsert, hfind⟩ := hrevised
    refine ⟨row, assessment, claims, hrow, hassessment, hfind, ?_⟩
    refine transaction_of_ok ?_
    refine bind_eq_ok_iff.mpr ⟨documentId, statement_eq_ok_iff.mpr hid, ?_⟩
    rw [hdocument]
    refine (if_neg (not_lt.mpr hpages)).trans ?_
    refine bind_eq_ok_iff.mpr ⟨row, statement_eq_ok_iff.mpr hrow, ?_⟩
    refine bind_eq_ok_iff.mpr ⟨(claims, some (row.revise r)), statement_eq_ok_iff.mpr hupsert, ?_⟩
    refine bind_eq_ok_iff.mpr ⟨row.revise r, rfl, ?_⟩
    exact bind_eq_ok_iff.mpr ⟨assessment, statement_eq_ok_iff.mpr hassessment, rfl⟩
  · cases h

/-! ## Claims, their documents and their assessments -/

/-- A document belongs to a source and a claim to the source of its document, and claims and assessments go
together. -/
structure ClaimsLinked (db : Database) : Prop where
  known : ∀ k d, db.documents.find? k = some d → (db.sources.find? d.sourceKey).isSome = true
  source : ∀ k c, db.claims.find? k = some c → ∃ d, db.documents.find? c.documentId = some d ∧ d.sourceKey = c.sourceKey
  assessed : ∀ k, (db.claimAssessments.find? k).isSome = (db.claims.find? k).isSome

/-- The tables of claims change with `persist_reviewed_claim` only. -/
theorem claims_kept {call : Call site.host.py} {reply : Except Raised Str} (h : Effect site db call (db', reply))
    (hcall : ∀ id now claim, call ≠ .persistReviewedClaim id now claim) :
    db'.claims = db.claims ∧ db'.claimAssessments = db.claimAssessments := by
  cases h with
  | run hassessments _ _ hfold =>
    rw [(ingested_of_run hassessments hfold).frame]
    exact ⟨rfl, rfl⟩
  | claim => exact absurd rfl (hcall _ _ _)
  | _ => exact ⟨rfl, rfl⟩

/-- A known source stays known. -/
theorem source_kept {call : Call site.host.py} {reply : Except Raised Str} (h : Effect site db call (db', reply))
    {k : Str} (hk : (db.sources.find? k).isSome = true) : (db'.sources.find? k).isSome = true := by
  cases h with
  | run hassessments _ _ hfold => exact (ingested_of_run hassessments hfold).kept k hk
  | claim =>
    change ((verifySource _ _).find? k).isSome = true
    unfold verifySource
    split
    · rw [Table.find?_update, Option.isSome_map]
      exact hk
    · exact hk
  | _ => exact hk

/-- Documents belong to known sources after every call. -/
theorem documents_known {call : Call site.host.py} {reply : Except Raised Str} (heffect : Effect site db call (db', reply))
    (h : ∀ k d, db.documents.find? k = some d → (db.sources.find? d.sourceKey).isSome = true) :
    ∀ k d, db'.documents.find? k = some d → (db'.sources.find? d.sourceKey).isSome = true := by
  have keep : ∀ k d, db.documents.find? k = some d → (db'.sources.find? d.sourceKey).isSome = true :=
    fun k d hd => source_kept heffect (h k d hd)
  cases heffect with
  | run hassessments _ _ hfold =>
    rw [(ingested_of_run hassessments hfold).frame] at keep ⊢
    exact keep
  | document _ hsource hupserted =>
    exact hupserted.forall keep hsource fun r htaken => keep _ r (Indexed.taken?_eq_some htaken).1
  | _ => exact keep

/-- Every call keeps the claims linked. -/
theorem claimsLinked_step {call : Call site.host.py} {reply : Except Raised Str}
    (heffect : Effect site db call (db', reply)) (h : ClaimsLinked db) : ClaimsLinked db' := by
  have keep : ∀ k c, db.claims.find? k = some c →
      ∃ d, db'.documents.find? c.documentId = some d ∧ d.sourceKey = c.sourceKey := by
    intro k c hc
    obtain ⟨d, hd, hkey⟩ := h.source k c hc
    obtain ⟨_, _, hd'⟩ := document_kept heffect hd
    exact ⟨_, hd', hkey⟩
  by_cases hcall : ∀ id now claim, call ≠ .persistReviewedClaim id now claim
  · obtain ⟨hclaims, hassessments⟩ := claims_kept heffect hcall
    refine ⟨documents_known heffect h.known, ?_, ?_⟩
    · rw [hclaims]
      exact keep
    · rw [hclaims, hassessments]
      exact h.assessed
  · have heffect' := heffect
    cases heffect with
    | raised => exact h
    | @claim _ documentId _ _ document row existing assessment claims hid hdocument _ hrow hupserted hassessment =>
      obtain ⟨-, hkey, hid', -, -⟩ := newClaim_eq_some hrow
      cases hid.symm.trans hid'
      obtain ⟨hfound, hsource⟩ := Option.filter_eq_some_iff.mp hdocument
      have hsource : document.sourceKey = row.sourceKey :=
        Option.some.inj ((of_decide_eq_true hsource).symm.trans hkey)
      refine ⟨documents_known heffect' h.known, ?_, ?_⟩
      · refine hupserted.forall keep ⟨document, hfound, hsource⟩ fun r htaken => ?_
        exact keep _ r (Indexed.taken?_eq_some htaken).1
      · intro k
        rw [hupserted.isSome_find? fun _ => rfl, ← h.assessed k, Table.find?_upsert,
          (newClaimAssessment_eq_some hassessment).1]
        by_cases hk : existing.id = k <;> simp [hk]
    | _ => exact absurd (by rintro _ _ _ ⟨⟩) hcall

/-- The claims are linked in every state of a run. -/
theorem claimsLinked_of_run {h : History Database (Call site.host.py)} (run : (corpus site).Run h db) :
    ClaimsLinked db := by
  refine run.invariant ⟨fun _ _ h => (nomatch h), fun _ _ h => (nomatch h), fun _ => rfl⟩ fun s call s' hs hstep => ?_
  obtain ⟨reply, heffect⟩ := effect_of_step hstep
  exact claimsLinked_step heffect hs

/-! ## What storing a claim leaves -/

/-- The tables after a claim was stored under an id: the call's claim is there, its assessment keeps an
assessor it had, and the claims of other ids are as they were. -/
structure ClaimStored (db db' : Database) (claim : ReviewedClaim) (id : Uuid) : Prop where
  target : match overwritten db claim with
    | some r => r.id = id
    | none => db.claims.find? id = none
  stored : ∃ c, db'.claims.find? id = some c ∧ char64 claim.sourceKey = some c.sourceKey ∧
    c.reviewerStatus = claim.reviewerStatus
  assessed : ∃ a, db'.claimAssessments.find? id = some a ∧
    a.assessor = ((db.claimAssessments.find? id).map (·.assessor)).getD claim.assessment.assessor
  otherClaim : ∀ k, k ≠ id → db'.claims.find? k = db.claims.find? k
  otherAssessment : ∀ k, k ≠ id → db'.claimAssessments.find? k = db.claimAssessments.find? k
  sources : db'.sources = verifySource db.sources claim
  artifacts : db'.artifactReceipts = db.artifactReceipts

/-- A call of `persist_reviewed_claim` raises and changes nothing, or stores its claim under some id. -/
theorem claimStored_of_effect {id : Uuid} {now : ℕ} {claim : ReviewedClaim} {reply : Except Raised Str}
    (hlinked : ClaimsLinked db) (heffect : Effect site db (.persistReviewedClaim id now claim) (db', reply)) :
    (∃ e, reply = .error e ∧ db' = db) ∨ ∃ k, ClaimStored db db' claim k := by
  cases heffect with
  | raised e => exact Or.inl ⟨e, rfl, rfl⟩
  | @claim _ _ _ _ document row existing assessment claims hid hdocument hpages hrow hupserted hassessment =>
    obtain ⟨-, hkey, -, -, hstatus⟩ := newClaim_eq_some hrow
    obtain ⟨hclaimId, hassessor, -⟩ := newClaimAssessment_eq_some hassessment
    have hoverwritten := overwritten_eq hid hdocument hpages hrow hassessment
    refine Or.inr ⟨existing.id, ?_, ?_, ?_, hupserted.find?_of_ne fun _ => rfl, fun k hk => ?_, rfl, rfl⟩
    · rw [hoverwritten]
      cases hupserted with
      | updated htaken => rw [htaken]; rfl
      | inserted htaken hfree => rw [htaken]; exact hfree
    · refine ⟨existing, hupserted.find?_returned fun _ => rfl, ?_⟩
      cases hupserted with
      | @updated _ r htaken =>
        obtain ⟨hfound, hsummary⟩ := Indexed.taken?_eq_some htaken
        obtain ⟨d, hd, hsource⟩ := hlinked.source _ _ hfound
        obtain ⟨hdocument', hselected⟩ := Option.filter_eq_some_iff.mp hdocument
        have hdocumentId : r.documentId = row.documentId := congrArg Prod.fst hsummary
        cases hid.symm.trans (newClaim_eq_some hrow).2.2.1
        rw [hdocumentId, hdocument'] at hd
        cases hd
        exact ⟨(of_decide_eq_true hselected).trans (congrArg some hsource), hstatus⟩
      | inserted => exact ⟨hkey, hstatus⟩
    · refine ⟨_, (Table.find?_upsert _ _ _ _ _).trans (if_pos hclaimId), ?_⟩
      cases db.claimAssessments.find? existing.id with
      | none => exact hassessor
      | some a => rfl
    · refine (Table.find?_upsert _ _ _ _ _).trans (if_neg ?_)
      rw [hclaimId]
      exact Ne.symm hk

/-- A call that overwrites a claim stores its own under the same id. -/
theorem claimStored_of_overwritten (site : Site) (id : Uuid) (now : ℕ) {claim : ReviewedClaim} {r : ClaimRow}
    (hlinked : ClaimsLinked db) (h : overwritten db claim = some r) :
    ClaimStored db (persistReviewedClaim id now claim db).1 claim r.id := by
  have heffect : Effect site db (.persistReviewedClaim id now claim) (persistReviewedClaim id now claim db) :=
    persistReviewedClaim_effect id now claim
  obtain ⟨_, _, _, -, -, -, hrun⟩ := persistReviewedClaim_of_overwritten id now h
  rw [hrun] at heffect ⊢
  rcases claimStored_of_effect hlinked heffect with ⟨e, he, -⟩ | ⟨k, hstored⟩
  · cases he
  · have htarget := hstored.target
    rw [h] at htarget
    exact htarget ▸ hstored

/-! ## What a claim makes of its source -/

section Sources

variable {claim : ReviewedClaim}

/-- A model's claim leaves the sources alone. -/
theorem verifySource_model (sources : Table SourceRow.sourceKey) (hmodel : claim.assessment.assessor = .approvedModel) :
    verifySource sources claim = sources := by
  rw [verifySource, hmodel]
  rfl

/-- A human's claim verifies its source. -/
theorem find?_verifySource_human (sources : Table SourceRow.sourceKey) (hhuman : claim.assessment.assessor = .human)
    (k : Str) : (verifySource sources claim).find? k =
      (sources.find? k).map fun s => if char64 claim.sourceKey = some k then s.verify else s := by
  rw [verifySource, if_pos hhuman, Table.find?_update]
  refine Option.map_congr fun s hs => ?_
  rw [Table.key_of_find? hs]
  simp

end Sources

end NeuroLab.Research
