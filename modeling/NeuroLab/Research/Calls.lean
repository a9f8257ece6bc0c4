import NeuroLab.Common.Transition
import NeuroLab.Research.Storage

/-!
# Calls of the storage and what they can do

The corpus as a system whose steps are calls of the storage operations, in any order. Each
call raises and leaves every table as it was, or has one of the effects below; invariants
of the tables are read off these effects.
-/

namespace NeuroLab.Research

open Python Common Postgres

/-- Everything the storage takes as given. -/
structure Site where
  host : Host
  server : Server

/-- A call of a storage operation, with the id it draws and the clock it reads. -/
inductive Call (py : Interpreter)
  | persistRun (id : Uuid) (now : ℕ) (run : ItResearchRun) (artifactRef : Str)
  | persistFulltextReceipt (id : Uuid) (now : ℕ) (receipt : FullTextReceipt)
  | persistLicenseReceipt (id : Uuid) (receipt : LicenseReceipt)
  | persistPublisherHtmlReceipt (id : Uuid) (receipt : PublisherHtmlReceipt)
  | persistReviewedClaim (id : Uuid) (now : ℕ) (claim : ReviewedClaim)
  | persistPublicArtifactReceipt (id : Uuid) (now : ℕ) (receipt : PublicArtifactReceipt)
  | persistDocumentCard (id : Uuid) (now : ℕ) (card : DocumentCard py)
  | reviewDocumentCard (now : ℕ) (cardId decision : Str)
  | persistDiagramCard (id : Uuid) (now : ℕ) (card : DiagramCard)
  | reviewDiagramCard (now : ℕ) (cardId decision : Str)

/-- What a call does to the corpus, and what it returns or raises. -/
def Call.run (site : Site) (db : Database) : Call site.host.py → Outcome Database Str
  | persistRun id now run artifactRef => site.host.persistRun site.server id now run artifactRef db
  | persistFulltextReceipt id now receipt => Research.persistFulltextReceipt id now receipt db
  | persistLicenseReceipt id receipt => Research.persistLicenseReceipt site.server id receipt db
  | persistPublisherHtmlReceipt id receipt => Research.persistPublisherHtmlReceipt site.server id receipt db
  | persistReviewedClaim id now claim => Research.persistReviewedClaim id now claim db
  | persistPublicArtifactReceipt id now receipt => Research.persistPublicArtifactReceipt id now receipt db
  | persistDocumentCard id now card => Research.persistDocumentCard site.host.py site.server id now card db
  | reviewDocumentCard now cardId decision => Research.reviewDocumentCard now cardId decision db
  | persistDiagramCard id now card => Research.persistDiagramCard site.host.py site.server id now card db
  | reviewDiagramCard now cardId decision => Research.reviewDiagramCard now cardId decision db

/-- The corpus under calls in any order. -/
def corpus (site : Site) : System Database (Call site.host.py) where
  init := .empty
  step db call := some (call.run site db).1

variable {site : Site} {db db' : Database}

/-- A check after the commit raises for a statement that returned no row; such a statement changed nothing. -/
theorem returned_cases {refusal failed : String} {block : Block (Database × Option Uuid)} {Q : Outcome Database Str → Prop}
    (raised : ∀ e, Q (db, .error e))
    (committed : ∀ db' stored, block = .ok (db', stored) →
      match stored with
      | some id => Q (db', .ok (uuidText id))
      | none => db' = db) :
    Q (returned refusal (transaction db failed block)) := by
  refine transaction_cases (Q := fun outcome => Q (returned refusal outcome)) (fun e => raised e) ?_
  intro db' stored h
  cases stored with
  | some id => exact committed db' (some id) h
  | none =>
    have hdb : db' = db := committed db' none h
    rw [hdb]
    exact raised _

/-! ## The loop of a run -/

/-- One assessment stored: its rows and the tables afterwards. -/
theorem upsertAssessment_eq_some {host : Host} {server : Server} {runId : Uuid} {now : ℕ}
    {assessment : SourceAssessment} (h : host.upsertAssessment server runId now db assessment = some db') :
    ∃ source observation row, host.newSource server now assessment = some source ∧
      newObservation server runId assessment = some observation ∧ newAssessment now assessment = some row ∧
      db' = { db with
        sources := db.sources.upsert source source.refresh source.refresh_sourceKey
        observations := db.observations.insert observation
        assessments := db.assessments.upsert row row.replace row.replace_sourceKey } := by
  simp only [Host.upsertAssessment, Option.bind_eq_bind, Option.bind_eq_some_iff] at h
  obtain ⟨source, hsource, observation, hobservation, row, hrow, h⟩ := h
  split at h
  · cases h
  · exact ⟨source, observation, row, hsource, hobservation, hrow, (Option.some.inj h).symm⟩

/-! ## Effects -/

/-- What a call does: it raises and changes nothing, or it does its work. -/
inductive Effect (site : Site) (db : Database) : Call site.host.py → Outcome Database Str → Prop
  | raised {call : Call site.host.py} (e : Raised) : Effect site db call (db, .error e)
  | run {id : Uuid} {now : ℕ} {run : ItResearchRun} {artifactRef : Str} {assessments : List SourceAssessment}
      {row : RunRow} {db' : Database} :
      run.items.mapM site.host.classifyItem = some assessments → db.runs.find? id = none → row.id = id →
      assessments.foldlM (site.host.upsertAssessment site.server id now) { db with runs := db.runs.insert row } =
        some db' →
      Effect site db (.persistRun id now run artifactRef) (db', .ok (uuidText id))
  | document {id : Uuid} {now : ℕ} {receipt : FullTextReceipt} {row r : DocumentRow}
      {documents : Indexed DocumentRow.id DocumentRow.receiptKey} :
      newDocument id now receipt = some row → (db.sources.find? row.sourceKey).isSome = true →
      Indexed.Upserted db.documents row (fun _ => true)
        (fun r => { r with acquiredAt := now, extractionStatus := row.extractionStatus }) documents (some r) →
      Effect site db (.persistFulltextReceipt id now receipt) ({ db with documents }, .ok (uuidText r.id))
  | license {id : Uuid} {receipt : LicenseReceipt} {row r : LicenseRow}
      {licenseReceipts : Indexed LicenseRow.id LicenseRow.receiptKey} :
      newLicense site.server id receipt = some row → (db.sources.find? row.sourceKey).isSome = true →
      Indexed.Upserted db.licenseReceipts row (fun _ => true) (fun r => { r with checkedOn := row.checkedOn })
        licenseReceipts (some r) →
      Effect site db (.persistLicenseReceipt id receipt) ({ db with licenseReceipts }, .ok (uuidText r.id))
  | publisher {id : Uuid} {receipt : PublisherHtmlReceipt} {row r : PublisherRow}
      {publisherReceipts : Indexed PublisherRow.id PublisherRow.receiptKey} :
      newPublisher site.server id receipt = some row → (db.sources.find? row.sourceKey).isSome = true →
      Indexed.Upserted db.publisherReceipts row (fun _ => true)
        (fun r => { r with checkedOn := row.checkedOn, htmlSha256 := row.htmlSha256 }) publisherReceipts (some r) →
      Effect site db (.persistPublisherHtmlReceipt id receipt) ({ db with publisherReceipts }, .ok (uuidText r.id))
  | claim {id documentId : Uuid} {now : ℕ} {claim : ReviewedClaim} {document : DocumentRow} {row existing : ClaimRow}
      {assessment : ClaimAssessmentRow} {claims : Indexed ClaimRow.id ClaimRow.summaryKey} :
      uuid claim.documentId = some documentId → selectDocument db documentId claim.sourceKey = some document →
      claim.pageEnd ≤ document.pageCount → newClaim id now claim = some row →
      Indexed.Upserted db.claims row (fun _ => true) row.revise claims (some existing) →
      newClaimAssessment existing.id now claim.assessment = some assessment →
      Effect site db (.persistReviewedClaim id now claim)
        ({ db with
            claims
            claimAssessments := db.claimAssessments.upsert assessment assessment.revise assessment.revise_claimId
            sources := verifySource db.sources claim },
          .ok (uuidText existing.id))
  | artifact {id claimId : Uuid} {now : ℕ} {receipt : PublicArtifactReceipt} {claim : ClaimRow} {row r : ArtifactRow}
      {artifactReceipts : Indexed ArtifactRow.id ArtifactRow.receiptKey} :
      newArtifact id now receipt = some row → row.claimId = claimId → db.claims.find? claimId = some claim →
      claim.sourceKey = row.sourceKey → claim.reviewerStatus = .reviewed →
      Indexed.Upserted db.artifactReceipts row (fun _ => true) (fun r => { r with checkedAt := now }) artifactReceipts
        (some r) →
      Effect site db (.persistPublicArtifactReceipt id now receipt) ({ db with artifactReceipts }, .ok (uuidText r.id))
  | documentCard {id documentId : Uuid} {now : ℕ} {card : DocumentCard site.host.py} {document : DocumentRow}
      {row r : DocumentCardRow} {documentCards : Indexed DocumentCardRow.id DocumentCardRow.versionKey} :
      selectDocument db documentId card.sourceKey = some document → document.pdfSha256 = card.documentSha256 →
      newDocumentCard site.host.py site.server id documentId now card = some row →
      Indexed.Upserted db.documentCards row (fun r => r.reviewerStatus = .needsReview) row.regenerate documentCards
        (some r) →
      Effect site db (.persistDocumentCard id now card) ({ db with documentCards }, .ok (uuidText r.id))
  | documentReview {id : Uuid} {now : ℕ} {cardId decision : Str} {status : ReviewerStatus} {r : DocumentCardRow}
      {documentCards : Indexed DocumentCardRow.id DocumentCardRow.versionKey} :
      decisionStatus decision = some status → uuid cardId = some id → db.documentCards.find? id = some r →
      r.reviewerStatus = .needsReview →
      (∀ k, documentCards.find? k =
        if id = k then some { r with reviewerStatus := status, reviewedAt := some now }
        else db.documentCards.find? k) →
      Effect site db (.reviewDocumentCard now cardId decision) ({ db with documentCards }, .ok (uuidText id))
  | diagramCard {id documentId : Uuid} {now : ℕ} {card : DiagramCard} {document : DocumentRow}
      {row r : DiagramCardRow} {diagramCards : Indexed DiagramCardRow.id DiagramCardRow.versionKey} :
      selectDocument db documentId card.sourceKey = some document → document.pdfSha256 = card.documentSha256 →
      card.pageNumber ≤ document.pageCount →
      newDiagramCard site.host.py site.server id documentId now card = some row →
      Indexed.Upserted db.diagramCards row (fun r => r.reviewerStatus = .needsReview) row.regenerate diagramCards
        (some r) →
      Effect site db (.persistDiagramCard id now card) ({ db with diagramCards }, .ok (uuidText r.id))
  | diagramReview {id : Uuid} {now : ℕ} {cardId decision : Str} {status : ReviewerStatus} {r : DiagramCardRow}
      {diagramCards : Indexed DiagramCardRow.id DiagramCardRow.versionKey} :
      decisionStatus decision = some status → uuid cardId = some id → db.diagramCards.find? id = some r →
      r.reviewerStatus = .needsReview →
      (∀ k, diagramCards.find? k =
        if id = k then some { r with reviewerStatus := status, reviewedAt := some now }
        else db.diagramCards.find? k) →
      Effect site db (.reviewDiagramCard now cardId decision) ({ db with diagramCards }, .ok (uuidText id))

/-- The effect of `persist_run`. -/
theorem persistRun_effect (id : Uuid) (now : ℕ) (run : ItResearchRun) (artifactRef : Str) :
    Effect site db (.persistRun id now run artifactRef)
      (site.host.persistRun site.server id now run artifactRef db) := by
  unfold Host.persistRun
  split
  · exact .raised _
  split
  · next topic assessments _ hassessments =>
    refine transaction_cases .raised fun db' text h => ?_
    obtain ⟨row, hrow, h⟩ := bind_eq_ok_iff.mp h
    rw [statement_eq_ok_iff] at hrow
    split at h
    · cases h
    next hfresh =>
    obtain ⟨db₁, hfold, h⟩ := bind_eq_ok_iff.mp h
    rw [statement_eq_ok_iff] at hfold
    cases h
    have hid : row.id = id := by
      simp only [newRun, Option.bind_eq_bind, Option.bind_eq_some_iff] at hrow
      obtain ⟨topicSha256, -, status, -, ref, -, hrow⟩ := hrow
      split at hrow
      · cases hrow
        rfl
      · cases hrow
    refine .run hassessments ?_ hid hfold
    simpa using hfresh
  · exact .raised _

/-- The effect of `persist_fulltext_receipt`. -/
theorem persistFulltextReceipt_effect (id : Uuid) (now : ℕ) (receipt : FullTextReceipt) :
    Effect site db (.persistFulltextReceipt id now receipt) (persistFulltextReceipt id now receipt db) := by
  refine transaction_cases .raised fun db' text h => ?_
  obtain ⟨row, hrow, h⟩ := bind_eq_ok_iff.mp h
  obtain ⟨source, hsource, h⟩ := bind_eq_ok_iff.mp h
  obtain ⟨⟨documents, stored⟩, hupsert, h⟩ := bind_eq_ok_iff.mp h
  obtain ⟨r, hr, h⟩ := bind_eq_ok_iff.mp h
  rw [statement_eq_ok_iff] at hrow hsource hupsert hr
  cases h
  cases hr
  exact .document hrow (Option.isSome_of_mem hsource) (Indexed.upsert_cases hupsert)

/-- The effect of `persist_license_receipt`. -/
theorem persistLicenseReceipt_effect (id : Uuid) (receipt : LicenseReceipt) :
    Effect site db (.persistLicenseReceipt id receipt) (persistLicenseReceipt site.server id receipt db) := by
  refine transaction_cases .raised fun db' text h => ?_
  obtain ⟨row, hrow, h⟩ := bind_eq_ok_iff.mp h
  obtain ⟨source, hsource, h⟩ := bind_eq_ok_iff.mp h
  obtain ⟨⟨receipts, stored⟩, hupsert, h⟩ := bind_eq_ok_iff.mp h
  obtain ⟨r, hr, h⟩ := bind_eq_ok_iff.mp h
  rw [statement_eq_ok_iff] at hrow hsource hupsert hr
  cases h
  cases hr
  exact .license hrow (Option.isSome_of_mem hsource) (Indexed.upsert_cases hupsert)

/-- The effect of `persist_publisher_html_receipt`. -/
theorem persistPublisherHtmlReceipt_effect (id : Uuid) (receipt : PublisherHtmlReceipt) :
    Effect site db (.persistPublisherHtmlReceipt id receipt)
      (persistPublisherHtmlReceipt site.server id receipt db) := by
  refine transaction_cases .raised fun db' text h => ?_
  obtain ⟨row, hrow, h⟩ := bind_eq_ok_iff.mp h
  obtain ⟨source, hsource, h⟩ := bind_eq_ok_iff.mp h
  obtain ⟨⟨receipts, stored⟩, hupsert, h⟩ := bind_eq_ok_iff.mp h
  obtain ⟨r, hr, h⟩ := bind_eq_ok_iff.mp h
  rw [statement_eq_ok_iff] at hrow hsource hupsert hr
  cases h
  cases hr
  exact .publisher hrow (Option.isSome_of_mem hsource) (Indexed.upsert_cases hupsert)

/-- The effect of `persist_reviewed_claim`. -/
theorem persistReviewedClaim_effect (id : Uuid) (now : ℕ) (claim : ReviewedClaim) :
    Effect site db (.persistReviewedClaim id now claim) (persistReviewedClaim id now claim db) := by
  refine transaction_cases .raised fun db' text h => ?_
  obtain ⟨documentId, hid, h⟩ := bind_eq_ok_iff.mp h
  split at h
  · cases h
  next document hdocument =>
  split at h
  · cases h
  next hpages =>
  obtain ⟨row, hrow, h⟩ := bind_eq_ok_iff.mp h
  obtain ⟨⟨claims, stored⟩, hupsert, h⟩ := bind_eq_ok_iff.mp h
  obtain ⟨existing, hexisting, h⟩ := bind_eq_ok_iff.mp h
  obtain ⟨assessment, hassessment, h⟩ := bind_eq_ok_iff.mp h
  rw [statement_eq_ok_iff] at hid hrow hupsert hexisting hassessment
  cases h
  cases hexisting
  exact .claim hid hdocument (not_lt.mp hpages) hrow (Indexed.upsert_cases hupsert) hassessment

/-- The key columns of a new artifact receipt are its parameters. -/
theorem newArtifact_eq_some {id : Uuid} {now : ℕ} {receipt : PublicArtifactReceipt} {row : ArtifactRow}
    (h : newArtifact id now receipt = some row) :
    row.id = id ∧ char64 receipt.sourceKey = some row.sourceKey ∧ uuid receipt.claimId = some row.claimId := by
  simp only [newArtifact, Option.bind_eq_bind, Option.bind_eq_some_iff] at h
  obtain ⟨key, hkey, claimId, hclaim, _, -, _, -, _, -, _, -, _, -, _, -, _, -, h⟩ := h
  split at h
  · cases h
    exact ⟨rfl, hkey, hclaim⟩
  · cases h

/-- The effect of `persist_public_artifact_receipt`. -/
theorem persistPublicArtifactReceipt_effect (id : Uuid) (now : ℕ) (receipt : PublicArtifactReceipt) :
    Effect site db (.persistPublicArtifactReceipt id now receipt) (persistPublicArtifactReceipt id now receipt db) := by
  refine transaction_cases .raised fun db' result h => ?_
  obtain ⟨claimId, hid, h⟩ := bind_eq_ok_iff.mp h
  obtain ⟨key, hkey, h⟩ := bind_eq_ok_iff.mp h
  split at h
  · cases h
  next claim hclaim =>
  obtain ⟨row, hrow, h⟩ := bind_eq_ok_iff.mp h
  obtain ⟨⟨receipts, stored⟩, hupsert, h⟩ := bind_eq_ok_iff.mp h
  obtain ⟨r, hr, h⟩ := bind_eq_ok_iff.mp h
  rw [statement_eq_ok_iff] at hid hkey hrow hupsert hr
  cases h
  cases hr
  obtain ⟨hfound, hselected⟩ := Option.filter_eq_some_iff.mp hclaim
  obtain ⟨-, hsource, hclaimId⟩ := newArtifact_eq_some hrow
  have htext : key = receipt.sourceKey := by
    unfold text at hkey
    split at hkey
    · exact (Option.some.inj hkey).symm
    · cases hkey
  simp only [htext, hsource, Bool.and_eq_true, decide_eq_true_eq, Option.some.injEq] at hselected
  have heq : row.claimId = claimId := Option.some.inj (hclaimId.symm.trans hid)
  exact .artifact hrow heq hfound hselected.1.symm hselected.2 (Indexed.upsert_cases hupsert)

/-- The effect of `persist_document_card`. -/
theorem persistDocumentCard_effect (id : Uuid) (now : ℕ) (card : DocumentCard site.host.py) :
    Effect site db (.persistDocumentCard id now card)
      (persistDocumentCard site.host.py site.server id now card db) := by
  refine returned_cases .raised fun db' stored h => ?_
  obtain ⟨documentId, -, h⟩ := bind_eq_ok_iff.mp h
  split at h
  · cases h
  next document hdocument =>
  obtain ⟨row, hrow, h⟩ := bind_eq_ok_iff.mp h
  obtain ⟨⟨cards, returned⟩, hupsert, h⟩ := bind_eq_ok_iff.mp h
  rw [statement_eq_ok_iff] at hrow hupsert
  cases h
  have hupserted := Indexed.upsert_cases hupsert
  cases returned with
  | none => rw [Option.map_none, hupserted.eq_of_none]
  | some r =>
    obtain ⟨hfound, hdigest⟩ := Option.filter_eq_some_iff.mp hdocument
    exact .documentCard hfound (by simpa using hdigest) hrow hupserted

/-- The effect of `review_document_card`. -/
theorem reviewDocumentCard_effect (now : ℕ) (cardId decision : Str) :
    Effect site db (.reviewDocumentCard now cardId decision) (reviewDocumentCard now cardId decision db) := by
  unfold reviewDocumentCard
  split
  · exact .raised _
  next status hstatus =>
  refine returned_cases .raised fun db' stored h => ?_
  obtain ⟨id, hid, h⟩ := bind_eq_ok_iff.mp h
  rw [statement_eq_ok_iff] at hid
  cases h
  cases hawaiting : (db.documentCards.find? id).filter fun r => r.id = id && r.reviewerStatus = .needsReview with
  | none => exact congrArg (fun cards => { db with documentCards := cards }) (Indexed.update_guarded_of_none _ _ _ _ _ hawaiting)
  | some r =>
    obtain ⟨hfound, hkey, hawaits, hupdate⟩ := Indexed.find?_update_guarded db.documentCards _
      (fun r => { r with reviewerStatus := status, reviewedAt := some now }) (fun _ => rfl) (fun _ => rfl) hawaiting
    rw [Option.map_some, hkey]
    exact .documentReview hstatus hid hfound (of_decide_eq_true hawaits) hupdate

/-- The effect of `persist_diagram_card`. -/
theorem persistDiagramCard_effect (id : Uuid) (now : ℕ) (card : DiagramCard) :
    Effect site db (.persistDiagramCard id now card)
      (persistDiagramCard site.host.py site.server id now card db) := by
  refine returned_cases .raised fun db' stored h => ?_
  obtain ⟨documentId, -, h⟩ := bind_eq_ok_iff.mp h
  split at h
  · cases h
  next document hdocument =>
  obtain ⟨row, hrow, h⟩ := bind_eq_ok_iff.mp h
  obtain ⟨⟨cards, returned⟩, hupsert, h⟩ := bind_eq_ok_iff.mp h
  rw [statement_eq_ok_iff] at hrow hupsert
  cases h
  have hupserted := Indexed.upsert_cases hupsert
  cases returned with
  | none => rw [Option.map_none, hupserted.eq_of_none]
  | some r =>
    obtain ⟨hfound, hmatch⟩ := Option.filter_eq_some_iff.mp hdocument
    have hmatch : document.pdfSha256 = card.documentSha256 ∧ card.pageNumber ≤ document.pageCount := by
      simpa using hmatch
    exact .diagramCard hfound hmatch.1 hmatch.2 hrow hupserted

/-- The effect of `review_diagram_card`. -/
theorem reviewDiagramCard_effect (now : ℕ) (cardId decision : Str) :
    Effect site db (.reviewDiagramCard now cardId decision) (reviewDiagramCard now cardId decision db) := by
  unfold reviewDiagramCard
  split
  · exact .raised _
  next status hstatus =>
  refine returned_cases .raised fun db' stored h => ?_
  obtain ⟨id, hid, h⟩ := bind_eq_ok_iff.mp h
  rw [statement_eq_ok_iff] at hid
  cases h
  cases hawaiting : (db.diagramCards.find? id).filter fun r => r.id = id && r.reviewerStatus = .needsReview with
  | none => exact congrArg (fun cards => { db with diagramCards := cards }) (Indexed.update_guarded_of_none _ _ _ _ _ hawaiting)
  | some r =>
    obtain ⟨hfound, hkey, hawaits, hupdate⟩ := Indexed.find?_update_guarded db.diagramCards _
      (fun r => { r with reviewerStatus := status, reviewedAt := some now }) (fun _ => rfl) (fun _ => rfl) hawaiting
    rw [Option.map_some, hkey]
    exact .diagramReview hstatus hid hfound (of_decide_eq_true hawaits) hupdate

/-- Every call has one of the effects. -/
theorem effect_of_run (call : Call site.host.py) : Effect site db call (call.run site db) := by
  cases call with
  | persistRun id now run artifactRef => exact persistRun_effect id now run artifactRef
  | persistFulltextReceipt id now receipt => exact persistFulltextReceipt_effect id now receipt
  | persistLicenseReceipt id receipt => exact persistLicenseReceipt_effect id receipt
  | persistPublisherHtmlReceipt id receipt => exact persistPublisherHtmlReceipt_effect id receipt
  | persistReviewedClaim id now claim => exact persistReviewedClaim_effect id now claim
  | persistPublicArtifactReceipt id now receipt => exact persistPublicArtifactReceipt_effect id now receipt
  | persistDocumentCard id now card => exact persistDocumentCard_effect id now card
  | reviewDocumentCard now cardId decision => exact reviewDocumentCard_effect now cardId decision
  | persistDiagramCard id now card => exact persistDiagramCard_effect id now card
  | reviewDiagramCard now cardId decision => exact reviewDiagramCard_effect now cardId decision

/-- A step of the corpus is the effect of a call. -/
theorem effect_of_step {call : Call site.host.py} (h : (corpus site).step db call = some db') :
    ∃ reply, Effect site db call (db', reply) := by
  have heq : (call.run site db).1 = db' := Option.some.inj h
  exact ⟨(call.run site db).2, heq ▸ effect_of_run call⟩

/-- A call that raises leaves every table as it was. -/
theorem unchanged_of_raised {call : Call site.host.py} {e : Raised} (h : (call.run site db).2 = .error e) :
    (call.run site db).1 = db := by
  have heffect : Effect site db call (call.run site db) := effect_of_run call
  generalize call.run site db = outcome at h heffect
  cases heffect with
  | raised => rfl
  | _ => cases h

/-! ## What a run stores -/

/-- The classifier observes metadata and finds no reproducibility. -/
theorem classifyItem_eq_some {host : Host} {item : ResearchItem} {a : SourceAssessment}
    (h : host.classifyItem item = some a) :
    a.item = item ∧ host.canonicalSourceKey item = some a.sourceKey ∧ a.reproducibility = 0 ∧
      a.verificationStatus = .metadataObserved := by
  simp only [Host.classifyItem, Option.bind_eq_bind, Option.bind_eq_some_iff] at h
  obtain ⟨key, hkey, h⟩ := h
  split at h <;> cases h <;> exact ⟨rfl, hkey, rfl, rfl⟩

/-- The status of a new source is that of its assessment. -/
theorem newSource_eq_some {host : Host} {server : Server} {now : ℕ} {assessment : SourceAssessment} {row : SourceRow}
    (h : host.newSource server now assessment = some row) :
    char64 assessment.sourceKey = some row.sourceKey ∧ row.verificationStatus = assessment.verificationStatus := by
  simp only [Host.newSource, Option.bind_eq_bind, Option.bind_eq_some_iff] at h
  obtain ⟨key, hkey, _, -, _, -, _, -, _, -, _, -, h⟩ := h
  split at h
  · cases h
    exact ⟨hkey, rfl⟩
  · cases h

/-- A new assessment without reproducibility is stored without it. -/
theorem newAssessment_eq_some {now : ℕ} {assessment : SourceAssessment} {row : AssessmentRow}
    (h : newAssessment now assessment = some row) :
    char64 assessment.sourceKey = some row.sourceKey ∧ numeric43 assessment.reproducibility = some row.reproducibility := by
  simp only [newAssessment, Option.bind_eq_bind, Option.bind_eq_some_iff] at h
  obtain ⟨key, hkey, _, -, _, -, _, -, q, hq, _, -, _, -, h⟩ := h
  split at h
  · cases h
    exact ⟨hkey, hq⟩
  · cases h

/-- What a run leaves of the tables: sources keep their status or are newly observed, no assessment
gains reproducibility, and the tables of documents, claims and cards stay. -/
structure Ingested (db db' : Database) : Prop where
  frame : db' = { db with runs := db'.runs, sources := db'.sources, observations := db'.observations,
                          assessments := db'.assessments }
  source : ∀ k s', db'.sources.find? k = some s' →
    (∃ s, db.sources.find? k = some s ∧ s'.verificationStatus = s.verificationStatus) ∨
      db.sources.find? k = none ∧ s'.verificationStatus = .metadataObserved
  kept : ∀ k, (db.sources.find? k).isSome = true → (db'.sources.find? k).isSome = true
  assessment : ∀ k a', db'.assessments.find? k = some a' → db.assessments.find? k = some a' ∨ a'.reproducibility = 0

/-- One classified item is ingested. -/
theorem Ingested.upsert {db₀ : Database} {server : Server} {runId : Uuid} {now : ℕ} {item : ResearchItem}
    {assessment : SourceAssessment} (h : Ingested db₀ db) (hassessment : site.host.classifyItem item = some assessment)
    (hupsert : site.host.upsertAssessment server runId now db assessment = some db') : Ingested db₀ db' := by
  obtain ⟨source, observation, row, hsource, -, hrow, rfl⟩ := upsertAssessment_eq_some hupsert
  obtain ⟨-, -, hzero, hobserved⟩ := classifyItem_eq_some hassessment
  have hstatus := (newSource_eq_some hsource).2.trans hobserved
  have hreproducibility : row.reproducibility = 0 := by
    have := (newAssessment_eq_some hrow).2
    rw [hzero, numeric43_zero] at this
    exact (Option.some.inj this).symm
  refine ⟨?_, fun k s' hs' => ?_, fun k hk => ?_, fun k a' ha' => ?_⟩
  · rw [h.frame]
  · rw [Table.find?_upsert] at hs'
    split at hs'
    · cases hk : db.sources.find? k with
      | none =>
        rw [hk] at hs'
        cases hs'
        cases hk₀ : db₀.sources.find? k with
        | none => exact Or.inr ⟨rfl, hstatus⟩
        | some s₀ => simpa [hk] using h.kept k (by simp [hk₀])
      | some s =>
        rw [hk] at hs'
        cases hs'
        exact h.source k s hk
    · exact h.source k s' hs'
  · rw [Table.find?_upsert]
    split
    · rfl
    · exact h.kept k hk
  · rw [Table.find?_upsert] at ha'
    split at ha'
    · cases hk : db.assessments.find? k with
      | none =>
        rw [hk] at ha'
        cases ha'
        exact Or.inr hreproducibility
      | some a =>
        rw [hk] at ha'
        cases ha'
        exact Or.inr hreproducibility
    · exact h.assessment k a' ha'

/-- A run is ingested. -/
theorem ingested_of_run {server : Server} {runId : Uuid} {now : ℕ} {items : List ResearchItem}
    {assessments : List SourceAssessment} {row : RunRow}
    (hassessments : items.mapM site.host.classifyItem = some assessments)
    (hfold : assessments.foldlM (site.host.upsertAssessment server runId now)
      { db with runs := db.runs.insert row } = some db') : Ingested db db' := by
  refine foldlM_invariant hfold ⟨rfl, fun k s h => Or.inl ⟨s, h, rfl⟩, fun _ h => h, fun _ _ h => Or.inl h⟩ ?_
  intro db₁ a db₂ ha h hupsert
  obtain ⟨item, -, hitem⟩ := exists_of_mapM_some hassessments a ha
  exact h.upsert hitem hupsert

/-! ## What every call leaves -/

/-- A stored document stays, up to when it was acquired and how its text was extracted. -/
theorem document_kept {call : Call site.host.py} {reply : Except Raised Str} (h : Effect site db call (db', reply))
    {k : Uuid} {d : DocumentRow} (hd : db.documents.find? k = some d) :
    ∃ acquiredAt extractionStatus, db'.documents.find? k = some { d with acquiredAt, extractionStatus } := by
  cases h with
  | document _ _ hupserted =>
    rcases hupserted.kept_or_set hd with hd' | hd'
    · exact ⟨_, _, hd'⟩
    · exact ⟨_, _, hd'⟩
  | run hassessments _ _ hfold =>
    rw [(ingested_of_run hassessments hfold).frame]
    exact ⟨_, _, hd⟩
  | _ => exact ⟨_, _, hd⟩

end NeuroLab.Research
