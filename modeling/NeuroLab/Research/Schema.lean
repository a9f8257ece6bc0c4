import NeuroLab.Common.Upsert
import NeuroLab.Postgres.Columns
import NeuroLab.Research.Records

/-!
# The research corpus in PostgreSQL

The rows of the tables of `it_research` that the corpus, its receipts, claims and cards
live in, with the conversions and CHECK constraints an `INSERT` applies to its parameters.
A CHECK that lists its values is an enumeration. Timestamps are microseconds.
-/

namespace NeuroLab.Research

open Python Common Postgres

/-! ## Patterns of the CHECK constraints -/

/-- Between so many characters of a class, as many as there are, and the rest of the text. -/
def dropRun (least most : ℕ) (p : ℕ → Bool) (s : Str) : Option Str :=
  let run := s.takeWhile p
  if least ≤ run.length ∧ run.length ≤ most then some (s.dropWhile p) else none

/-- Whether the text has a word somewhere. -/
def hasWord (word s : Str) : Bool := s.tails.any (startsWith word)

/-- `artifact_ref !~ '(^/|\\|\.\.)'`. -/
def isSafeRef (s : Str) : Bool := !startsWith (lit "/") s && decide (0x5C ∉ s) && !hasWord (lit "..") s

/-- The address of a PDF on F1000's file host. -/
def isF1000Pdf (s : Str) : Bool :=
  let isNamePart (c : ℕ) : Bool := isLowerHex c || c = 0x2D
  let rest := do
    let s ← after? (lit "https://f1000research-files.f1000.com/manuscripts/") s
    let s ← dropPlus isDigit s
    let s ← after? (lit "/") s
    let s ← dropPlus isNamePart s
    let s ← after? (lit "_f1000res") s
    dropPlus isDigit s
  rest = some (lit ".pdf")

/-- The CHECK of `documents.document_url`. -/
def isDocumentUrl (s : Str) : Bool :=
  startsWith (lit "https://arxiv.org/pdf/") s || startsWith (lit "https://export.arxiv.org/pdf/") s || isF1000Pdf s

/-- The CHECK of `publisher_html_receipts.document_url`. -/
def isF1000Article (s : Str) : Bool :=
  let rest := do
    let s ← after? (lit "https://f1000research.com/articles/") s
    let s ← dropRun 1 3 isDigit s
    let s ← after? (lit "-") s
    let s ← dropRun 1 6 isDigit s
    let s ← after? (lit "/v") s
    dropRun 1 2 isDigit s
  rest = some []

/-- The CHECK of `claims.evidence_locator`. -/
def isLocator (s : Str) : Bool :=
  match ((after? (lit "pages ") s).or (after? (lit "page ") s)).bind (dropPlus isDigit) with
  | some [] => true
  | some (0x2D :: rest) => dropPlus isDigit rest = some []
  | _ => false

/-- A character of an owner's or a repository's name. -/
def isRepositoryChar (c : ℕ) : Bool := isLetter c || isDigit c || c ∈ lit "_.-"

/-- The CHECK of `public_artifact_receipts.repository`. -/
def isRepository (s : Str) : Bool :=
  let rest := do
    let s ← dropPlus isRepositoryChar s
    let s ← after? (lit "/") s
    dropPlus isRepositoryChar s
  rest = some []

/-! ## Runs and sources -/

/-- The CHECK of `runs.decision`. -/
inductive RunDecision
  | reviewRequired
  | collectingEvidence
  | readyForSynthesis
  | blocked
deriving DecidableEq

/-- A row of `runs`. -/
structure RunRow where
  id : Uuid
  completedAt : ℕ
  pipelineVersion : Str
  topicSha256 : Str
  decision : RunDecision
  providerStatus : Json
  artifactRef : Str
deriving DecidableEq

/-- A row of `sources`. -/
structure SourceRow where
  sourceKey : Str
  canonicalDoi : Option Str
  canonicalUrl : Str
  title : Str
  publishedOn : Str
  firstSeenAt : ℕ
  lastSeenAt : ℕ
  abstractSha256 : Option Str
  verificationStatus : VerificationStatus
deriving DecidableEq

/-- A row of `observations`. -/
structure ObservationRow where
  runId : Uuid
  sourceKey : Str
  provider : Provider
  providerId : Str
  providerUrl : Str
  checkedOn : Str
  evidenceLevel : EvidenceLevel
  limitations : List Str
  authors : List Str
deriving DecidableEq

/-- The unique key of `observations`. -/
def ObservationRow.key (r : ObservationRow) : Uuid × Provider × Str := (r.runId, r.provider, r.providerId)

/-- A row of `assessments`. -/
structure AssessmentRow where
  sourceKey : Str
  assessedAt : ℕ
  classifierVersion : Str
  architectureLayers : List ArchitectureLayer
  classificationConfidence : ℚ
  conceptualSupport : ℚ
  implementationReadiness : ℚ
  reproducibility : ℚ
  sourceIndependence : ℚ
  rationale : List Str
deriving DecidableEq

/-- The constraints of `assessments`. -/
def AssessmentRow.check (r : AssessmentRow) : Bool :=
  [r.classificationConfidence, r.conceptualSupport, r.implementationReadiness, r.reproducibility,
      r.sourceIndependence].all inUnit && !r.architectureLayers.isEmpty

/-! ## Documents and licences -/

/-- The CHECK of `documents.provider`. -/
inductive DocumentProvider
  | arxiv
  | f1000research
deriving DecidableEq

/-- The name of a provider. -/
def DocumentProvider.name : DocumentProvider → Str
  | arxiv => lit "arxiv"
  | f1000research => lit "f1000research"

/-- A provider by its name. -/
def DocumentProvider.ofName (s : Str) : Option DocumentProvider := [arxiv, f1000research].find? fun p => p.name = s

/-- The CHECK of `documents.license_id`. -/
inductive License
  | ccBy
  | ccZero
  | publicDomain
deriving DecidableEq

/-- The identifier of a licence. -/
def License.name : License → Str
  | ccBy => lit "CC-BY-4.0"
  | ccZero => lit "CC0-1.0"
  | publicDomain => lit "PUBLIC-DOMAIN"

/-- A licence by its identifier. -/
def License.ofName (s : Str) : Option License := [ccBy, ccZero, publicDomain].find? fun l => l.name = s

/-- A row of `documents`. -/
structure DocumentRow where
  id : Uuid
  sourceKey : Str
  provider : DocumentProvider
  documentUrl : Str
  licenseId : License
  pdfSha256 : Str
  byteCount : ℤ
  pageCount : ℤ
  extractedTextSha256 : Str
  extractedCharacterCount : ℤ
  extractionStatus : Str
  acquiredAt : ℕ
deriving DecidableEq

/-- The unique key of `documents`. -/
def DocumentRow.receiptKey (r : DocumentRow) : Str × Str := (r.sourceKey, r.pdfSha256)

/-- The constraints of `documents`. -/
def DocumentRow.check (r : DocumentRow) : Bool :=
  isDocumentUrl r.documentUrl && (0 < r.byteCount && r.byteCount ≤ 26214400) &&
    (0 ≤ r.pageCount && r.pageCount ≤ 100) &&
    (0 ≤ r.extractedCharacterCount && r.extractedCharacterCount ≤ 1000000) &&
    decide (r.extractionStatus = lit "extracted_untrusted")

/-- The row of `INSERT INTO documents`. -/
def newDocument (id : Uuid) (now : ℕ) (receipt : FullTextReceipt) : Option DocumentRow := do
  let sourceKey ← char64 receipt.sourceKey
  let provider ← DocumentProvider.ofName receipt.provider
  let documentUrl ← text receipt.documentUrl
  let licenseId ← License.ofName receipt.licenseId
  let pdfSha256 ← char64 receipt.sha256
  let extractedTextSha256 ← char64 receipt.extractedTextSha256
  let extractionStatus ← text receipt.extractionStatus
  let row :=
    { id, sourceKey, provider, documentUrl, licenseId, pdfSha256, byteCount := receipt.byteCount,
      pageCount := receipt.pageCount, extractedTextSha256,
      extractedCharacterCount := receipt.extractedCharacterCount, extractionStatus, acquiredAt := now }
  if row.check then some row else none

/-- A row of `license_receipts`, whose provider is `arxiv`. -/
structure LicenseRow where
  id : Uuid
  sourceKey : Str
  metadataUrl : Str
  licenseId : License
  evidenceSha256 : Str
  checkedOn : Str
deriving DecidableEq

/-- The unique key of `license_receipts`. -/
def LicenseRow.receiptKey (r : LicenseRow) : Str × License × Str := (r.sourceKey, r.licenseId, r.evidenceSha256)

/-- The row of `INSERT INTO license_receipts`. -/
def newLicense (server : Server) (id : Uuid) (receipt : LicenseReceipt) : Option LicenseRow := do
  let sourceKey ← char64 receipt.sourceKey
  let metadataUrl ← text receipt.metadataUrl
  let licenseId ← License.ofName receipt.licenseId
  let evidenceSha256 ← char64 receipt.evidenceSha256
  let checkedOn ← server.date receipt.checkedOn
  if receipt.provider = lit "arxiv" ∧ startsWith (lit "https://arxiv.org/abs/") metadataUrl = true ∧
      licenseId ≠ .publicDomain then
    some { id, sourceKey, metadataUrl, licenseId, evidenceSha256, checkedOn }
  else none

/-- A row of `publisher_html_receipts`, whose provider is `f1000research`. -/
structure PublisherRow where
  id : Uuid
  sourceKey : Str
  documentUrl : Str
  licenseId : License
  htmlSha256 : Str
  visibleTextSha256 : Str
  visibleCharacterCount : ℤ
  checkedOn : Str
  verificationStatus : Str
deriving DecidableEq

/-- The unique key of `publisher_html_receipts`. -/
def PublisherRow.receiptKey (r : PublisherRow) : Str × Str := (r.sourceKey, r.visibleTextSha256)

/-- The constraints of `publisher_html_receipts`. -/
def PublisherRow.check (r : PublisherRow) : Bool :=
  isF1000Article r.documentUrl && decide (r.licenseId = .ccBy) &&
    (0 < r.visibleCharacterCount && isInteger r.visibleCharacterCount) &&
    decide (r.verificationStatus = lit "publisher_html_verified")

/-- The row of `INSERT INTO publisher_html_receipts`. -/
def newPublisher (server : Server) (id : Uuid) (receipt : PublisherHtmlReceipt) : Option PublisherRow := do
  let sourceKey ← char64 receipt.sourceKey
  let documentUrl ← text receipt.documentUrl
  let licenseId ← License.ofName receipt.licenseId
  let htmlSha256 ← char64 receipt.htmlSha256
  let visibleTextSha256 ← char64 receipt.visibleTextSha256
  let checkedOn ← server.date receipt.checkedOn
  let verificationStatus ← text receipt.verificationStatus
  let row : PublisherRow :=
    { id, sourceKey, documentUrl, licenseId, htmlSha256, visibleTextSha256,
      visibleCharacterCount := receipt.visibleCharacterCount, checkedOn, verificationStatus }
  if receipt.provider = lit "f1000research" ∧ row.check = true then some row else none

/-! ## Claims and artifacts -/

/-- A row of `claims`. -/
structure ClaimRow where
  id : Uuid
  sourceKey : Str
  documentId : Uuid
  claimSummary : Str
  evidenceLocator : Str
  maturity : Maturity
  actionLane : ActionLane
  reviewerStatus : ReviewerStatus
  createdAt : ℕ
deriving DecidableEq

/-- The unique key of `claims`. -/
def ClaimRow.summaryKey (r : ClaimRow) : Uuid × Str := (r.documentId, r.claimSummary)

/-- The constraints of `claims`. -/
def ClaimRow.check (r : ClaimRow) : Bool := spans 20 1200 isInline r.claimSummary && isLocator r.evidenceLocator

/-- The row of `INSERT INTO claims`. -/
def newClaim (id : Uuid) (now : ℕ) (claim : ReviewedClaim) : Option ClaimRow := do
  let sourceKey ← char64 claim.sourceKey
  let documentId ← uuid claim.documentId
  let claimSummary ← text claim.summary
  let row : ClaimRow :=
    { id, sourceKey, documentId, claimSummary, evidenceLocator := claim.evidenceLocator, maturity := claim.maturity,
      actionLane := claim.actionLane, reviewerStatus := claim.reviewerStatus, createdAt := now }
  if row.check then some row else none

/-- A row of `claim_assessments`. -/
structure ClaimAssessmentRow where
  claimId : Uuid
  assessedAt : ℕ
  assessor : Assessor
  conceptualSupport : Option ℚ
  empiricalSupport : Option ℚ
  reproducibility : Option ℚ
  feasibilityNow : Option ℚ
  sourceIndependence : Option ℚ
  uncertainty : Uncertainty
  rationale : List Str
deriving DecidableEq

/-- The constraints of `claim_assessments`. -/
def ClaimAssessmentRow.check (r : ClaimAssessmentRow) : Bool :=
  [r.conceptualSupport, r.empiricalSupport, r.reproducibility, r.feasibilityNow, r.sourceIndependence].all
    (·.all inUnit)

/-- The row of `INSERT INTO claim_assessments`. -/
def newClaimAssessment (claimId : Uuid) (now : ℕ) (assessment : ClaimAssessment) : Option ClaimAssessmentRow := do
  let conceptualSupport ← numeric43? assessment.conceptualSupport
  let empiricalSupport ← numeric43? assessment.empiricalSupport
  let reproducibility ← numeric43? assessment.reproducibility
  let feasibilityNow ← numeric43? assessment.feasibilityNow
  let sourceIndependence ← numeric43? assessment.sourceIndependence
  let rationale ← texts assessment.rationale
  let row : ClaimAssessmentRow :=
    { claimId, assessedAt := now, assessor := assessment.assessor, conceptualSupport, empiricalSupport,
      reproducibility, feasibilityNow, sourceIndependence, uncertainty := assessment.uncertainty, rationale }
  if row.check then some row else none

/-- A row of `public_artifact_receipts`. -/
structure ArtifactRow where
  id : Uuid
  sourceKey : Str
  claimId : Uuid
  repository : Str
  apiUrl : Str
  htmlUrl : Str
  defaultBranch : Str
  codeLicense : Str
  evidenceSha256 : Str
  hasReadme : Bool
  hasTestPaths : Bool
  hasEnvironmentManifest : Bool
  hasDataPaths : Bool
  verificationStatus : Str
  checkedAt : ℕ
deriving DecidableEq

/-- The unique key of `public_artifact_receipts`. -/
def ArtifactRow.receiptKey (r : ArtifactRow) : Uuid × Str × Str := (r.claimId, r.repository, r.evidenceSha256)

/-- The constraints of `public_artifact_receipts`. -/
def ArtifactRow.check (r : ArtifactRow) : Bool :=
  isRepository r.repository && startsWith (lit "https://api.github.com/repos/") r.apiUrl &&
    startsWith (lit "https://github.com/") r.htmlUrl &&
    decide (r.verificationStatus = lit "public_artifact_metadata_verified")

/-- The row of `INSERT INTO public_artifact_receipts`. -/
def newArtifact (id : Uuid) (now : ℕ) (receipt : PublicArtifactReceipt) : Option ArtifactRow := do
  let sourceKey ← char64 receipt.sourceKey
  let claimId ← uuid receipt.claimId
  let repository ← text receipt.repository
  let apiUrl ← text receipt.apiUrl
  let htmlUrl ← text receipt.htmlUrl
  let defaultBranch ← text receipt.defaultBranch
  let codeLicense ← text receipt.codeLicense
  let evidenceSha256 ← char64 receipt.evidenceSha256
  let verificationStatus ← text receipt.verificationStatus
  let row : ArtifactRow :=
    { id, sourceKey, claimId, repository, apiUrl, htmlUrl, defaultBranch, codeLicense, evidenceSha256,
      hasReadme := receipt.hasReadme, hasTestPaths := receipt.hasTestPaths,
      hasEnvironmentManifest := receipt.hasEnvironmentManifest, hasDataPaths := receipt.hasDataPaths,
      verificationStatus, checkedAt := now }
  if row.check then some row else none

/-! ## Cards -/

/-- The CHECK that ties `reviewed_at` to `reviewer_status`. -/
def reviewConsistent (status : ReviewerStatus) (reviewedAt : Option ℕ) : Bool :=
  if status = .needsReview then reviewedAt.isNone else reviewedAt.isSome

/-- `jsonb_typeof(card) = 'object'`, within a number of octets. -/
def isCardObject (server : Server) (most : ℕ) (card : Json) : Bool :=
  match card with
  | .obj _ => decide (server.octets card ≤ most)
  | _ => false

/-- A row of `document_cards`. -/
structure DocumentCardRow where
  id : Uuid
  sourceKey : Str
  documentId : Uuid
  cardVersion : Str
  analyzer : Str
  card : Json
  cardSha256 : Str
  reviewerStatus : ReviewerStatus
  generatedAt : ℕ
  reviewedAt : Option ℕ
deriving DecidableEq

/-- The unique key of `document_cards`. -/
def DocumentCardRow.versionKey (r : DocumentCardRow) : Uuid × Str := (r.documentId, r.cardVersion)

/-- The constraints of `document_cards`. -/
def DocumentCardRow.check (server : Server) (r : DocumentCardRow) : Bool :=
  decide (r.cardVersion = lit "document-card-v1") && decide (r.analyzer = lit "gigachat") &&
    isCardObject server 48000 r.card && isDigest r.cardSha256 && reviewConsistent r.reviewerStatus r.reviewedAt

/-- A row of `diagram_cards`. -/
structure DiagramCardRow where
  id : Uuid
  sourceKey : Str
  documentId : Uuid
  pageNumber : ℤ
  cardVersion : Str
  analyzer : Str
  imageSha256 : Str
  card : Json
  cardSha256 : Str
  reviewerStatus : ReviewerStatus
  generatedAt : ℕ
  reviewedAt : Option ℕ
deriving DecidableEq

/-- The unique key of `diagram_cards`. -/
def DiagramCardRow.versionKey (r : DiagramCardRow) : Uuid × ℤ × Str := (r.documentId, r.pageNumber, r.cardVersion)

/-- The constraints of `diagram_cards`. -/
def DiagramCardRow.check (server : Server) (r : DiagramCardRow) : Bool :=
  (1 ≤ r.pageNumber && r.pageNumber ≤ 100) && decide (r.cardVersion = lit "diagram-card-v1") &&
    decide (r.analyzer = lit "gigachat-vision") && isDigest r.imageSha256 && isCardObject server 24000 r.card &&
    isDigest r.cardSha256 && reviewConsistent r.reviewerStatus r.reviewedAt

/-- The tables of the corpus. -/
structure Database where
  runs : Table RunRow.id
  sources : Table SourceRow.sourceKey
  observations : Table ObservationRow.key
  assessments : Table AssessmentRow.sourceKey
  documents : Indexed DocumentRow.id DocumentRow.receiptKey
  licenseReceipts : Indexed LicenseRow.id LicenseRow.receiptKey
  publisherReceipts : Indexed PublisherRow.id PublisherRow.receiptKey
  claims : Indexed ClaimRow.id ClaimRow.summaryKey
  claimAssessments : Table ClaimAssessmentRow.claimId
  artifactReceipts : Indexed ArtifactRow.id ArtifactRow.receiptKey
  documentCards : Indexed DocumentCardRow.id DocumentCardRow.versionKey
  diagramCards : Indexed DiagramCardRow.id DiagramCardRow.versionKey

/-- The empty schema. -/
def Database.empty : Database :=
  ⟨.empty, .empty, .empty, .empty, .empty, .empty, .empty, .empty, .empty, .empty, .empty, .empty⟩

end NeuroLab.Research
