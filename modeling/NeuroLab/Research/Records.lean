import NeuroLab.Python.CompactJson
import NeuroLab.Research.Corpus

/-!
# Records a reviewer or a model hands to the storage

Reviewed claims, the receipts of the verifiers and the two kinds of cards. A claim or a
card that fails a check of its constructor cannot be built; the verifiers' receipts are
plain records, checked by the tables only.
-/

namespace NeuroLab.Research

open Python

/-! ## Claims -/

/-- `Maturity`. -/
inductive Maturity
  | hypothesis
  | formalOrMethod
  | simulatedOrBenchmarked
  | prototype
  | replicated
  | operational
deriving DecidableEq

/-- `_MATURITY_RANK`. -/
def Maturity.rank : Maturity → ℕ
  | hypothesis => 0
  | formalOrMethod => 1
  | simulatedOrBenchmarked => 2
  | prototype => 3
  | replicated => 4
  | operational => 5

/-- `ActionLane`. -/
inductive ActionLane
  | watchlist
  | researchExperiment
  | implementationCandidate
  | productionCandidate
deriving DecidableEq

/-- `Uncertainty`. -/
inductive Uncertainty
  | low
  | medium
  | high
  | unknown
deriving DecidableEq

/-- `Assessor`. -/
inductive Assessor
  | human
  | approvedModel
deriving DecidableEq

/-- The CHECK of `reviewer_status`, for claims and cards. -/
inductive ReviewerStatus
  | needsReview
  | reviewed
  | rejected
deriving DecidableEq

/-- `_validate_maturity_lane`. -/
def validateMaturityLane (maturity : Maturity) (lane : ActionLane) : Except Str Unit :=
  if lane = .productionCandidate then
    .error (lit "production candidate claims are outside the current research-only scope")
  else if maturity.rank ≤ 1 ∧ lane ≠ .watchlist ∧ lane ≠ .researchExperiment then
    .error (lit "theory may enter watchlist or bounded research experiments only")
  else if maturity.rank = 2 ∧ lane = .implementationCandidate then
    .error (lit "benchmark-only claims require a prototype before implementation candidacy")
  else .ok ()

/-- `ClaimAssessment`, with the checks of its constructor. -/
structure ClaimAssessment where
  assessor : Assessor
  conceptualSupport : Option ℚ
  empiricalSupport : Option ℚ
  reproducibility : Option ℚ
  feasibilityNow : Option ℚ
  sourceIndependence : Option ℚ
  uncertainty : Uncertainty
  rationale : List Str
  scores_inUnit : ∀ score ∈ [conceptualSupport, empiricalSupport, reproducibility, feasibilityNow, sourceIndependence],
    ∀ q ∈ score, 0 ≤ q ∧ q ≤ 1
  rationale_inline : rationale ≠ [] ∧ ∀ item ∈ rationale, spans 20 1200 isInline item = true

/-- `ReviewedClaim`, with the checks of its constructor. -/
structure ReviewedClaim where
  sourceKey : Str
  documentId : Str
  summary : Str
  pageStart : ℕ
  pageEnd : ℕ
  maturity : Maturity
  actionLane : ActionLane
  assessment : ClaimAssessment
  sourceKey_digest : isDigest sourceKey = true
  documentId_uuid : (parseUuid documentId).isSome = true
  summary_inline : spans 20 1200 isInline summary = true
  pages_ordered : 1 ≤ pageStart ∧ pageStart ≤ pageEnd ∧ pageEnd ≤ 100
  lane_admitted : validateMaturityLane maturity actionLane = .ok ()

/-- `ReviewedClaim.evidence_locator`. -/
def ReviewedClaim.evidenceLocator (claim : ReviewedClaim) : Str :=
  if claim.pageStart = claim.pageEnd then lit "page " ++ decimal claim.pageStart
  else lit "pages " ++ decimal claim.pageStart ++ 0x2D :: decimal claim.pageEnd

/-- `ReviewedClaim.reviewer_status`. -/
def ReviewedClaim.reviewerStatus (claim : ReviewedClaim) : ReviewerStatus :=
  if claim.assessment.assessor = .human then .reviewed else .needsReview

/-! ## Receipts -/

/-- `FullTextReceipt` and `PublisherFullTextReceipt`. -/
structure FullTextReceipt where
  sourceKey : Str
  provider : Str
  documentUrl : Str
  licenseId : Str
  sha256 : Str
  byteCount : ℤ
  pageCount : ℤ
  extractedTextSha256 : Str
  extractedCharacterCount : ℤ
  extractionStatus : Str

/-- `LicenseReceipt`. -/
structure LicenseReceipt where
  sourceKey : Str
  provider : Str
  metadataUrl : Str
  licenseId : Str
  evidenceSha256 : Str
  checkedOn : Str

/-- `PublisherHtmlReceipt`. -/
structure PublisherHtmlReceipt where
  sourceKey : Str
  provider : Str
  documentUrl : Str
  licenseId : Str
  htmlSha256 : Str
  visibleTextSha256 : Str
  visibleCharacterCount : ℤ
  checkedOn : Str
  verificationStatus : Str

/-- `PublicArtifactReceipt`. -/
structure PublicArtifactReceipt where
  sourceKey : Str
  claimId : Str
  repository : Str
  apiUrl : Str
  htmlUrl : Str
  defaultBranch : Str
  codeLicense : Str
  evidenceSha256 : Str
  hasReadme : Bool
  hasTestPaths : Bool
  hasEnvironmentManifest : Bool
  hasDataPaths : Bool
  verificationStatus : Str

/-! ## Cards -/

/-- The first check of a constructor that fails, by the text of its error. -/
def require : List (Bool × Str) → Except Str Unit
  | [] => .ok ()
  | (true, _) :: rest => require rest
  | (false, message) :: _ => .error message

/-- All checks passed. -/
theorem require_eq_ok_iff (checks : List (Bool × Str)) : require checks = .ok () ↔ ∀ c ∈ checks, c.1 = true := by
  induction checks with
  | nil => simp [require]
  | cons c rest ih =>
    obtain ⟨passed, message⟩ := c
    cases passed <;> simp [require, ih]

/-- Whether a page range lies within the hundred pages of a document. -/
def pagesOrdered (pageStart pageEnd : ℤ) : Bool := 1 ≤ pageStart && pageStart ≤ pageEnd && pageEnd ≤ 100

/-- At most so many short lines. -/
def boundedLines (least most count : ℕ) (values : List Str) : Bool :=
  decide (values.length ≤ count) && values.all (spans least most isInline)

/-- `CardFinding`. -/
structure CardFinding where
  pageStart : ℤ
  pageEnd : ℤ
  kind : Str
  summary : Str
deriving DecidableEq

/-- The checks of a finding. -/
def CardFinding.checks (finding : CardFinding) : List (Bool × Str) :=
  [(pagesOrdered finding.pageStart finding.pageEnd, lit "finding location is malformed"),
    (decide (finding.kind ∈
        [lit "architecture", lit "method", lit "implementation", lit "evaluation", lit "limitation"]),
      lit "finding kind is malformed"),
    (spans 20 1400 isInline finding.summary, lit "finding summary is malformed")]

/-- The fields of `DocumentCard`. -/
structure DocumentCardFields where
  sourceKey : Str
  documentId : Str
  documentSha256 : Str
  documentSummary : Str
  researchProblem : Str
  method : Str
  architectureLayers : List Str
  implementationSignals : List Str
  evaluationSignals : List Str
  limitations : List Str
  findings : List CardFinding
  conceptualSupport : Option PyFloat
  empiricalSupport : Option PyFloat
  reproducibility : Option PyFloat
  feasibilityNow : Option PyFloat
  sourceIndependence : Option PyFloat
  uncertainty : Str
  reviewerStatus : Str
  cardVersion : Str
deriving DecidableEq

/-- Whether the nearest double of a literal is at most one: up to half a unit in the last place above. -/
def atMostOne (mantissa : ℕ) : ℤ → Bool
  | .ofNat e => decide (mantissa * 10 ^ e ≤ 1)
  | .negSucc e => decide (mantissa * 2 ^ 53 ≤ (2 ^ 53 + 1) * 10 ^ (e + 1))

/-- `0 <= score <= 1`. -/
def scoreInUnit : PyFloat → Bool
  | .finite false mantissa exponent => atMostOne mantissa exponent
  | .finite true mantissa exponent => (PyFloat.finite true mantissa exponent).isZero
  | _ => false

/-- A list of texts. -/
def strings (values : List Str) : Json := .arr (values.map .str)

/-- A score or `None`. -/
def scoreJson : Option PyFloat → Json
  | some score => .float score
  | none => .null

/-- `asdict` of a finding. -/
def CardFinding.asdict (finding : CardFinding) : Json :=
  .obj [(lit "page_start", .int finding.pageStart), (lit "page_end", .int finding.pageEnd),
    (lit "kind", .str finding.kind), (lit "summary", .str finding.summary)]

namespace DocumentCardFields

variable (card : DocumentCardFields)

/-- `asdict` of a document card. -/
def asdict : Fields :=
  [(lit "source_key", .str card.sourceKey), (lit "document_id", .str card.documentId),
    (lit "document_sha256", .str card.documentSha256), (lit "document_summary", .str card.documentSummary),
    (lit "research_problem", .str card.researchProblem), (lit "method", .str card.method),
    (lit "architecture_layers", strings card.architectureLayers),
    (lit "implementation_signals", strings card.implementationSignals),
    (lit "evaluation_signals", strings card.evaluationSignals), (lit "limitations", strings card.limitations),
    (lit "findings", .arr (card.findings.map CardFinding.asdict)),
    (lit "conceptual_support", scoreJson card.conceptualSupport),
    (lit "empirical_support", scoreJson card.empiricalSupport),
    (lit "reproducibility", scoreJson card.reproducibility),
    (lit "feasibility_now", scoreJson card.feasibilityNow),
    (lit "source_independence", scoreJson card.sourceIndependence), (lit "uncertainty", .str card.uncertainty),
    (lit "reviewer_status", .str card.reviewerStatus), (lit "card_version", .str card.cardVersion)]

/-- `DocumentCard.as_json`. -/
def asJson (py : Interpreter) : Str := dumpsSorted py.floatRepr (.obj card.asdict)

/-- The checks of `DocumentCard`, in order. -/
def checks (py : Interpreter) : List (Bool × Str) :=
  [(isDigest card.sourceKey, lit "source key is malformed"),
    (isDigest card.documentSha256, lit "document digest is malformed"),
    (decide (card.reviewerStatus = lit "needs_review"), lit "model-generated cards must require review"),
    (decide (card.cardVersion = lit "document-card-v1"), lit "card version is malformed"),
    (spans 20 1400 isInline card.documentSummary, lit "document summary is malformed"),
    (spans 20 1400 isInline card.researchProblem, lit "research problem is malformed"),
    (spans 20 1400 isInline card.method, lit "method is malformed"),
    (!card.architectureLayers.isEmpty && card.architectureLayers.all (· ∈ layers.map (·.name)),
      lit "card architecture layers are malformed"),
    (boundedLines 3 360 8 card.implementationSignals, lit "implementation signals are malformed"),
    (boundedLines 3 360 8 card.evaluationSignals, lit "evaluation signals are malformed"),
    (boundedLines 3 360 8 card.limitations, lit "limitations are malformed"),
    (decide (1 ≤ card.findings.length) && decide (card.findings.length ≤ 20),
      lit "card findings are outside the limit"),
    ([card.conceptualSupport, card.empiricalSupport, card.reproducibility, card.feasibilityNow,
        card.sourceIndependence].all (·.all scoreInUnit),
      lit "card score is malformed"),
    (decide (card.uncertainty ∈ [lit "low", lit "medium", lit "high", lit "unknown"]),
      lit "card uncertainty is malformed"),
    ((utf8 (card.asJson py)).all fun bytes => decide (bytes.length ≤ 48000), lit "card is too large")]

end DocumentCardFields

/-- `DocumentCard`, with the checks of its constructor and of its findings' constructors. -/
structure DocumentCard (py : Interpreter) extends DocumentCardFields where
  findings_accepted : ∀ finding ∈ findings, require finding.checks = .ok ()
  accepted : require (toDocumentCardFields.checks py) = .ok ()
  encodable : (utf8 (toDocumentCardFields.asJson py)).isSome = true

/-- The fields of `DiagramCard`. -/
structure DiagramCardFields where
  sourceKey : Str
  documentId : Str
  documentSha256 : Str
  pageNumber : ℤ
  imageSha256 : Str
  diagramKind : Str
  summary : Str
  components : List Str
  connections : List Str
  feedbackOrControl : List Str
  limitations : List Str
  reviewerStatus : Str
  cardVersion : Str
deriving DecidableEq

namespace DiagramCardFields

variable (card : DiagramCardFields)

/-- `asdict` of a diagram card. -/
def asdict : Fields :=
  [(lit "source_key", .str card.sourceKey), (lit "document_id", .str card.documentId),
    (lit "document_sha256", .str card.documentSha256), (lit "page_number", .int card.pageNumber),
    (lit "image_sha256", .str card.imageSha256), (lit "diagram_kind", .str card.diagramKind),
    (lit "summary", .str card.summary), (lit "components", strings card.components),
    (lit "connections", strings card.connections), (lit "feedback_or_control", strings card.feedbackOrControl),
    (lit "limitations", strings card.limitations), (lit "reviewer_status", .str card.reviewerStatus),
    (lit "card_version", .str card.cardVersion)]

/-- `DiagramCard.as_json`. -/
def asJson (py : Interpreter) : Str := dumpsSorted py.floatRepr (.obj card.asdict)

/-- The checks of `DiagramCard`, in order. -/
def checks : List (Bool × Str) :=
  [(isDigest card.sourceKey && isDigest card.documentSha256 && isDigest card.imageSha256,
      lit "diagram identity is malformed"),
    (1 ≤ card.pageNumber && card.pageNumber ≤ 100 &&
        decide (card.diagramKind ∈ [lit "workflow", lit "architecture", lit "data_flow", lit "state_machine",
          lit "comparison", lit "other"]) &&
        decide (card.reviewerStatus = lit "needs_review") && decide (card.cardVersion = lit "diagram-card-v1"),
      lit "diagram card metadata is malformed"),
    (spans 3 700 isInline card.summary, lit "diagram summary is malformed"),
    (boundedLines 3 700 16 card.components && boundedLines 3 700 24 card.connections &&
        boundedLines 3 700 12 card.feedbackOrControl && boundedLines 3 700 12 card.limitations,
      lit "diagram card fields are malformed")]

end DiagramCardFields

/-- `DiagramCard`, with the checks of its constructor. -/
structure DiagramCard extends DiagramCardFields where
  accepted : require toDiagramCardFields.checks = .ok ()

/-- `card_sha256`, or the `UnicodeEncodeError` of a surrogate. -/
def cardSha256 (asJson : Str) : Option Str := (utf8 asJson).map sha256

/-- The identity of an accepted document card. -/
theorem DocumentCard.identity {py : Interpreter} (card : DocumentCard py) :
    isDigest card.documentSha256 = true ∧ card.cardVersion = lit "document-card-v1" := by
  have h := (require_eq_ok_iff _).mp card.accepted
  simp only [DocumentCardFields.checks, List.forall_mem_cons, decide_eq_true_eq] at h
  exact ⟨h.2.1, h.2.2.2.1⟩

/-- The identity of an accepted diagram card. -/
theorem DiagramCard.identity (card : DiagramCard) :
    isDigest card.documentSha256 = true ∧ card.cardVersion = lit "diagram-card-v1" := by
  have h := (require_eq_ok_iff _).mp card.accepted
  simp only [DiagramCardFields.checks, List.forall_mem_cons, Bool.and_eq_true, decide_eq_true_eq] at h
  exact ⟨h.1.1.2, h.2.1.2⟩

end NeuroLab.Research
