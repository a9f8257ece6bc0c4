import NeuroLab.ControlPlane.Sample
import NeuroLab.Research.Calls

/-!
# A concrete site

An interpreter that folds ASCII letters only and a server that reads ISO dates and orders
the members of an object as `jsonb` does, with one source, its PDF and its licence page.
The laws of a server hold of it, so the runs of the corpus are not empty of meaning.
-/

namespace NeuroLab.Research.Sample

open Python Common Postgres

/-- Case folding in ASCII. -/
def folding : CaseFolding := .ascii

/-- Locations without brackets, whatever their characters. -/
def urls : UrlChecks where
  lower s := s.map asciiLower
  normalized _ := true
  bracketed _ := false
  lower_ascii _ _ := rfl

/-- A server that reads dates in ISO form only. -/
def server : Server where
  date s := (isoDate s).bind fun (year, month, day) => if isDay year month day then some s else none
  jsonb v := if ControlPlane.Sample.jsonbAccepts v then some (ControlPlane.Sample.jsonbOrder v) else none
  numericText := ControlPlane.Sample.py.floatRepr
  date_isoDate := by
    intro s year month day h
    rw [h]
    rfl
  jsonb_texts := by
    intro fields v hnodup hv
    split at hv
    · cases hv
      exact (ControlPlane.Sample.jsonbOrder_reordered _).texts hnodup
    · cases hv

/-- The site. -/
def site : Site where
  host := ⟨ControlPlane.Sample.py, folding, urls⟩
  server := server

/-- A preprint. -/
def item : ResearchItem where
  provider := .arxiv
  providerId := lit "2401.00001"
  url := lit "https://arxiv.org/abs/2401.00001"
  title := lit "Agent memory"
  publishedOn := lit "2024-01-02"
  checkedOn := lit "2024-01-03"
  evidenceLevel := .reference
  limitations := [lit "arXiv preprint; peer-review status must be checked separately."]
  abstract := []
  authors := [lit "A. Author"]
  doi := none

/-- A run that found it. -/
def run : ItResearchRun where
  query := { topic := lit "agent memory", maxResultsPerProvider := 5,
             topic_inline := by decide +kernel, maxResults_bounded := by decide }
  checkedOn := lit "2024-01-03"
  items := [item]
  providerErrors := []
  audit := [lit "scope:it-public-only"]

/-- The key of its source. -/
def sourceKey : Str := (site.host.canonicalSourceKey item).getD []

/-- The digest of its PDF. -/
def pdfSha256 : Str := sha256 (lit "%PDF-1.7")

/-- The receipt of its PDF. -/
def fullText : FullTextReceipt where
  sourceKey := sourceKey
  provider := lit "arxiv"
  documentUrl := lit "https://export.arxiv.org/pdf/2401.00001"
  licenseId := lit "CC-BY-4.0"
  sha256 := pdfSha256
  byteCount := 8
  pageCount := 3
  extractedTextSha256 := sha256 []
  extractedCharacterCount := 0
  extractionStatus := lit "extracted_untrusted"

/-- The receipt of its licence page. -/
def license : LicenseReceipt where
  sourceKey := sourceKey
  provider := lit "arxiv"
  metadataUrl := lit "https://arxiv.org/abs/2401.00001"
  licenseId := lit "CC-BY-4.0"
  evidenceSha256 := sha256 (lit "https://creativecommons.org/licenses/by/4.0/")
  checkedOn := lit "2024-01-03"

/-- A card that a model made of the document. -/
def documentCard : DocumentCard site.host.py where
  sourceKey := sourceKey
  documentId := uuidText 2
  documentSha256 := pdfSha256
  documentSummary := lit "The paper describes an agent memory."
  researchProblem := lit "Agents forget between sessions."
  method := lit "An ablation on a public benchmark."
  architectureLayers := [lit "component"]
  implementationSignals := []
  evaluationSignals := []
  limitations := [lit "One benchmark only."]
  findings := [⟨1, 2, lit "method", lit "The memory is a vector store."⟩]
  conceptualSupport := some (.finite false 5 (-1))
  empiricalSupport := none
  reproducibility := none
  feasibilityNow := none
  sourceIndependence := none
  uncertainty := lit "medium"
  reviewerStatus := lit "needs_review"
  cardVersion := lit "document-card-v1"
  findings_accepted := by decide +kernel
  accepted := by decide +kernel
  encodable := by decide +kernel

/-- A claim about the document. -/
def claim (assessor : Assessor) : ReviewedClaim where
  sourceKey := sourceKey
  documentId := uuidText 2
  summary := lit "The memory keeps facts between sessions."
  pageStart := 1
  pageEnd := 2
  maturity := .prototype
  actionLane := .watchlist
  assessment :=
    { assessor, conceptualSupport := some (1 / 2), empiricalSupport := none, reproducibility := some 1,
      feasibilityNow := none, sourceIndependence := none, uncertainty := .medium,
      rationale := [lit "The ablation on page two."],
      scores_inUnit := by decide +kernel, rationale_inline := by decide +kernel }
  sourceKey_digest := by decide +kernel
  documentId_uuid := by decide +kernel
  summary_inline := by decide +kernel
  pages_ordered := by decide
  lane_admitted := rfl

/-- The calls that store the source and its PDF. -/
def acquire : List (Call site.host.py) :=
  [.persistRun 1 10 run (lit "runs/1.json"), .persistFulltextReceipt 2 20 fullText]

example : (((corpus site).execute [] .empty acquire).map fun r => r.2.documents.rows.map (·.pageCount)) = some [3] := by
  decide +kernel

end NeuroLab.Research.Sample
