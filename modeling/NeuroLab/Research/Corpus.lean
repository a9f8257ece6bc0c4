import Mathlib.Data.Rat.Floor
import NeuroLab.Python.Sha256
import NeuroLab.Research.Items

/-!
# Classification and the coverage gate

Sources are assessed on their title alone, deduplicated by the digest of their DOI or
URL, and counted against a policy. The gate opens when nothing of the policy is unmet.
Scores are exact numbers.
-/

namespace NeuroLab.Research

open Python

/-- `ArchitectureLayer`. -/
inductive ArchitectureLayer
  | globalArchitecture
  | subsystem
  | component
  | feature
deriving DecidableEq

/-- `_LAYERS`. -/
def layers : List ArchitectureLayer := [.globalArchitecture, .subsystem, .component, .feature]

/-- The name of a layer. -/
def ArchitectureLayer.name : ArchitectureLayer → Str
  | globalArchitecture => lit "global_architecture"
  | subsystem => lit "subsystem"
  | component => lit "component"
  | feature => lit "feature"

/-- `_LAYER_TERMS`. -/
def ArchitectureLayer.terms : ArchitectureLayer → List Str
  | globalArchitecture =>
    [lit "architecture", lit "architectures", lit "framework", lit "system", lit "systems", lit "agentic",
      lit "orchestration"]
  | subsystem =>
    [lit "pipeline", lit "workflow", lit "planner", lit "planning", lit "memory", lit "retrieval",
      lit "supervisor", lit "routing"]
  | component =>
    [lit "mcp", lit "langgraph", lit "tool", lit "tools", lit "evaluation", lit "benchmark", lit "guardrail",
      lit "testing", lit "agent"]
  | feature =>
    [lit "review", lit "trace", lit "tracing", lit "logging", lit "observability", lit "search", lit "ranking",
      lit "citation", lit "audit"]

/-- The CHECK of `sources.verification_status`. -/
inductive VerificationStatus
  | metadataObserved
  | metadataCorroborated
  | contentVerified
deriving DecidableEq

/-- `_VERIFICATION_RANK`. -/
def VerificationStatus.rank : VerificationStatus → ℕ
  | metadataObserved => 0
  | metadataCorroborated => 1
  | contentVerified => 2

/-- `SourceAssessment`. -/
structure SourceAssessment where
  sourceKey : Str
  item : ResearchItem
  architectureLayers : List ArchitectureLayer
  classificationConfidence : ℚ
  conceptualSupport : ℚ
  implementationReadiness : ℚ
  reproducibility : ℚ
  sourceIndependence : ℚ
  verificationStatus : VerificationStatus
  rationale : List Str

/-! ## Classification -/

/-- The text a source is told apart by. -/
def Host.stableText (host : Host) (item : ResearchItem) : Str :=
  let stable := if (item.doi.getD []).isEmpty then item.url else item.doi.getD []
  host.folding.casefold (strip isSpace stable)

/-- `canonical_source_key`, or the `UnicodeEncodeError` of a surrogate. -/
def Host.canonicalSourceKey (host : Host) (item : ResearchItem) : Option Str :=
  (utf8 (host.stableText item)).map sha256

/-- The first character of a token. -/
def isTokenStart (c : ℕ) : Bool := isCaselessLetter c || isDigit c

/-- A later character of a token. -/
def isTokenPart (c : ℕ) : Bool := isTokenStart c || c = 0x2D

/-- `_TOKEN.findall`, with a count of the characters still to drop. -/
def tokens : ℕ → Str → List Str
  | _, [] => []
  | skip + 1, _ :: s => tokens skip s
  | 0, c :: s =>
    let part := s.takeWhile isTokenPart
    if isTokenStart c && decide (2 ≤ part.length) then (c :: part) :: tokens part.length s else tokens 0 s

/-- The independence granted to a provider's metadata. -/
def Provider.independence : Provider → ℚ
  | arxiv => 45 / 100
  | openalex => 55 / 100
  | crossref => 55 / 100

/-- The conceptual support granted to a level of evidence. -/
def EvidenceLevel.conceptual : EvidenceLevel → ℚ
  | reference => 45 / 100
  | secondary => 5 / 10
  | primary => 55 / 100

/-- `classify_item`. -/
def Host.classifyItem (host : Host) (item : ResearchItem) : Option SourceAssessment := do
  let sourceKey ← host.canonicalSourceKey item
  let terms := tokens 0 (host.folding.casefold item.title)
  let found := layers.filter fun layer => terms.any (· ∈ layer.terms)
  let (architectureLayers, classificationConfidence, rationale) : List ArchitectureLayer × ℚ × Str :=
    if found.isEmpty then
      ([.component], 2 / 10,
        lit "Title has no taxonomy signal; assigned component only as a low-confidence review queue.")
    else
      (found, min (8 / 10) (35 / 100 + 1 / 10 * found.length),
        lit "Architecture layer is a deterministic title-metadata classification and requires human review.")
  some
    { sourceKey, item, architectureLayers, classificationConfidence,
      conceptualSupport := item.evidenceLevel.conceptual, implementationReadiness := 0, reproducibility := 0,
      sourceIndependence := item.provider.independence, verificationStatus := .metadataObserved,
      rationale :=
        [rationale,
          lit ("Metadata-only discovery is not evidence of executable code, dataset availability, " ++
            "or reproduced results.")] }

/-! ## Coverage -/

/-- `CoveragePolicy`. -/
structure CoveragePolicy where
  minimumUniqueSources : ℤ := 12
  minimumSourcesPerLayer : ℤ := 3
  minimumProviderProvenance : ℤ := 2
  minimumContentVerifiedSources : ℤ := 4
  minimumReproducibilityMeanForBuildableLayers : ℚ := 35 / 100

/-- `SynthesisStatus`. -/
inductive SynthesisStatus
  | collectingEvidence
  | readyForSynthesis
deriving DecidableEq

/-- `CoverageAssessment`. -/
structure CoverageAssessment where
  status : SynthesisStatus
  uniqueSourceCount : ℕ
  providerProvenanceCount : ℕ
  sourcesPerLayer : List (ArchitectureLayer × ℕ)
  contentVerifiedCount : ℕ
  buildableReproducibilityMean : ℚ
  unmetRequirements : List Str

/-- One step of the loop over the assessments: a stronger one takes the place of its key's. -/
def remember (byKey : List SourceAssessment) (assessment : SourceAssessment) : List SourceAssessment :=
  match byKey.find? fun previous => previous.sourceKey = assessment.sourceKey with
  | none => byKey ++ [assessment]
  | some previous =>
    if previous.verificationStatus.rank < assessment.verificationStatus.rank then
      byKey.map fun kept => if kept.sourceKey = assessment.sourceKey then assessment else kept
    else byKey

/-- The assessments counted, one for each key. -/
def deduplicated (assessments : List SourceAssessment) : List SourceAssessment := assessments.foldl remember []

/-- Whether a source counts for the reproducibility mean. -/
def SourceAssessment.buildable (a : SourceAssessment) : Bool :=
  .component ∈ a.architectureLayers || .feature ∈ a.architectureLayers

/-- The mean of the scores, zero without any. -/
def mean (scores : List ℚ) : ℚ := scores.sum / scores.length

/-- `round(q, 3)`: to even on a tie. -/
def round3 (q : ℚ) : ℚ :=
  let below := ⌊q * 1000⌋
  let rest := q * 1000 - below
  (if rest < 1 / 2 ∨ (rest = 1 / 2 ∧ below % 2 = 0) then below else below + 1 : ℤ) / 1000

/-- `evaluate_coverage`. -/
def evaluateCoverage (assessments : List SourceAssessment) (policy : CoveragePolicy) : CoverageAssessment :=
  let values := deduplicated assessments
  let providers := (assessments.map fun a => a.item.provider).dedup
  let counts := layers.map fun layer => (layer, values.countP fun a => layer ∈ a.architectureLayers)
  let reproducibilityMean := mean ((values.filter (·.buildable)).map (·.reproducibility))
  let verified := values.countP fun a => a.verificationStatus = .contentVerified
  let need (n : ℤ) (what : String) : List Str :=
    if 0 < n then [lit "need " ++ decimalInt n ++ lit " more " ++ lit what] else []
  let unmet :=
    need (policy.minimumUniqueSources - values.length) "unique sources" ++
      (if providers.length < policy.minimumProviderProvenance then
        [lit "need metadata from at least two provider provenances"] else []) ++
      counts.flatMap (fun (layer, count) =>
        (need (policy.minimumSourcesPerLayer - count) "sources for ").map (· ++ layer.name)) ++
      need (policy.minimumContentVerifiedSources - verified) "content-verified sources" ++
      (if reproducibilityMean < policy.minimumReproducibilityMeanForBuildableLayers then
        [lit "need reproducibility evidence for component and feature sources"] else [])
  { status := if unmet.isEmpty then .readyForSynthesis else .collectingEvidence,
    uniqueSourceCount := values.length, providerProvenanceCount := providers.length, sourcesPerLayer := counts,
    contentVerifiedCount := verified, buildableReproducibilityMean := round3 reproducibilityMean,
    unmetRequirements := unmet }

/-! ## What the gate reads -/

/-- A step keeps assessments it was given. -/
theorem mem_remember {byKey : List SourceAssessment} {a b : SourceAssessment} (h : b ∈ remember byKey a) :
    b ∈ byKey ∨ b = a := by
  unfold remember at h
  split at h
  · rcases List.mem_append.mp h with h | h
    · exact Or.inl h
    · exact Or.inr (List.mem_singleton.mp h)
  · split at h
    · obtain ⟨kept, hkept, rfl⟩ := List.mem_map.mp h
      split
      · exact Or.inr rfl
      · exact Or.inl hkept
    · exact Or.inl h

/-- The assessments counted are among those given. -/
theorem mem_deduplicated {assessments : List SourceAssessment} {a : SourceAssessment}
    (h : a ∈ deduplicated assessments) : a ∈ assessments := by
  have loop : ∀ (rest byKey : List SourceAssessment), a ∈ rest.foldl remember byKey → a ∈ byKey ∨ a ∈ rest := by
    intro rest
    induction rest with
    | nil => exact fun _ h => Or.inl h
    | cons b rest ih =>
      intro byKey h
      rcases ih _ h with h | h
      · rcases mem_remember h with h | rfl
        · exact Or.inl h
        · exact Or.inr List.mem_cons_self
      · exact Or.inr (List.mem_cons_of_mem _ h)
  exact (loop assessments [] h).resolve_left List.not_mem_nil

/-- The mean of zeros is zero. -/
theorem mean_eq_zero {scores : List ℚ} (h : ∀ q ∈ scores, q = 0) : mean scores = 0 := by
  rw [mean, List.sum_eq_zero h, zero_div]

/-- While no source has a reproducibility score, a policy that asks for one stays unmet. -/
theorem collecting_of_reproducibility_zero {assessments : List SourceAssessment} {policy : CoveragePolicy}
    (hpolicy : 0 < policy.minimumReproducibilityMeanForBuildableLayers)
    (h : ∀ a ∈ assessments, a.reproducibility = 0) :
    (evaluateCoverage assessments policy).status = .collectingEvidence := by
  have hmean : mean (((deduplicated assessments).filter (·.buildable)).map (·.reproducibility)) = 0 := by
    refine mean_eq_zero fun q hq => ?_
    obtain ⟨a, ha, rfl⟩ := List.mem_map.mp hq
    exact h a (mem_deduplicated (List.mem_filter.mp ha).1)
  simp [evaluateCoverage, hmean, hpolicy]

end NeuroLab.Research
