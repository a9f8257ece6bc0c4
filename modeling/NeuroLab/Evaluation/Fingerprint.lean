import NeuroLab.Evaluation.Registration
import NeuroLab.Evaluation.SemanticHoldout
import NeuroLab.Python.Wire
import NeuroLab.Research.Corpus

/-!
# What the fingerprint of the article scorer covers

The classifier reads its terms and its token rule from the module, and the frozen cases carry
titles and expectations. The fingerprint is taken of a label, of the text of one function and of
the names of the cases, so none of these can be told from it: a changed table keeps the digest, the
evaluator's id and its stored definition.
-/

namespace NeuroLab.Evaluation

open Python Common Research

/-! ## Versions of the scorer -/

/-- `ArticleScoringCase`. -/
structure ArticleScoringCase where
  caseId : Str
  item : ResearchItem
  expectedLayers : List ArchitectureLayer
  expectedConfidence : ℚ

/-- The text that the fingerprint is taken of. -/
def scorerMaterial (version source : Str) (caseIds : List Str) : Str := [0x0A].intercalate (version :: source :: caseIds)

/-- A version of the modules: their label, the text of `classify_item`, `_CASE_IDS`, `_LAYER_TERMS`,
`_TOKEN.findall` and the frozen cases, with the checks of the evaluator made of them. -/
structure ArticleScorer where
  version : Str
  source : Str
  caseIds : List Str
  layerTerms : ArchitectureLayer → List Str
  tokens : Str → List Str
  cases : List ArticleScoringCase
  version_named : isName version = true
  cases_distinct : caseIds ≠ [] ∧ caseIds.Nodup
  cases_named : ∀ caseId ∈ caseIds, isName caseId = true
  encodable : (utf8 (scorerMaterial version source caseIds)).isSome = true

namespace ArticleScorer

variable (scorer : ArticleScorer)

/-- `classify_item`, over the tables of a version. -/
def classifyItem (host : Host) (item : ResearchItem) : Option SourceAssessment := do
  let sourceKey ← host.canonicalSourceKey item
  let terms := scorer.tokens (host.folding.casefold item.title)
  let found := layers.filter fun layer => terms.any (· ∈ scorer.layerTerms layer)
  let (architectureLayers, classificationConfidence, rationale) : List ArchitectureLayer × ℚ × Str :=
    if found.isEmpty then
      ([.component], 2 / 10,
        lit "Title has no taxonomy signal; assigned component only as a low-confidence review queue.")
    else
      (found, min (8 / 10) (35 / 100 + 1 / 10 * found.length),
        lit "Architecture layer is a deterministic title-metadata classification and requires human review.")
  some
    { sourceKey, item, architectureLayers, classificationConfidence,
      conceptualSupport := item.evidenceLevel.conceptual, implementationReadiness := 0, reproducibility := 0,
      sourceIndependence := item.provider.independence, verificationStatus := .metadataObserved,
      rationale :=
        [rationale,
          lit ("Metadata-only discovery is not evidence of executable code, dataset availability, " ++
            "or reproduced results.")] }

/-- With the tables of the module this is its `classify_item`. -/
theorem classifyItem_eq {scorer : ArticleScorer} (hterms : scorer.layerTerms = ArchitectureLayer.terms)
    (htokens : scorer.tokens = Research.tokens 0) (host : Host) (item : ResearchItem) :
    scorer.classifyItem host item = host.classifyItem item := by
  unfold classifyItem Host.classifyItem
  rw [hterms, htokens]

/-- The comparisons of `evaluate_article_scorer` on one case: layers, confidence and safety. -/
def checkCase (host : Host) (case : ArticleScoringCase) : Option (Bool × Bool × Bool) := do
  let assessment ← scorer.classifyItem host case.item
  some (decide (assessment.architectureLayers = case.expectedLayers),
    decide (|assessment.classificationConfidence - case.expectedConfidence| < 1 / 10 ^ 9),
    decide (assessment.implementationReadiness = 0) && decide (assessment.reproducibility = 0) &&
      decide (assessment.verificationStatus = .metadataObserved))

/-- The results of the frozen contract. -/
def contract (host : Host) : Option (List (Bool × Bool × Bool)) := scorer.cases.mapM (scorer.checkCase host)

/-- `article_scorer_definition_sha256`. -/
def definitionSha256 : Str := sha256 ((utf8 (scorerMaterial scorer.version scorer.source scorer.caseIds)).get scorer.encodable)

/-- The name that the evaluator's id is made of. -/
def idName : Str := lit "neurolab/article_scoring/" ++ scorer.version ++ lit "/" ++ scorer.definitionSha256

theorem baseline_described :
    isName scorer.version = true ∧ isName (lit "baseline_policy") = true ∧ isDigest scorer.definitionSha256 = true :=
  ⟨scorer.version_named, by decide +kernel, isDigest_sha256 _⟩

/-- `article_scorer_baseline`. -/
def baseline : EvaluatorVersion where
  evaluatorId := uuidText (uuid5 namespaceUrl scorer.idName)
  kind := .articleScoring
  version := scorer.version
  proposedBy := lit "baseline_policy"
  definitionSha256 := scorer.definitionSha256
  frozenCaseIds := scorer.caseIds
  activeCaseIds := scorer.caseIds
  state := .promoted
  parentEvaluatorId := none
  identified := ⟨isUuid_uuidText _, rfl⟩
  described := scorer.baseline_described
  cases_distinct := ⟨scorer.cases_distinct.1, scorer.cases_distinct.2, scorer.cases_distinct.2⟩
  cases_named := fun caseId hmem => scorer.cases_named caseId ((List.mem_append.mp hmem).elim id id)
  frozen_active := List.Subset.refl _

end ArticleScorer

/-! ## The version of the repository -/

/-- `inspect.getsource(classify_item)`. -/
def classifyItemSource : Str :=
  [0x0A].intercalate [
    lit "def classify_item(item: ResearchItem) -> SourceAssessment:",
    lit "    \"\"\"Classify title metadata conservatively; a human can later amend it.\"\"\"",
    lit "    terms = set(_TOKEN.findall(item.title.casefold()))",
    lit "    layers = tuple(layer for layer in _LAYERS if terms & _LAYER_TERMS[layer])",
    lit "    if not layers:",
    lit "        layers = (\"component\",)",
    lit "        confidence = 0.2",
    lit "        rationale = (\"Title has no taxonomy signal; assigned component only as a low-confidence review queue.\",)",
    lit "    else:",
    lit "        confidence = min(0.8, 0.35 + (0.1 * len(layers)))",
    lit "        rationale = (\"Architecture layer is a deterministic title-metadata classification and requires human review.\",)",
    lit "",
    lit "    # Discovery APIs provide bibliographic metadata only.  No code, dataset,",
    lit "    # reproduction procedure or independent replication has been verified.",
    lit "    provider_independence = \x7b\"arxiv\": 0.45, \"openalex\": 0.55, \"crossref\": 0.55\x7d[item.provider]",
    lit "    conceptual = \x7b\"reference\": 0.45, \"secondary\": 0.5, \"primary\": 0.55\x7d[item.evidence_level]",
    lit "    return SourceAssessment(",
    lit "        source_key=canonical_source_key(item),",
    lit "        item=item,",
    lit "        architecture_layers=layers,",
    lit "        classification_confidence=confidence,",
    lit "        conceptual_support=conceptual,",
    lit "        implementation_readiness=0.0,",
    lit "        reproducibility=0.0,",
    lit "        source_independence=provider_independence,",
    lit "        verification_status=\"metadata_observed\",",
    lit "        rationale=rationale",
    lit "        + (",
    lit "            \"Metadata-only discovery is not evidence of executable code, dataset availability, or reproduced results.\",",
    lit "        ),",
    lit "    )",
    []]

theorem ascii_classifyItemSource : Ascii classifyItemSource := by
  apply Ascii.intercalate
  · exact .cons (by decide) nofun
  · repeat refine List.forall_mem_cons.mpr ⟨.of_chars rfl (by decide +kernel), ?_⟩
    exact List.forall_mem_singleton.mpr nofun

/-- `_item`, of a title in ASCII. -/
def syntheticItem (title : Str) (provider : Provider) (evidenceLevel : EvidenceLevel) : ResearchItem where
  provider := provider
  providerId := lit "synthetic-" ++ (sha256 title).take 12
  url := lit "https://example.invalid/synthetic"
  title := title
  publishedOn := lit "2026-01-01"
  checkedOn := lit "2026-01-01"
  evidenceLevel := evidenceLevel
  limitations := [lit "synthetic evaluator fixture"]
  abstract := []
  authors := []
  doi := none

/-- `frozen_article_scoring_cases`. -/
def frozenArticleScoringCases : List ArticleScoringCase :=
  [⟨lit "arch_system", syntheticItem (lit "Agentic system architecture") .arxiv .reference, [.globalArchitecture], 45 / 100⟩,
    ⟨lit "workflow_tools", syntheticItem (lit "Workflow planner with MCP tools") .openalex .primary,
      [.subsystem, .component], 55 / 100⟩,
    ⟨lit "trace_feature", syntheticItem (lit "Tracing and audit search") .crossref .secondary, [.feature], 45 / 100⟩,
    ⟨lit "no_signal", syntheticItem (lit "Methods for nocturnal butterflies") .arxiv .reference, [.component], 20 / 100⟩]

/-- The scorer of the repository, with some layers' terms in place of its own. -/
def scorerWith (layerTerms : ArchitectureLayer → List Str) : ArticleScorer where
  version := lit "metadata_title_v1"
  source := classifyItemSource
  caseIds := [lit "arch_system", lit "workflow_tools", lit "trace_feature", lit "no_signal"]
  layerTerms := layerTerms
  tokens := Research.tokens 0
  cases := frozenArticleScoringCases
  version_named := by decide +kernel
  cases_distinct := by decide +kernel
  cases_named := by decide +kernel
  encodable := by
    rw [utf8_of_ascii]
    · rfl
    · apply Ascii.intercalate
      · exact .cons (by decide) nofun
      · refine List.forall_mem_cons.mpr ⟨.of_chars rfl (by decide +kernel), ?_⟩
        refine List.forall_mem_cons.mpr ⟨ascii_classifyItemSource, ?_⟩
        repeat refine List.forall_mem_cons.mpr ⟨.of_chars rfl (by decide +kernel), ?_⟩
        exact nofun

example (host : Host) (item : ResearchItem) :
    (scorerWith ArchitectureLayer.terms).classifyItem host item = host.classifyItem item :=
  ArticleScorer.classifyItem_eq rfl rfl host item

/-! ## What the fingerprint tells apart -/

/-- Two versions behave differently: on some item, or in the results of their frozen cases. -/
def Differ (host : Host) (scorer scorer' : ArticleScorer) : Prop :=
  (∃ item, scorer.classifyItem host item ≠ scorer'.classifyItem host item) ∨ scorer.contract host ≠ scorer'.contract host

/-- The digests do not collide on the two versions. -/
structure CollisionFree (scorer scorer' : ArticleScorer) : Prop where
  definition : scorer.definitionSha256 = scorer'.definitionSha256 →
    utf8 (scorerMaterial scorer.version scorer.source scorer.caseIds) =
      utf8 (scorerMaterial scorer'.version scorer'.source scorer'.caseIds)
  id : uuid5 namespaceUrl scorer.idName = uuid5 namespaceUrl scorer'.idName → scorer.idName = scorer'.idName

/-- The second version is told from the first: its digest and its evaluator's id are others, and after the first is
registered, whatever happens then, its own registration does not return the id of the first. -/
structure Detected (scorer scorer' : ArticleScorer) : Prop where
  definition : scorer.definitionSha256 ≠ scorer'.definitionSha256
  id : scorer.baseline.evaluatorId ≠ scorer'.baseline.evaluatorId
  detached : ∀ (server : Postgres.Server) (h : History Evaluators Call) (db : Evaluators), (memory server).Run h db →
    ∀ id, RegisteredAs h scorer.baseline id → (persistEvaluatorVersion scorer'.baseline db).2 ≠ .ok id

variable {scorer scorer' : ArticleScorer}

/-- The definition is the end of the name that an id is made of. -/
theorem definition_of_idName (h : scorer.idName = scorer'.idName) : scorer.definitionSha256 = scorer'.definitionSha256 := by
  have hlength : scorer.definitionSha256.length = scorer'.definitionSha256.length := by
    simp [ArticleScorer.definitionSha256, sha256, hexDigits_length]
  exact (List.append_inj' h hlength).2

/-- An id leads to one definition only. -/
theorem detached_of_definition (hdefinition : scorer.definitionSha256 ≠ scorer'.definitionSha256) {server : Postgres.Server}
    {h : History Evaluators Call} {db : Evaluators} (run : (memory server).Run h db) {id : Str}
    (hregistered : RegisteredAs h scorer.baseline id) : (persistEvaluatorVersion scorer'.baseline db).2 ≠ .ok id := by
  intro hreturned
  obtain ⟨_, r, -, hr, hid, hversion⟩ := stored_of_registered run hregistered
  obtain ⟨_, r', -, hr', hid', hversion'⟩ := stored_of_ok hreturned
  have hsame : r'.id = r.id := uuidText_injective (hid'.trans hid.symm)
  obtain ⟨kept, hkept, heq⟩ := kept_of_version scorer'.baseline db r.id r (Indexed.taken?_eq_some hr).1
  have hfound := (Indexed.taken?_eq_some hr').1
  rw [hsame, hkept] at hfound
  cases hfound
  apply hdefinition
  calc scorer.definitionSha256 = r.definitionSha256 := (isVersion_iff.mp hversion).2.1.symm
    _ = r'.definitionSha256 := (congrArg EvaluatorVersionRow.definitionSha256 heq).symm
    _ = scorer'.definitionSha256 := (isVersion_iff.mp hversion').2.1

/-- The fingerprint tells two versions apart exactly when they differ in their label, the text of the function or
the names of the cases. -/
theorem detected_iff (collisionFree : CollisionFree scorer scorer') :
    Detected scorer scorer' ↔ scorerMaterial scorer.version scorer.source scorer.caseIds ≠
      scorerMaterial scorer'.version scorer'.source scorer'.caseIds := by
  constructor
  · intro detected hmaterial
    apply detected.definition
    unfold ArticleScorer.definitionSha256
    simp only [hmaterial]
  · intro hmaterial
    have hdefinition : scorer.definitionSha256 ≠ scorer'.definitionSha256 := by
      intro hdigest
      obtain ⟨bytes, hbytes⟩ := Option.isSome_iff_exists.mp scorer.encodable
      have hbytes' := (collisionFree.definition hdigest).symm.trans hbytes
      rw [← decodeUtf8_eq_some_iff] at hbytes hbytes'
      exact hmaterial (Option.some.inj (hbytes.symm.trans hbytes'))
    refine ⟨hdefinition, fun hid => ?_, fun server h db run id hregistered => detached_of_definition hdefinition run hregistered⟩
    exact hdefinition (definition_of_idName (collisionFree.id (uuidText_injective hid)))

/-- Whether a change of behaviour is always told: exactly when it comes with another label, another text of the
function or other names of the cases. -/
theorem changes_detected_iff (host : Host) (collisionFree : CollisionFree scorer scorer') :
    (Differ host scorer scorer' → Detected scorer scorer') ↔
      (Differ host scorer scorer' → scorerMaterial scorer.version scorer.source scorer.caseIds ≠
        scorerMaterial scorer'.version scorer'.source scorer'.caseIds) :=
  imp_congr_right fun _ => detected_iff collisionFree

/-- The tables do not enter the digests. -/
theorem collisionFree_scorerWith (layerTerms layerTerms' : ArchitectureLayer → List Str) :
    CollisionFree (scorerWith layerTerms) (scorerWith layerTerms') := ⟨fun _ => rfl, fun _ => rfl⟩

/-- The terms of the module, without those of components. -/
def withoutComponents : ArchitectureLayer → List Str
  | .component => []
  | layer => layer.terms

/-- A title that only the terms of components sort. -/
theorem differ_withoutComponents :
    Differ Research.Sample.site.host (scorerWith ArchitectureLayer.terms) (scorerWith withoutComponents) := by
  refine Or.inl ⟨{ Research.Sample.item with title := lit "MCP" }, fun hsame => ?_⟩
  have hconfidence := congrArg (Option.map SourceAssessment.classificationConfidence) hsame
  exact absurd hconfidence (by decide +kernel)

namespace Sample

/-- A version whose function has one line, under a label and with some layers' terms. -/
def oneLine (label : String) (layerTerms : ArchitectureLayer → List Str) (hnamed : isName (lit label) = true)
    (hascii : Ascii (lit label)) : ArticleScorer where
  version := lit label
  source := lit "def classify_item(item): ..."
  caseIds := [lit "no_signal"]
  layerTerms := layerTerms
  tokens := Research.tokens 0
  cases := frozenArticleScoringCases
  version_named := hnamed
  cases_distinct := by decide +kernel
  cases_named := by decide +kernel
  encodable := by
    rw [utf8_of_ascii]
    · rfl
    · apply Ascii.intercalate
      · exact .cons (by decide) nofun
      · refine List.forall_mem_cons.mpr ⟨hascii, ?_⟩
        repeat refine List.forall_mem_cons.mpr ⟨.of_chars rfl (by decide +kernel), ?_⟩
        exact nofun

/-- A version with the terms of the module. -/
def labelled : ArticleScorer := oneLine "title_v1" ArchitectureLayer.terms (by decide +kernel) (.of_chars rfl (by decide +kernel))

/-- The next version, without the terms of components. -/
def relabelled : ArticleScorer := oneLine "title_v2" withoutComponents (by decide +kernel) (.of_chars rfl (by decide +kernel))

end Sample

/-- Two versions under two labels have two digests, and their evaluators two ids. -/
theorem changes_detected_iff_relabelled :
    CollisionFree Sample.labelled Sample.relabelled ∧ Differ Research.Sample.site.host Sample.labelled Sample.relabelled ∧
      Detected Sample.labelled Sample.relabelled := by
  have hdefinition : Sample.labelled.definitionSha256 ≠ Sample.relabelled.definitionSha256 := by decide +kernel
  have hid : uuid5 namespaceUrl Sample.labelled.idName ≠ uuid5 namespaceUrl Sample.relabelled.idName := by decide +kernel
  have collisionFree : CollisionFree Sample.labelled Sample.relabelled :=
    ⟨fun hsame => absurd hsame hdefinition, fun hsame => absurd hsame hid⟩
  have differ : Differ Research.Sample.site.host Sample.labelled Sample.relabelled := by
    refine Or.inl ⟨{ Research.Sample.item with title := lit "MCP" }, fun hsame => ?_⟩
    have hconfidence := congrArg (Option.map SourceAssessment.classificationConfidence) hsame
    exact absurd hconfidence (by decide +kernel)
  refine ⟨collisionFree, differ, (changes_detected_iff Research.Sample.site.host collisionFree).mpr (fun _ => ?_) differ⟩
  decide +kernel

/-- Another table of terms keeps the fingerprint, and with it the evaluator. -/
theorem changed_terms_undetected :
    ¬∀ (host : Host) (scorer scorer' : ArticleScorer), CollisionFree scorer scorer' → Differ host scorer scorer' →
      Detected scorer scorer' := by
  intro claimed
  have detected := claimed Research.Sample.site.host (scorerWith ArchitectureLayer.terms) (scorerWith withoutComponents)
    (collisionFree_scorerWith _ _) differ_withoutComponents
  exact detected.definition rfl

end NeuroLab.Evaluation
