import NeuroLab.Research.Deduplication
import NeuroLab.Research.Metadata

/-!
# What can be persisted

The tables judge a run that the evidence contract has accepted once more. Its dates and
scores pass, and no DOI meets another source: a source with a DOI is stored under a key
that the DOI determines. What is left are texts that PostgreSQL cannot hold and URLs whose
scheme is in capitals. The limit of PostgreSQL on the size of an index entry is not modelled.
-/

namespace NeuroLab.Research

open Python Common Postgres

/-! ## Folded DOIs -/

/-- Case folding neither drops a character nor makes a space of one, as the Unicode database has it. -/
def KeepsSpaces (folding : CaseFolding) : Prop := ∀ c, c ≠ 0x20 → folding.fold c ≠ [] ∧ 0x20 ∉ folding.fold c

/-- Spaces at the end are trimmed. -/
theorem trimEnd_append_replicate (s : Str) (n : ℕ) : trimEnd (s ++ List.replicate n 0x20) = trimEnd s := by
  have hspaces : (List.replicate n 0x20).dropWhile (fun c : ℕ => decide (c = 0x20)) = [] :=
    List.dropWhile_eq_nil_iff.mpr fun c hc => by simp [List.eq_of_mem_replicate hc]
  rw [trimEnd, List.reverse_append, List.reverse_replicate, List.dropWhile_append, hspaces]
  rfl

/-- A text that ends in another character is not trimmed. -/
theorem trimEnd_append_singleton (s : Str) {c : ℕ} (hc : c ≠ 0x20) : trimEnd (s ++ [c]) = s ++ [c] := by
  rw [trimEnd, List.reverse_append, List.reverse_singleton, List.singleton_append,
    List.dropWhile_cons_of_neg (by simpa using hc), List.reverse_cons, List.reverse_reverse]

/-- A stripped text does not end in what is stripped. -/
theorem strip_append_singleton {p : ℕ → Bool} {s t : Str} {c : ℕ} (h : strip p s = t ++ [c]) : p c = false := by
  have hrest : (s.dropWhile p).reverse.dropWhile p = c :: t.reverse := by
    rw [← List.reverse_reverse ((s.dropWhile p).reverse.dropWhile p)]
    change (strip p s).reverse = _
    rw [h, List.reverse_append, List.reverse_singleton, List.singleton_append]
  have hhead := List.head?_dropWhile_not p (s.dropWhile p).reverse
  rw [hrest] at hhead
  exact hhead

/-- A cleaned DOI is folded alike before and after its end is trimmed. -/
theorem Cleaned.casefold_strip {folding : CaseFolding} (hfolding : KeepsSpaces folding) {doi : Str} (h : Cleaned doi) :
    folding.casefold (strip isSpace doi) = trimEnd (folding.casefold doi) := by
  have hspaces : ∀ n, folding.casefold (List.replicate n 0x20) = List.replicate n 0x20 := by
    intro n
    rw [CaseFolding.casefold, List.flatMap_replicate, folding.fold_ascii 0x20 (by decide)]
    simp [asciiLower]
  have htrimmed : trimEnd (folding.casefold (strip isSpace doi)) = folding.casefold (strip isSpace doi) := by
    rcases List.eq_nil_or_concat (strip isSpace doi) with hnil | ⟨t, c, hlast⟩
    · rw [hnil]
      rfl
    · rw [List.concat_eq_append] at hlast
      have hc : c ≠ 0x20 := by
        rintro rfl
        exact absurd (strip_append_singleton hlast) (by decide)
      obtain ⟨hne, hspace⟩ := hfolding c hc
      obtain ⟨folded, e, hfold⟩ := (List.eq_nil_or_concat (folding.fold c)).resolve_left hne
      rw [List.concat_eq_append] at hfold
      rw [hlast, CaseFolding.casefold, List.flatMap_append, List.flatMap_singleton, hfold, ← List.append_assoc]
      refine trimEnd_append_singleton _ fun he => hspace ?_
      rw [hfold, he]
      exact List.mem_append_right _ List.mem_cons_self
  obtain ⟨n, hn⟩ := h.eq_strip
  conv_rhs => rw [hn, CaseFolding.casefold, List.flatMap_append]
  change _ = trimEnd (folding.casefold _ ++ folding.casefold _)
  rw [hspaces, trimEnd_append_replicate, htrimmed]

/-! ## Keys of DOIs -/

variable {host : Host} {server : Server} {db db' : Database}

/-- The key that a folded DOI determines. -/
def keyOfDoi (doi : Str) : Str := sha256 ((utf8 (trimEnd doi)).getD [])

/-- A source with a DOI is stored under the key of the DOI. -/
def KeyedByDoi (db : Database) : Prop :=
  ∀ k s, db.sources.find? k = some s → ∀ doi, s.canonicalDoi = some doi → s.sourceKey = keyOfDoi doi

/-- A call that stores a run stores items whose DOIs the mappers cleaned. -/
def StoresCleanDois (site : Site) (_ : Database) : Call site.host.py → Prop
  | .persistRun _ _ run _ => ∀ item ∈ run.items, item.HasCleanDoi
  | _ => True

/-- The DOI of a new source, and its key. -/
theorem newSource_keyed {now : ℕ} {assessment : SourceAssessment} {row : SourceRow} (hfolding : KeepsSpaces host.folding)
    (hkey : host.canonicalSourceKey assessment.item = some assessment.sourceKey) (hclean : assessment.item.HasCleanDoi)
    (h : host.newSource server now assessment = some row) :
    ∀ doi, row.canonicalDoi = some doi → row.sourceKey = keyOfDoi doi := by
  simp only [Host.newSource, Option.bind_eq_bind, Option.bind_eq_some_iff] at h
  obtain ⟨key, hchar, canonicalDoi, hdoi, _, -, _, -, _, -, _, -, h⟩ := h
  split at h
  · cases h
    intro doi hsome
    dsimp only at hsome ⊢
    rw [hsome] at hdoi
    unfold Host.canonicalDoi at hdoi
    split at hdoi
    · cases hdoi
    next hne =>
    obtain ⟨folded, hfolded, heq⟩ := Option.map_eq_some_iff.mp hdoi
    cases heq
    have hfolded := text_eq_some hfolded
    cases hitem : assessment.item.doi with
    | none =>
      rw [hitem] at hne
      exact absurd rfl hne
    | some raw =>
      rw [hitem] at hne hfolded
      have hraw : raw ≠ [] := by simpa using hne
      unfold Host.canonicalSourceKey at hkey
      rw [stableText_eq hitem hraw, (hclean raw hitem).casefold_strip hfolding] at hkey
      obtain ⟨bytes, hbytes, hsha⟩ := Option.map_eq_some_iff.mp hkey
      rw [← hsha, char64_of_isDigest (isDigest_sha256 _)] at hchar
      change doi = host.folding.casefold raw at hfolded
      rw [keyOfDoi, hfolded, hbytes]
      exact (Option.some.inj hchar).symm
  · cases h

/-- A new source runs into no other source's DOI. -/
theorem KeyedByDoi.doiTaken_eq_false {row : SourceRow} (h : KeyedByDoi db)
    (hrow : ∀ doi, row.canonicalDoi = some doi → row.sourceKey = keyOfDoi doi) : doiTaken db.sources row = false := by
  rw [doiTaken, Bool.and_eq_false_iff, or_iff_not_imp_left]
  intro hsome
  obtain ⟨doi, hdoi⟩ := Option.isSome_iff_exists.mp (Bool.not_eq_false _ ▸ hsome)
  refine List.any_eq_false.mpr fun s hs => ?_
  simp only [Bool.and_eq_true, decide_eq_true_eq, not_and]
  intro hne heq
  have hstored := (db.sources.mem_rows_iff s).mp hs
  exact hne ((h _ s hstored doi (heq.trans hdoi)).trans (hrow doi hdoi).symm)

/-- One assessment stored keeps the keys. -/
theorem KeyedByDoi.upsert {runId : Uuid} {now : ℕ} {assessment : SourceAssessment} (hfolding : KeepsSpaces host.folding)
    (hkey : host.canonicalSourceKey assessment.item = some assessment.sourceKey) (hclean : assessment.item.HasCleanDoi)
    (h : KeyedByDoi db) (hupsert : host.upsertAssessment server runId now db assessment = some db') : KeyedByDoi db' := by
  obtain ⟨source, observation, row, hsource, -, -, rfl⟩ := upsertAssessment_eq_some hupsert
  have hrow := newSource_keyed hfolding hkey hclean hsource
  intro k s hs doi hdoi
  rw [Table.find?_upsert] at hs
  split at hs
  · next hk =>
    cases hold : db.sources.find? k with
    | none =>
      rw [hold] at hs
      cases hs
      exact hrow doi hdoi
    | some old =>
      rw [hold] at hs
      cases hs
      have hsame : old.sourceKey = source.sourceKey := (Table.key_of_find? hold).trans hk.symm
      rcases Option.or_eq_some_iff.mp hdoi with hnew | ⟨-, hkept⟩
      · exact hsame.trans (hrow doi hnew)
      · exact h k old hold doi hkept
  · exact h k s hs doi hdoi

/-- A verified source keeps its key and its DOI. -/
theorem KeyedByDoi.verifySource (h : KeyedByDoi db) (claim : ReviewedClaim) :
    KeyedByDoi { db with sources := verifySource db.sources claim } := by
  intro k s hs doi hdoi
  unfold Research.verifySource at hs
  dsimp only at hs
  split at hs
  · rw [Table.find?_update] at hs
    obtain ⟨old, hold, heq⟩ := Option.map_eq_some_iff.mp hs
    split at heq
    · cases heq
      exact h k old hold doi hdoi
    · cases heq
      exact h k s hold doi hdoi
  · exact h k s hs doi hdoi

/-- Every call keeps the keys, a run if its DOIs are cleaned. -/
theorem KeyedByDoi.step {site : Site} {call : Call site.host.py} (hfolding : KeepsSpaces site.host.folding)
    (h : KeyedByDoi db) (hclean : StoresCleanDois site db call) (hstep : (corpus site).step db call = some db') :
    KeyedByDoi db' := by
  obtain ⟨reply, heffect⟩ := effect_of_step hstep
  cases heffect with
  | run hassessments _ _ hfold =>
    refine foldlM_invariant (P := KeyedByDoi) hfold h fun db₁ a db₂ ha h₁ hupsert => ?_
    obtain ⟨item, hitem, hclassified⟩ := exists_of_mapM_some hassessments a ha
    obtain ⟨rfl, hkey, -, -⟩ := classifyItem_eq_some hclassified
    exact h₁.upsert hfolding hkey (hclean _ hitem) hupsert
  | claim => exact h.verifySource _
  | _ => exact h

/-- So in every corpus the sources with a DOI are stored under its key. -/
theorem keyedByDoi_of_run {site : Site} (hfolding : KeepsSpaces site.host.folding)
    {history : History Database (Call site.host.py)} (run : (corpus site).Run history db)
    (clean : System.AllSteps (StoresCleanDois site) history) : KeyedByDoi db :=
  run.guarded_invariant (fun _ _ hs => nomatch hs) (fun _ _ _ h hclean hstep => h.step hfolding hclean hstep) clean

/-! ## Rows of an item -/

variable {world : World} {item : ResearchItem} {assessment : SourceAssessment}

/-- The texts of an item that are stored as they are, and its DOI, which is folded. -/
def Host.storedTexts (host : Host) (item : ResearchItem) : List Str :=
  item.url :: item.title :: host.folding.casefold (item.doi.getD []) :: item.providerId ::
    (item.limitations ++ item.authors)

/-- What the tables ask of an item that the evidence contract has accepted: a scheme in lower case, and no text
with a NUL or a surrogate. -/
structure Storable (host : Host) (item : ResearchItem) : Prop where
  scheme : startsWith (lit "https://") item.url = true
  stored : ∀ s ∈ host.storedTexts item, storable s = true
  keyed : (utf8 (host.stableText item)).isSome

/-- A text is stored if it can be. -/
theorem isSome_text_iff {s : Str} : (text s).isSome ↔ storable s = true := by
  unfold text
  split <;> simp_all

/-- Several texts are stored if each can be. -/
theorem isSome_texts_iff {ss : List Str} : (texts ss).isSome ↔ ∀ s ∈ ss, storable s = true := by
  unfold texts
  rw [← List.all_eq_true]
  split <;> simp_all

/-- A DOI is stored if it can be. -/
theorem isSome_canonicalDoi_iff : (host.canonicalDoi item).isSome ↔ storable (host.folding.casefold (item.doi.getD [])) = true := by
  unfold Host.canonicalDoi
  split
  · next h =>
    rw [List.isEmpty_iff.mp h]
    simp [CaseFolding.casefold, storable]
  · rw [Option.isSome_map, isSome_text_iff]

/-- An accepted date of a mapped item is stored. -/
theorem isSome_date (server : Server) {world : World} (hnormalised : Normalised world item) {s : Str} {date : ℕ}
    (hs : s = item.checkedOn ∨ DateShaped s) (hread : fromisoformat s = some date) : (server.date s).isSome := by
  have hday : ∃ year month day, isoDate s = some (year, month, day) ∧ isDay year month day = true := by
    rcases hs with rfl | hshaped
    · rw [hnormalised.checkedOn]
      exact (world.today item.provider).isDate
    · exact isoDate_of_fromisoformat hread hshaped.dash hshaped.week
  obtain ⟨year, month, day, hiso, hday⟩ := hday
  rw [server.date_isoDate _ _ _ _ hiso, if_pos hday]
  rfl

/-- What the classifier gives every source. -/
structure Scored (assessment : SourceAssessment) : Prop where
  key : isDigest assessment.sourceKey = true
  scores : ∀ q ∈ [assessment.classificationConfidence, assessment.conceptualSupport, assessment.implementationReadiness,
    assessment.reproducibility, assessment.sourceIndependence], 0 ≤ q ∧ q ≤ 1
  layers : assessment.architectureLayers ≠ []
  rationale : assessment.rationale.all storable = true

/-- The confidence of a classification that counts layers. -/
theorem confidence_inUnit (n : ℕ) :
    0 ≤ min (8 / 10 : ℚ) (35 / 100 + 1 / 10 * n) ∧ min (8 / 10 : ℚ) (35 / 100 + 1 / 10 * n) ≤ 1 := by
  constructor
  · refine le_min ?_ ?_
    · norm_num
    · positivity
  · refine (min_le_left _ _).trans ?_
    norm_num

/-- The classifier scores within the unit interval and finds a layer. -/
theorem scored_of_classifyItem (h : host.classifyItem item = some assessment) : Scored assessment := by
  simp only [Host.classifyItem, Option.bind_eq_bind, Option.bind_eq_some_iff] at h
  obtain ⟨key, hkey, h⟩ := h
  have hdigest : isDigest key = true := by
    obtain ⟨bytes, -, rfl⟩ := Option.map_eq_some_iff.mp hkey
    exact isDigest_sha256 bytes
  have hconceptual : 0 ≤ item.evidenceLevel.conceptual ∧ item.evidenceLevel.conceptual ≤ 1 := by
    cases item.evidenceLevel <;> norm_num [EvidenceLevel.conceptual]
  have hindependence : 0 ≤ item.provider.independence ∧ item.provider.independence ≤ 1 := by
    cases item.provider <;> norm_num [Provider.independence]
  split at h
  · cases h
    refine ⟨hdigest, ?_, List.cons_ne_nil _ _, ?_⟩
    · simp only [List.forall_mem_cons, List.not_mem_nil, false_imp_iff, implies_true, and_true]
      exact ⟨by norm_num, hconceptual, by norm_num, by norm_num, hindependence⟩
    · dsimp only
      decide +kernel
  · next hfound =>
    cases h
    refine ⟨hdigest, ?_, by simpa using hfound, ?_⟩
    · simp only [List.forall_mem_cons, List.not_mem_nil, false_imp_iff, implies_true, and_true]
      exact ⟨confidence_inUnit _, hconceptual, by norm_num, by norm_num, hindependence⟩
    · dsimp only
      decide +kernel

/-- Every assessment of the classifier is stored. -/
theorem isSome_newAssessment (h : Scored assessment) (now : ℕ) : (newAssessment now assessment).isSome := by
  have hscores := h.scores
  simp only [List.forall_mem_cons, List.not_mem_nil, false_imp_iff, implies_true, and_true] at hscores
  obtain ⟨⟨h₁, h₁'⟩, ⟨h₂, h₂'⟩, ⟨h₃, h₃'⟩, ⟨h₄, h₄'⟩, h₅, h₅'⟩ := hscores
  obtain ⟨q₁, hq₁, hunit₁⟩ := exists_numeric43 h₁ h₁'
  obtain ⟨q₂, hq₂, hunit₂⟩ := exists_numeric43 h₂ h₂'
  obtain ⟨q₃, hq₃, hunit₃⟩ := exists_numeric43 h₃ h₃'
  obtain ⟨q₄, hq₄, hunit₄⟩ := exists_numeric43 h₄ h₄'
  obtain ⟨q₅, hq₅, hunit₅⟩ := exists_numeric43 h₅ h₅'
  have hrationale : texts assessment.rationale = some assessment.rationale := if_pos h.rationale
  have hlayers : assessment.architectureLayers.isEmpty = false := by simpa using h.layers
  simp only [newAssessment, char64_of_isDigest h.key, hq₁, hq₂, hq₃, hq₄, hq₅, hrationale, Option.bind_eq_bind,
    Option.bind_some]
  rw [if_pos]
  · rfl
  · simp [AssessmentRow.check, hunit₁, hunit₂, hunit₃, hunit₄, hunit₅, hlayers]

/-- What the report has checked of a mapped item. -/
structure Checked (world : World) (item : ResearchItem) : Prop where
  normalised : Normalised world item
  acceptable : Acceptable world.host world.ips item.evidence
  encodable : (utf8 item.abstract).isSome

/-- The row of a source can be stored, up to its texts and its scheme. -/
theorem Checked.isSome_newSource_iff (h : Checked world item) (now : ℕ) (hitem : assessment.item = item)
    (hscored : Scored assessment) :
    (world.host.newSource server now assessment).isSome ↔
      startsWith (lit "https://") item.url = true ∧ storable item.url = true ∧ storable item.title = true ∧
        storable (world.host.folding.casefold (item.doi.getD [])) = true := by
  obtain ⟨published, checked, hpublished, -, -⟩ := h.acceptable.dated
  obtain ⟨date, hdate⟩ := Option.isSome_iff_exists.mp (isSome_date server h.normalised h.normalised.publishedOn hpublished)
  have hdigest : ∃ digest, abstractDigest item = some digest := by
    obtain ⟨bytes, hbytes⟩ := Option.isSome_iff_exists.mp h.encodable
    unfold abstractDigest
    split
    · exact ⟨_, rfl⟩
    · exact ⟨_, by rw [hbytes]; rfl⟩
  obtain ⟨digest, hdigest⟩ := hdigest
  subst hitem
  rw [← isSome_canonicalDoi_iff, ← isSome_text_iff, ← isSome_text_iff]
  simp only [Host.newSource, char64_of_isDigest hscored.key, hdate, hdigest, Option.bind_eq_bind, Option.bind_some]
  constructor
  · intro hrow
    obtain ⟨row, hrow⟩ := Option.isSome_iff_exists.mp hrow
    simp only [Option.bind_eq_some_iff] at hrow
    obtain ⟨doi, hdoi, url, hurl, title, htitle, hrow⟩ := hrow
    split at hrow
    · next hcheck =>
      rw [Bool.and_eq_true, text_eq_some hurl] at hcheck
      exact ⟨hcheck.1, by rw [hurl]; rfl, by rw [htitle]; rfl, by rw [hdoi]; rfl⟩
    · cases hrow
  · rintro ⟨hscheme, hurl, htitle, hdoi⟩
    obtain ⟨doi, hdoi⟩ := Option.isSome_iff_exists.mp hdoi
    obtain ⟨url, hurl⟩ := Option.isSome_iff_exists.mp hurl
    obtain ⟨title, htitle⟩ := Option.isSome_iff_exists.mp htitle
    have hcheck : (startsWith (lit "https://") url && title.all isInline) = true := by
      rw [text_eq_some hurl, text_eq_some htitle, hscheme, h.normalised.title.1.isInline]
      rfl
    simp only [hdoi, hurl, htitle, Option.bind_some, hcheck, if_true]
    rfl

/-- The row of an observation can be stored, up to its texts and its scheme. -/
theorem Checked.isSome_newObservation_iff (h : Checked world item) (runId : Uuid) (hitem : assessment.item = item)
    (hscored : Scored assessment) :
    (newObservation server runId assessment).isSome ↔
      startsWith (lit "https://") item.url = true ∧ storable item.url = true ∧ storable item.providerId = true ∧
        (∀ s ∈ item.limitations, storable s = true) ∧ ∀ s ∈ item.authors, storable s = true := by
  obtain ⟨published, checked, -, hchecked, -⟩ := h.acceptable.dated
  obtain ⟨date, hdate⟩ := Option.isSome_iff_exists.mp (isSome_date server h.normalised (Or.inl rfl) hchecked)
  subst hitem
  rw [← isSome_texts_iff, ← isSome_texts_iff, ← isSome_text_iff, ← isSome_text_iff]
  simp only [newObservation, char64_of_isDigest hscored.key, hdate, Option.bind_eq_bind, Option.bind_some]
  constructor
  · intro hrow
    obtain ⟨row, hrow⟩ := Option.isSome_iff_exists.mp hrow
    simp only [Option.bind_eq_some_iff] at hrow
    obtain ⟨providerId, hproviderId, url, hurl, limitations, hlimitations, authors, hauthors, hrow⟩ := hrow
    split at hrow
    · next hcheck =>
      rw [text_eq_some hurl] at hcheck
      exact ⟨hcheck, by rw [hurl]; rfl, by rw [hproviderId]; rfl, by rw [hlimitations]; rfl, by rw [hauthors]; rfl⟩
    · cases hrow
  · rintro ⟨hscheme, hurl, hproviderId, hlimitations, hauthors⟩
    obtain ⟨url, hurl⟩ := Option.isSome_iff_exists.mp hurl
    obtain ⟨providerId, hproviderId⟩ := Option.isSome_iff_exists.mp hproviderId
    obtain ⟨limitations, hlimitations⟩ := Option.isSome_iff_exists.mp hlimitations
    obtain ⟨authors, hauthors⟩ := Option.isSome_iff_exists.mp hauthors
    have hcheck : startsWith (lit "https://") url = true := by rw [text_eq_some hurl, hscheme]
    simp only [hproviderId, hurl, hlimitations, hauthors, Option.bind_some, hcheck, if_true]
    rfl

/-- The rows of a checked item can be stored exactly if its texts and its scheme can. -/
theorem Checked.isSome_upsertAssessment_iff (h : Checked world item) (hfolding : KeepsSpaces world.host.folding)
    (hkeyed : KeyedByDoi db) (runId : Uuid) (now : ℕ) (hclassified : world.host.classifyItem item = some assessment) :
    (world.host.upsertAssessment server runId now db assessment).isSome ↔ Storable world.host item := by
  obtain ⟨hitem, hkey, -, -⟩ := classifyItem_eq_some hclassified
  have hscored := scored_of_classifyItem hclassified
  have hstored : (utf8 (world.host.stableText item)).isSome := by
    obtain ⟨bytes, hbytes, -⟩ := Option.map_eq_some_iff.mp hkey
    rw [hbytes]
    rfl
  obtain ⟨row, hrow⟩ := Option.isSome_iff_exists.mp (isSome_newAssessment hscored now)
  have hrows : (world.host.upsertAssessment server runId now db assessment).isSome ↔
      (world.host.newSource server now assessment).isSome ∧ (newObservation server runId assessment).isSome := by
    unfold Host.upsertAssessment
    rw [hrow]
    cases hsource : world.host.newSource server now assessment with
    | none => simp
    | some source =>
      have hclean : assessment.item.HasCleanDoi := hitem ▸ h.normalised.doi
      have hkey' : world.host.canonicalSourceKey assessment.item = some assessment.sourceKey := hitem ▸ hkey
      have htaken := hkeyed.doiTaken_eq_false (newSource_keyed hfolding hkey' hclean hsource)
      cases newObservation server runId assessment <;> simp [htaken]
  rw [hrows, h.isSome_newSource_iff now hitem hscored, h.isSome_newObservation_iff runId hitem hscored]
  constructor
  · rintro ⟨⟨hscheme, hurl, htitle, hdoi⟩, -, -, hproviderId, hlimitations, hauthors⟩
    refine ⟨hscheme, ?_, hstored⟩
    simp only [Host.storedTexts, List.forall_mem_cons, List.forall_mem_append]
    exact ⟨hurl, htitle, hdoi, hproviderId, hlimitations, hauthors⟩
  · rintro ⟨hscheme, htexts, -⟩
    simp only [Host.storedTexts, List.forall_mem_cons, List.forall_mem_append] at htexts
    obtain ⟨hurl, htitle, hdoi, hproviderId, hlimitations, hauthors⟩ := htexts
    exact ⟨⟨hscheme, hurl, htitle, hdoi⟩, hscheme, hurl, hproviderId, hlimitations, hauthors⟩

/-! ## A returned run -/

/-- Every item of a returned run is checked. -/
theorem checked_of_run {search : Search} {run : ItResearchRun} (h : world.runItResearch search = .ok run) :
    ∀ item ∈ run.items, Checked world item := by
  obtain ⟨returns, hitems, -⟩ := World.runItResearch_eq_ok h
  intro item hitem
  rw [hitems] at hitem
  refine ⟨(World.mem_found hitem).2.normalised, ?_, returns.encodable item hitem⟩
  exact returns.reportable.acceptable _ (List.mem_map_of_mem hitem)

/-- The row of the run itself can be stored: its reference is safe, its topic is text, and its id is new. -/
structure ReceiptAccepted (server : Server) (db : Database) (id : Uuid) (now : ℕ) (run : ItResearchRun)
    (artifactRef : Str) : Prop where
  safe : (startsWith (lit "/") artifactRef || startsWith [0x5C] artifactRef ||
    (artifactRef.splitOnP (· = 0x2F)).contains (lit "..")) = false
  row : ∃ topic row, utf8 (strip isSpace run.query.topic) = some topic ∧
    newRun server id now run (sha256 topic) artifactRef = some row
  fresh : db.runs.find? id = none

/-- A run whose own row can be stored is stored if its items are classified and pass the loop. -/
theorem persistRun_returns_iff {id : Uuid} {now : ℕ} {run : ItResearchRun} {artifactRef : Str} {topic : List ℕ}
    {row : RunRow} (h : ReceiptAccepted server db id now run artifactRef)
    (htopic : utf8 (strip isSpace run.query.topic) = some topic)
    (hrow : newRun server id now run (sha256 topic) artifactRef = some row) :
    (host.persistRun server id now run artifactRef db).2 = .ok (uuidText id) ↔
      ∃ assessments, run.items.mapM host.classifyItem = some assessments ∧
        (assessments.foldlM (host.upsertAssessment server id now) { db with runs := db.runs.insert row }).isSome := by
  unfold Host.persistRun
  rw [h.safe, htopic]
  cases run.items.mapM host.classifyItem with
  | none => simp [unicodeEncodeError]
  | some assessments =>
    have hfresh : (db.runs.find? id).isSome = false := by rw [h.fresh, Option.isSome_none]
    simp only [Bool.false_eq_true, if_false, transaction_returns_iff, bind_eq_ok_iff, statement_eq_ok_iff, hrow,
      hfresh, Option.some.injEq, exists_eq_left', Option.isSome_iff_exists]
    constructor
    · rintro ⟨db', db₁, hloop, -⟩
      exact ⟨db₁, hloop⟩
    · rintro ⟨db₁, hloop⟩
      exact ⟨db₁, db₁, hloop, rfl⟩

/-- A returned run is stored in any corpus of runs with cleaned DOIs exactly if each of its items has a scheme in
lower case and texts without a NUL or a surrogate. -/
theorem persistRun_returned_iff {history : History Database (Call world.host.py)} {search : Search} {run : ItResearchRun}
    {id : Uuid} {now : ℕ} {artifactRef : Str} (hfolding : KeepsSpaces world.host.folding)
    (hrun : (corpus ⟨world.host, server⟩).Run history db)
    (hclean : System.AllSteps (StoresCleanDois ⟨world.host, server⟩) history)
    (hreturned : world.runItResearch search = .ok run) (hreceipt : ReceiptAccepted server db id now run artifactRef) :
    (world.host.persistRun server id now run artifactRef db).2 = .ok (uuidText id) ↔
      ∀ item ∈ run.items, Storable world.host item := by
  have hkeyed : KeyedByDoi db := keyedByDoi_of_run hfolding hrun hclean
  have hchecked := checked_of_run hreturned
  obtain ⟨topic, row, htopic, hrow⟩ := hreceipt.row
  -- the loop passes on the assessments exactly if their items are storable
  have hloop : ∀ assessments, run.items.mapM world.host.classifyItem = some assessments →
      ((assessments.foldlM (world.host.upsertAssessment server id now) { db with runs := db.runs.insert row }).isSome ↔
        ∀ a ∈ assessments, Storable world.host a.item) := by
    intro assessments hassessments
    have hitems : ∀ a ∈ assessments, ∃ item ∈ run.items, world.host.classifyItem item = some a :=
      fun a ha => exists_of_mapM_some hassessments a ha
    refine isSome_foldlM_iff (P := KeyedByDoi) hkeyed (fun db₁ a db₂ ha hkeyed₁ hupsert => ?_) fun db₁ a ha hkeyed₁ => ?_
    · obtain ⟨item, hitem, hclassified⟩ := hitems a ha
      obtain ⟨rfl, hkey, -, -⟩ := classifyItem_eq_some hclassified
      exact hkeyed₁.upsert hfolding hkey (hchecked _ hitem).normalised.doi hupsert
    · obtain ⟨item, hitem, hclassified⟩ := hitems a ha
      obtain ⟨rfl, -, -, -⟩ := classifyItem_eq_some hclassified
      exact (hchecked _ hitem).isSome_upsertAssessment_iff hfolding hkeyed₁ id now hclassified
  rw [persistRun_returns_iff hreceipt htopic hrow]
  constructor
  · rintro ⟨assessments, hassessments, hpasses⟩ item hitem
    have hmem : world.host.classifyItem item ∈ assessments.map some :=
      mapM_eq_some_iff.mp hassessments ▸ List.mem_map_of_mem hitem
    obtain ⟨a, ha, hclassified⟩ := List.mem_map.mp hmem
    obtain ⟨rfl, -, -, -⟩ := classifyItem_eq_some hclassified.symm
    exact (hloop assessments hassessments).mp hpasses a ha
  · intro hstorable
    have hclassified : (run.items.mapM world.host.classifyItem).isSome := by
      refine isSome_mapM_iff.mpr fun item hitem => ?_
      obtain ⟨bytes, hbytes⟩ := Option.isSome_iff_exists.mp (hstorable item hitem).keyed
      unfold Host.classifyItem Host.canonicalSourceKey
      rw [hbytes]
      rfl
    obtain ⟨assessments, hassessments⟩ := Option.isSome_iff_exists.mp hclassified
    refine ⟨assessments, hassessments, (hloop assessments hassessments).mpr fun a ha => ?_⟩
    obtain ⟨item, hitem, hclassified⟩ := exists_of_mapM_some hassessments a ha
    obtain ⟨rfl, -, -, -⟩ := classifyItem_eq_some hclassified
    exact hstorable _ hitem

/-! ## Concrete runs -/

namespace Sample

/-- The row of a run and its topic are text. -/
def receiptStorable (run : ItResearchRun) : Bool :=
  match utf8 (strip isSpace run.query.topic) with
  | some topic => (newRun Sample.server 1 10 run (sha256 topic) (lit "runs/1.json")).isSome
  | none => false

/-- The row of such a run can be stored in an empty corpus. -/
theorem receiptAccepted {run : ItResearchRun} (h : receiptStorable run = true) :
    ReceiptAccepted Sample.server .empty 1 10 run (lit "runs/1.json") := by
  unfold receiptStorable at h
  split at h
  · next topic htopic =>
    obtain ⟨row, hrow⟩ := Option.isSome_iff_exists.mp h
    exact ⟨by decide, ⟨topic, row, htopic, hrow⟩, rfl⟩
  · cases h

/-- Folding ASCII letters keeps the spaces. -/
theorem keepsSpaces : KeepsSpaces folding := by
  intro c hc
  refine ⟨List.cons_ne_nil _ _, fun h => hc ?_⟩
  exact (asciiLower_eq_iff rfl).mp (List.mem_singleton.mp h).symm

/-- A world in which the URL of the second answer has its scheme in capitals. -/
def shoutingWorld : World :=
  Sample.world [.obj openalexWork] [.obj ((lit "URL", .str (lit "HTTPS://doi.org/10.2/example")) :: crossrefWork)]

/-- What persisting its run returns or raises. -/
def shouted (run : ItResearchRun) : Except Raised Str :=
  (shoutingWorld.host.persistRun Sample.server 1 10 run (lit "runs/1.json") .empty).2

/-- Its search returns a run that is refused. -/
theorem exists_shouted : ∃ run, shoutingWorld.runItResearch search = .ok run ∧ receiptStorable run = true ∧
    shouted run = .error (.storage (lit "public research corpus persistence failed")) := by
  have htest : (match shoutingWorld.runItResearch search with
      | .ok run => receiptStorable run &&
        decide (shouted run = .error (.storage (lit "public research corpus persistence failed")))
      | .error _ => false) = true := by
    decide +kernel
  split at htest
  · next run hrun =>
    rw [Bool.and_eq_true, decide_eq_true_eq] at htest
    exact ⟨run, hrun, htest⟩
  · cases htest

end Sample

/-- The run with a scheme in capitals is stored exactly if its items are storable. -/
theorem persistRun_returned_iff_shouted :
    ∃ run, Sample.shoutingWorld.runItResearch Sample.search = .ok run ∧
      (Sample.shouted run = .ok (uuidText 1) ↔ ∀ item ∈ run.items, Storable Sample.shoutingWorld.host item) := by
  obtain ⟨run, hreturned, hreceipt, -⟩ := Sample.exists_shouted
  exact ⟨run, hreturned, persistRun_returned_iff Sample.keepsSpaces .start (System.allSteps_nil _) hreturned
    (Sample.receiptAccepted hreceipt)⟩

/-- A scheme in capitals passes the URL check and the evidence contract, and the table refuses the whole run. -/
theorem returned_run_refused :
    ∃ run, Sample.shoutingWorld.runItResearch Sample.search = .ok run ∧
      ReceiptAccepted Sample.server .empty 1 10 run (lit "runs/1.json") ∧
      Sample.shouted run = .error (.storage (lit "public research corpus persistence failed")) := by
  obtain ⟨run, hreturned, hreceipt, hrefused⟩ := Sample.exists_shouted
  exact ⟨run, hreturned, Sample.receiptAccepted hreceipt, hrefused⟩

end NeuroLab.Research
