import NeuroLab.Python.Conversions
import NeuroLab.Python.FlatJson
import NeuroLab.Research.Coverage
import NeuroLab.Research.Synthesis

/-!
# The preflight queue of arXiv PDFs

The queue is made from the rows that an un-ordered SELECT returns, one for each observation of a
source. A source's assessment is one row of its table, so the order of the rows decides which
identifier of a source is queued, but neither the sources, nor their priorities and reasons, nor
their order in the queue.
-/

namespace NeuroLab.Research

open Python Common

/-! ## The queue -/

/-- `_ARXIV_ID`, over the whole text. -/
def isArxivId (s : Str) : Bool :=
  let rest := do
    let s ← dropRun 4 4 isDecimal s
    let s ← after? (lit ".") s
    dropRun 4 5 isDecimal s
  match rest with
  | some [] => true
  | some (0x76 :: version) => dropPlus isDecimal version = some []
  | _ => false

/-- `FulltextPreflightCandidate`. -/
structure FulltextPreflightCandidate where
  sourceKey : Str
  arxivId : Str
  priority : ℚ
  reasonCodes : List Str
  requiredNextAction : Str := lit "verify_arxiv_license_and_exact_pdf"
deriving DecidableEq

/-- The double nearest to a number. -/
def double (q : ℚ) : ℚ := (Number.ofRat q).value

/-- A sum of doubles. -/
def plus (x y : ℚ) : ℚ := double (x + y)

/-- A product of doubles. -/
def times (x y : ℚ) : ℚ := double (x * y)

/-- `_priority`. -/
def priority (assessment : SourceAssessment) : ℚ × List Str :=
  let layers := assessment.architectureLayers
  let score := plus (plus (double (1 / 10)) (times (double (2 / 10)) (double assessment.conceptualSupport)))
    (times (double (1 / 10)) (double assessment.classificationConfidence))
  let score := plus score (times (double (1 / 10)) (double assessment.sourceIndependence))
  let reasons := [lit "metadata_only", lit "license_preflight_required"]
  let (score, reasons) :=
    if .component ∈ layers ∨ .feature ∈ layers then
      (plus score (double (25 / 100)), reasons ++ [lit "implementation_or_feature_coverage"])
    else (score, reasons)
  let (score, reasons) :=
    if .subsystem ∈ layers then (plus score (double (15 / 100)), reasons ++ [lit "subsystem_coverage"])
    else (score, reasons)
  let (score, reasons) :=
    if .globalArchitecture ∈ layers then
      (plus score (double (1 / 10)), reasons ++ [lit "global_architecture_context"])
    else (score, reasons)
  (double (round3 (min score 1)), reasons)

/-- The first two checks of the loop: an observation on arXiv that nothing has verified yet. -/
def eligible (assessment : SourceAssessment) : Bool :=
  decide (assessment.item.provider = .arxiv) && decide (assessment.verificationStatus = .metadataObserved) &&
    isArxivId assessment.item.providerId

/-- The confidence of an assessment, as a `float`. -/
def confidence (assessment : SourceAssessment) : ℚ := double assessment.classificationConfidence

/-- One step of the loop: a more confident assessment takes the place of its key's. -/
def prefer (bySource : List SourceAssessment) (assessment : SourceAssessment) : List SourceAssessment :=
  if eligible assessment then
    match bySource.find? fun previous => previous.sourceKey = assessment.sourceKey with
    | none => bySource ++ [assessment]
    | some previous =>
      if confidence previous < confidence assessment then
        bySource.map fun kept => if kept.sourceKey = assessment.sourceKey then assessment else kept
      else bySource
  else bySource

/-- The candidate of an assessment. -/
def candidate (assessment : SourceAssessment) : FulltextPreflightCandidate :=
  { sourceKey := assessment.sourceKey, arxivId := assessment.item.providerId, priority := (priority assessment).1,
    reasonCodes := (priority assessment).2 }

/-- `<=` of two tuples of a number and a text. -/
def TupleLe (x y : ℚ × Str) : Prop := x.1 < y.1 ∨ (x.1 = y.1 ∧ lexLe x.2 y.2 = true)

instance : DecidableRel TupleLe := fun x y => inferInstanceAs (Decidable (x.1 < y.1 ∨ (x.1 = y.1 ∧ lexLe x.2 y.2 = true)))

/-- The key of the queue's order. -/
def FulltextPreflightCandidate.sortKey (c : FulltextPreflightCandidate) : ℚ × Str := (-c.priority, c.sourceKey)

/-- The candidates in the queue's order. -/
def ranked (candidates : List FulltextPreflightCandidate) : List FulltextPreflightCandidate :=
  candidates.insertionSort fun c d => TupleLe c.sortKey d.sortKey

/-- The candidates that the limit is applied to. -/
def candidates (assessments : List SourceAssessment) : List FulltextPreflightCandidate :=
  ranked ((assessments.foldl prefer []).map candidate)

/-- `build_fulltext_preflight_queue`, or the text of its `ValueError`. -/
def buildFulltextPreflightQueue (assessments : List SourceAssessment) (limit : ℤ) :
    Except Str (List FulltextPreflightCandidate) :=
  if 1 ≤ limit ∧ limit ≤ 20 then .ok ((candidates assessments).take limit.toNat)
  else .error (lit "preflight queue limit must be between 1 and 20")

/-! ## The order of the queue -/

theorem tupleLe_trans {x y z : ℚ × Str} (hxy : TupleLe x y) (hyz : TupleLe y z) : TupleLe x z := by
  rcases hxy with hxy | ⟨hxy, hxy'⟩
  · rcases hyz with hyz | ⟨hyz, -⟩
    · exact Or.inl (hxy.trans hyz)
    · exact Or.inl (hxy.trans_eq hyz)
  · rcases hyz with hyz | ⟨hyz, hyz'⟩
    · exact Or.inl (hxy.trans_lt hyz)
    · exact Or.inr ⟨hxy.trans hyz, lexLe_trans hxy' hyz'⟩

theorem tupleLe_total (x y : ℚ × Str) : TupleLe x y ∨ TupleLe y x := by
  rcases lt_trichotomy x.1 y.1 with hlt | heq | hlt
  · exact Or.inl (Or.inl hlt)
  · rcases lexLe_total x.2 y.2 with hle | hle
    · exact Or.inl (Or.inr ⟨heq, hle⟩)
    · exact Or.inr (Or.inr ⟨heq.symm, hle⟩)
  · exact Or.inr (Or.inl hlt)

theorem tupleLe_antisymm {x y : ℚ × Str} (hxy : TupleLe x y) (hyx : TupleLe y x) : x = y := by
  rcases hxy with hxy | ⟨hxy, hxy'⟩
  · rcases hyx with hyx | ⟨hyx, -⟩
    · exact absurd hyx hxy.asymm
    · exact absurd hyx hxy.ne'
  · rcases hyx with hyx | ⟨-, hyx'⟩
    · exact absurd hxy hyx.ne'
    · exact Prod.ext hxy (lexLe_antisymm hxy' hyx')

theorem pairwise_ranked (candidates : List FulltextPreflightCandidate) :
    (ranked candidates).Pairwise fun c d => TupleLe c.sortKey d.sortKey := by
  have htrans : IsTrans FulltextPreflightCandidate fun c d => TupleLe c.sortKey d.sortKey := ⟨fun _ _ _ => tupleLe_trans⟩
  have htotal : Std.Total fun c d : FulltextPreflightCandidate => TupleLe c.sortKey d.sortKey :=
    ⟨fun c d => tupleLe_total c.sortKey d.sortKey⟩
  exact List.pairwise_insertionSort _ candidates

theorem ranked_perm (candidates : List FulltextPreflightCandidate) : (ranked candidates).Perm candidates :=
  List.perm_insertionSort _ candidates

/-- What of a candidate does not depend on the order of the rows. -/
def FulltextPreflightCandidate.listing (c : FulltextPreflightCandidate) : Str × ℚ × List Str :=
  (c.sourceKey, c.priority, c.reasonCodes)

/-- Candidates of distinct sources have one order. -/
theorem listing_ranked {candidates candidates' : List FulltextPreflightCandidate}
    (hperm : (candidates.map (·.listing)).Perm (candidates'.map (·.listing)))
    (hnodup : (candidates.map (·.sourceKey)).Nodup) :
    (ranked candidates).map (·.listing) = (ranked candidates').map (·.listing) := by
  have hsorted : ∀ cs : List FulltextPreflightCandidate,
      ((ranked cs).map (·.listing)).Pairwise fun x y => TupleLe (-x.2.1, x.1) (-y.2.1, y.1) :=
    fun cs => List.pairwise_map.mpr (pairwise_ranked cs)
  have hranked : ((ranked candidates).map (·.listing)).Perm ((ranked candidates').map (·.listing)) :=
    ((ranked_perm candidates).map _).trans (hperm.trans ((ranked_perm candidates').map _).symm)
  have hkeys : (((ranked candidates).map (·.listing)).map Prod.fst).Nodup := by
    rw [List.map_map]
    exact ((ranked_perm candidates).map (·.sourceKey)).nodup_iff.mpr hnodup
  refine hranked.eq_of_pairwise ?_ (hsorted candidates) (hsorted candidates')
  intro x y hx hy hxy hyx
  have hkey : x.1 = y.1 := congrArg Prod.snd (tupleLe_antisymm hxy hyx)
  exact List.inj_on_of_nodup_map hkeys hx (hranked.mem_iff.mpr hy) hkey

/-! ## The loop -/

theorem foldl_prefer (assessments : List SourceAssessment) :
    assessments.foldl prefer [] = champions SourceAssessment.sourceKey confidence (assessments.filter eligible) := by
  have hstep : prefer = fun kept a => if eligible a = true then keepBest SourceAssessment.sourceKey confidence kept a else kept := by
    funext kept a
    unfold prefer keepBest
    cases kept.find? fun previous => previous.sourceKey = a.sourceKey with
    | none => rfl
    | some previous => rfl
  rw [hstep, champions, List.foldl_filter]

section Dependent

variable {assessments assessments' : List SourceAssessment}

theorem Dependent.filter (h : Dependent assessments) (p : SourceAssessment → Bool) : Dependent (assessments.filter p) :=
  fun a ha b hb => h a (List.mem_of_mem_filter ha) b (List.mem_of_mem_filter hb)

/-- A candidate's listing does not read which observation it was made of. -/
theorem Dependent.listing_candidates (h : Dependent assessments) (hperm : assessments.Perm assessments') :
    (candidates assessments).map (·.listing) = (candidates assessments').map (·.listing) := by
  apply listing_ranked
  · rw [foldl_prefer, foldl_prefer, List.map_map, List.map_map]
    exact map_champions_perm (hperm.filter eligible) _ fun a ha b hb hkey =>
      (h.filter eligible).apply_eq (f := FulltextPreflightCandidate.listing ∘ candidate) (fun _ _ => rfl) ha hb hkey
  · rw [foldl_prefer, List.map_map]
    exact nodup_champions _

theorem nodup_candidates (assessments : List SourceAssessment) : ((candidates assessments).map (·.sourceKey)).Nodup := by
  rw [candidates, ((ranked_perm _).map _).nodup_iff, foldl_prefer, List.map_map]
  exact nodup_champions _

/-- Every eligible source has its candidate. -/
theorem Dependent.exists_candidate (h : Dependent assessments) {a : SourceAssessment} (ha : a ∈ assessments)
    (heligible : eligible a = true) : ∃ c ∈ candidates assessments, c.listing = (candidate a).listing := by
  have hmem : a ∈ assessments.filter eligible := List.mem_filter.mpr ⟨ha, heligible⟩
  have hkey : a.sourceKey ∈ (champions SourceAssessment.sourceKey confidence (assessments.filter eligible)).map
      SourceAssessment.sourceKey := mem_keys_champions.mpr (List.mem_map_of_mem hmem)
  obtain ⟨b, hb, hbkey⟩ := List.mem_map.mp hkey
  refine ⟨candidate b, ?_, ?_⟩
  · rw [candidates, (ranked_perm _).mem_iff, foldl_prefer]
    exact List.mem_map_of_mem hb
  · exact (h.filter eligible).apply_eq (f := FulltextPreflightCandidate.listing ∘ candidate) (fun _ _ => rfl)
      (mem_of_mem_champions hb) hmem hbkey

end Dependent

/-- What the limit cuts off comes after what it leaves. -/
theorem tupleLe_of_cut {c d : FulltextPreflightCandidate} {all : List FulltextPreflightCandidate} {n : ℕ}
    (hsorted : all.Pairwise fun c d => TupleLe c.sortKey d.sortKey) (hc : c ∈ all.take n) (hd : d ∈ all)
    (hcut : d ∉ all.take n) : TupleLe c.sortKey d.sortKey := by
  rw [← List.take_append_drop n all] at hsorted hd
  exact (List.pairwise_append.mp hsorted).2.2 c hc d ((List.mem_append.mp hd).resolve_left hcut)

/-! ## The loaded rows -/

/-- The loaded rows of a source share its row and its assessment. -/
theorem dependent_load (db : Database) : Dependent (loadCorpusAssessments db) := by
  intro a ha b hb hkey
  obtain ⟨o, -, hrow⟩ := List.mem_filterMap.mp ha
  obtain ⟨o', -, hrow'⟩ := List.mem_filterMap.mp hb
  simp only [Option.bind_eq_bind, Option.bind_eq_some_iff] at hrow hrow'
  obtain ⟨s, hs, row, hfound, heq⟩ := hrow
  obtain ⟨s', hs', row', hfound', heq'⟩ := hrow'
  cases heq
  cases heq'
  have hsame : o.sourceKey = o'.sourceKey := by
    rw [← Table.key_of_find? hs, ← Table.key_of_find? hs']
    exact hkey
  rw [← hsame] at hs' hfound'
  cases hs.symm.trans hs'
  cases hfound.symm.trans hfound'
  rfl

/-- In every reachable corpus and every order of its rows, the gate says the same, over scores that are all zero,
and the queue lists the same sources with the same priorities and reasons: at most as many as the limit, distinct,
in order, and none left out that comes before one of them. -/
theorem corpus_order_irrelevant {site : Site} {h : History Store (StoreCall site.host.py)} {db : Store}
    (run : (store site).Run h db) {rows : List SourceAssessment} (hperm : rows.Perm (loadCorpusAssessments db.corpus)) :
    (∀ policy, evaluateCoverage rows policy = evaluateCoverage (loadCorpusAssessments db.corpus) policy) ∧
      (∀ a ∈ rows, a.reproducibility = 0) ∧
      ∀ limit, (buildFulltextPreflightQueue rows limit).map (·.map (·.listing)) =
          (buildFulltextPreflightQueue (loadCorpusAssessments db.corpus) limit).map (·.map (·.listing)) ∧
        ∀ queue, buildFulltextPreflightQueue rows limit = .ok queue →
          queue.length ≤ limit ∧ (queue.map (·.sourceKey)).Nodup ∧
            queue.Pairwise (fun c d => TupleLe c.sortKey d.sortKey) ∧
            ∀ a ∈ rows, eligible a = true → ∀ c ∈ queue, ¬TupleLe c.sortKey (candidate a).sortKey →
              a.sourceKey ∈ queue.map (·.sourceKey) := by
  have hdependent : Dependent rows := fun a ha b hb =>
    dependent_load db.corpus a (hperm.mem_iff.mp ha) b (hperm.mem_iff.mp hb)
  refine ⟨hdependent.evaluateCoverage_eq hperm, fun a ha => ?_, fun limit => ⟨?_, ?_⟩⟩
  · exact loadCorpusAssessments_unreproduced (unreproduced_of_run run) a (hperm.mem_iff.mp ha)
  · unfold buildFulltextPreflightQueue
    split
    · have hlisting := hdependent.listing_candidates hperm
      rw [Except.map, Except.map, List.map_take, List.map_take]
      exact congrArg (fun listings => Except.ok (listings.take limit.toNat)) hlisting
    · rfl
  · intro queue hqueue
    unfold buildFulltextPreflightQueue at hqueue
    split at hqueue
    next hlimit =>
      cases hqueue
      have hsorted : (candidates rows).Pairwise fun c d => TupleLe c.sortKey d.sortKey := pairwise_ranked _
      refine ⟨?_, ?_, hsorted.sublist (List.take_sublist _ _), ?_⟩
      · have hlength := List.length_take_le limit.toNat (candidates rows)
        omega
      · exact (nodup_candidates rows).sublist ((List.take_sublist _ _).map _)
      · intro a ha heligible c hc hbefore
        obtain ⟨d, hd, hlisting⟩ := hdependent.exists_candidate ha heligible
        have hkey : d.sourceKey = a.sourceKey := congrArg Prod.fst hlisting
        have hsort : d.sortKey = (candidate a).sortKey := congrArg (fun x : Str × ℚ × List Str => (-x.2.1, x.1)) hlisting
        by_contra hcut
        have hcut' : d ∉ (candidates rows).take limit.toNat := fun hmem => hcut (hkey ▸ List.mem_map_of_mem hmem)
        exact hbefore (hsort ▸ tupleLe_of_cut hsorted hc hd hcut')
    next => cases hqueue

/-- Two identifiers of one preprint, in the order opposite to that of the table. -/
theorem corpus_order_irrelevant_versions :
    ∃ (h : History Store (StoreCall Sample.site.host.py)) (db : Store), (store Sample.site).Run h db ∧
      (loadCorpusAssessments db.corpus).map (·.item.providerId) = [lit "2401.00001", lit "2401.00001v2"] ∧
      ∀ policy, evaluateCoverage (loadCorpusAssessments db.corpus).reverse policy =
        evaluateCoverage (loadCorpusAssessments db.corpus) policy := by
  obtain ⟨h, db, run, htest⟩ := System.exists_run (store Sample.site)
    [.corpus (.persistRun 1 10
      { Sample.run with items := [Sample.item, { Sample.item with providerId := lit "2401.00001v2" }] } (lit "runs/1.json"))]
    (fun _ (db : Store) => decide
      ((loadCorpusAssessments db.corpus).map (·.item.providerId) = [lit "2401.00001", lit "2401.00001v2"]))
    (by decide +kernel)
  exact ⟨h, db, run, of_decide_eq_true htest, (corpus_order_irrelevant run (List.reverse_perm _)).1⟩

end NeuroLab.Research
