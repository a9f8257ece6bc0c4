import Mathlib.Data.Finset.Card
import NeuroLab.Python.Dates
import NeuroLab.Python.Sha256
import NeuroLab.Research.Items

/-!
# The evidence contract

`research_evidence`: the checks that each public source passes, and the report on at least
two of them under distinct ids and from distinct hosts. The excerpt is opaque; the report
keeps its digest only.
-/

namespace NeuroLab.Research

open Python Postgres

/-- `ip_address(host).is_global`, or the `ValueError` of a text that is no address: an address without a colon
is made of digits and dots. -/
structure IpAddresses where
  isGlobal : Str → Option Bool
  named : ∀ name, 0x3A ∉ name → (∃ c ∈ name, isDigit c = false ∧ c ≠ 0x2E) → isGlobal name = none

/-- `PublicSourceEvidence`; the type of the level excludes undeclared ones. -/
structure PublicSourceEvidence where
  sourceId : Str
  url : Str
  title : Str
  publishedOn : Str
  checkedOn : Str
  evidenceLevel : EvidenceLevel
  limitations : List Str
  rawExcerpt : Str
deriving DecidableEq

/-- `CitationMetadata`. -/
structure CitationMetadata where
  sourceId : Str
  url : Str
  title : Str
  publishedOn : Str
  checkedOn : Str
  evidenceLevel : EvidenceLevel
  limitations : List Str

/-- `ResearchReviewReport`, whose decision is always `review_required`. -/
structure ResearchReviewReport where
  citations : List CitationMetadata
  excerptDigests : List Str
  audit : List Str

/-- A `ResearchEvidencePolicyError`, or an exception that is none. -/
inductive EvidenceError
  | policy (message : Str)
  | uncaught (exc : PyExc)
deriving DecidableEq

/-- A violation of the contract. -/
def violation {α : Type} (message : String) : Except EvidenceError α := .error (.policy (lit message))

/-- A check of the contract. -/
def refuseIf (refused : Bool) (message : String) : Except EvidenceError Unit :=
  if refused then violation message else .ok ()

/-! ## One source -/

/-- `_SOURCE_ID`. -/
def isSourceId (s : Str) : Bool :=
  match after? (lit "src-") s with
  | some rest => spans 3 64 (fun c => isDigit c || (0x61 ≤ c && c ≤ 0x7A) || c = 0x2D) rest
  | none => false

/-- `_MAX_TITLE_LENGTH`. -/
def maxTitleLength : ℕ := 500

/-- `_public_hostname`; `urlparse` may raise a `ValueError` of its own. -/
def Host.publicHostname (host : Host) (ips : IpAddresses) (url : Str) : Except EvidenceError Str :=
  match host.urls.urlparse url with
  | none => .error (.uncaught (.value (lit "ValueError")))
  | some parsed =>
    match parsed.port with
    | none => violation "source URL port is malformed"
    | some port =>
      if parsed.scheme ≠ lit "https" || ((parsed.hostname host.urls).getD []).isEmpty ||
          !(parsed.userinfo.1.getD []).isEmpty || !(parsed.userinfo.2.getD []).isEmpty ||
          (port ≠ none && port ≠ some 443) then
        violation "source URL must be public HTTPS without credentials"
      else
        let hostname := host.urls.lower ((parsed.hostname host.urls).getD [])
        if ips.isGlobal hostname = some false then violation "source URL must not use a non-public IP address"
        else .ok hostname

/-- `_parse_iso_date`. -/
def parseIsoDate (value : Str) (field : String) : Except EvidenceError ℕ :=
  match fromisoformat value with
  | some date => .ok date
  | none => violation (field ++ " must be an ISO date")

/-- `require_public_evidence`. -/
def Host.requirePublicEvidence (host : Host) (ips : IpAddresses) (evidence : PublicSourceEvidence) :
    Except EvidenceError Unit := do
  refuseIf (!isSourceId evidence.sourceId) "source id is malformed"
  let _ ← host.publicHostname ips evidence.url
  refuseIf ((strip isSpace evidence.title).isEmpty || decide (maxTitleLength < evidence.title.length))
    "source title is missing or too long"
  let publishedOn ← parseIsoDate evidence.publishedOn "published_on"
  let checkedOn ← parseIsoDate evidence.checkedOn "checked_on"
  refuseIf (checkedOn < publishedOn) "source cannot be checked before publication"
  refuseIf (evidence.limitations.isEmpty || evidence.limitations.any fun item => (strip isSpace item).isEmpty)
    "source limitations are required"
  refuseIf (20000 < evidence.rawExcerpt.length) "raw excerpt is invalid"

/-! ## The report -/

/-- The loop over the sources, with the ids seen so far: the hosts of the sources. -/
def Host.checkSources (host : Host) (ips : IpAddresses) : List Str → List PublicSourceEvidence →
    Except EvidenceError (List Str)
  | _, [] => .ok []
  | seen, item :: rest => do
    host.requirePublicEvidence ips item
    refuseIf (item.sourceId ∈ seen) "source ids must be unique"
    let hostname ← host.publicHostname ips item.url
    let hostnames ← host.checkSources ips (item.sourceId :: seen) rest
    .ok (hostname :: hostnames)

/-- The citation of a source. -/
def PublicSourceEvidence.citation (item : PublicSourceEvidence) : CitationMetadata where
  sourceId := item.sourceId
  url := item.url
  title := item.title
  publishedOn := item.publishedOn
  checkedOn := item.checkedOn
  evidenceLevel := item.evidenceLevel
  limitations := item.limitations

/-- `build_research_review_report`; a surrogate in an excerpt is a `UnicodeEncodeError`. -/
def Host.buildResearchReviewReport (host : Host) (ips : IpAddresses) (citations : List PublicSourceEvidence) :
    Except EvidenceError ResearchReviewReport := do
  refuseIf (citations.length < 2) "at least two sources are required"
  let hostnames ← host.checkSources ips [] citations
  refuseIf (hostnames.dedup.length < 2) "independent public domains are required"
  match citations.mapM fun item => utf8 item.rawExcerpt with
  | none => .error (.uncaught (.value (lit "UnicodeEncodeError")))
  | some excerpts =>
    .ok
      { citations := citations.map (·.citation)
        excerptDigests := excerpts.map sha256
        audit :=
          [lit "sources:public-https", lit "sources:independent-domains", lit "content:untrusted-opaque",
            lit "decision:review_required"] }

/-! ## What the contract accepts -/

variable {host : Host} {ips : IpAddresses}

/-- What `require_public_evidence` asks of a source. -/
structure Acceptable (host : Host) (ips : IpAddresses) (evidence : PublicSourceEvidence) : Prop where
  identified : isSourceId evidence.sourceId = true
  hosted : ∃ hostname, host.publicHostname ips evidence.url = .ok hostname
  titled : (strip isSpace evidence.title).isEmpty = false ∧ evidence.title.length ≤ maxTitleLength
  dated : ∃ publishedOn checkedOn, fromisoformat evidence.publishedOn = some publishedOn ∧
    fromisoformat evidence.checkedOn = some checkedOn ∧ publishedOn ≤ checkedOn
  limited : evidence.limitations ≠ [] ∧ ∀ item ∈ evidence.limitations, (strip isSpace item).isEmpty = false
  bounded : evidence.rawExcerpt.length ≤ 20000

/-- A date is read, or refused. -/
theorem parseIsoDate_eq_ok_iff {value : Str} {field : String} {date : ℕ} :
    parseIsoDate value field = .ok date ↔ fromisoformat value = some date := by
  unfold parseIsoDate
  split
  · next h => simp [h]
  · next h => simp [h, violation]

/-- A check passes if its condition does not hold. -/
theorem refuseIf_eq_ok_iff {refused : Bool} {message : String} {u : Unit} :
    refuseIf refused message = .ok u ↔ refused = false := by
  cases refused <;> simp [refuseIf, violation]

/-- The checks of a source are these. -/
theorem requirePublicEvidence_eq_ok_iff {evidence : PublicSourceEvidence} {u : Unit} :
    host.requirePublicEvidence ips evidence = .ok u ↔ Acceptable host ips evidence := by
  unfold Host.requirePublicEvidence
  simp only [bind_eq_ok_iff, refuseIf_eq_ok_iff, parseIsoDate_eq_ok_iff, Bool.or_eq_false_iff, decide_eq_false_iff_not,
    Bool.not_eq_false', not_lt]
  constructor
  · rintro ⟨_, hid, hostname, hhost, _, htitle, published, hpublished, checked, hchecked, _, horder, _, hlimited, hbounded⟩
    refine ⟨hid, ⟨hostname, hhost⟩, htitle, ⟨published, checked, hpublished, hchecked, horder⟩, ⟨?_, ?_⟩, hbounded⟩
    · simpa using hlimited.1
    · simpa using hlimited.2
  · rintro ⟨hid, ⟨hostname, hhost⟩, htitle, ⟨published, checked, hpublished, hchecked, horder⟩, hlimited, hbounded⟩
    refine ⟨(), hid, hostname, hhost, (), htitle, published, hpublished, checked, hchecked, (), horder, (), ⟨?_, ?_⟩, hbounded⟩
    · simpa using hlimited.1
    · simpa using hlimited.2

/-- The loop passes if every source does, under ids that are new and distinct. -/
theorem checkSources_eq_ok_iff {seen : List Str} {items : List PublicSourceEvidence} {hostnames : List Str} :
    host.checkSources ips seen items = .ok hostnames ↔
      (∀ item ∈ items, Acceptable host ips item) ∧ (∀ item ∈ items, item.sourceId ∉ seen) ∧
        (items.map (·.sourceId)).Nodup ∧ items.mapM (fun item => host.publicHostname ips item.url) = .ok hostnames := by
  induction items generalizing seen hostnames with
  | nil => simp [Host.checkSources, pure, Except.pure]
  | cons item items ih =>
    simp only [Host.checkSources, List.mapM_cons, bind_eq_ok_iff, refuseIf_eq_ok_iff, requirePublicEvidence_eq_ok_iff,
      ih, List.forall_mem_cons, List.map_cons, List.nodup_cons, decide_eq_false_iff_not]
    constructor
    · rintro ⟨_, haccepted, _, hnew, hostname, hhostname, hostnames, ⟨hall, hseen, hnodup, hrest⟩, heq⟩
      refine ⟨⟨haccepted, hall⟩, ⟨hnew, fun item' hitem' hmem => hseen item' hitem' (List.mem_cons_of_mem _ hmem)⟩,
        ⟨?_, hnodup⟩, hostname, hhostname, hostnames, hrest, heq⟩
      intro hmem
      obtain ⟨item', hitem', heq'⟩ := List.mem_map.mp hmem
      exact hseen item' hitem' (heq' ▸ List.mem_cons_self)
    · rintro ⟨⟨haccepted, hall⟩, ⟨hnew, hseen⟩, ⟨hfresh, hnodup⟩, hostname, hhostname, hostnames, hrest, heq⟩
      refine ⟨(), haccepted, (), hnew, hostname, hhostname, hostnames, ⟨hall, ?_, hnodup, hrest⟩, heq⟩
      intro item' hitem' hmem
      rcases List.mem_cons.mp hmem with heq' | hmem
      · exact hfresh (heq' ▸ List.mem_map_of_mem hitem')
      · exact hseen item' hitem' hmem

/-- Two or more values are distinct. -/
theorem two_le_length_dedup_iff {α : Type*} [DecidableEq α] (xs : List α) :
    2 ≤ xs.dedup.length ↔ ∃ a ∈ xs, ∃ b ∈ xs, a ≠ b := by
  rw [← List.card_toFinset, Nat.succ_le_iff, Finset.one_lt_card]
  simp

/-- What the report asks of its sources: each is acceptable, their ids are distinct, and they come from two hosts. -/
structure Reportable (host : Host) (ips : IpAddresses) (items : List PublicSourceEvidence) : Prop where
  acceptable : ∀ item ∈ items, Acceptable host ips item
  ids_distinct : (items.map (·.sourceId)).Nodup
  independent : ∃ a ∈ items, ∃ b ∈ items,
    host.publicHostname ips a.url ≠ host.publicHostname ips b.url

/-- The loop passes exactly on acceptable sources under distinct ids. -/
theorem exists_checkSources_iff {items : List PublicSourceEvidence} :
    (∃ hostnames, host.checkSources ips [] items = .ok hostnames ∧ 2 ≤ hostnames.dedup.length) ↔
      Reportable host ips items := by
  have hmap : (∀ item ∈ items, Acceptable host ips item) →
      ∃ f : PublicSourceEvidence → Str, ∀ item ∈ items, host.publicHostname ips item.url = .ok (f item) := by
    intro h
    refine ⟨fun item => (host.publicHostname ips item.url).toOption.getD [], fun item hitem => ?_⟩
    obtain ⟨hostname, hhostname⟩ := (h item hitem).hosted
    simp only [hhostname]
    rfl
  constructor
  · rintro ⟨hostnames, hchecked, hdistinct⟩
    obtain ⟨hacceptable, -, hnodup, hhostnames⟩ := checkSources_eq_ok_iff.mp hchecked
    obtain ⟨f, hf⟩ := hmap hacceptable
    cases (mapM_eq_ok_of_forall hf).symm.trans hhostnames
    obtain ⟨_, hfa, _, hfb, hne⟩ := (two_le_length_dedup_iff _).mp hdistinct
    obtain ⟨a, ha, rfl⟩ := List.mem_map.mp hfa
    obtain ⟨b, hb, rfl⟩ := List.mem_map.mp hfb
    refine ⟨hacceptable, hnodup, a, ha, b, hb, ?_⟩
    rw [hf a ha, hf b hb]
    exact fun heq => hne (Except.ok.inj heq)
  · rintro ⟨hacceptable, hnodup, a, ha, b, hb, hne⟩
    obtain ⟨f, hf⟩ := hmap hacceptable
    refine ⟨items.map f, checkSources_eq_ok_iff.mpr ⟨hacceptable, by simp, hnodup, mapM_eq_ok_of_forall hf⟩, ?_⟩
    refine (two_le_length_dedup_iff _).mpr ⟨f a, List.mem_map_of_mem ha, f b, List.mem_map_of_mem hb, fun heq => hne ?_⟩
    rw [hf a ha, hf b hb, heq]

/-- Sources from two hosts are two sources. -/
theorem Reportable.two_le_length {items : List PublicSourceEvidence} (h : Reportable host ips items) :
    2 ≤ items.length := by
  obtain ⟨a, ha, b, hb, hne⟩ := h.independent
  by_contra hlength
  match items, hlength with
  | [], _ => cases ha
  | [item], _ =>
    rw [List.mem_singleton.mp ha, List.mem_singleton.mp hb] at hne
    exact hne rfl
  | _ :: _ :: _, hlength => simp at hlength

/-- The report accepts such sources, provided their excerpts can be encoded. -/
theorem exists_report_iff {items : List PublicSourceEvidence} :
    (∃ report, host.buildResearchReviewReport ips items = .ok report) ↔
      Reportable host ips items ∧ ∀ item ∈ items, (utf8 item.rawExcerpt).isSome := by
  unfold Host.buildResearchReviewReport
  simp only [bind_eq_ok_iff, refuseIf_eq_ok_iff, decide_eq_false_iff_not, not_lt]
  rw [← isSome_mapM_iff]
  constructor
  · rintro ⟨report, _, -, hostnames, hchecked, _, hdistinct, h⟩
    refine ⟨exists_checkSources_iff.mp ⟨hostnames, hchecked, hdistinct⟩, ?_⟩
    split at h
    · cases h
    · next hexcerpts =>
      rw [hexcerpts]
      rfl
  · rintro ⟨hreportable, hencodable⟩
    obtain ⟨hostnames, hchecked, hdistinct⟩ := exists_checkSources_iff.mpr hreportable
    obtain ⟨excerpts, hexcerpts⟩ := Option.isSome_iff_exists.mp hencodable
    rw [hexcerpts]
    exact ⟨_, (), hreportable.two_le_length, hostnames, hchecked, (), hdistinct, rfl⟩

/-! ## What the contract raises -/

/-- Nothing is raised but violations of the contract. -/
def Policed {α : Type} (x : Except EvidenceError α) : Prop := ∀ exc, x ≠ .error (.uncaught exc)

theorem Policed.ok {α : Type} (a : α) : Policed (.ok a) := nofun

theorem Policed.refuseIf (refused : Bool) (message : String) : Policed (refuseIf refused message) := by
  cases refused <;> exact nofun

theorem Policed.parseIsoDate (value : Str) (field : String) : Policed (parseIsoDate value field) := by
  unfold Research.parseIsoDate
  split <;> exact nofun

theorem Policed.bind {α β : Type} {x : Except EvidenceError α} {f : α → Except EvidenceError β} (hx : Policed x)
    (hf : ∀ a, x = .ok a → Policed (f a)) : Policed (x >>= f) := by
  cases x with
  | error e =>
    intro exc h
    exact hx exc (congrArg Except.error (Except.error.inj h))
  | ok a => exact hf a rfl

/-- A source with a host passes or violates the contract. -/
theorem Policed.requirePublicEvidence {evidence : PublicSourceEvidence}
    (hosted : ∃ hostname, host.publicHostname ips evidence.url = .ok hostname) :
    Policed (host.requirePublicEvidence ips evidence) := by
  obtain ⟨hostname, hhostname⟩ := hosted
  unfold Host.requirePublicEvidence
  rw [hhostname]
  refine (Policed.refuseIf _ _).bind fun _ _ => (Policed.ok hostname).bind fun _ _ => ?_
  refine (Policed.refuseIf _ _).bind fun _ _ => (Policed.parseIsoDate _ _).bind fun _ _ => ?_
  refine (Policed.parseIsoDate _ _).bind fun _ _ => (Policed.refuseIf _ _).bind fun _ _ => ?_
  exact (Policed.refuseIf _ _).bind fun _ _ => Policed.refuseIf _ _

/-- So does the loop over sources with hosts. -/
theorem Policed.checkSources {seen : List Str} {items : List PublicSourceEvidence}
    (hosted : ∀ item ∈ items, ∃ hostname, host.publicHostname ips item.url = .ok hostname) :
    Policed (host.checkSources ips seen items) := by
  induction items generalizing seen with
  | nil => exact Policed.ok []
  | cons item items ih =>
    obtain ⟨hitem, hitems⟩ := List.forall_mem_cons.mp hosted
    refine (Policed.requirePublicEvidence hitem).bind fun _ _ => (Policed.refuseIf _ _).bind fun _ _ => ?_
    obtain ⟨hostname, hhostname⟩ := hitem
    rw [hhostname]
    exact (Policed.ok hostname).bind fun _ _ => (ih hitems).bind fun _ _ => Policed.ok _

/-- Sources with hosts raise another exception only for an excerpt, after every check. -/
theorem exists_uncaught_iff {items : List PublicSourceEvidence}
    (hosted : ∀ item ∈ items, ∃ hostname, host.publicHostname ips item.url = .ok hostname) :
    (∃ exc, host.buildResearchReviewReport ips items = .error (.uncaught exc)) ↔
      Reportable host ips items ∧ ¬∀ item ∈ items, (utf8 item.rawExcerpt).isSome := by
  constructor
  · rintro ⟨exc, h⟩
    have hnot : ¬∃ report, host.buildResearchReviewReport ips items = .ok report := by
      rintro ⟨report, hreport⟩
      cases hreport.symm.trans h
    have hreportable : Reportable host ips items := by
      by_contra hviolated
      rw [← exists_checkSources_iff] at hviolated
      refine (Policed.refuseIf _ _).bind (fun _ _ => ?_) exc h
      refine (Policed.checkSources hosted).bind fun hostnames hchecked => ?_
      refine (Policed.refuseIf _ _).bind fun _ hdistinct => ?_
      refine absurd ⟨hostnames, hchecked, ?_⟩ hviolated
      exact not_lt.mp (of_decide_eq_false (refuseIf_eq_ok_iff.mp hdistinct))
    exact ⟨hreportable, fun hencodable => hnot (exists_report_iff.mpr ⟨hreportable, hencodable⟩)⟩
  · rintro ⟨hreportable, hencodable⟩
    obtain ⟨hostnames, hchecked, hdistinct⟩ := exists_checkSources_iff.mpr hreportable
    rw [← isSome_mapM_iff, Option.not_isSome_iff_eq_none] at hencodable
    have hfirst : refuseIf (items.length < 2) "at least two sources are required" = .ok () :=
      refuseIf_eq_ok_iff.mpr (decide_eq_false (not_lt.mpr hreportable.two_le_length))
    have hsecond : refuseIf (hostnames.dedup.length < 2) "independent public domains are required" = .ok () :=
      refuseIf_eq_ok_iff.mpr (decide_eq_false (not_lt.mpr hdistinct))
    unfold Host.buildResearchReviewReport
    rw [hfirst, hchecked]
    change ∃ exc, (refuseIf _ _ >>= _) = _
    rw [hsecond, hencodable]
    exact ⟨_, rfl⟩

end NeuroLab.Research
