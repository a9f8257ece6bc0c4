import Mathlib.Data.List.ReduceOption
import Mathlib.Data.List.Sort
import NeuroLab.Python.Wire
import NeuroLab.Research.Corpus
import NeuroLab.Research.Evidence
import NeuroLab.Research.Sample

/-!
# Discovery

`run_it_research`: one request to each of three providers, the mapping of what they answer,
and the evidence contract on everything found. A provider that raises an `ItResearchError`
or finds nothing leaves an entry in place of items; any other exception ends the run.
-/

namespace NeuroLab.Research

open Python Postgres

/-! ## The world of a run -/

/-- An element of `ElementTree`, without its tail. -/
inductive Element
  | mk (tag : Str) (attributes : List (Str × Str)) (text : Option Str) (children : List Element)

namespace Element

def tag : Element → Str
  | mk tag _ _ _ => tag

def attributes : Element → List (Str × Str)
  | mk _ attributes _ _ => attributes

def text : Element → Option Str
  | mk _ _ text _ => text

def children : Element → List Element
  | mk _ _ _ children => children

/-- `element.findall(tag)`. -/
def findall (e : Element) (tag : Str) : List Element := e.children.filter fun child => child.tag = tag

/-- `element.findtext(tag)`. -/
def findtext (e : Element) (tag : Str) : Json :=
  match (e.findall tag).head? with
  | some child => .str (child.text.getD [])
  | none => .null

/-- `element.get(name, "")`. -/
def get (e : Element) (name : Str) : Str :=
  ((e.attributes.find? fun entry => entry.1 = name).map Prod.snd).getD []

end Element

/-- How `ElementTree.fromstring` fails. -/
inductive XmlError
  | parseError
  | other (exc : PyExc)

/-- A request to a provider. -/
structure Request where
  url : Str
  headers : List (Str × Str)
deriving DecidableEq

/-- A date as `isoformat` writes it. -/
structure Today where
  text : Str
  isDate : ∃ year month day, isoDate text = some (year, month, day) ∧ isDay year month day = true

/-- What a run takes from outside: the libraries, the transport, and the date, once for each
search and once at the end. -/
structure World where
  host : Host
  ips : IpAddresses
  fromstring : List ℕ → Except XmlError Element
  transport : Request → Except Failure (List ℕ)
  today : Provider → Today
  finished : Today

/-- The parameters of a run. -/
structure Search where
  query : ItResearchQuery
  apiKey : Option Str
  mailto : Option Str

/-- A text that is given and not blank, stripped. -/
def stripped (s : Option Str) : Option Str := (s.map (strip isSpace)).filter fun s => !s.isEmpty

/-- The address a provider is searched at. -/
def Provider.endpoint : Provider → String
  | arxiv => "https://export.arxiv.org/api/query?"
  | openalex => "https://api.openalex.org/works?"
  | crossref => "https://api.crossref.org/works?"

/-- The query string of a search. -/
def Search.params (search : Search) : Provider → List (Str × Str)
  | .arxiv =>
    [(lit "search_query", lit "cat:cs.AI OR cat:cs.SE OR cat:cs.CL OR cat:cs.IR"), (lit "start", lit "0"),
      (lit "max_results", lit "20"), (lit "sortBy", lit "submittedDate"), (lit "sortOrder", lit "descending")]
  | .openalex =>
    [(lit "search.exact", strip isSpace search.query.topic),
      (lit "per-page", decimal search.query.maxResultsPerProvider),
      (lit "select", lit "id,title,publication_date,authorships,doi,primary_location")]
  | .crossref =>
    [(lit "query.bibliographic", strip isSpace search.query.topic),
      (lit "rows", decimal search.query.maxResultsPerProvider),
      (lit "select", lit "DOI,title,published,URL,author,abstract")] ++
        (stripped search.mailto).toList.map fun mailto => (lit "mailto", mailto)

/-- The headers of a search, besides the user agent. -/
def Search.headers (search : Search) : Provider → List (Str × Str)
  | .openalex => (stripped search.apiKey).toList.map fun key => (lit "Authorization", lit "Bearer " ++ key)
  | _ => []

/-- `_PROVENANCE_URLS`. -/
def Provider.provenanceUrl : Provider → Str
  | arxiv => lit "https://arxiv.org"
  | openalex => lit "https://openalex.org"
  | crossref => lit "https://crossref.org"

/-- The name of a provider. -/
def Provider.name : Provider → Str
  | arxiv => lit "arxiv"
  | openalex => lit "openalex"
  | crossref => lit "crossref"

/-- The bytes that tell an item apart, or the `UnicodeEncodeError` of a surrogate. -/
def ResearchItem.stable (item : ResearchItem) : Option (List ℕ) := utf8 (item.provider.name ++ 0x3A :: item.providerId)

/-- The evidence of an item, from the bytes that tell it apart. -/
def ResearchItem.evidenceOf (item : ResearchItem) (stable : List ℕ) : PublicSourceEvidence where
  sourceId := lit "src-" ++ item.provider.name ++ 0x2D :: (sha256 stable).take 16
  url := item.provider.provenanceUrl
  title := item.title
  publishedOn := item.publishedOn
  checkedOn := item.checkedOn
  evidenceLevel := item.evidenceLevel
  limitations := item.limitations
  rawExcerpt := item.abstract

/-- `ResearchItem.to_evidence`. -/
def ResearchItem.toEvidence (item : ResearchItem) : Option PublicSourceEvidence := item.stable.map item.evidenceOf

/-- The evidence of an item that has some. -/
def ResearchItem.evidence (item : ResearchItem) : PublicSourceEvidence := item.evidenceOf (item.stable.getD [])

/-- The entries of a provider. -/
def ItResearchRun.errorsOf (run : ItResearchRun) (provider : Provider) : List Str :=
  run.providerErrors.filter (startsWith (lit "provider:" ++ provider.name ++ [0x3A]))

/-- The items of a provider. -/
def ItResearchRun.itemsOf (run : ItResearchRun) (provider : Provider) : List ResearchItem :=
  run.items.filter fun item => item.provider = provider

namespace World

variable (world : World)

/-- The GET of a search, or the `UnicodeEncodeError` of a surrogate in its query string. -/
def fetch (search : Search) (provider : Provider) : Except Failure (List ℕ) :=
  match urlencode (search.params provider) with
  | some encoded =>
    world.transport
      ⟨lit provider.endpoint ++ encoded, (lit "User-Agent", lit "neurolab-it-research/0.1") :: search.headers provider⟩
  | none => .error (.uncaught (.value (lit "UnicodeEncodeError")))

/-- `_load_json`. -/
def loadJson (payload : List ℕ) : Except Failure Fields :=
  match decodeUtf8 0 payload with
  | none => .error (.research (lit "research provider returned invalid JSON"))
  | some text =>
    match world.host.py.loads text with
    | .ok (.obj fields) => .ok fields
    | .ok _ => .error (.research (lit "research provider JSON envelope is invalid"))
    | .error exc =>
      if exc = .value (lit "JSONDecodeError") then .error (.research (lit "research provider returned invalid JSON"))
      else .error (.uncaught exc)

/-! ## arXiv -/

/-- The tags of Atom. -/
def atom (tag : String) : Str := lit "\x7bhttp://www.w3.org/2005/Atom\x7d" ++ lit tag

/-- `_title_relevance`. -/
def titleRelevance (title topic : Str) : ℕ :=
  let topicTerms := (tokens 0 (world.host.folding.casefold topic)).dedup
  let titleTerms := tokens 0 (world.host.folding.casefold title)
  topicTerms.countP (· ∈ titleTerms)

/-- The body of the loop of `search_arxiv`. -/
def arxivItem (entry : Element) (checkedOn : Str) : Except PyExc (Option ResearchItem) :=
  let identifier := cleanText (entry.findtext (atom "id")) []
  let title := cleanText (entry.findtext (atom "title")) []
  if identifier.isEmpty || title.isEmpty then .ok none
  else do
    let authors := (entry.findall (atom "author")).map fun author => cleanText (author.findtext (atom "name")) []
    let categories := (entry.findall (atom "category")).map (·.get (lit "term"))
    let url ← world.host.httpsUrl (.str identifier) (lit "https://arxiv.org")
    .ok (some
      { provider := .arxiv, providerId := afterLast 0x2F identifier, url, title,
        publishedOn := date (entry.findtext (atom "published")) checkedOn, checkedOn, evidenceLevel := .reference,
        limitations := lit "arXiv preprint; peer-review status must be checked separately." :: categories.take 3,
        abstract := cleanText (entry.findtext (atom "summary")) [],
        authors := authors.filter fun name => !name.isEmpty, doi := none })

/-- The items of a feed, the most relevant first. -/
def arxivItems (query : ItResearchQuery) (root : Element) (checkedOn : Str) : Except PyExc (List ResearchItem) := do
  let found ← ((root.findall (atom "entry")).take 20).mapM (world.arxivItem · checkedOn)
  let ranked := found.reduceOption.insertionSort fun a b =>
    world.titleRelevance b.title query.topic ≤ world.titleRelevance a.title query.topic
  .ok (ranked.take query.maxResultsPerProvider)

/-- `search_arxiv`. -/
def searchArxiv (search : Search) : Except Failure (List ResearchItem) := do
  let payload ← world.fetch search .arxiv
  match world.fromstring payload with
  | .error .parseError => .error (.research (lit "arXiv returned invalid Atom XML"))
  | .error (.other exc) => .error (.uncaught exc)
  | .ok root => (world.arxivItems search.query root (world.today .arxiv).text).mapError .uncaught

/-! ## OpenAlex and Crossref -/

/-- `search_openalex`. -/
def searchOpenalex (search : Search) : Except Failure (List ResearchItem) := do
  let payload ← world.fetch search .openalex
  let envelope ← world.loadJson payload
  world.host.searchOpenalex search.query envelope (world.today .openalex).text

/-- `search_crossref`. -/
def searchCrossref (search : Search) : Except Failure (List ResearchItem) := do
  let payload ← world.fetch search .crossref
  let envelope ← world.loadJson payload
  world.host.searchCrossref search.query envelope (world.today .crossref).text

/-! ## The run -/

/-- The call of one provider. -/
def call (search : Search) : Provider → Except Failure (List ResearchItem)
  | .arxiv => world.searchArxiv search
  | .openalex => world.searchOpenalex search
  | .crossref => world.searchCrossref search

/-- The entry of a provider in `provider_errors`. -/
def providerError (provider : Provider) (what : String) : Str :=
  lit "provider:" ++ provider.name ++ 0x3A :: lit what

/-- The body of the loop over the providers: the items and the errors. -/
def attempt (search : Search) (collected : List ResearchItem × List Str) (provider : Provider) :
    Except PyExc (List ResearchItem × List Str) :=
  match world.call search provider with
  | .error (.uncaught exc) => .error exc
  | .error (.research _) => .ok (collected.1, collected.2 ++ [providerError provider "unavailable"])
  | .ok [] => .ok (collected.1, collected.2 ++ [providerError provider "empty"])
  | .ok found => .ok (collected.1 ++ found, collected.2)

/-- `attempts`. -/
def attempts : List Provider := [.arxiv, .openalex, .crossref]

/-- `run_it_research`. -/
def runItResearch (search : Search) : Except Failure ItResearchRun :=
  match attempts.foldlM (world.attempt search) ([], []) with
  | .error exc => .error (.uncaught exc)
  | .ok (items, errors) =>
    match items.mapM ResearchItem.toEvidence with
    | none => .error (.uncaught (.value (lit "UnicodeEncodeError")))
    | some evidence =>
      match world.host.buildResearchReviewReport world.ips evidence with
      | .error (.policy _) => .error (.research (lit "insufficient independent public evidence"))
      | .error (.uncaught exc) => .error (.uncaught exc)
      | .ok report =>
        .ok
          { query := search.query
            checkedOn := world.finished.text
            items
            providerErrors := errors
            audit := report.audit ++ [lit "scope:it-public-only", lit "output:code-agent-brief"] }

variable {world}

/-! ## What a provider contributes -/

/-- An item is the mapping of a record of its provider. -/
inductive Mapped (world : World) : ResearchItem → Prop
  | arxiv {entry : Element} {item : ResearchItem} :
      world.arxivItem entry (world.today .arxiv).text = .ok (some item) → Mapped world item
  | openalex {record : Fields} {item : ResearchItem} :
      world.host.openalexItem record (world.today .openalex).text = .ok (some item) → Mapped world item
  | crossref {record : Fields} {item : ResearchItem} :
      world.host.crossrefItem record (world.today .crossref).text = .ok (some item) → Mapped world item

/-- The provider of an item of arXiv. -/
theorem arxivItem_eq_ok {entry : Element} {checkedOn : Str} {item : ResearchItem}
    (h : world.arxivItem entry checkedOn = .ok (some item)) : item.provider = .arxiv ∧ item.doi = none := by
  unfold arxivItem at h
  extract_lets identifier title at h
  split at h
  · cases h
  · obtain ⟨_, -, h⟩ := bind_eq_ok_iff.mp h
    cases h
    exact ⟨rfl, rfl⟩

/-- Every item of a JSON provider comes from a record. -/
theorem exists_of_mem_collect {map : Fields → Except PyExc (Option ResearchItem)} {results : List Json}
    {items : List ResearchItem} (h : collect map results = .ok items) {item : ResearchItem} (hitem : item ∈ items) :
    ∃ record, .obj record ∈ results ∧ map record = .ok (some item) := by
  induction results generalizing items with
  | nil =>
    cases h
    cases hitem
  | cons result results ih =>
    cases result with
    | obj record =>
      obtain ⟨found, hfound, h⟩ := bind_eq_ok_iff.mp h
      obtain ⟨rest, hrest, h⟩ := bind_eq_ok_iff.mp h
      cases h
      rcases List.mem_append.mp hitem with hitem | hitem
      · rw [Option.mem_toList] at hitem
        exact ⟨record, List.mem_cons_self, by rw [hfound, hitem]⟩
      · obtain ⟨record', hrecord', hmap⟩ := ih hrest hitem
        exact ⟨record', List.mem_cons_of_mem _ hrecord', hmap⟩
    | _ =>
      obtain ⟨record', hrecord', hmap⟩ := ih h hitem
      exact ⟨record', List.mem_cons_of_mem _ hrecord', hmap⟩

/-- What a call returns is mapped from the records of its provider. -/
theorem mapped_of_call {search : Search} {provider : Provider} {items : List ResearchItem}
    (h : world.call search provider = .ok items) : ∀ item ∈ items, item.provider = provider ∧ Mapped world item := by
  intro item hitem
  cases provider with
  | arxiv =>
    obtain ⟨payload, -, h⟩ := bind_eq_ok_iff.mp h
    split at h
    · cases h
    · cases h
    · next root _ =>
      rw [mapError_eq_ok_iff] at h
      obtain ⟨found, hfound, h⟩ := bind_eq_ok_iff.mp h
      cases h
      have hmem := List.mem_of_mem_take hitem
      rw [List.mem_insertionSort, List.reduceOption_mem_iff] at hmem
      obtain ⟨entry, -, hentry⟩ := exists_of_mapM_ok hfound _ hmem
      exact ⟨(arxivItem_eq_ok hentry).1, .arxiv hentry⟩
  | openalex =>
    obtain ⟨payload, -, h⟩ := bind_eq_ok_iff.mp h
    obtain ⟨envelope, -, h⟩ := bind_eq_ok_iff.mp h
    unfold Host.searchOpenalex at h
    split at h
    · rw [mapError_eq_ok_iff] at h
      obtain ⟨record, -, hrecord⟩ := exists_of_mem_collect h hitem
      exact ⟨(openalexItem_eq_ok hrecord).1, .openalex hrecord⟩
    · cases h
  | crossref =>
    obtain ⟨payload, -, h⟩ := bind_eq_ok_iff.mp h
    obtain ⟨envelope, -, h⟩ := bind_eq_ok_iff.mp h
    unfold Host.searchCrossref at h
    extract_lets results at h
    generalize results = value at h
    split at h
    · rw [mapError_eq_ok_iff] at h
      obtain ⟨record, -, hrecord⟩ := exists_of_mem_collect h hitem
      exact ⟨(crossrefItem_eq_ok hrecord).1, .crossref hrecord⟩
    · cases h

/-- The items of a provider, and its entry in place of items. -/
def answer (world : World) (search : Search) (provider : Provider) : List ResearchItem × List Str :=
  match world.call search provider with
  | .error (.uncaught _) => ([], [])
  | .error (.research _) => ([], [providerError provider "unavailable"])
  | .ok [] => ([], [providerError provider "empty"])
  | .ok found => (found, [])

/-- The call of a provider raises nothing but an `ItResearchError`. -/
def Contained (world : World) (search : Search) (provider : Provider) : Prop :=
  ∀ exc, world.call search provider ≠ .error (.uncaught exc)

/-- One round of the loop adds the answer of its provider. -/
theorem attempt_eq_ok_iff {search : Search} {collected result : List ResearchItem × List Str} {provider : Provider} :
    world.attempt search collected provider = .ok result ↔
      world.Contained search provider ∧ result = (collected.1 ++ (world.answer search provider).1,
        collected.2 ++ (world.answer search provider).2) := by
  unfold attempt Contained answer
  generalize world.call search provider = outcome
  split
  · next exc =>
    constructor
    · exact nofun
    · exact fun h => absurd rfl (h.1 exc)
  · simp [eq_comm]
  · simp [eq_comm]
  · next found _ => simp [eq_comm]

/-- The loop adds the answers of all providers, in their order. -/
theorem foldlM_attempt_eq_ok_iff {search : Search} {providers : List Provider}
    {collected result : List ResearchItem × List Str} :
    providers.foldlM (world.attempt search) collected = .ok result ↔
      (∀ provider ∈ providers, world.Contained search provider) ∧
        result = (collected.1 ++ providers.flatMap fun provider => (world.answer search provider).1,
          collected.2 ++ providers.flatMap fun provider => (world.answer search provider).2) := by
  induction providers generalizing collected with
  | nil => simp [pure, Except.pure, eq_comm]
  | cons provider providers ih =>
    rw [List.foldlM_cons, bind_eq_ok_iff, List.forall_mem_cons]
    simp only [attempt_eq_ok_iff, ih, List.flatMap_cons]
    constructor
    · rintro ⟨_, ⟨hprovider, rfl⟩, hproviders, rfl⟩
      exact ⟨⟨hprovider, hproviders⟩, by simp⟩
    · rintro ⟨⟨hprovider, hproviders⟩, rfl⟩
      exact ⟨_, ⟨hprovider, rfl⟩, hproviders, by simp⟩

/-! ## A returned run -/

/-- Every item has evidence, or one cannot be told apart. -/
theorem mapM_toEvidence_eq_some_iff {items : List ResearchItem} {evidence : List PublicSourceEvidence} :
    items.mapM ResearchItem.toEvidence = some evidence ↔
      (∀ item ∈ items, item.stable.isSome) ∧ evidence = items.map (·.evidence) := by
  induction items generalizing evidence with
  | nil => exact ⟨fun h => ⟨by simp, (Option.some.inj h).symm⟩, fun h => congrArg some h.2.symm⟩
  | cons item items ih =>
    rw [List.mapM_cons, List.forall_mem_cons, List.map_cons]
    cases hstable : item.stable with
    | none =>
      have hitem : item.toEvidence = none := by rw [ResearchItem.toEvidence, hstable, Option.map_none]
      rw [hitem]
      exact ⟨nofun, fun h => nomatch h.1.1⟩
    | some stable =>
      have hitem : item.toEvidence = some item.evidence := by
        rw [ResearchItem.toEvidence, ResearchItem.evidence, hstable]
        rfl
      rw [hitem]
      simp only [Option.bind_eq_bind, Option.bind_some, Option.bind_eq_some_iff, ih]
      constructor
      · rintro ⟨_, ⟨hitems, rfl⟩, heq⟩
        exact ⟨⟨rfl, hitems⟩, (Option.some.inj heq).symm⟩
      · rintro ⟨⟨-, hitems⟩, rfl⟩
        exact ⟨_, ⟨hitems, rfl⟩, rfl⟩

/-- The items found by all providers, in their order. -/
def found (world : World) (search : Search) : List ResearchItem :=
  attempts.flatMap fun provider => (world.answer search provider).1

/-- What a run is made of when it returns: contained calls, and evidence that the contract accepts. -/
structure Returns (world : World) (search : Search) : Prop where
  contained : ∀ provider, world.Contained search provider
  stable : ∀ item ∈ world.found search, item.stable.isSome
  reportable : Reportable world.host world.ips ((world.found search).map (·.evidence))
  encodable : ∀ item ∈ world.found search, (utf8 item.abstract).isSome

/-- Every provider is attempted. -/
theorem mem_attempts (provider : Provider) : provider ∈ attempts := by cases provider <;> decide

/-- The loop over all providers. -/
theorem foldlM_attempts_eq_ok_iff {search : Search} {result : List ResearchItem × List Str} :
    attempts.foldlM (world.attempt search) ([], []) = .ok result ↔
      (∀ provider, world.Contained search provider) ∧
        result = (world.found search, attempts.flatMap fun provider => (world.answer search provider).2) := by
  rw [foldlM_attempt_eq_ok_iff]
  simp only [mem_attempts, true_imp_iff, List.nil_append]
  rfl

/-- A run that returns holds the items found and the entries of the providers without any. -/
theorem runItResearch_eq_ok {search : Search} {run : ItResearchRun} (h : world.runItResearch search = .ok run) :
    world.Returns search ∧ run.items = world.found search ∧
      run.providerErrors = attempts.flatMap fun provider => (world.answer search provider).2 := by
  unfold runItResearch at h
  split at h
  · cases h
  next items errors hloop =>
  obtain ⟨hcontained, heq⟩ := foldlM_attempts_eq_ok_iff.mp hloop
  cases heq
  split at h
  · cases h
  next evidence hevidence =>
  split at h
  · cases h
  · cases h
  next report hreport =>
  cases h
  obtain ⟨hstable, heq⟩ := mapM_toEvidence_eq_some_iff.mp hevidence
  subst heq
  obtain ⟨hreportable, hencodable⟩ := exists_report_iff.mp ⟨report, hreport⟩
  exact ⟨⟨hcontained, hstable, hreportable, List.forall_mem_map.mp hencodable⟩, rfl, rfl⟩

/-- Under these conditions the run returns. -/
theorem exists_run_of_returns {search : Search} (h : world.Returns search) :
    ∃ run, world.runItResearch search = .ok run := by
  have hloop := foldlM_attempts_eq_ok_iff.mpr ⟨h.contained, rfl⟩
  have hevidence := mapM_toEvidence_eq_some_iff.mpr ⟨h.stable, rfl⟩
  obtain ⟨report, hreport⟩ := exists_report_iff.mpr ⟨h.reportable, List.forall_mem_map.mpr h.encodable⟩
  unfold runItResearch
  rw [hloop]
  simp only [hevidence, hreport]
  exact ⟨_, rfl⟩

/-- The items of a provider. -/
theorem mem_answer {search : Search} {provider : Provider} {item : ResearchItem}
    (h : item ∈ (world.answer search provider).1) : item.provider = provider ∧ Mapped world item := by
  unfold answer at h
  split at h
  · cases h
  · cases h
  · cases h
  · next items _ hcall => exact mapped_of_call hcall item h

/-- The items found are those of the providers. -/
theorem mem_found {search : Search} {item : ResearchItem} (h : item ∈ world.found search) :
    item ∈ (world.answer search item.provider).1 ∧ Mapped world item := by
  obtain ⟨provider, -, hitem⟩ := List.mem_flatMap.mp h
  obtain ⟨rfl, hmapped⟩ := mem_answer hitem
  exact ⟨hitem, hmapped⟩

/-- A provider that raises nothing else has items or exactly one entry. -/
theorem answer_of_contained {search : Search} {provider : Provider} (h : world.Contained search provider) :
    ((world.answer search provider).1 ≠ [] ∧ (world.answer search provider).2 = []) ∨
      ((world.answer search provider).1 = [] ∧ ∃ what ∈ ["unavailable", "empty"],
        (world.answer search provider).2 = [providerError provider what]) := by
  unfold Contained at h
  unfold answer
  generalize world.call search provider = outcome at h
  split
  · next exc => exact absurd rfl (h exc)
  · exact Or.inr ⟨rfl, "unavailable", by simp, rfl⟩
  · exact Or.inr ⟨rfl, "empty", by simp, rfl⟩
  · next items hne => exact Or.inl ⟨hne, rfl⟩

/-- Picking what belongs to one provider from the answers of all. -/
theorem filter_attempts {α : Type} (f : Provider → List α) (owned : Provider → α → Bool)
    (h : ∀ provider, ∀ a ∈ f provider, ∀ provider', owned provider' a = decide (provider' = provider)) (provider : Provider) :
    (attempts.flatMap f).filter (owned provider) = f provider := by
  have hown : (f provider).filter (owned provider) = f provider :=
    List.filter_eq_self.mpr fun a ha => by rw [h provider a ha, decide_eq_true rfl]
  have hother : ∀ provider', provider ≠ provider' → (f provider').filter (owned provider) = [] := by
    intro provider' hne
    refine List.filter_eq_nil_iff.mpr fun a ha => ?_
    rw [h provider' a ha, decide_eq_false hne]
    exact Bool.false_ne_true
  cases provider <;> simp [attempts, hown, hother]

/-- The items and entries of a provider in a run are its answer. -/
theorem answer_of_run {search : Search} {run : ItResearchRun} (h : world.runItResearch search = .ok run)
    (provider : Provider) : world.answer search provider = (run.itemsOf provider, run.errorsOf provider) := by
  obtain ⟨returns, hitems, herrors⟩ := runItResearch_eq_ok h
  refine Prod.ext ?_ ?_
  · rw [ItResearchRun.itemsOf, hitems]
    refine (filter_attempts (fun provider => (world.answer search provider).1)
      (fun provider item => decide (item.provider = provider)) (fun _ item hitem provider' => ?_) provider).symm
    rw [(mem_answer hitem).1]
    exact decide_eq_decide.mpr eq_comm
  · rw [ItResearchRun.errorsOf, herrors]
    refine (filter_attempts (fun provider => (world.answer search provider).2)
      (fun provider => startsWith (lit "provider:" ++ provider.name ++ [0x3A])) (fun provider entry hentry provider' => ?_)
      provider).symm
    rcases answer_of_contained (returns.contained provider) with ⟨-, hnone⟩ | ⟨-, what, hwhat, hentries⟩
    · rw [hnone] at hentry
      cases hentry
    · rw [hentries, List.mem_singleton] at hentry
      rw [hentry]
      clear hentries hentry
      revert what
      cases provider <;> cases provider' <;> decide

/-- A run that returns is evidence-gated: its items come from two providers, each passes the contract under an id
of its own, they stand in the order of the providers, and every provider has items or exactly one entry. -/
theorem run_evidence_gated {search : Search} {run : ItResearchRun} (h : world.runItResearch search = .ok run) :
    (∃ a ∈ run.items, ∃ b ∈ run.items, a.provider ≠ b.provider) ∧
    (∃ evidence, run.items.mapM ResearchItem.toEvidence = some evidence ∧
      (∀ item ∈ evidence, world.host.requirePublicEvidence world.ips item = .ok ()) ∧
        (evidence.map (·.sourceId)).Nodup) ∧
    run.items = [.arxiv, .openalex, .crossref].flatMap run.itemsOf ∧
    ∀ provider, (run.itemsOf provider ≠ [] ∧ run.errorsOf provider = []) ∨
      (run.itemsOf provider = [] ∧ (run.errorsOf provider).length = 1) := by
  obtain ⟨returns, hitems, -⟩ := runItResearch_eq_ok h
  refine ⟨?_, ⟨run.items.map (·.evidence), ?_, fun item hitem => ?_, ?_⟩, ?_, fun provider => ?_⟩
  · obtain ⟨_, hea, _, heb, hne⟩ := returns.reportable.independent
    obtain ⟨a, ha, rfl⟩ := List.mem_map.mp hea
    obtain ⟨b, hb, rfl⟩ := List.mem_map.mp heb
    rw [hitems]
    refine ⟨a, ha, b, hb, fun heq => hne ?_⟩
    rw [ResearchItem.evidence, ResearchItem.evidence, ResearchItem.evidenceOf, ResearchItem.evidenceOf, heq]
  · rw [hitems]
    exact mapM_toEvidence_eq_some_iff.mpr ⟨returns.stable, rfl⟩
  · rw [hitems] at hitem
    exact requirePublicEvidence_eq_ok_iff.mpr (returns.reportable.acceptable item hitem)
  · rw [hitems]
    exact returns.reportable.ids_distinct
  · have hgroups : ∀ provider, run.itemsOf provider = (world.answer search provider).1 := by
      intro provider
      rw [answer_of_run h]
    rw [hitems, List.flatMap_congr fun provider _ => hgroups provider]
    rfl
  · have hanswer := answer_of_contained (returns.contained provider)
    rw [answer_of_run h] at hanswer
    rcases hanswer with hfound | ⟨hnone, what, -, hentries⟩
    · exact Or.inl hfound
    · exact Or.inr ⟨hnone, congrArg List.length hentries⟩

end World

/-! ## Concrete runs -/

namespace Sample

/-- A record of OpenAlex. -/
def openalexWork : Fields :=
  [(lit "id", .str (lit "https://openalex.org/W1")), (lit "title", .str (lit "Safe agent architecture")),
    (lit "publication_date", .str (lit "2025-09-15"))]

/-- A record of Crossref. -/
def crossrefWork : Fields :=
  [(lit "DOI", .str (lit "10.2/example")), (lit "title", .arr [.str (lit "Evidence gated tools")])]

/-- The bytes of a JSON answer. -/
def payload (envelope : Fields) : List ℕ := (utf8 (dumps ControlPlane.Sample.py.floatRepr (.obj envelope))).getD []

/-- The day of the runs. -/
def today : Today := ⟨lit "2025-09-16", 2025, 9, 16, by decide, by decide⟩

/-- A world in which arXiv does not answer, and the others answer with these records. -/
def world (openalex crossref : List Json) : World where
  host := site.host
  ips := ⟨fun _ => none, fun _ _ _ => rfl⟩
  fromstring _ := .error .parseError
  transport request :=
    if startsWith (lit "https://api.openalex.org/") request.url then .ok (payload [(lit "results", .arr openalex)])
    else if startsWith (lit "https://api.crossref.org/") request.url then
      .ok (payload [(lit "message", .obj [(lit "items", .arr crossref)])])
    else .error (.research (lit "research provider request failed"))
  today _ := today
  finished := today

/-- A search without keys. -/
def search : Search := ⟨⟨lit "safe agents", 2, by decide, by decide⟩, none, none⟩

/-- A search of two answers returns. -/
theorem exists_run : ∃ run, (world [.obj openalexWork] [.obj crossrefWork]).runItResearch search = .ok run := by
  have hok : ((world [.obj openalexWork] [.obj crossrefWork]).runItResearch search).isOk = true := by
    decide +kernel
  cases h : (world [.obj openalexWork] [.obj crossrefWork]).runItResearch search with
  | error e =>
    rw [h] at hok
    cases hok
  | ok run => exact ⟨run, rfl⟩

end Sample

/-- A run with two answers is evidence-gated. -/
theorem run_evidence_gated_returned :
    ∃ run, (Sample.world [.obj Sample.openalexWork] [.obj Sample.crossrefWork]).runItResearch Sample.search = .ok run ∧
      ∃ a ∈ run.items, ∃ b ∈ run.items, a.provider ≠ b.provider := by
  obtain ⟨run, h⟩ := Sample.exists_run
  exact ⟨run, h, (World.run_evidence_gated h).1⟩

end NeuroLab.Research
