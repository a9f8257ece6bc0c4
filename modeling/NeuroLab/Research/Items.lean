import NeuroLab.Python.Interpreter
import NeuroLab.Python.Url

/-!
# Metadata of public sources

A research item and the mappers that make one from a decoded record of OpenAlex or
Crossref: the cleaning of texts, dates and URLs, and what a record without the expected
members does. A provider error is one text; any other exception escapes the mapper.
-/

namespace NeuroLab.Research

open Python

/-- The members of an object. -/
abbrev Fields := List (Str × Json)

/-- What the research modules take from the interpreter and its libraries. -/
structure Host where
  py : Interpreter
  folding : CaseFolding
  urls : UrlChecks

/-- The scholarly APIs. -/
inductive Provider
  | arxiv
  | openalex
  | crossref
deriving DecidableEq

/-- How close a record is to the publication. -/
inductive EvidenceLevel
  | primary
  | secondary
  | reference
deriving DecidableEq

/-- `ResearchItem`. -/
structure ResearchItem where
  provider : Provider
  providerId : Str
  url : Str
  title : Str
  publishedOn : Str
  checkedOn : Str
  evidenceLevel : EvidenceLevel
  limitations : List Str
  abstract : Str
  authors : List Str
  doi : Option Str
deriving DecidableEq

/-- `ItResearchQuery`, with the two checks of its constructor. -/
structure ItResearchQuery where
  topic : Str
  maxResultsPerProvider : ℕ
  topic_inline : spans 5 180 isInline (strip isSpace topic) = true
  maxResults_bounded : 2 ≤ maxResultsPerProvider ∧ maxResultsPerProvider ≤ 10

/-- `ItResearchRun`, whose decision is always `review_required`. -/
structure ItResearchRun where
  query : ItResearchQuery
  checkedOn : Str
  items : List ResearchItem
  providerErrors : List Str
  audit : List Str

/-- How a provider call fails: with an `ItResearchError`, or with an exception that escapes. -/
inductive Failure
  | research (message : Str)
  | uncaught (exc : PyExc)

/-! ## Normalisation -/

/-- `_TAG.sub(" ", text)`, with a count of the characters still to drop. -/
def removeTags : ℕ → Str → Str
  | _, [] => []
  | skip + 1, _ :: s => removeTags skip s
  | 0, c :: s =>
    let inner := s.takeWhile (· ≠ 0x3E)
    if c = 0x3C && !inner.isEmpty && decide (inner.length < s.length) then 0x20 :: removeTags (inner.length + 1) s
    else c :: removeTags 0 s

/-- `_clean_text`. -/
def cleanText (value : Json) (fallback : Str) : Str :=
  match value with
  | .str s =>
    let text := (joinSpace (splitSpace (removeTags 0 s))).take 20000
    if text.isEmpty then fallback else text
  | _ => fallback

/-- A decimal digit of any script. -/
def isDecimal (c : ℕ) : Bool := isDigit c || decimalZeros.any fun z => z ≤ c && c < z + 10

/-- `re.fullmatch(r"\d{4}-\d{2}-\d{2}", text)`. -/
def isDateLike (s : Str) : Bool :=
  match s with
  | [a, b, c, d, 0x2D, e, f, 0x2D, g, h] => [a, b, c, d, e, f, g, h].all isDecimal
  | _ => false

/-- `_date`. -/
def date (value : Json) (checkedOn : Str) : Str :=
  let text := (cleanText value []).take 10
  if isDateLike text then text else checkedOn

/-- `_https_url`; `urlparse` may raise a `ValueError` of its own. -/
def Host.httpsUrl (host : Host) (value : Json) (fallback : Str) : Except PyExc Str :=
  let url := cleanText value fallback
  let url := match after? (lit "http://") url with
    | some rest => lit "https://" ++ rest
    | none => url
  match host.urls.urlparse url with
  | none => .error (.value (lit "ValueError"))
  | some parsed =>
    match parsed.port with
    | none => .ok fallback
    | some port =>
      if parsed.scheme ≠ lit "https" || ((parsed.hostname host.urls).getD []).isEmpty ||
          !(parsed.userinfo.1.getD []).isEmpty || !(parsed.userinfo.2.getD []).isEmpty ||
          (port ≠ none && port ≠ some 443) then .ok fallback
      else .ok url

/-! ## OpenAlex -/

/-- The name of one authorship, or an `AttributeError`; what is not an object has none. -/
def openalexAuthor : Json → Except PyExc Str
  | .obj authorship =>
    match getD authorship (lit "author") (.obj []) with
    | .obj author => .ok (cleanText (getD author (lit "display_name") .null) [])
    | _ => .error (.other (lit "AttributeError"))
  | _ => .ok []

/-- The names of a list of authorships. -/
def openalexAuthors : Json → Except PyExc (List Str)
  | .arr authorships => do
    let names ← authorships.mapM openalexAuthor
    .ok (names.filter fun name => !name.isEmpty)
  | _ => .ok []

/-- `_openalex_item`. -/
def Host.openalexItem (host : Host) (result : Fields) (checkedOn : Str) : Except PyExc (Option ResearchItem) :=
  let providerId := cleanText (getD result (lit "id") .null) []
  let title := cleanText (getD result (lit "title") .null) []
  if providerId.isEmpty || title.isEmpty then .ok none
  else do
    let locationUrl := match getD result (lit "primary_location") .null with
      | .obj location => getD location (lit "landing_page_url") .null
      | _ => .null
    let openalexUrl ← host.httpsUrl (.str providerId) (lit "https://openalex.org")
    let authors ← openalexAuthors (getD result (lit "authorships") .null)
    let url ← host.httpsUrl locationUrl openalexUrl
    let doi := cleanText (getD result (lit "doi") .null) []
    .ok (some
      { provider := .openalex, providerId := afterLast 0x2F providerId, url, title,
        publishedOn := date (getD result (lit "publication_date") .null) checkedOn, checkedOn,
        evidenceLevel := .secondary,
        limitations := [lit "OpenAlex metadata; verify publisher record and full-text licence separately."],
        abstract := [], authors, doi := if doi.isEmpty then none else some doi })

/-- The items of the records that are objects and have an id and a title, in order. -/
def collect (item : Fields → Except PyExc (Option ResearchItem)) : List Json → Except PyExc (List ResearchItem)
  | [] => .ok []
  | .obj record :: rest => do
    let found ← item record
    let items ← collect item rest
    .ok (found.toList ++ items)
  | _ :: rest => collect item rest

/-- `search_openalex`, from the decoded envelope. -/
def Host.searchOpenalex (host : Host) (query : ItResearchQuery) (envelope : Fields) (checkedOn : Str) :
    Except Failure (List ResearchItem) :=
  match getD envelope (lit "results") .null with
  | .arr results =>
    (collect (host.openalexItem · checkedOn) (results.take query.maxResultsPerProvider)).mapError .uncaught
  | _ => .error (.research (lit "OpenAlex results are invalid"))

/-- A letter under `re.IGNORECASE`: four characters outside ASCII count as letters. -/
def isCaselessLetter (c : ℕ) : Bool := isLetter c || c ∈ [0x130, 0x131, 0x17F, 0x212A]

/-- A character of a DOI's suffix. -/
def isDoiChar (c : ℕ) : Bool := isCaselessLetter c || isDigit c || c ∈ lit "-._;()/:"

/-- `_DOI`. -/
def isDoi (s : Str) : Bool :=
  match after? (lit "10.") s with
  | none => false
  | some rest =>
    let registrant := rest.takeWhile isDecimal
    decide (4 ≤ registrant.length) && decide (registrant.length ≤ 9) &&
      match rest.dropWhile isDecimal with
      | 0x2F :: suffix => spans 1 180 isDoiChar suffix
      | _ => false

/-- The form of a DOI that OpenAlex gives. -/
def doiPrefix : Str := lit "https://doi.org/"

/-- `lookup_openalex_doi`, from the decoded record. -/
def Host.lookupOpenalexDoi (host : Host) (doi : Str) (record : Fields) (today : Str) : Except Failure ResearchItem :=
  let normalized := host.folding.casefold (strip isSpace doi)
  if isDoi normalized then
    match host.openalexItem record today with
    | .error exc => .error (.uncaught exc)
    | .ok none => .error (.research (lit "OpenAlex record does not match the requested DOI"))
    | .ok (some item) =>
      let found := host.folding.casefold (item.doi.getD [])
      if (after? doiPrefix found).getD found = normalized then .ok item
      else .error (.research (lit "OpenAlex record does not match the requested DOI"))
  else .error (.research (lit "only a bounded DOI identifier is allowed"))

/-! ## Crossref -/

/-- `isinstance(value, int)`, with the number it is. -/
def intOf : Json → Option ℤ
  | .int n => some n
  | .bool b => some (if b then 1 else 0)
  | _ => none

/-- `format(n, "0<width>d")`. -/
def zeroPadded (width : ℕ) : ℤ → Str
  | .ofNat n => List.replicate (width - (decimal n).length) 0x30 ++ decimal n
  | .negSucc n => 0x2D :: List.replicate (width - 1 - (decimal (n + 1)).length) 0x30 ++ decimal (n + 1)

/-- The date of Crossref's nested `date-parts`, which nobody checks to be one. -/
def crossrefDate (published : Json) (checkedOn : Str) : Str :=
  match published with
  | .obj fields =>
    match getD fields (lit "date-parts") .null with
    | .arr (.arr (year :: month :: day :: _) :: _) =>
      match intOf year, intOf month, intOf day with
      | some y, some m, some d => zeroPadded 4 y ++ 0x2D :: zeroPadded 2 m ++ 0x2D :: zeroPadded 2 d
      | _, _, _ => checkedOn
    | _ => checkedOn
  | _ => checkedOn

/-- The names of Crossref's authors; an object without a name leaves an empty one. -/
def crossrefAuthors : Json → List Str
  | .arr authors => authors.filterMap fun
    | .obj author =>
      some (joinSpace ([cleanText (getD author (lit "given") .null) [], cleanText (getD author (lit "family") .null) []].filter
        fun part => !part.isEmpty))
    | _ => none
  | _ => []

/-- The body of the loop of `search_crossref`. -/
def Host.crossrefItem (host : Host) (result : Fields) (checkedOn : Str) : Except PyExc (Option ResearchItem) :=
  let doi := cleanText (getD result (lit "DOI") .null) []
  let title := match getD result (lit "title") .null with
    | .arr (title :: _) => cleanText title []
    | _ => []
  if doi.isEmpty || title.isEmpty then .ok none
  else do
    let url ← host.httpsUrl (getD result (lit "URL") .null) (doiPrefix ++ doi)
    .ok (some
      { provider := .crossref, providerId := host.urls.lower doi, url, title,
        publishedOn := crossrefDate (getD result (lit "published") .null) checkedOn, checkedOn,
        evidenceLevel := .primary,
        limitations :=
          [lit "Crossref metadata; publisher abstract and full text may have separate copyright terms."],
        abstract := cleanText (getD result (lit "abstract") .null) [],
        authors := crossrefAuthors (getD result (lit "author") .null), doi := some doi })

/-- `search_crossref`, from the decoded envelope. -/
def Host.searchCrossref (host : Host) (query : ItResearchQuery) (envelope : Fields) (checkedOn : Str) :
    Except Failure (List ResearchItem) :=
  let results := match getD envelope (lit "message") .null with
    | .obj message => getD message (lit "items") .null
    | _ => .null
  match results with
  | .arr results =>
    (collect (host.crossrefItem · checkedOn) (results.take query.maxResultsPerProvider)).mapError .uncaught
  | _ => .error (.research (lit "Crossref results are invalid"))

/-! ## What a mapper returns -/

/-- The provider and the DOI of an item of OpenAlex. -/
theorem openalexItem_eq_ok {host : Host} {result : Fields} {checkedOn : Str} {item : ResearchItem}
    (h : host.openalexItem result checkedOn = .ok (some item)) :
    item.provider = .openalex ∧
      item.doi = if (cleanText (getD result (lit "doi") .null) []).isEmpty then none
        else some (cleanText (getD result (lit "doi") .null) []) := by
  unfold Host.openalexItem at h
  extract_lets providerId title at h
  split at h
  · cases h
  · obtain ⟨_, -, h⟩ := bind_eq_ok_iff.mp h
    obtain ⟨_, -, h⟩ := bind_eq_ok_iff.mp h
    obtain ⟨_, -, h⟩ := bind_eq_ok_iff.mp h
    cases h
    exact ⟨rfl, rfl⟩

/-- A record that the lookup accepts was mapped. -/
theorem lookupOpenalexDoi_eq_ok {host : Host} {doi today : Str} {record : Fields} {item : ResearchItem}
    (h : host.lookupOpenalexDoi doi record today = .ok item) : host.openalexItem record today = .ok (some item) := by
  unfold Host.lookupOpenalexDoi at h
  extract_lets normalized at h
  split at h
  · split at h
    · cases h
    · cases h
    · next found hfound =>
      extract_lets folded at h
      split at h
      · cases h
        exact hfound
      · cases h
  · cases h

/-- The provider and the DOI of an item of Crossref. -/
theorem crossrefItem_eq_ok {host : Host} {result : Fields} {checkedOn : Str} {item : ResearchItem}
    (h : host.crossrefItem result checkedOn = .ok (some item)) :
    item.provider = .crossref ∧ item.doi = some (cleanText (getD result (lit "DOI") .null) []) := by
  unfold Host.crossrefItem at h
  extract_lets doi title at h
  split at h
  · cases h
  · obtain ⟨_, -, h⟩ := bind_eq_ok_iff.mp h
    cases h
    exact ⟨rfl, rfl⟩

end NeuroLab.Research
