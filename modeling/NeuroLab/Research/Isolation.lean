import Mathlib.Data.List.Nodup
import NeuroLab.Research.Metadata

/-!
# How one provider fails the others

A record that raises something else than an `ItResearchError` ends the run, and so does one
that the evidence contract refuses: it judges the items of all providers at once. This
module says for which answers a provider leaves the others alone.
-/

namespace NeuroLab.Research

open Python Postgres

/-! ## The evidence of mapped items -/

variable {world : World} {search : Search}

/-- The host of a provider's provenance URL. -/
def Provider.hostname : Provider → Str
  | arxiv => lit "arxiv.org"
  | openalex => lit "openalex.org"
  | crossref => lit "crossref.org"

/-- The provenance URL of a provider has its public host. -/
theorem publicHostname_provenanceUrl (host : Host) (ips : IpAddresses) (provider : Provider) :
    host.publicHostname ips provider.provenanceUrl = .ok provider.hostname := by
  have hascii : ∀ c ∈ provider.hostname, c < 0x80 := by cases provider <;> decide
  have hlowered : provider.hostname.map asciiLower = provider.hostname := by cases provider <;> decide
  have hlower : host.urls.lower provider.hostname = provider.hostname := by rw [host.urls.lower_ascii _ hascii, hlowered]
  have hparsed : host.urls.urlparse provider.provenanceUrl = some ⟨lit "https", provider.hostname⟩ := by
    cases provider <;> rfl
  have hname : (⟨lit "https", provider.hostname⟩ : ParsedUrl).hostname host.urls = some provider.hostname := by
    have hraw : (⟨lit "https", provider.hostname⟩ : ParsedUrl).hostname host.urls = some (host.urls.lower provider.hostname) := by
      cases provider <;> rfl
    rw [hraw, hlower]
  have hnamed : ips.isGlobal provider.hostname = none := by
    refine ips.named _ ?_ ⟨0x72, ?_, by decide, by decide⟩
    · cases provider <;> decide
    · cases provider <;> decide
  have hport : (⟨lit "https", provider.hostname⟩ : ParsedUrl).port = some none := by cases provider <;> rfl
  have huser : (⟨lit "https", provider.hostname⟩ : ParsedUrl).userinfo = (none, none) := by cases provider <;> rfl
  have hnonempty : provider.hostname.isEmpty = false := by cases provider <;> rfl
  unfold Host.publicHostname
  simp only [hparsed, hport, hname, huser, Option.getD_some, Option.getD_none, hnonempty, hlower, hnamed]
  rfl

/-- The hosts of different providers are different. -/
theorem hostname_injective : Function.Injective Provider.hostname := by
  intro p q h
  cases p <;> cases q <;> first | rfl | exact absurd h (by decide)

/-- The id of a source: its provider and sixteen digits of a digest. -/
theorem exists_sourceId (item : ResearchItem) : ∃ digits, digits.length = 16 ∧ (∀ c ∈ digits, isLowerHex c = true) ∧
    item.evidence.sourceId = lit "src-" ++ item.provider.name ++ 0x2D :: digits := by
  obtain ⟨hlength, hdigits⟩ := isDigest_iff.mp (isDigest_sha256 (item.stable.getD []))
  refine ⟨(sha256 (item.stable.getD [])).take 16, ?_, fun c hc => hdigits c (List.mem_of_mem_take hc), rfl⟩
  rw [List.length_take, hlength]
  rfl

/-- Every source has a well-formed id. -/
theorem isSourceId_sourceId (item : ResearchItem) : isSourceId item.evidence.sourceId = true := by
  obtain ⟨digits, hlength, hdigits, hid⟩ := exists_sourceId item
  have hafter : after? (lit "src-") item.evidence.sourceId = some (item.provider.name ++ 0x2D :: digits) :=
    after?_eq_some_iff.mpr (by rw [hid, List.append_assoc])
  have hname : item.provider.name.all (fun c => isDigit c || (0x61 ≤ c && c ≤ 0x7A) || c = 0x2D) = true ∧
      item.provider.name.length ≤ 8 := by
    cases item.provider <;> decide
  have hhex : digits.all (fun c => isDigit c || (0x61 ≤ c && c ≤ 0x7A) || c = 0x2D) = true := by
    refine List.all_eq_true.mpr fun c hc => ?_
    have hc := hdigits c hc
    simp only [isLowerHex, isDigit, Bool.or_eq_true, Bool.and_eq_true, decide_eq_true_eq] at hc ⊢
    omega
  unfold isSourceId
  rw [hafter]
  simp only [spans, List.length_append, List.length_cons, hlength, List.all_append, List.all_cons, hname.1, hhex,
    Bool.and_eq_true, decide_eq_true_eq]
  exact ⟨⟨by omega, by omega⟩, trivial, rfl, trivial⟩

/-- Sources of different providers have different ids. -/
theorem provider_of_sourceId {a b : ResearchItem} (h : a.evidence.sourceId = b.evidence.sourceId) :
    a.provider = b.provider := by
  obtain ⟨digits, -, -, ha⟩ := exists_sourceId a
  obtain ⟨digits', -, -, hb⟩ := exists_sourceId b
  rw [ha, hb, List.append_assoc, List.append_assoc, List.append_cancel_left_eq] at h
  have hname : ∀ (provider : Provider) rest, (provider.name ++ rest).head? = provider.name.head? := by
    intro provider rest
    cases provider <;> rfl
  have hhead := congrArg List.head? h
  rw [hname, hname] at hhead
  clear ha hb h
  revert hhead
  cases a.provider <;> cases b.provider <;> decide

/-! ## Sound answers -/

/-- What the evidence contract asks of a mapped item: a title that is not too long, a publication date that there is
and that is not after the check, and no blank category. -/
structure WellFormed (item : ResearchItem) : Prop where
  title : item.title.length ≤ maxTitleLength
  dated : ∃ publishedOn checkedOn, fromisoformat item.publishedOn = some publishedOn ∧
    fromisoformat item.checkedOn = some checkedOn ∧ publishedOn ≤ checkedOn
  limitations : ∀ limitation ∈ item.limitations, (strip isSpace limitation).isEmpty = false

/-- The evidence of a mapped item is acceptable exactly if the item is well formed. -/
theorem Normalised.acceptable_iff {item : ResearchItem} (h : Normalised world item) :
    Acceptable world.host world.ips item.evidence ↔ WellFormed item := by
  constructor
  · rintro ⟨-, -, htitled, hdated, hlimited, -⟩
    exact ⟨htitled.2, hdated, hlimited.2⟩
  · rintro ⟨htitle, hdated, hlimitations⟩
    exact ⟨isSourceId_sourceId item, ⟨_, publicHostname_provenanceUrl _ _ _⟩, ⟨h.title.1.isEmpty_strip h.title.2, htitle⟩,
      hdated, ⟨h.limitations, hlimitations⟩, h.abstract⟩

/-- Items that the evidence contract accepts: they are well formed and their ids are distinct. -/
structure Sound (items : List ResearchItem) : Prop where
  wellFormed : ∀ item ∈ items, WellFormed item
  ids_distinct : (items.map fun item => item.evidence.sourceId).Nodup

/-- The contract accepts what was found exactly if every answer is sound and two providers have items. -/
theorem reportable_found_iff :
    Reportable world.host world.ips ((world.found search).map (·.evidence)) ↔
      (∀ provider, Sound (world.answer search provider).1) ∧
        ∃ p q, p ≠ q ∧ (world.answer search p).1 ≠ [] ∧ (world.answer search q).1 ≠ [] := by
  have hmem : ∀ item, item ∈ world.found search ↔ ∃ provider, item ∈ (world.answer search provider).1 := by
    intro item
    simp only [World.found, List.mem_flatMap, World.mem_attempts, true_and]
  have hids : ((world.found search).map fun item => item.evidence.sourceId).Nodup ↔
      ∀ provider, ((world.answer search provider).1.map fun item => item.evidence.sourceId).Nodup := by
    rw [World.found, List.map_flatMap, List.nodup_flatMap]
    refine ⟨fun h provider => h.1 provider (World.mem_attempts provider), fun h => ⟨fun provider _ => h provider, ?_⟩⟩
    refine List.Pairwise.imp ?_ (show World.attempts.Nodup by decide)
    intro p q hne id hp hq
    obtain ⟨a, ha, rfl⟩ := List.mem_map.mp hp
    obtain ⟨b, hb, heq⟩ := List.mem_map.mp hq
    exact hne ((World.mem_answer ha).1.symm.trans ((provider_of_sourceId heq.symm).trans (World.mem_answer hb).1))
  have hhosts : ∀ a b : ResearchItem, world.host.publicHostname world.ips a.evidence.url ≠
      world.host.publicHostname world.ips b.evidence.url ↔ a.provider ≠ b.provider := by
    intro a b
    change world.host.publicHostname world.ips a.provider.provenanceUrl ≠
      world.host.publicHostname world.ips b.provider.provenanceUrl ↔ _
    rw [publicHostname_provenanceUrl, publicHostname_provenanceUrl, ne_eq, Except.ok.injEq, hostname_injective.eq_iff]
  constructor
  · rintro ⟨hacceptable, hdistinct, _, hea, _, heb, hne⟩
    rw [List.map_map] at hdistinct
    refine ⟨fun provider => ⟨fun item hitem => ?_, hids.mp hdistinct provider⟩, ?_⟩
    · exact (World.mem_answer hitem).2.normalised.acceptable_iff.mp
        (hacceptable _ (List.mem_map_of_mem ((hmem item).mpr ⟨provider, hitem⟩)))
    · obtain ⟨a, ha, rfl⟩ := List.mem_map.mp hea
      obtain ⟨b, hb, rfl⟩ := List.mem_map.mp heb
      exact ⟨a.provider, b.provider, (hhosts a b).mp hne, List.ne_nil_of_mem (World.mem_found ha).1,
        List.ne_nil_of_mem (World.mem_found hb).1⟩
  · rintro ⟨hsound, p, q, hne, hp, hq⟩
    refine ⟨List.forall_mem_map.mpr fun item hitem => ?_, ?_, ?_⟩
    · obtain ⟨hanswer, hmapped⟩ := World.mem_found hitem
      exact hmapped.normalised.acceptable_iff.mpr ((hsound _).wellFormed item hanswer)
    · rw [List.map_map]
      exact hids.mpr fun provider => (hsound provider).ids_distinct
    · obtain ⟨a, ha⟩ := List.exists_mem_of_ne_nil _ hp
      obtain ⟨b, hb⟩ := List.exists_mem_of_ne_nil _ hq
      refine ⟨_, List.mem_map_of_mem ((hmem a).mpr ⟨p, ha⟩), _, List.mem_map_of_mem ((hmem b).mpr ⟨q, hb⟩), ?_⟩
      rw [hhosts, (World.mem_answer ha).1, (World.mem_answer hb).1]
      exact hne

/-- A run raises nothing but an `ItResearchError` exactly if no call does, every item can be told apart, and the
abstracts of a run that the contract accepts can be encoded. -/
theorem contained_iff :
    (∀ exc, world.runItResearch search ≠ .error (.uncaught exc)) ↔
      (∀ provider, world.Contained search provider) ∧ (∀ item ∈ world.found search, item.stable.isSome) ∧
        (Reportable world.host world.ips ((world.found search).map (·.evidence)) →
          ∀ item ∈ world.found search, (utf8 item.abstract).isSome) := by
  unfold World.runItResearch
  cases hloop : World.attempts.foldlM (world.attempt search) ([], []) with
  | error exc =>
    refine ⟨fun h => absurd rfl (h exc), fun h => ?_⟩
    cases hloop.symm.trans (World.foldlM_attempts_eq_ok_iff.mpr ⟨h.1, rfl⟩)
  | ok collected =>
    obtain ⟨hcontained, rfl⟩ := World.foldlM_attempts_eq_ok_iff.mp hloop
    dsimp only
    cases hevidence : (world.found search).mapM ResearchItem.toEvidence with
    | none =>
      refine ⟨fun h => absurd rfl (h _), fun h => ?_⟩
      cases hevidence.symm.trans (World.mapM_toEvidence_eq_some_iff.mpr ⟨h.2.1, rfl⟩)
    | some evidence =>
      obtain ⟨hstable, rfl⟩ := World.mapM_toEvidence_eq_some_iff.mp hevidence
      have hhosted : ∀ item ∈ (world.found search).map (·.evidence),
          ∃ hostname, world.host.publicHostname world.ips item.url = .ok hostname :=
        List.forall_mem_map.mpr fun item _ => ⟨_, publicHostname_provenanceUrl _ _ _⟩
      have huncaught := not_congr (exists_uncaught_iff hhosted)
      rw [not_exists, Classical.not_and_iff_not_or_not, not_not, ← imp_iff_not_or, List.forall_mem_map] at huncaught
      refine Iff.trans ?_ ⟨fun h => ⟨hcontained, hstable, huncaught.mp h⟩, fun h => huncaught.mpr h.2.2⟩
      dsimp only
      split
      · next hreport => simp [hreport]
      · next exc hreport => simp [hreport]
      · next hreport => simp [hreport]

/-! ## Readable answers -/

variable {host : Host}

/-- `urlparse` is given a URL with its scheme secured. -/
def secured (url : Str) : Str :=
  match after? (lit "http://") url with
  | some rest => lit "https://" ++ rest
  | none => url

/-- `_https_url` does not raise on a URL. -/
def Host.ReadableUrl (host : Host) (value : Json) : Prop := ∃ url, host.httpsUrl value [] = .ok url

/-- Each author of a list of authorships is an object, or is left out. -/
def ReadableAuthors (value : Json) : Prop :=
  ∀ authorships, value = .arr authorships → ∀ authorship, .obj authorship ∈ authorships →
    ∃ author, getD authorship (lit "author") (.obj []) = .obj author

/-- A record of OpenAlex with an id and a title has URLs that can be parsed, and authors. -/
def Host.OpenalexReadable (host : Host) (record : Fields) : Prop :=
  cleanText (getD record (lit "id") .null) [] ≠ [] → cleanText (getD record (lit "title") .null) [] ≠ [] →
    host.ReadableUrl (.str (cleanText (getD record (lit "id") .null) [])) ∧
      (∀ location, getD record (lit "primary_location") .null = .obj location →
        host.ReadableUrl (getD location (lit "landing_page_url") .null)) ∧
      ReadableAuthors (getD record (lit "authorships") .null)

/-- `_https_url` raises only if `urlparse` does. -/
theorem exists_httpsUrl_iff {value : Json} {fallback : Str} :
    (∃ url, host.httpsUrl value fallback = .ok url) ↔ (host.urls.urlparse (secured (cleanText value fallback))).isSome := by
  unfold Host.httpsUrl
  extract_lets cleaned url
  have hurl : url = secured (cleanText value fallback) := rfl
  rw [← hurl]
  cases host.urls.urlparse url with
  | none => simp
  | some parsed =>
    refine ⟨fun _ => rfl, fun _ => ?_⟩
    dsimp only
    split
    · exact ⟨_, rfl⟩
    · split
      · exact ⟨_, rfl⟩
      · exact ⟨_, rfl⟩

/-- A secured URL stays as it is. -/
theorem secured_secured (url : Str) : secured (secured url) = secured url := by
  cases hhttp : after? (lit "http://") url with
  | none =>
    have hsame : secured url = url := by rw [secured, hhttp]
    rw [hsame, hsame]
  | some rest =>
    have hsecured : secured url = lit "https://" ++ rest := by rw [secured, hhttp]
    rw [hsecured]
    rfl

/-- A fallback stands for what is not a text, or blank. -/
theorem cleanText_fallback (value : Json) (fallback : Str) :
    cleanText value fallback = if cleanText value [] = [] then fallback else cleanText value [] := by
  cases value with
  | str s =>
    simp only [cleanText]
    split <;> simp_all
  | _ => simp [cleanText]

/-- With a fallback that can be parsed, `_https_url` raises only for the URL itself. -/
theorem exists_httpsUrl_fallback_iff {value : Json} {fallback : Str}
    (hfallback : (host.urls.urlparse (secured fallback)).isSome) :
    (∃ url, host.httpsUrl value fallback = .ok url) ↔ host.ReadableUrl value := by
  rw [Host.ReadableUrl, exists_httpsUrl_iff, exists_httpsUrl_iff, cleanText_fallback value fallback]
  split
  · next hblank =>
    rw [hblank]
    exact ⟨fun _ => rfl, fun _ => hfallback⟩
  · exact Iff.rfl

/-- What `_https_url` returns can be parsed. -/
theorem isSome_urlparse_of_httpsUrl {value : Json} {fallback url : Str}
    (hfallback : (host.urls.urlparse (secured fallback)).isSome) (h : host.httpsUrl value fallback = .ok url) :
    (host.urls.urlparse (secured url)).isSome := by
  have hparsed := exists_httpsUrl_iff.mp ⟨url, h⟩
  unfold Host.httpsUrl at h
  extract_lets cleaned secure at h
  have hsecure : secure = secured (cleanText value fallback) := rfl
  rw [← hsecure] at hparsed
  split at h
  · cases h
  · split at h
    · cases h
      exact hfallback
    · split at h
      · cases h
        exact hfallback
      · rw [← Except.ok.inj h, hsecure, secured_secured, ← hsecure]
        exact hparsed

/-- The names of authorships can be read exactly if each author is an object or left out. -/
theorem exists_openalexAuthors_iff {value : Json} : (∃ names, openalexAuthors value = .ok names) ↔ ReadableAuthors value := by
  cases value with
  | arr authorships =>
    have hauthor : ∀ authorship, (∃ name, openalexAuthor authorship = .ok name) ↔
        ∀ fields, authorship = .obj fields → ∃ author, getD fields (lit "author") (.obj []) = .obj author := by
      intro authorship
      cases authorship with
      | obj fields =>
        simp only [openalexAuthor]
        cases hvalue : getD fields (lit "author") (.obj []) <;> simp [hvalue]
      | _ => simp [openalexAuthor]
    simp only [openalexAuthors, bind_eq_ok_iff]
    constructor
    · rintro ⟨_, names, hnames, -⟩ _ heq fields hfields
      cases heq
      exact (hauthor _).mp (exists_mapM_ok_iff.mp ⟨names, hnames⟩ _ hfields) fields rfl
    · intro h
      obtain ⟨names, hnames⟩ := exists_mapM_ok_iff.mpr fun authorship hauthorship =>
        (hauthor authorship).mpr fun fields heq => h authorships rfl fields (heq ▸ hauthorship)
      exact ⟨_, names, hnames, rfl⟩
  | _ => exact ⟨fun _ => nofun, fun _ => ⟨[], rfl⟩⟩

/-- A mapper that skips what has no name or no title maps a record exactly if it maps one that has both. -/
theorem exists_named_iff {name title : Str} {map : Except PyExc (Option ResearchItem)} :
    (∃ item, (if name.isEmpty || title.isEmpty then .ok none else map) = .ok item) ↔
      (name ≠ [] → title ≠ [] → ∃ item, map = .ok item) := by
  split
  · next hunnamed =>
    simp only [Bool.or_eq_true, List.isEmpty_iff] at hunnamed
    exact ⟨fun _ hname htitle => (hunnamed.elim hname htitle).elim, fun _ => ⟨none, rfl⟩⟩
  · next hnamed =>
    simp only [Bool.or_eq_true, List.isEmpty_iff, not_or] at hnamed
    exact ⟨fun h _ _ => h, fun h => h hnamed.1 hnamed.2⟩

/-- A statement that the next one does not fail behind. -/
theorem exists_bind_ok_iff {α β : Type} {x : Except PyExc α} {f : α → β} :
    (∃ b, (x >>= fun a => .ok (f a)) = .ok b) ↔ ∃ a, x = .ok a := by
  constructor
  · rintro ⟨b, h⟩
    obtain ⟨a, ha, -⟩ := bind_eq_ok_iff.mp h
    exact ⟨a, ha⟩
  · rintro ⟨a, ha⟩
    exact ⟨_, bind_eq_ok_iff.mpr ⟨a, ha, rfl⟩⟩

/-- A record of OpenAlex is mapped exactly if it is readable. -/
theorem exists_openalexItem_iff {record : Fields} {checkedOn : Str} :
    (∃ item, host.openalexItem record checkedOn = .ok item) ↔ host.OpenalexReadable record := by
  unfold Host.openalexItem Host.OpenalexReadable
  extract_lets providerId title locationUrl doi
  have hfallback : (host.urls.urlparse (secured (lit "https://openalex.org"))).isSome = true := rfl
  rw [exists_named_iff]
  refine imp_congr_right fun _ => imp_congr_right fun _ => ⟨?_, ?_⟩
  · rintro ⟨item, h⟩
    obtain ⟨openalexUrl, hid, h⟩ := bind_eq_ok_iff.mp h
    obtain ⟨names, hnames, h⟩ := bind_eq_ok_iff.mp h
    obtain ⟨url, hurl, -⟩ := bind_eq_ok_iff.mp h
    refine ⟨(exists_httpsUrl_fallback_iff hfallback).mp ⟨_, hid⟩, fun location hlocation => ?_,
      exists_openalexAuthors_iff.mp ⟨_, hnames⟩⟩
    have heq : locationUrl = getD location (lit "landing_page_url") .null := by simp only [locationUrl, hlocation]
    rw [← heq]
    exact (exists_httpsUrl_fallback_iff (isSome_urlparse_of_httpsUrl hfallback hid)).mp ⟨_, hurl⟩
  · rintro ⟨hid, hlocation, hauthors⟩
    obtain ⟨openalexUrl, hopenalex⟩ := (exists_httpsUrl_fallback_iff hfallback).mpr hid
    obtain ⟨names, hnames⟩ := exists_openalexAuthors_iff.mpr hauthors
    have hlocationUrl : host.ReadableUrl locationUrl := by
      unfold locationUrl
      split
      · next location heq => exact hlocation location heq
      · exact exists_httpsUrl_iff.mpr rfl
    obtain ⟨url, hurl⟩ := (exists_httpsUrl_fallback_iff (isSome_urlparse_of_httpsUrl hfallback hopenalex)).mpr hlocationUrl
    exact ⟨_, bind_eq_ok_iff.mpr ⟨_, hopenalex, bind_eq_ok_iff.mpr ⟨_, hnames, bind_eq_ok_iff.mpr ⟨_, hurl, rfl⟩⟩⟩⟩

/-- The first title of a record of Crossref. -/
def crossrefTitle (record : Fields) : Str :=
  match getD record (lit "title") .null with
  | .arr (title :: _) => cleanText title []
  | _ => []

/-- A record of Crossref with a DOI and a title has a URL that can be parsed. -/
def Host.CrossrefReadable (host : Host) (record : Fields) : Prop :=
  cleanText (getD record (lit "DOI") .null) [] ≠ [] → crossrefTitle record ≠ [] →
    host.ReadableUrl (getD record (lit "URL") .null)

/-- A record of Crossref is mapped exactly if it is readable. -/
theorem exists_crossrefItem_iff {record : Fields} {checkedOn : Str} :
    (∃ item, host.crossrefItem record checkedOn = .ok item) ↔ host.CrossrefReadable record := by
  unfold Host.crossrefItem Host.CrossrefReadable
  extract_lets doi title
  have htitle : title = crossrefTitle record := rfl
  have hfallback : (host.urls.urlparse (secured (doiPrefix ++ doi))).isSome = true := rfl
  rw [← htitle, ← exists_httpsUrl_fallback_iff hfallback]
  rw [exists_named_iff]
  exact imp_congr_right fun _ => imp_congr_right fun _ => exists_bind_ok_iff

/-- An entry of arXiv with an id and a title has an id that can be parsed as a URL. -/
def Host.ArxivReadable (host : Host) (entry : Element) : Prop :=
  cleanText (entry.findtext (World.atom "id")) [] ≠ [] → cleanText (entry.findtext (World.atom "title")) [] ≠ [] →
    host.ReadableUrl (.str (cleanText (entry.findtext (World.atom "id")) []))

/-- An entry of arXiv is mapped exactly if it is readable. -/
theorem exists_arxivItem_iff {entry : Element} {checkedOn : Str} :
    (∃ item, world.arxivItem entry checkedOn = .ok item) ↔ world.host.ArxivReadable entry := by
  unfold World.arxivItem Host.ArxivReadable
  extract_lets identifier title authors categories
  have hfallback : (world.host.urls.urlparse (secured (lit "https://arxiv.org"))).isSome = true := rfl
  rw [← exists_httpsUrl_fallback_iff hfallback]
  rw [exists_named_iff]
  exact imp_congr_right fun _ => imp_congr_right fun _ => exists_bind_ok_iff

/-- The records of an answer are mapped exactly if each of them is. -/
theorem exists_collect_iff {map : Fields → Except PyExc (Option ResearchItem)} {results : List Json} :
    (∃ items, collect map results = .ok items) ↔ ∀ record, .obj record ∈ results → ∃ item, map record = .ok item := by
  induction results with
  | nil => exact ⟨fun _ _ h => (nomatch h), fun _ => ⟨[], rfl⟩⟩
  | cons result results ih =>
    cases result with
    | obj record =>
      simp only [collect, bind_eq_ok_iff, List.mem_cons, Json.obj.injEq, forall_eq_or_imp, ← ih]
      constructor
      · rintro ⟨_, item, hitem, items, hitems, -⟩
        exact ⟨⟨item, hitem⟩, items, hitems⟩
      · rintro ⟨⟨item, hitem⟩, items, hitems⟩
        exact ⟨_, item, hitem, items, hitems, rfl⟩
    | _ => simpa [collect] using ih

/-! ## Contained calls -/

/-- Nothing is raised but an `ItResearchError`. -/
def Tame {α : Type} (x : Except Failure α) : Prop := ∀ exc, x ≠ .error (.uncaught exc)

/-- A sequence of statements is tame if its first is, and the second after what the first returns. -/
theorem tame_bind_iff {α β : Type} {x : Except Failure α} {f : α → Except Failure β} :
    Tame (x >>= f) ↔ Tame x ∧ ∀ a, x = .ok a → Tame (f a) := by
  cases x with
  | error e => exact ⟨fun h => ⟨fun exc heq => h exc (congrArg Except.error (Except.error.inj heq)), nofun⟩, fun h exc heq =>
      h.1 exc (congrArg Except.error (Except.error.inj heq))⟩
  | ok a =>
    refine ⟨fun h => ⟨nofun, fun b hb => ?_⟩, fun h => h.2 a rfl⟩
    cases hb
    exact h

/-- A mapping is tame exactly if it returns. -/
theorem tame_mapError_iff {α : Type} {x : Except PyExc α} : Tame (x.mapError .uncaught) ↔ ∃ a, x = .ok a := by
  cases x with
  | error exc => exact ⟨fun h => absurd rfl (h exc), nofun⟩
  | ok a => exact ⟨fun _ => ⟨a, rfl⟩, fun _ => nofun⟩

/-- The text of a payload is JSON, or a `JSONDecodeError`: it is neither nested too deeply nor has it numbers with
too many digits. -/
def World.ReadableJson (world : World) (payload : List ℕ) : Prop :=
  ∀ text, decodeUtf8 0 payload = some text → ∀ exc, world.host.py.loads text = .error exc →
    exc = .value (lit "JSONDecodeError")

/-- Such a payload is loaded or refused. -/
theorem tame_loadJson_iff {payload : List ℕ} : Tame (world.loadJson payload) ↔ world.ReadableJson payload := by
  unfold World.loadJson World.ReadableJson
  cases decodeUtf8 0 payload with
  | none => exact ⟨fun _ _ => nofun, fun _ => nofun⟩
  | some text =>
    simp only [Option.some.injEq, forall_eq']
    cases hloads : world.host.py.loads text with
    | ok v => cases v <;> exact ⟨fun _ => nofun, fun _ => nofun⟩
    | error exc =>
      dsimp only
      split
      · next h => exact ⟨fun _ exc' heq => (Except.error.inj heq) ▸ h, fun _ => nofun⟩
      · next h => exact ⟨fun htame => absurd rfl (htame exc), fun hread => absurd (hread exc rfl) h⟩

/-- What a provider answered is decoded and mapped without an exception. -/
def World.Readable (world : World) (search : Search) : Provider → List ℕ → Prop
  | .arxiv, payload =>
    (∀ exc, world.fromstring payload ≠ .error (.other exc)) ∧
      ∀ root, world.fromstring payload = .ok root →
        ∀ entry ∈ (root.findall (World.atom "entry")).take 20, world.host.ArxivReadable entry
  | .openalex, payload =>
    world.ReadableJson payload ∧
      ∀ envelope results, world.loadJson payload = .ok envelope → getD envelope (lit "results") .null = .arr results →
        ∀ record, .obj record ∈ results.take search.query.maxResultsPerProvider → world.host.OpenalexReadable record
  | .crossref, payload =>
    world.ReadableJson payload ∧
      ∀ envelope message results, world.loadJson payload = .ok envelope →
        getD envelope (lit "message") .null = .obj message → getD message (lit "items") .null = .arr results →
          ∀ record, .obj record ∈ results.take search.query.maxResultsPerProvider → world.host.CrossrefReadable record

/-- The query string of a search has no surrogates. -/
def Search.Encodable (search : Search) (provider : Provider) : Prop :=
  ∀ param ∈ search.params provider, (utf8 param.1).isSome ∧ (utf8 param.2).isSome

/-- A transport that raises nothing but an `ItResearchError` makes tame requests of what can be encoded. -/
theorem tame_fetch_iff {provider : Provider} (htransport : ∀ request, Tame (world.transport request)) :
    Tame (world.fetch search provider) ↔ search.Encodable provider := by
  rw [Search.Encodable, ← isSome_urlencode_iff]
  unfold World.fetch
  cases urlencode (search.params provider) with
  | none => exact ⟨fun h => absurd rfl (h _), nofun⟩
  | some encoded => exact ⟨fun _ => rfl, fun _ => htransport _⟩

/-- A search of arXiv maps a feed exactly if its entries are readable. -/
theorem exists_arxivItems_iff {query : ItResearchQuery} {root : Element} {checkedOn : Str} :
    (∃ items, world.arxivItems query root checkedOn = .ok items) ↔
      ∀ entry ∈ (root.findall (World.atom "entry")).take 20, world.host.ArxivReadable entry := by
  have hentry : ∀ entry, world.host.ArxivReadable entry ↔ ∃ item, world.arxivItem entry checkedOn = .ok item :=
    fun _ => exists_arxivItem_iff.symm
  simp only [hentry]
  rw [← exists_mapM_ok_iff]
  constructor
  · rintro ⟨_, h⟩
    obtain ⟨found, hfound, -⟩ := bind_eq_ok_iff.mp h
    exact ⟨found, hfound⟩
  · rintro ⟨found, hfound⟩
    exact ⟨_, bind_eq_ok_iff.mpr ⟨found, hfound, rfl⟩⟩

/-- A search of OpenAlex maps an envelope exactly if its records are readable. -/
theorem tame_searchOpenalex_iff {query : ItResearchQuery} {envelope : Fields} {checkedOn : Str} :
    Tame (host.searchOpenalex query envelope checkedOn) ↔
      ∀ results, getD envelope (lit "results") .null = .arr results →
        ∀ record, .obj record ∈ results.take query.maxResultsPerProvider → host.OpenalexReadable record := by
  unfold Host.searchOpenalex
  split
  · next results hresults =>
    rw [tame_mapError_iff, exists_collect_iff, hresults]
    simp only [exists_openalexItem_iff, Json.arr.injEq, forall_eq']
  · next hresults => exact ⟨fun _ results heq => absurd heq (hresults results), fun _ => nofun⟩

/-- A search of Crossref maps an envelope exactly if its records are readable. -/
theorem tame_searchCrossref_iff {query : ItResearchQuery} {envelope : Fields} {checkedOn : Str} :
    Tame (host.searchCrossref query envelope checkedOn) ↔
      ∀ message results, getD envelope (lit "message") .null = .obj message →
        getD message (lit "items") .null = .arr results →
          ∀ record, .obj record ∈ results.take query.maxResultsPerProvider → host.CrossrefReadable record := by
  unfold Host.searchCrossref
  extract_lets items
  have hitems : ∀ results, items = .arr results ↔ ∃ message, getD envelope (lit "message") .null = .obj message ∧
      getD message (lit "items") .null = .arr results := by
    intro results
    unfold items
    cases getD envelope (lit "message") .null <;> simp
  clear_value items
  split
  · next items results =>
    rw [tame_mapError_iff, exists_collect_iff]
    simp only [exists_crossrefItem_iff]
    refine ⟨fun h message results' hmessage hmembers => ?_, fun h => ?_⟩
    · cases (hitems results').mpr ⟨message, hmessage, hmembers⟩
      exact h
    · obtain ⟨message, hmessage, hmembers⟩ := (hitems results).mp rfl
      exact h message results hmessage hmembers
  · next items hnone =>
    refine ⟨fun _ message results hmessage hmembers => ?_, fun _ => nofun⟩
    exact absurd ((hitems results).mpr ⟨message, hmessage, hmembers⟩) (hnone results)

/-- A call is contained exactly if its request can be encoded and its answer is readable. -/
theorem contained_call_iff {provider : Provider} (htransport : ∀ request, Tame (world.transport request)) :
    world.Contained search provider ↔ search.Encodable provider ∧
      ∀ payload, world.fetch search provider = .ok payload → world.Readable search provider payload := by
  rw [← tame_fetch_iff htransport]
  cases provider with
  | arxiv =>
    refine tame_bind_iff.trans (and_congr_right fun _ => forall_congr' fun payload => imp_congr_right fun _ => ?_)
    simp only [World.Readable]
    cases world.fromstring payload with
    | error e =>
      cases e with
      | parseError => exact ⟨fun _ => ⟨fun _ => nofun, fun _ => nofun⟩, fun _ _ => nofun⟩
      | other exc => exact ⟨fun h => absurd rfl (h exc), fun h => absurd rfl (h.1 exc)⟩
    | ok root =>
      dsimp only
      rw [tame_mapError_iff, exists_arxivItems_iff]
      exact ⟨fun h => ⟨fun _ => nofun, fun root' heq => Except.ok.inj heq ▸ h⟩, fun h => h.2 root rfl⟩
  | openalex =>
    refine tame_bind_iff.trans (and_congr_right fun _ => forall_congr' fun payload => imp_congr_right fun _ => ?_)
    rw [tame_bind_iff, tame_loadJson_iff]
    simp only [tame_searchOpenalex_iff]
    exact ⟨fun h => ⟨h.1, fun envelope results henvelope => h.2 envelope henvelope results⟩,
      fun h => ⟨h.1, fun envelope henvelope results => h.2 envelope results henvelope⟩⟩
  | crossref =>
    refine tame_bind_iff.trans (and_congr_right fun _ => forall_congr' fun payload => imp_congr_right fun _ => ?_)
    rw [tame_bind_iff, tame_loadJson_iff]
    simp only [tame_searchCrossref_iff]
    exact ⟨fun h => ⟨h.1, fun envelope message results henvelope => h.2 envelope henvelope message results⟩,
      fun h => ⟨h.1, fun envelope henvelope message results => h.2 envelope message results henvelope⟩⟩

/-! ## Silencing a provider -/

/-- The world in which the requests to a provider fail. -/
def World.silence (world : World) (provider : Provider) : World :=
  { world with
    transport := fun request =>
      if startsWith (lit provider.endpoint) request.url then .error (.research (lit "research provider request failed"))
      else world.transport request }

/-- A provider's faults stay its own: the run raises nothing but an `ItResearchError`, and it returns if it would
return without one of the providers. -/
structure Isolates (world : World) (search : Search) : Prop where
  contained : ∀ exc, world.runItResearch search ≠ .error (.uncaught exc)
  isolated : ∀ provider, (∃ run, (world.silence provider).runItResearch search = .ok run) →
    ∃ run, world.runItResearch search = .ok run

/-- The endpoints tell the providers apart. -/
theorem startsWith_endpoint (p q : Provider) (rest : Str) :
    startsWith (lit p.endpoint) (lit q.endpoint ++ rest) = decide (p = q) := by
  cases p <;> cases q <;> rfl

/-- Silencing a provider leaves the calls of the others. -/
theorem call_silence_of_ne {p q : Provider} (hne : p ≠ q) : (world.silence p).call search q = world.call search q := by
  have hfetch : (world.silence p).fetch search q = world.fetch search q := by
    unfold World.fetch
    cases urlencode (search.params q) with
    | none => rfl
    | some encoded =>
      change (if _ then _ else _) = _
      rw [startsWith_endpoint, if_neg (by simpa using hne)]
  cases q <;> simp only [World.call, World.searchArxiv, World.searchOpenalex, World.searchCrossref, hfetch] <;> rfl

/-- A silenced provider raises an `ItResearchError`, if its request could be sent at all. -/
theorem call_silence_self {p : Provider} (h : world.Contained search p) :
    ∃ message, (world.silence p).call search p = .error (.research message) := by
  have hfetch : (world.silence p).fetch search p = .error (.research (lit "research provider request failed")) := by
    unfold World.fetch
    cases hencoded : urlencode (search.params p) with
    | none =>
      refine absurd ?_ (h (.value (lit "UnicodeEncodeError")))
      cases p <;>
        simp only [World.call, World.searchArxiv, World.searchOpenalex, World.searchCrossref, World.fetch, hencoded] <;> rfl
    | some encoded =>
      change (if _ then _ else _) = _
      rw [startsWith_endpoint, if_pos (by simp)]
  refine ⟨lit "research provider request failed", ?_⟩
  cases p <;> simp only [World.call, World.searchArxiv, World.searchOpenalex, World.searchCrossref, hfetch] <;> rfl

/-- Silencing a provider leaves the answers of the others and empties its own. -/
theorem answer_silence {p : Provider} (h : world.Contained search p) (q : Provider) :
    ((world.silence p).answer search q).1 = if p = q then [] else (world.answer search q).1 := by
  unfold World.answer
  by_cases hpq : p = q
  · subst hpq
    obtain ⟨message, hcall⟩ := call_silence_self h
    rw [hcall, if_pos rfl]
  · rw [call_silence_of_ne hpq, if_neg hpq]

/-- Silencing a provider contains its call and leaves the calls of the others contained. -/
theorem contained_silence {p : Provider} (h : ∀ provider, world.Contained search provider) (q : Provider) :
    (world.silence p).Contained search q := by
  intro exc
  by_cases hpq : p = q
  · subst hpq
    obtain ⟨message, hcall⟩ := call_silence_self (h p)
    rw [hcall]
    exact nofun
  · rw [call_silence_of_ne hpq]
    exact h q exc

/-- A provider answers with items that the contract accepts and that can be told apart and digested. -/
structure Answers (world : World) (search : Search) (provider : Provider) : Prop where
  nonempty : (world.answer search provider).1 ≠ []
  sound : Sound (world.answer search provider).1
  encodable : ∀ item ∈ (world.answer search provider).1, (utf8 item.abstract).isSome

/-- What keeps the faults of a provider its own. The requests can be sent, and the answers are decoded and mapped
without an exception; every item can be told apart; wherever the other two providers answer for themselves, what a
provider answers is sound; and the abstracts of sound answers of two providers can be digested. -/
structure Orderly (world : World) (search : Search) : Prop where
  encodable : ∀ provider, search.Encodable provider
  readable : ∀ provider payload, world.fetch search provider = .ok payload → world.Readable search provider payload
  identified : ∀ provider, ∀ item ∈ (world.answer search provider).1, item.stable.isSome
  sound : ∀ provider, (∀ other, other ≠ provider → Answers world search other) →
    Sound (world.answer search provider).1
  digestible : (∀ provider, Sound (world.answer search provider).1) →
    (∃ p q, p ≠ q ∧ (world.answer search p).1 ≠ [] ∧ (world.answer search q).1 ≠ []) →
      ∀ provider, ∀ item ∈ (world.answer search provider).1, (utf8 item.abstract).isSome

/-- What holds of the items of each provider holds of the items found, and conversely. -/
theorem forall_found_iff {P : ResearchItem → Prop} :
    (∀ item ∈ world.found search, P item) ↔ ∀ provider, ∀ item ∈ (world.answer search provider).1, P item := by
  simp only [World.found, List.forall_mem_flatMap, World.mem_attempts, true_imp_iff]

/-- Beside each provider there are two others. -/
theorem exists_others (p : Provider) : ∃ q r : Provider, q ≠ p ∧ r ≠ p ∧ q ≠ r := by
  cases p with
  | arxiv => exact ⟨.openalex, .crossref, by decide⟩
  | openalex => exact ⟨.arxiv, .crossref, by decide⟩
  | crossref => exact ⟨.arxiv, .openalex, by decide⟩

/-- A run without a provider returns if the calls are contained and the other two answer for themselves. -/
theorem exists_run_silence {p : Provider} (hcontained : ∀ provider, world.Contained search provider)
    (hidentified : ∀ provider, ∀ item ∈ (world.answer search provider).1, item.stable.isSome)
    (h : ∀ other, other ≠ p → Answers world search other) : ∃ run, (world.silence p).runItResearch search = .ok run := by
  have hanswer := answer_silence (hcontained p)
  have hitems : ∀ {P : ResearchItem → Prop}, (∀ q, q ≠ p → ∀ item ∈ (world.answer search q).1, P item) →
      ∀ item ∈ (world.silence p).found search, P item := by
    intro P hP
    refine forall_found_iff.mpr fun q item hitem => ?_
    rw [hanswer] at hitem
    split at hitem
    · cases hitem
    · next hne => exact hP q (Ne.symm hne) item hitem
  refine World.exists_run_of_returns ⟨contained_silence hcontained, hitems fun q _ => hidentified q,
    reportable_found_iff.mpr ⟨fun q => ?_, ?_⟩, hitems fun q hne => (h q hne).encodable⟩
  · rw [hanswer]
    split
    · exact ⟨fun item hitem => (nomatch hitem), List.nodup_nil⟩
    · next hne => exact (h q (Ne.symm hne)).sound
  · obtain ⟨q, r, hq, hr, hne⟩ := exists_others p
    refine ⟨q, r, hne, ?_, ?_⟩
    · rw [hanswer, if_neg (Ne.symm hq)]
      exact (h q hq).nonempty
    · rw [hanswer, if_neg (Ne.symm hr)]
      exact (h r hr).nonempty

/-- If a run without a provider returns, the other two answer for themselves. -/
theorem answers_of_run_silence {p : Provider} (hcontained : ∀ provider, world.Contained search provider)
    {run : ItResearchRun} (h : (world.silence p).runItResearch search = .ok run) :
    ∀ other, other ≠ p → Answers world search other := by
  have hanswer := answer_silence (hcontained p)
  obtain ⟨returns, -, -⟩ := World.runItResearch_eq_ok h
  obtain ⟨hsound, a, b, hne, ha, hb⟩ := reportable_found_iff.mp returns.reportable
  intro q hq
  have hkept : ((world.silence p).answer search q).1 = (world.answer search q).1 := by
    rw [hanswer, if_neg (Ne.symm hq)]
  refine ⟨?_, hkept ▸ hsound q, fun item hitem => ?_⟩
  · have hpa : a ≠ p := by
      rintro rfl
      rw [hanswer, if_pos rfl] at ha
      exact ha rfl
    have hpb : b ≠ p := by
      rintro rfl
      rw [hanswer, if_pos rfl] at hb
      exact hb rfl
    -- of three providers, two are not the silenced one
    have hq' : q = a ∨ q = b := by
      clear hanswer hsound hkept ha hb
      revert hne hpa hpb hq
      cases p <;> cases q <;> cases a <;> cases b <;> decide
    rw [← hkept]
    rcases hq' with rfl | rfl
    · exact ha
    · exact hb
  · refine forall_found_iff.mp returns.encodable q item ?_
    rw [hkept]
    exact hitem

/-- Over a transport that raises nothing but an `ItResearchError`, the faults of each provider stay its own exactly if
the answers are orderly. -/
theorem isolates_iff_orderly (htransport : ∀ request, Tame (world.transport request)) :
    Isolates world search ↔ Orderly world search := by
  have hcalls : (∀ provider, world.Contained search provider) ↔ (∀ provider, search.Encodable provider) ∧
      ∀ provider payload, world.fetch search provider = .ok payload → world.Readable search provider payload := by
    simp only [contained_call_iff htransport, forall_and]
  constructor
  · rintro ⟨hcontained, hisolated⟩
    obtain ⟨hcontained, hstable, hencodable⟩ := contained_iff.mp hcontained
    obtain ⟨hrequests, hreadable⟩ := hcalls.mp hcontained
    have hidentified := forall_found_iff.mp hstable
    refine ⟨hrequests, hreadable, hidentified, fun p hothers => ?_, fun hsound htwo => ?_⟩
    · obtain ⟨run, hrun⟩ := hisolated p (exists_run_silence hcontained hidentified hothers)
      exact (reportable_found_iff.mp (World.runItResearch_eq_ok hrun).1.reportable).1 p
    · exact forall_found_iff.mp (hencodable (reportable_found_iff.mpr ⟨hsound, htwo⟩))
  · rintro ⟨hrequests, hreadable, hidentified, hsound, hdigestible⟩
    have hcontained := hcalls.mpr ⟨hrequests, hreadable⟩
    refine ⟨contained_iff.mpr ⟨hcontained, forall_found_iff.mpr hidentified, fun h => ?_⟩, fun p hrun => ?_⟩
    · obtain ⟨hsound, htwo⟩ := reportable_found_iff.mp h
      exact forall_found_iff.mpr (hdigestible hsound htwo)
    · obtain ⟨run, hrun⟩ := hrun
      have hothers := answers_of_run_silence hcontained hrun
      have hall : ∀ provider, Sound (world.answer search provider).1 := by
        intro q
        by_cases hq : q = p
        · exact hq ▸ hsound p hothers
        · exact (hothers q hq).sound
      obtain ⟨q, r, hq, hr, hne⟩ := exists_others p
      have htwo : ∃ q r, q ≠ r ∧ (world.answer search q).1 ≠ [] ∧ (world.answer search r).1 ≠ [] :=
        ⟨q, r, hne, (hothers q hq).nonempty, (hothers r hr).nonempty⟩
      exact World.exists_run_of_returns ⟨hcontained, forall_found_iff.mpr hidentified,
        reportable_found_iff.mpr ⟨hall, htwo⟩, forall_found_iff.mpr (hdigestible hall htwo)⟩

/-! ## Concrete runs -/

/-- The transport of the sample worlds raises nothing else. -/
theorem Sample.tame_transport (openalex crossref : List Json) (request : Request) :
    Tame ((Sample.world openalex crossref).transport request) := by
  change Tame (if _ then _ else if _ then _ else _)
  split
  · exact nofun
  · split
    · exact nofun
    · exact nofun

/-- Two plain answers keep their faults exactly if they are orderly. -/
theorem isolates_iff_orderly_plain :
    Isolates (Sample.world [.obj Sample.openalexWork] [.obj Sample.crossrefWork]) Sample.search ↔
      Orderly (Sample.world [.obj Sample.openalexWork] [.obj Sample.crossrefWork]) Sample.search :=
  isolates_iff_orderly (Sample.tame_transport _ _)

/-- A record of OpenAlex whose only author is `null`. -/
def Sample.anonymousWork : Fields :=
  (lit "authorships", .arr [.obj [(lit "author", .null)]]) :: Sample.openalexWork

deriving instance DecidableEq for Failure

/-- A `null` author escapes the run as an `AttributeError`. -/
theorem null_author_uncaught :
    ¬Isolates (Sample.world [.obj Sample.anonymousWork] [.obj Sample.crossrefWork]) Sample.search := by
  have hraises : ((Sample.world [.obj Sample.anonymousWork] [.obj Sample.crossrefWork]).runItResearch Sample.search).map
      (fun _ => ()) = .error (.uncaught (.other (lit "AttributeError"))) := by
    decide +kernel
  intro h
  cases hrun : (Sample.world [.obj Sample.anonymousWork] [.obj Sample.crossrefWork]).runItResearch Sample.search with
  | error failure =>
    rw [hrun] at hraises
    cases hraises
    exact h.contained _ hrun
  | ok run =>
    rw [hrun] at hraises
    cases hraises

end NeuroLab.Research
