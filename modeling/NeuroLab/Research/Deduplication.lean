import NeuroLab.Python.LetterCase
import NeuroLab.Research.Sample

/-!
# Deduplication by DOI

The key of a source is the digest of its DOI as the mapper left it, stripped and folded.
Letter case makes no difference, nor does the search or the lookup a record came by. But
OpenAlex gives a DOI as a URL and Crossref gives it bare, and neither mapper changes
that: records of one publication share a key exactly when they are of one provider, unless
SHA-256 collides.
-/

namespace NeuroLab.Research

open Python

variable {host : Host} {d : Str}

/-! ## Records of a DOI -/

/-- Every DOI starts with the directory indicator 10. -/
def StartsAsDoi (d : Str) : Prop := startsWith (lit "10.") d = true

/-- The same text in some letter case. -/
def SameLetters (s t : Str) : Prop := s.map asciiLower = t.map asciiLower

instance (d : Str) : Decidable (StartsAsDoi d) := inferInstanceAs (Decidable (_ = true))

instance (s t : Str) : Decidable (SameLetters s t) := inferInstanceAs (Decidable (_ = _))

/-- A record of OpenAlex with the DOI as a URL, in some letter case. -/
def OpenalexRecordOf (d : Str) (record : Fields) : Prop :=
  ∃ s, getD record (lit "doi") .null = .str s ∧ SameLetters s (doiPrefix ++ d)

/-- A record of Crossref with the bare DOI, in some letter case. -/
def CrossrefRecordOf (d : Str) (record : Fields) : Prop :=
  ∃ s, getD record (lit "DOI") .null = .str s ∧ SameLetters s d

/-- The items that the mappers make of records of a DOI. -/
inductive MappedFrom (host : Host) (d : Str) : ResearchItem → Prop
  | searchOpenalex {record : Fields} {checkedOn : Str} {item : ResearchItem} : OpenalexRecordOf d record →
      host.openalexItem record checkedOn = .ok (some item) → MappedFrom host d item
  | lookupOpenalexDoi {record : Fields} {doi today : Str} {item : ResearchItem} : OpenalexRecordOf d record →
      host.lookupOpenalexDoi doi record today = .ok item → MappedFrom host d item
  | searchCrossref {record : Fields} {checkedOn : Str} {item : ResearchItem} : CrossrefRecordOf d record →
      host.crossrefItem record checkedOn = .ok (some item) → MappedFrom host d item

/-- The DOI of an item as its provider spells it. -/
def spelling (provider : Provider) (d : Str) : Str := if provider = .openalex then doiPrefix ++ d else d

/-! ## Cleaning -/

/-- Tags are removed from a text and from its lowering in the same places. -/
theorem removeTags_map (skip : ℕ) (s : Str) : removeTags skip (s.map asciiLower) = (removeTags skip s).map asciiLower := by
  induction s generalizing skip with
  | nil => cases skip <;> rfl
  | cons c s ih =>
    cases skip with
    | succ skip => exact ih skip
    | zero =>
      have hopen : (asciiLower c = 0x3C) = (c = 0x3C) := propext (asciiLower_eq_iff rfl)
      have hclose : ∀ c, (decide (asciiLower c ≠ 0x3E)) = decide (c ≠ 0x3E) := fun c =>
        decide_eq_decide.mpr (not_congr (asciiLower_eq_iff rfl))
      have hinner := takeWhile_map_of_iff (f := asciiLower) (p := fun c => decide (c ≠ 0x3E)) hclose s
      simp only [List.map_cons, removeTags, hinner, List.isEmpty_map, List.length_map, hopen]
      split
      · rw [ih, List.map_cons]
        rfl
      · rw [ih, List.map_cons]

/-- A text is cleaned as its lowering is. -/
theorem cleanText_map (s : Str) : cleanText (.str (s.map asciiLower)) [] = (cleanText (.str s) []).map asciiLower := by
  have hclean : (joinSpace (splitSpace (removeTags 0 (s.map asciiLower)))).take 20000 =
      ((joinSpace (splitSpace (removeTags 0 s))).take 20000).map asciiLower := by
    rw [removeTags_map, splitSpace_map isSpace_asciiLower, joinSpace_map rfl, List.map_take]
  simp only [cleanText, hclean, List.isEmpty_map]
  split <;> rfl

/-- Two spellings in different letter case stay so when they are cleaned. -/
theorem SameLetters.cleanText {s t : Str} (h : SameLetters s t) :
    SameLetters (cleanText (.str s) []) (Research.cleanText (.str t) []) := by
  unfold SameLetters at h ⊢
  rw [← cleanText_map, ← cleanText_map, h]

/-- A text that starts with neither a bracket nor a space keeps its first character when it is cleaned. -/
theorem cleanText_cons {c : ℕ} (hbracket : c ≠ 0x3C) (hspace : isSpace c = false) (s : Str) :
    ∃ rest, cleanText (.str (c :: s)) [] = c :: rest := by
  have htags : removeTags 0 (c :: s) = c :: removeTags 0 s := by simp [removeTags, hbracket]
  obtain ⟨word, words, hsplit⟩ := splitSpace_cons hspace (removeTags 0 s)
  obtain ⟨rest, hjoin⟩ := joinSpace_cons c word words
  refine ⟨rest.take 19999, ?_⟩
  simp only [cleanText, htags, hsplit, hjoin, List.take_succ_cons]
  rfl

/-! ## The text a source is told apart by -/

/-- The stable text of a mapped item: its DOI cleaned, stripped and folded. -/
theorem stableText_eq {item : ResearchItem} {doi : Str} (hdoi : item.doi = some doi) (hne : doi ≠ []) :
    host.stableText item = host.folding.casefold (strip isSpace doi) := by
  have hempty : doi.isEmpty = false := by simpa using hne
  simp [Host.stableText, hdoi, hempty]

/-- A spelling starts with the letter or the digit of its provider. -/
theorem exists_spelling_cons (hd : StartsAsDoi d) (provider : Provider) :
    ∃ rest, spelling provider d = (if provider = .openalex then 0x68 else 0x31) :: rest := by
  by_cases hprovider : provider = .openalex
  · rw [spelling, if_pos hprovider, if_pos hprovider]
    exact ⟨_, rfl⟩
  · rw [spelling, if_neg hprovider, if_neg hprovider]
    cases d with
    | nil => cases hd
    | cons c rest =>
      have hc : c = 0x31 := by
        simp only [StartsAsDoi, startsWith, after?, Option.isSome_ite] at hd
        have hprefix := List.isPrefixOf_iff_prefix.mp hd
        obtain ⟨tail, htail⟩ := hprefix
        cases htail
        rfl
      exact ⟨rest, by rw [hc]⟩

/-- The DOI of a mapped item is a spelling of its provider, in some letter case, after cleaning. -/
theorem doi_of_mapped {item : ResearchItem} (h : MappedFrom host d item) :
    (item.provider = .openalex ∨ item.provider = .crossref) ∧
      ∃ s, SameLetters s (spelling item.provider d) ∧
        (cleanText (.str s) [] ≠ [] → item.doi = some (cleanText (.str s) [])) := by
  have openalex {record : Fields} {checkedOn : Str} {item : ResearchItem} (hrecord : OpenalexRecordOf d record)
      (hitem : host.openalexItem record checkedOn = .ok (some item)) :
      (item.provider = .openalex ∨ item.provider = .crossref) ∧
        ∃ s, SameLetters s (spelling item.provider d) ∧
          (cleanText (.str s) [] ≠ [] → item.doi = some (cleanText (.str s) [])) := by
    obtain ⟨s, hs, hletters⟩ := hrecord
    obtain ⟨hprovider, hdoi⟩ := openalexItem_eq_ok hitem
    rw [hs] at hdoi
    rw [hprovider]
    exact ⟨Or.inl rfl, s, hletters, fun hne => hdoi.trans (if_neg (by simpa using hne))⟩
  cases h with
  | searchOpenalex hrecord hitem => exact openalex hrecord hitem
  | lookupOpenalexDoi hrecord hitem => exact openalex hrecord (lookupOpenalexDoi_eq_ok hitem)
  | searchCrossref hrecord hitem =>
    obtain ⟨s, hs, hletters⟩ := hrecord
    obtain ⟨hprovider, hdoi⟩ := crossrefItem_eq_ok hitem
    rw [hs] at hdoi
    rw [hprovider]
    exact ⟨Or.inr rfl, s, hletters, fun _ => hdoi⟩

/-- The stable text of a mapped item comes from a spelling, and starts as the spelling does. -/
theorem stableText_of_mapped {item : ResearchItem} (hd : StartsAsDoi d) (h : MappedFrom host d item) :
    (∃ s, SameLetters s (spelling item.provider d) ∧
      host.stableText item = host.folding.casefold (strip isSpace (cleanText (.str s) []))) ∧
      ∃ rest, host.stableText item = (if item.provider = .openalex then 0x68 else 0x31) :: rest := by
  obtain ⟨-, s, hletters, hdoi⟩ := doi_of_mapped h
  obtain ⟨tail, hspelling⟩ := exists_spelling_cons hd item.provider
  generalize hfirst : (if item.provider = .openalex then 0x68 else 0x31 : ℕ) = first at hspelling ⊢
  have hcases : first = 0x68 ∨ first = 0x31 := by
    rw [← hfirst]
    split <;> simp
  have hlowered : s.map asciiLower = asciiLower first :: tail.map asciiLower := by
    rw [hletters, hspelling, List.map_cons]
  cases s with
  | nil => cases hlowered
  | cons c rest =>
    have hc : asciiLower c = first := by
      rw [List.map_cons, List.cons.injEq] at hlowered
      rcases hcases with rfl | rfl
      · exact hlowered.1
      · exact hlowered.1
    have hbracket : c ≠ 0x3C := by
      rintro rfl
      rcases hcases with rfl | rfl
      · cases hc
      · cases hc
    have hspace : isSpace c = false := by
      rw [← isSpace_asciiLower, hc]
      rcases hcases with rfl | rfl <;> rfl
    have hascii : c < 0x80 := by
      unfold asciiLower at hc
      split at hc
      · omega
      · rcases hcases with rfl | rfl <;> omega
    obtain ⟨cleaned, hcleaned⟩ := cleanText_cons hbracket hspace rest
    have hne : cleanText (.str (c :: rest)) [] ≠ [] := by
      rw [hcleaned]
      exact List.cons_ne_nil _ _
    have hstable : host.stableText item = _ := stableText_eq (hdoi hne) hne
    refine ⟨⟨c :: rest, hletters, hstable⟩, ?_⟩
    obtain ⟨stripped, hstripped⟩ := strip_cons hspace cleaned
    rw [hstable, hcleaned, hstripped, CaseFolding.casefold, List.flatMap_cons, host.folding.fold_ascii c hascii, hc]
    exact ⟨_, rfl⟩

/-- Items of one provider have one stable text. -/
theorem stableText_congr {item₁ item₂ : ResearchItem} (hd : StartsAsDoi d) (h₁ : MappedFrom host d item₁)
    (h₂ : MappedFrom host d item₂) (hprovider : item₁.provider = item₂.provider) :
    host.stableText item₁ = host.stableText item₂ := by
  obtain ⟨⟨s, hs, hstable₁⟩, -⟩ := stableText_of_mapped hd h₁
  obtain ⟨⟨t, ht, hstable₂⟩, -⟩ := stableText_of_mapped hd h₂
  have hletters : SameLetters s t := by
    rw [hprovider] at hs
    exact hs.trans ht.symm
  have hclean : (cleanText (.str s) []).map asciiLower = (cleanText (.str t) []).map asciiLower := hletters.cleanText
  rw [hstable₁, hstable₂]
  refine host.folding.casefold_congr ?_
  rw [← strip_map isSpace_asciiLower, ← strip_map isSpace_asciiLower, hclean]

/-! ## Keys -/

/-- Two items have one key. -/
def SharesKey (host : Host) (item₁ item₂ : ResearchItem) : Prop :=
  ∃ key, host.canonicalSourceKey item₁ = some key ∧ host.canonicalSourceKey item₂ = some key

/-- Two texts that are encoded differently have one digest. -/
def Collide (s t : Str) : Prop := ∃ m n, utf8 s = some m ∧ utf8 t = some n ∧ m ≠ n ∧ sha256 m = sha256 n

/-- One key is one encoding, or a collision. -/
theorem sharesKey_iff (item₁ item₂ : ResearchItem) :
    SharesKey host item₁ item₂ ↔
      (∃ m, utf8 (host.stableText item₁) = some m ∧ utf8 (host.stableText item₂) = some m) ∨
        Collide (host.stableText item₁) (host.stableText item₂) := by
  constructor
  · rintro ⟨key, h₁, h₂⟩
    obtain ⟨m, hm, hm'⟩ := Option.map_eq_some_iff.mp h₁
    obtain ⟨n, hn, hn'⟩ := Option.map_eq_some_iff.mp h₂
    by_cases hsame : m = n
    · exact Or.inl ⟨m, hm, hsame ▸ hn⟩
    · exact Or.inr ⟨m, n, hm, hn, hsame, hm'.trans hn'.symm⟩
  · rintro (⟨m, hm, hm'⟩ | ⟨m, n, hm, hn, -, hdigest⟩)
    · exact ⟨sha256 m, Option.map_eq_some_iff.mpr ⟨m, hm, rfl⟩, Option.map_eq_some_iff.mpr ⟨m, hm', rfl⟩⟩
    · exact ⟨sha256 m, Option.map_eq_some_iff.mpr ⟨m, hm, rfl⟩, Option.map_eq_some_iff.mpr ⟨n, hn, hdigest.symm⟩⟩

/-- Two assessments are counted once exactly if they have one key. -/
theorem uniqueSourceCount_pair (a₁ a₂ : SourceAssessment) (policy : CoveragePolicy) :
    (evaluateCoverage [a₁, a₂] policy).uniqueSourceCount = 1 ↔ a₁.sourceKey = a₂.sourceKey := by
  have hfirst : remember [] a₁ = [a₁] := rfl
  change (deduplicated [a₁, a₂]).length = 1 ↔ _
  rw [deduplicated, List.foldl_cons, List.foldl_cons, List.foldl_nil, hfirst]
  by_cases hkey : a₁.sourceKey = a₂.sourceKey
  · have hfound : [a₁].find? (fun previous => decide (previous.sourceKey = a₂.sourceKey)) = some a₁ := by simp [hkey]
    simp only [remember, hfound]
    split <;> simp [hkey]
  · have hfound : [a₁].find? (fun previous => decide (previous.sourceKey = a₂.sourceKey)) = none := by simp [hkey]
    simp [remember, hfound, hkey]

/-- Two items made of records of one DOI have one key, and are counted once, exactly if they are of one
provider and their text can be encoded, or SHA-256 collides on two texts. -/
theorem same_key_iff_same_provider {item₁ item₂ : ResearchItem} (hd : StartsAsDoi d) (h₁ : MappedFrom host d item₁)
    (h₂ : MappedFrom host d item₂) :
    (SharesKey host item₁ item₂ ↔
      (item₁.provider = item₂.provider ∧ (utf8 (host.stableText item₁)).isSome = true) ∨
        Collide (host.stableText item₁) (host.stableText item₂)) ∧
    ∀ a₁ a₂ policy, host.classifyItem item₁ = some a₁ → host.classifyItem item₂ = some a₂ →
      ((evaluateCoverage [a₁, a₂] policy).uniqueSourceCount = 1 ↔ SharesKey host item₁ item₂) := by
  constructor
  · rw [sharesKey_iff]
    refine or_congr_left ⟨?_, ?_⟩
    · rintro ⟨m, hm₁, hm₂⟩
      refine ⟨?_, by rw [hm₁]; rfl⟩
      -- the encodings of the two spellings start with different bytes
      obtain ⟨-, rest₁, htext₁⟩ := stableText_of_mapped hd h₁
      obtain ⟨-, rest₂, htext₂⟩ := stableText_of_mapped hd h₂
      rw [htext₁] at hm₁
      rw [htext₂] at hm₂
      rcases (doi_of_mapped h₁).1 with hprovider₁ | hprovider₁ <;>
        rcases (doi_of_mapped h₂).1 with hprovider₂ | hprovider₂
      · rw [hprovider₁, hprovider₂]
      · rw [hprovider₁] at hm₁
        rw [hprovider₂] at hm₂
        obtain ⟨_, hbytes₁⟩ := utf8_cons (by decide) hm₁
        obtain ⟨_, hbytes₂⟩ := utf8_cons (by decide) hm₂
        cases hbytes₁.symm.trans hbytes₂
      · rw [hprovider₁] at hm₁
        rw [hprovider₂] at hm₂
        obtain ⟨_, hbytes₁⟩ := utf8_cons (by decide) hm₁
        obtain ⟨_, hbytes₂⟩ := utf8_cons (by decide) hm₂
        cases hbytes₁.symm.trans hbytes₂
      · rw [hprovider₁, hprovider₂]
    · rintro ⟨hprovider, hencoded⟩
      obtain ⟨m, hm⟩ := Option.isSome_iff_exists.mp hencoded
      exact ⟨m, hm, stableText_congr hd h₁ h₂ hprovider ▸ hm⟩
  · intro a₁ a₂ policy ha₁ ha₂
    have hkey₁ := (classifyItem_eq_some ha₁).2.1
    have hkey₂ := (classifyItem_eq_some ha₂).2.1
    rw [uniqueSourceCount_pair]
    constructor
    · intro hkey
      exact ⟨a₁.sourceKey, hkey₁, hkey₂.trans (congrArg some hkey.symm)⟩
    · rintro ⟨key, h₁, h₂⟩
      exact Option.some.inj (hkey₁.symm.trans (h₁.trans (h₂.symm.trans hkey₂)))

/-! ## A publication counted twice -/

/-- A DOI. -/
def Sample.doi : Str := lit "10.1000/agent-memory"

/-- Its record at OpenAlex. -/
def Sample.openalexRecord : Fields :=
  [(lit "id", .str (lit "https://openalex.org/W1")), (lit "title", .str (lit "Agent memory")),
    (lit "doi", .str (doiPrefix ++ Sample.doi))]

/-- Its record at Crossref. -/
def Sample.crossrefRecord : Fields :=
  [(lit "DOI", .str (lit "10.1000/Agent-Memory")), (lit "title", .arr [.str (lit "Agent memory")])]

/-- The items of the two records. -/
theorem Sample.exists_mapped :
    ∃ item₁ item₂, MappedFrom Sample.site.host Sample.doi item₁ ∧ MappedFrom Sample.site.host Sample.doi item₂ ∧
      Sample.site.host.canonicalSourceKey item₁ ≠ Sample.site.host.canonicalSourceKey item₂ := by
  have hmapped : ∀ {x : Except PyExc (Option ResearchItem)} {item : ResearchItem}, x.toOption.join = some item →
      x = .ok (some item) := by
    rintro (exc | _ | item') item h <;> cases h
    rfl
  have htest : ((Sample.site.host.openalexItem Sample.openalexRecord (lit "2024-01-03")).toOption.join.bind fun item₁ =>
      (Sample.site.host.crossrefItem Sample.crossrefRecord (lit "2024-01-03")).toOption.join.map fun item₂ =>
        decide (Sample.site.host.canonicalSourceKey item₁ ≠ Sample.site.host.canonicalSourceKey item₂)) = some true := by
    decide +kernel
  obtain ⟨item₁, hitem₁, htest⟩ := Option.bind_eq_some_iff.mp htest
  obtain ⟨item₂, hitem₂, htest⟩ := Option.map_eq_some_iff.mp htest
  exact ⟨item₁, item₂, .searchOpenalex ⟨_, rfl, rfl⟩ (hmapped hitem₁),
    .searchCrossref ⟨_, rfl, by decide +kernel⟩ (hmapped hitem₂), of_decide_eq_true htest⟩

/-- The law at the two records. -/
theorem same_key_iff_same_provider_mapped :
    ∃ item₁ item₂, MappedFrom Sample.site.host Sample.doi item₁ ∧ MappedFrom Sample.site.host Sample.doi item₂ ∧
      ((SharesKey Sample.site.host item₁ item₂ ↔
          (item₁.provider = item₂.provider ∧ (utf8 (Sample.site.host.stableText item₁)).isSome = true) ∨
            Collide (Sample.site.host.stableText item₁) (Sample.site.host.stableText item₂)) ∧
        ∀ a₁ a₂ policy, Sample.site.host.classifyItem item₁ = some a₁ → Sample.site.host.classifyItem item₂ = some a₂ →
          ((evaluateCoverage [a₁, a₂] policy).uniqueSourceCount = 1 ↔ SharesKey Sample.site.host item₁ item₂)) := by
  obtain ⟨item₁, item₂, h₁, h₂, -⟩ := Sample.exists_mapped
  exact ⟨item₁, item₂, h₁, h₂, same_key_iff_same_provider (by decide +kernel) h₁ h₂⟩

/-- The two records of one DOI are mapped to items with different keys. -/
theorem publication_counted_twice :
    ∃ item₁ item₂, MappedFrom Sample.site.host Sample.doi item₁ ∧ MappedFrom Sample.site.host Sample.doi item₂ ∧
      ¬SharesKey Sample.site.host item₁ item₂ := by
  obtain ⟨item₁, item₂, h₁, h₂, hkeys⟩ := Sample.exists_mapped
  refine ⟨item₁, item₂, h₁, h₂, ?_⟩
  rintro ⟨key, hkey₁, hkey₂⟩
  exact hkeys (hkey₁.trans hkey₂.symm)

end NeuroLab.Research
