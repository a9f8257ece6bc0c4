import NeuroLab.Python.JsonRoundTrip
import NeuroLab.Python.Words
import NeuroLab.Research.Discovery

/-!
# What the mappers leave

A cleaned text starts with no space and knows one kind of space only. A date is the day of
the check, or of digits of some script, dashes and signs.
-/

namespace NeuroLab.Research

open Python Postgres

/-! ## Cleaned texts -/

/-- A text without other spaces than plain ones, and without a space in front. -/
structure Cleaned (s : Str) : Prop where
  plain : ∀ c ∈ s, isSpace c = true → c = 0x20
  head : ∀ c t, s = c :: t → isSpace c = false

/-- A cleaned text, unless it is the fallback. -/
theorem cleaned_cleanText (value : Json) : Cleaned (cleanText value []) := by
  have hnil : Cleaned [] := ⟨fun c hc => (nomatch hc), fun c t h => (nomatch h)⟩
  cases value with
  | str s =>
    have hwords : ∀ word ∈ splitSpace (removeTags 0 s), IsWord word := fun word hword => .of_mem_splitSpace hword
    change Cleaned (if _ then _ else _)
    split
    · exact hnil
    · generalize splitSpace (removeTags 0 s) = words at hwords
      constructor
      · intro c hc hspace
        rcases mem_joinSpace (List.mem_of_mem_take hc) with h | ⟨word, hword, hmem⟩
        · exact h
        · rw [(hwords word hword).plain c hmem] at hspace
          cases hspace
      · intro c t h
        cases words with
        | nil => cases h
        | cons word words =>
          obtain ⟨hne, hword⟩ := hwords word List.mem_cons_self
          obtain ⟨d, word, rfl⟩ := List.exists_cons_of_ne_nil hne
          obtain ⟨rest, hjoin⟩ := joinSpace_cons d word words
          rw [hjoin, List.take_succ_cons] at h
          cases h
          exact hword _ List.mem_cons_self
  | _ => exact hnil

/-- A cleaned text is at most so long. -/
theorem length_cleanText_le (value : Json) : (cleanText value []).length ≤ 20000 := by
  cases value with
  | str s =>
    change List.length (if _ then _ else _) ≤ _
    split
    · exact Nat.zero_le _
    · exact List.length_take_le _ _
  | _ => exact Nat.zero_le _

/-- A cleaned text is one line. -/
theorem Cleaned.isInline {s : Str} (h : Cleaned s) : s.all isInline = true := by
  refine List.all_eq_true.mpr fun c hc => ?_
  have hplain := h.plain c hc
  simp only [Python.isInline, ne_eq, Bool.and_eq_true, decide_eq_true_eq]
  constructor
  · rintro rfl
    exact absurd (hplain rfl) (by decide)
  · rintro rfl
    exact absurd (hplain rfl) (by decide)

/-- A cleaned text that is not empty is not blank. -/
theorem Cleaned.isEmpty_strip {s : Str} (h : Cleaned s) (hne : s ≠ []) : (strip isSpace s).isEmpty = false := by
  obtain ⟨c, t, rfl⟩ := List.exists_cons_of_ne_nil hne
  obtain ⟨rest, hstrip⟩ := strip_cons (h.head c t rfl) t
  rw [hstrip]
  rfl

/-- A cleaned text is its stripping with plain spaces behind. -/
theorem Cleaned.eq_strip {s : Str} (h : Cleaned s) : ∃ n, s = strip isSpace s ++ List.replicate n 0x20 := by
  have hfront : s.dropWhile isSpace = s := by
    cases s with
    | nil => rfl
    | cons c t => exact List.dropWhile_cons_of_neg (by simp [h.head c t rfl])
  refine ⟨(s.reverse.takeWhile isSpace).length, ?_⟩
  have hspaces : s.reverse.takeWhile isSpace = List.replicate (s.reverse.takeWhile isSpace).length 0x20 := by
    refine List.eq_replicate_length.mpr fun c hc => ?_
    exact h.plain c (List.mem_reverse.mp ((List.takeWhile_prefix _).subset hc)) (List.mem_takeWhile_imp hc)
  have hsplit := congrArg List.reverse (List.takeWhile_append_dropWhile (p := isSpace) (l := s.reverse))
  rw [List.reverse_append, List.reverse_reverse] at hsplit
  rw [strip, hfront]
  conv_lhs => rw [← hsplit, hspaces, List.reverse_replicate]

/-! ## Dates -/

/-- The day of the check, or a text of the form of a date. -/
structure DateShaped (s : Str) : Prop where
  dash : 0x2D ∈ s
  week : 0x57 ∉ s

/-- What matches the pattern of a date has its form. -/
theorem DateShaped.of_isDateLike {s : Str} (h : isDateLike s = true) : DateShaped s := by
  unfold isDateLike at h
  split at h
  · refine ⟨by simp, fun hweek => ?_⟩
    have hdecimal := List.all_eq_true.mp h 0x57
    have hletter : isDecimal 0x57 = false := by decide
    simp only [List.mem_cons, List.not_mem_nil, or_false, hletter, Bool.false_eq_true, imp_false] at hweek hdecimal
    simp only [not_or] at hdecimal
    obtain ⟨ha, hb, hc, hd, he, hf, hg, hh⟩ := hdecimal
    rcases hweek with h | h | h | h | h | h | h | h | h | h
    · exact ha h
    · exact hb h
    · exact hc h
    · exact hd h
    · cases h
    · exact he h
    · exact hf h
    · cases h
    · exact hg h
    · exact hh h
  · cases h

/-- A date is the day of the check or has the form of one. -/
theorem date_cases (value : Json) (checkedOn : Str) : date value checkedOn = checkedOn ∨ DateShaped (date value checkedOn) := by
  unfold date
  extract_lets text
  by_cases h : isDateLike text = true
  · rw [if_pos h]
    exact Or.inr (.of_isDateLike h)
  · rw [if_neg h]
    exact Or.inl rfl

/-- A padded number has no letter. -/
theorem week_not_mem_zeroPadded (width : ℕ) (n : ℤ) : 0x57 ∉ zeroPadded width n := by
  have hdecimal : ∀ n, 0x57 ∉ decimal n := fun n h => absurd (isDigit_of_mem_decimal h) (by decide)
  cases n <;> simp [zeroPadded, hdecimal, List.mem_replicate]

/-- So is a date of Crossref. -/
theorem crossrefDate_cases (published : Json) (checkedOn : Str) :
    crossrefDate published checkedOn = checkedOn ∨ DateShaped (crossrefDate published checkedOn) := by
  have hshaped : ∀ y m d : ℤ, DateShaped (zeroPadded 4 y ++ 0x2D :: zeroPadded 2 m ++ 0x2D :: zeroPadded 2 d) := by
    intro y m d
    constructor
    · simp
    · simp [week_not_mem_zeroPadded]
  unfold crossrefDate
  split
  · split
    · split
      · exact Or.inr (hshaped _ _ _)
      · exact Or.inl rfl
    · exact Or.inl rfl
  · exact Or.inl rfl

/-! ## Items -/

/-- The DOI of an item, if any, is a cleaned text. -/
def ResearchItem.HasCleanDoi (item : ResearchItem) : Prop := ∀ doi, item.doi = some doi → Cleaned doi

/-- What every mapper makes of a record. -/
structure Normalised (world : World) (item : ResearchItem) : Prop where
  title : Cleaned item.title ∧ item.title ≠ []
  checkedOn : item.checkedOn = (world.today item.provider).text
  publishedOn : item.publishedOn = item.checkedOn ∨ DateShaped item.publishedOn
  abstract : item.abstract.length ≤ 20000
  limitations : item.limitations ≠ []
  doi : item.HasCleanDoi

/-- An item of OpenAlex is normalised. -/
theorem openalexItem_normalised {world : World} {record : Fields} {item : ResearchItem}
    (h : world.host.openalexItem record (world.today .openalex).text = .ok (some item)) : Normalised world item := by
  unfold Host.openalexItem at h
  extract_lets providerId title at h
  split at h
  · cases h
  next hnamed =>
  simp only [Bool.or_eq_true, not_or, Bool.not_eq_true] at hnamed
  obtain ⟨_, -, h⟩ := bind_eq_ok_iff.mp h
  obtain ⟨_, -, h⟩ := bind_eq_ok_iff.mp h
  obtain ⟨_, -, h⟩ := bind_eq_ok_iff.mp h
  cases h
  refine ⟨⟨cleaned_cleanText _, by simpa using hnamed.2⟩, rfl, date_cases _ _, Nat.zero_le _, nofun, fun doi hdoi => ?_⟩
  dsimp only at hdoi
  split at hdoi
  · cases hdoi
  · rw [← Option.some.inj hdoi]
    exact cleaned_cleanText _

/-- An item of Crossref is normalised. -/
theorem crossrefItem_normalised {world : World} {record : Fields} {item : ResearchItem}
    (h : world.host.crossrefItem record (world.today .crossref).text = .ok (some item)) : Normalised world item := by
  unfold Host.crossrefItem at h
  extract_lets doi title at h
  split at h
  · cases h
  next hnamed =>
  simp only [Bool.or_eq_true, not_or, Bool.not_eq_true] at hnamed
  obtain ⟨_, -, h⟩ := bind_eq_ok_iff.mp h
  cases h
  refine ⟨⟨?_, by simpa using hnamed.2⟩, rfl, crossrefDate_cases _ _, length_cleanText_le _, nofun, fun doi' hdoi => ?_⟩
  · change Cleaned title
    unfold title
    split
    · exact cleaned_cleanText _
    · exact ⟨fun c hc => (nomatch hc), fun c t h => (nomatch h)⟩
  · rw [← Option.some.inj hdoi]
    exact cleaned_cleanText _

/-- An item of arXiv is normalised. -/
theorem arxivItem_normalised {world : World} {entry : Element} {item : ResearchItem}
    (h : world.arxivItem entry (world.today .arxiv).text = .ok (some item)) : Normalised world item := by
  unfold World.arxivItem at h
  extract_lets identifier title at h
  split at h
  · cases h
  next hnamed =>
  simp only [Bool.or_eq_true, not_or, Bool.not_eq_true] at hnamed
  obtain ⟨_, -, h⟩ := bind_eq_ok_iff.mp h
  cases h
  exact ⟨⟨cleaned_cleanText _, by simpa using hnamed.2⟩, rfl, date_cases _ _, length_cleanText_le _, nofun, nofun⟩

/-- Every mapped item is normalised. -/
theorem World.Mapped.normalised {world : World} {item : ResearchItem} (h : World.Mapped world item) :
    Normalised world item := by
  cases h with
  | arxiv h => exact arxivItem_normalised h
  | openalex h => exact openalexItem_normalised h
  | crossref h => exact crossrefItem_normalised h

end NeuroLab.Research
