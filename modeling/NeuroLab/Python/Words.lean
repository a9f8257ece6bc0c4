import NeuroLab.Python.LetterCase

/-!
# Words of a text

What stands between the spaces of a text. The words are the maximal runs of other characters,
joining words and splitting the result gives them back, and cutting a text shortens at most
its last word.
-/

namespace NeuroLab.Python

/-! ## Splitting -/

/-- A word holds no space. -/
theorem isSpace_of_mem_splitOnP {s word : Str} (hword : word ∈ s.splitOnP isSpace) : ∀ c ∈ word, isSpace c = false := by
  induction s generalizing word with
  | nil =>
    rw [List.splitOnP_nil, List.mem_singleton] at hword
    rw [hword]
    exact fun c hc => nomatch hc
  | cons d s ih =>
    rw [List.splitOnP_cons_eq_if_modifyHead] at hword
    split at hword
    · rcases List.mem_cons.mp hword with rfl | hword
      · exact fun c hc => nomatch hc
      · exact ih hword
    · next hd =>
      cases hrest : s.splitOnP isSpace with
      | nil => exact absurd hrest (List.splitOnP_ne_nil _ _)
      | cons first rest =>
        rw [hrest, List.modifyHead_cons] at hword
        rcases List.mem_cons.mp hword with rfl | hword
        · intro c hc
          rcases List.mem_cons.mp hc with rfl | hc
          · simpa using hd
          · exact ih (hrest ▸ List.mem_cons_self) c hc
        · exact ih (hrest ▸ List.mem_cons_of_mem _ hword)

/-- A text that is not empty and holds no space. -/
structure IsWord (word : Str) : Prop where
  ne_nil : word ≠ []
  plain : ∀ c ∈ word, isSpace c = false

theorem IsWord.of_mem_splitSpace {s word : Str} (h : word ∈ splitSpace s) : IsWord word := by
  obtain ⟨hword, hne⟩ := List.mem_filter.mp h
  exact ⟨by simpa using hne, isSpace_of_mem_splitOnP hword⟩

/-- A word has one word. -/
theorem IsWord.splitSpace {word : Str} (h : IsWord word) : splitSpace word = [word] := by
  rw [Python.splitSpace, List.splitOnP_eq_singleton h.plain]
  simp [h.ne_nil]

/-- A space ends a word. -/
theorem splitSpace_append_cons {c : ℕ} (hc : isSpace c = true) (s t : Str) :
    splitSpace (s ++ c :: t) = splitSpace s ++ splitSpace t := by
  rw [splitSpace, List.splitOnP_append_cons _ _ hc, List.filter_append]
  rfl

theorem splitSpace_space_cons {c : ℕ} (hc : isSpace c = true) (s : Str) : splitSpace (c :: s) = splitSpace s :=
  splitSpace_append_cons hc [] s

/-- A character and a space behind it are a word. -/
theorem splitSpace_cons_space {c d : ℕ} (hc : isSpace c = false) (hd : isSpace d = true) (s : Str) :
    splitSpace (c :: d :: s) = [c] :: splitSpace s := by
  have hword : IsWord [c] := ⟨List.cons_ne_nil _ _, fun e he => List.mem_singleton.mp he ▸ hc⟩
  have hsplit := splitSpace_append_cons hd [c] s
  rw [hword.splitSpace] at hsplit
  exact hsplit

/-- A character in front of a word lengthens it. -/
theorem splitSpace_cons_cons {c d : ℕ} (hc : isSpace c = false) (hd : isSpace d = false) (s : Str) :
    ∃ word words, splitSpace (d :: s) = (d :: word) :: words ∧ splitSpace (c :: d :: s) = (c :: d :: word) :: words := by
  obtain ⟨word, words, h⟩ := splitSpace_cons hd s
  refine ⟨word, words, h, ?_⟩
  unfold splitSpace at h ⊢
  rw [List.splitOnP_cons_eq_if_modifyHead, if_neg (by simp [hc])]
  rw [List.splitOnP_cons_eq_if_modifyHead, if_neg (by simp [hd])] at h ⊢
  cases hrest : s.splitOnP isSpace with
  | nil => exact absurd hrest (List.splitOnP_ne_nil _ _)
  | cons first rest =>
    rw [hrest] at h
    simpa using h

/-! ## Joining -/

theorem joinSpace_cons_cons (word next : Str) (words : List Str) :
    joinSpace (word :: next :: words) = word ++ 0x20 :: joinSpace (next :: words) := by
  simp [joinSpace]

/-- Joined words hold no other spaces than those between them. -/
theorem mem_joinSpace {words : List Str} {c : ℕ} (h : c ∈ joinSpace words) : c = 0x20 ∨ ∃ word ∈ words, c ∈ word := by
  induction words with
  | nil => cases h
  | cons word words ih =>
    cases words with
    | nil =>
      rw [joinSpace_singleton] at h
      exact Or.inr ⟨word, List.mem_singleton_self _, h⟩
    | cons next words =>
      rw [joinSpace_cons_cons, List.mem_append, List.mem_cons] at h
      rcases h with h | h | h
      · exact Or.inr ⟨word, List.mem_cons_self, h⟩
      · exact Or.inl h
      · rcases ih h with h | ⟨word', hword', h⟩
        · exact Or.inl h
        · exact Or.inr ⟨word', List.mem_cons_of_mem _ hword', h⟩

/-- Splitting joined words gives nothing but the words. -/
theorem splitOnP_joinSpace {words : List Str} (h : ∀ word ∈ words, IsWord word) (hne : words ≠ []) :
    (joinSpace words).splitOnP isSpace = words := by
  induction words with
  | nil => exact absurd rfl hne
  | cons word words ih =>
    have hword := (h word List.mem_cons_self).plain
    cases words with
    | nil => rw [joinSpace_singleton, List.splitOnP_eq_singleton hword]
    | cons next words =>
      rw [joinSpace_cons_cons, List.splitOnP_append_cons _ _ (by decide : isSpace 0x20 = true),
        List.splitOnP_eq_singleton hword,
        ih (fun word' hword' => h word' (List.mem_cons_of_mem _ hword')) (List.cons_ne_nil _ _)]
      rfl

/-- The words of joined texts are those of each of them. -/
theorem splitSpace_joinSpace_eq_flatMap (texts : List Str) : splitSpace (joinSpace texts) = texts.flatMap splitSpace := by
  induction texts with
  | nil => rfl
  | cons s texts ih =>
    cases texts with
    | nil => rw [joinSpace_singleton, List.flatMap_singleton]
    | cons t texts =>
      rw [joinSpace_cons_cons, splitSpace_append_cons (by decide : isSpace 0x20 = true), ih]
      rfl

/-- Joining and splitting gives the words back. -/
theorem splitSpace_joinSpace {words : List Str} (h : ∀ word ∈ words, IsWord word) : splitSpace (joinSpace words) = words := by
  rw [splitSpace_joinSpace_eq_flatMap, List.flatMap_congr fun word hword => (h word hword).splitSpace]
  exact List.flatMap_singleton' words

/-- Joined words do not start with a space, and no two spaces in them are adjacent. -/
theorem joinSpace_single {words : List Str} (h : ∀ word ∈ words, IsWord word) {before after : Str} {c : ℕ}
    (htext : joinSpace words = before ++ c :: after) (hc : isSpace c = true) :
    before ≠ [] ∧ ∀ d rest, after = d :: rest → isSpace d = false := by
  have hne : words ≠ [] := by
    rintro rfl
    simp [joinSpace] at htext
  have hsplit := splitOnP_joinSpace h hne
  rw [htext, List.splitOnP_append_cons _ _ hc] at hsplit
  have hnil : [] ∉ words := fun hmem => (h [] hmem).ne_nil rfl
  constructor
  · rintro rfl
    rw [← hsplit] at hnil
    simp at hnil
  · rintro d rest rfl
    by_contra hd
    rw [Bool.not_eq_false] at hd
    rw [← hsplit, List.splitOnP_cons_eq_if_modifyHead, if_pos hd] at hnil
    simp at hnil

/-! ## Maximal runs -/

/-- A word that no character around it lengthens. -/
structure RunAt (before word after : Str) : Prop where
  isWord : IsWord word
  before : ∀ s c, before = s ++ [c] → isSpace c = true
  after : ∀ c s, after = c :: s → isSpace c = true

/-- A maximal run of other characters than spaces. -/
def IsRun (word s : Str) : Prop := ∃ before after, s = before ++ word ++ after ∧ RunAt before word after

theorem RunAt.mem_splitSpace {before word after : Str} (h : RunAt before word after) :
    word ∈ splitSpace (before ++ word ++ after) := by
  have hfront : word ∈ splitSpace (before ++ word) := by
    rcases List.eq_nil_or_concat before with rfl | ⟨s, c, rfl⟩
    · rw [List.nil_append, h.isWord.splitSpace]
      exact List.mem_singleton_self _
    · rw [List.concat_eq_append] at h ⊢
      rw [List.append_assoc, List.singleton_append, splitSpace_append_cons (h.before s c rfl), h.isWord.splitSpace]
      exact List.mem_append_right _ (List.mem_singleton_self _)
  cases after with
  | nil => rwa [List.append_nil]
  | cons c s =>
    rw [splitSpace_append_cons (h.after c s rfl)]
    exact List.mem_append_left _ hfront

/-- A run behind a space is one of the whole text. -/
theorem IsRun.append_cons {word s : Str} {c : ℕ} (h : IsRun word s) (hc : isSpace c = true) (front : Str) :
    IsRun word (front ++ c :: s) := by
  obtain ⟨before, after, rfl, hrun⟩ := h
  refine ⟨front ++ c :: before, after, by simp, hrun.isWord, fun s d hs => ?_, hrun.after⟩
  rcases List.eq_nil_or_concat before with rfl | ⟨t, e, rfl⟩
  · obtain ⟨-, hd⟩ := List.append_inj' hs rfl
    cases hd
    exact hc
  · rw [List.concat_eq_append, ← List.cons_append, ← List.append_assoc] at hs
    obtain ⟨-, hd⟩ := List.append_inj' hs rfl
    cases hd
    exact hrun.before t _ List.concat_eq_append

/-- The words of a text are its maximal runs. -/
theorem isRun_iff {word s : Str} : IsRun word s ↔ word ∈ splitSpace s := by
  constructor
  · rintro ⟨before, after, rfl, h⟩
    exact h.mem_splitSpace
  · intro h
    -- the text is read word by word, up to the space behind the first one
    induction hlength : s.length using Nat.strong_induction_on generalizing s with
    | _ n ih =>
    have hfirst : ∀ first rest : Str, word ∈ splitSpace first → (∀ c ∈ first, isSpace c = false) →
        (∀ c t, rest = c :: t → isSpace c = true) → IsRun word (first ++ rest) := by
      intro first rest hword hplain hrest
      rcases eq_or_ne first [] with rfl | hne
      · cases hword
      · rw [IsWord.splitSpace ⟨hne, hplain⟩, List.mem_singleton] at hword
        subst hword
        exact ⟨[], rest, rfl, ⟨hne, hplain⟩, by simp, hrest⟩
    have hplain : ∀ c ∈ s.takeWhile fun c => !isSpace c, isSpace c = false := fun c hc => by
      simpa using List.mem_takeWhile_imp hc
    have hsplit := List.takeWhile_append_dropWhile (p := fun c => !isSpace c) (l := s)
    cases hrest : s.dropWhile fun c => !isSpace c with
    | nil =>
      rw [hrest, List.append_nil] at hsplit
      rw [← List.append_nil s]
      exact hfirst s [] h (hsplit ▸ hplain) nofun
    | cons c t =>
      have hc : isSpace c = true := by
        have hhead := List.head?_dropWhile_not (fun c => !isSpace c) s
        rw [hrest] at hhead
        simpa using hhead
      rw [hrest] at hsplit
      rw [← hsplit, splitSpace_append_cons hc, List.mem_append] at h
      rw [← hsplit]
      rcases h with h | h
      · exact hfirst _ _ h hplain fun d u hu => by cases hu; exact hc
      · refine (ih t.length ?_ h rfl).append_cons hc _
        rw [← hlength, ← hsplit, List.length_append, List.length_cons]
        omega

/-- The characters of the words are characters of the text. -/
theorem mem_of_mem_splitSpace {s word : Str} {c : ℕ} (hword : word ∈ splitSpace s) (hc : c ∈ word) : c ∈ s := by
  obtain ⟨before, after, rfl, -⟩ := isRun_iff.mpr hword
  simp [hc]

/-- A cut leaves the runs, except that it may shorten the last one. -/
theorem RunAt.cut {limit : ℕ} {s before word after : Str} (h : RunAt before word after)
    (hcut : s.take limit = before ++ word ++ after) :
    IsRun word s ∨ after = [] ∧ limit < s.length ∧ ∃ more, more ≠ [] ∧ IsRun (word ++ more) s := by
  have hsplit : s = before ++ word ++ (after ++ s.drop limit) := by
    rw [← List.append_assoc, ← hcut, List.take_append_drop]
  by_cases hspace : ∀ c t, after ++ s.drop limit = c :: t → isSpace c = true
  · exact Or.inl ⟨before, after ++ s.drop limit, hsplit, h.isWord, h.before, hspace⟩
  · right
    cases after with
    | cons c t => exact absurd (fun d u hu => by cases hu; exact h.after c t rfl) hspace
    | nil =>
      rw [List.nil_append] at hspace hsplit
      push Not at hspace
      obtain ⟨c, t, hdrop, hc⟩ := hspace
      rw [ne_eq, Bool.not_eq_true] at hc
      have hlimit : limit < s.length := by
        have hlength := congrArg List.length hdrop
        rw [List.length_drop, List.length_cons] at hlength
        omega
      have hrest := List.takeWhile_append_dropWhile (p := fun c => !isSpace c) (l := s.drop limit)
      refine ⟨rfl, hlimit, (s.drop limit).takeWhile fun c => !isSpace c, by simp [hdrop, hc], before,
        (s.drop limit).dropWhile fun c => !isSpace c, ?_, ⟨?_, ?_⟩, h.before, ?_⟩
      · rw [List.append_assoc, List.append_assoc, hrest, ← List.append_assoc]
        exact hsplit
      · simp [h.isWord.ne_nil]
      · intro d hd
        rcases List.mem_append.mp hd with hd | hd
        · exact h.isWord.plain d hd
        · simpa using List.mem_takeWhile_imp hd
      · intro d u hu
        have hhead := List.head?_dropWhile_not (fun c => !isSpace c) (s.drop limit)
        rw [hu] at hhead
        simpa using hhead

end NeuroLab.Python
