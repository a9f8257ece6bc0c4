import NeuroLab.Python.Text

/-!
# Texts that differ in letter case

A map of characters that keeps the separators commutes with the string methods, and the
lowering of ASCII letters is such a map. Two texts with the same lowering are therefore
split, joined and stripped alike, and folded to the same text.
-/

namespace NeuroLab.Python

section Maps

variable {f : ℕ → ℕ} {p : ℕ → Bool}

theorem takeWhile_map_of_iff (hf : ∀ c, p (f c) = p c) (s : Str) :
    (s.map f).takeWhile p = (s.takeWhile p).map f := by
  have hp : p ∘ f = p := funext hf
  rw [List.takeWhile_map, hp]

theorem dropWhile_map_of_iff (hf : ∀ c, p (f c) = p c) (s : Str) :
    (s.map f).dropWhile p = (s.dropWhile p).map f := by
  have hp : p ∘ f = p := funext hf
  rw [List.dropWhile_map, hp]

/-- Splitting cuts a text and its image in the same places. -/
theorem splitOnP_map (hf : ∀ c, p (f c) = p c) (s : Str) :
    (s.map f).splitOnP p = (s.splitOnP p).map (List.map f) := by
  induction s with
  | nil => rfl
  | cons c s ih =>
    rw [List.map_cons, List.splitOnP_cons_eq_if_modifyHead, List.splitOnP_cons_eq_if_modifyHead, hf, ih]
    by_cases hc : p c
    · rw [if_pos hc, if_pos hc, List.map_cons, List.map_nil]
    · rw [if_neg hc, if_neg hc]
      cases s.splitOnP p <;> rfl

theorem strip_map (hf : ∀ c, p (f c) = p c) (s : Str) : strip p (s.map f) = (strip p s).map f := by
  rw [strip, strip, dropWhile_map_of_iff hf, ← List.map_reverse, dropWhile_map_of_iff hf, ← List.map_reverse]

theorem splitSpace_map (hf : ∀ c, isSpace (f c) = isSpace c) (s : Str) :
    splitSpace (s.map f) = (splitSpace s).map (List.map f) := by
  have hempty : (fun word : Str => !word.isEmpty) ∘ List.map f = fun word => !word.isEmpty := by
    funext word
    cases word <;> rfl
  rw [splitSpace, splitOnP_map hf, List.filter_map, hempty, splitSpace]

theorem joinSpace_map (hf : f 0x20 = 0x20) (words : List Str) :
    joinSpace (words.map (List.map f)) = (joinSpace words).map f := by
  unfold joinSpace
  induction words with
  | nil => rfl
  | cons word rest ih =>
    cases rest with
    | nil => simp [List.intercalate]
    | cons next rest =>
      rw [List.map_cons, List.map_cons, List.intercalate_cons_cons, List.intercalate_cons_cons, List.map_append,
        List.map_append, List.map_cons, List.map_nil, hf, ← ih, List.map_cons]

end Maps

/-! ## Lowering -/

/-- What is no ASCII letter is not lowered, and no other character is lowered to it. -/
theorem asciiLower_eq_iff {c d : ℕ} (hd : isLetter d = false) : asciiLower c = d ↔ c = d := by
  simp only [isLetter, Bool.or_eq_false_iff, Bool.and_eq_false_iff, decide_eq_false_iff_not] at hd
  unfold asciiLower
  split <;> omega

/-- A class without letters does not see the case of a letter. -/
theorem class_asciiLower {p : ℕ → Bool} (hp : ∀ c, isLetter c = true → p c = false) (c : ℕ) :
    p (asciiLower c) = p c := by
  by_cases hc : 0x41 ≤ c ∧ c ≤ 0x5A
  · have hupper : isLetter c = true := by simp [isLetter, hc]
    have hlower : isLetter (c + 0x20) = true := by
      simp only [isLetter, Bool.or_eq_true, Bool.and_eq_true, decide_eq_true_eq]
      omega
    rw [asciiLower, if_pos hc, hp _ hlower, hp _ hupper]
  · rw [asciiLower, if_neg hc]

theorem isSpace_of_isLetter {c : ℕ} (h : isLetter c = true) : isSpace c = false := by
  have hrange : 0x41 ≤ c ∧ c ≤ 0x7A := by
    simp only [isLetter, Bool.or_eq_true, Bool.and_eq_true, decide_eq_true_eq] at h
    omega
  obtain ⟨hlow, hhigh⟩ := hrange
  interval_cases c <;> rfl

theorem isSpace_asciiLower (c : ℕ) : isSpace (asciiLower c) = isSpace c :=
  class_asciiLower (fun _ => isSpace_of_isLetter) c

theorem asciiLower_asciiLower (c : ℕ) : asciiLower (asciiLower c) = asciiLower c := by
  by_cases hc : 0x41 ≤ c ∧ c ≤ 0x5A
  · rw [asciiLower, asciiLower, if_pos hc, if_neg (by omega)]
  · rw [asciiLower, asciiLower, if_neg hc, if_neg hc]

/-- Folding does not see the case of a letter. -/
theorem CaseFolding.fold_asciiLower (folding : CaseFolding) (c : ℕ) : folding.fold (asciiLower c) = folding.fold c := by
  by_cases hc : c < 0x80
  · rw [folding.fold_ascii _ (asciiLower_lt hc), folding.fold_ascii c hc, asciiLower_asciiLower]
  · have hsame : asciiLower c = c := if_neg (by omega)
    rw [hsame]

/-- Two texts with the same lowering fold to the same text. -/
theorem CaseFolding.casefold_congr (folding : CaseFolding) {s t : Str} (h : s.map asciiLower = t.map asciiLower) :
    folding.casefold s = folding.casefold t := by
  have hlower (s : Str) : folding.casefold (s.map asciiLower) = folding.casefold s := by
    rw [CaseFolding.casefold, List.flatMap_map]
    exact List.flatMap_congr fun c _ => folding.fold_asciiLower c
  rw [← hlower s, h, hlower t]

/-! ## The first character -/

/-- A text that starts with no space is split behind its first character or later. -/
theorem splitSpace_cons {c : ℕ} (hc : isSpace c = false) (s : Str) :
    ∃ word words, splitSpace (c :: s) = (c :: word) :: words := by
  unfold splitSpace
  rw [List.splitOnP_cons_eq_if_modifyHead, if_neg (by simp [hc])]
  cases hrest : s.splitOnP isSpace with
  | nil => exact absurd hrest (List.splitOnP_ne_nil _ _)
  | cons word words => exact ⟨word, words.filter fun word => !word.isEmpty, by simp⟩

theorem joinSpace_cons (c : ℕ) (word : Str) (words : List Str) :
    ∃ rest, joinSpace ((c :: word) :: words) = c :: rest := by
  cases words with
  | nil => exact ⟨word, joinSpace_singleton _⟩
  | cons next words => exact ⟨word ++ ([0x20] ++ joinSpace (next :: words)), by simp [joinSpace]⟩

/-- Stripping keeps a first character that is not stripped. -/
theorem strip_cons {p : ℕ → Bool} {c : ℕ} (hc : p c = false) (s : Str) : ∃ rest, strip p (c :: s) = c :: rest := by
  have hfront : (c :: s).dropWhile p = c :: s := List.dropWhile_cons_of_neg (by simp [hc])
  rw [strip, hfront, List.reverse_cons]
  cases hrest : s.reverse.dropWhile p with
  | nil =>
    refine ⟨[], ?_⟩
    rw [List.dropWhile_append, hrest]
    simp [hc]
  | cons d rest =>
    refine ⟨(d :: rest).reverse, ?_⟩
    rw [List.dropWhile_append, hrest]
    simp

/-- The encoding of an ASCII character comes first. -/
theorem utf8_cons {c : ℕ} (hc : c < 0x80) {s : Str} {bytes : List ℕ} (h : utf8 (c :: s) = some bytes) :
    ∃ rest, bytes = c :: rest := by
  have hchar : utf8Char c = some [c] := if_pos hc
  rw [utf8, List.mapM_cons, hchar, Option.map_eq_some_iff] at h
  obtain ⟨encoded, hencoded, rfl⟩ := h
  obtain ⟨_, hfirst, hrest⟩ := Option.bind_eq_some_iff.mp hencoded
  cases hfirst
  obtain ⟨tail, -, htail⟩ := Option.bind_eq_some_iff.mp hrest
  cases htail
  exact ⟨tail.flatten, rfl⟩

end NeuroLab.Python
