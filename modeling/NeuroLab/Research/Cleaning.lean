import NeuroLab.Python.Passages
import NeuroLab.Research.Metadata

/-!
# What cleaning leaves of a text

`_clean_text` replaces every tag by a space, joins the words that are left by single spaces
and cuts the result. The replaced tags are those of one scan from left to right, and the
pieces between them cannot join into a tag: a `<` that the scan keeps has no `>` behind it,
or has one right behind it. Neither the joining nor the cutting brings a tag back, and every
word of the result stands in one of the pieces.
-/

namespace NeuroLab.Research

open Python

/-! ## Tags -/

/-- What `_TAG` matches: `<`, at least one character other than `>`, and `>`. -/
def IsTag (tag : Str) : Prop := ∃ inner, inner ≠ [] ∧ 0x3E ∉ inner ∧ tag = 0x3C :: (inner ++ [0x3E])

/-- No tag stands in the text. -/
def TagFree (s : Str) : Prop := ∀ tag, IsTag tag → ¬tag <:+: s

section Tags

variable {s t : Str} {c : ℕ}

/-- A text starts with a tag if the scan finds one there. -/
theorem tag_prefix_iff : (∃ tag rest, IsTag tag ∧ c :: s = tag ++ rest) ↔ c = 0x3C ∧ 0x3E ∈ s ∧ ∀ t, s ≠ 0x3E :: t := by
  constructor
  · rintro ⟨tag, rest, ⟨inner, hne, hinner, rfl⟩, h⟩
    rw [List.cons_append, List.cons.injEq, List.append_assoc, List.singleton_append] at h
    obtain ⟨rfl, rfl⟩ := h
    refine ⟨rfl, by simp, fun t ht => ?_⟩
    obtain ⟨d, inner, rfl⟩ := List.exists_cons_of_ne_nil hne
    cases ht
    exact hinner List.mem_cons_self
  · rintro ⟨rfl, hmem, hfirst⟩
    obtain ⟨inner, rest, rfl, hinner⟩ := List.eq_append_cons_of_mem hmem
    refine ⟨0x3C :: (inner ++ [0x3E]), rest, ⟨inner, ?_, hinner, rfl⟩, by simp⟩
    rintro rfl
    exact hfirst rest rfl

theorem tagFree_nil : TagFree [] := by
  rintro tag ⟨inner, -, -, rfl⟩ h
  cases List.infix_nil.mp h

theorem tagFree_cons_iff : TagFree (c :: s) ↔ (c = 0x3C → 0x3E ∈ s → ∃ t, s = 0x3E :: t) ∧ TagFree s := by
  have hhead := tag_prefix_iff (c := c) (s := s)
  constructor
  · intro h
    refine ⟨fun hc hmem => ?_, fun tag htag hinfix => h tag htag (List.infix_cons hinfix)⟩
    by_contra hfirst
    push Not at hfirst
    obtain ⟨tag, rest, htag, hsplit⟩ := hhead.mpr ⟨hc, hmem, hfirst⟩
    exact h tag htag ⟨[], rest, by rw [List.nil_append, ← hsplit]⟩
  · rintro ⟨hfirst, hrest⟩ tag htag hinfix
    rcases List.infix_cons_iff.mp hinfix with ⟨rest, hsplit⟩ | hinfix
    · obtain ⟨hc, hmem, hne⟩ := hhead.mp ⟨tag, rest, htag, hsplit.symm⟩
      obtain ⟨t, ht⟩ := hfirst hc hmem
      exact hne t ht
    · exact hrest tag htag hinfix

theorem TagFree.part (h : TagFree t) (hpart : s <:+: t) : TagFree s :=
  fun tag htag hs => h tag htag (hs.trans hpart)

end Tags

/-! ## The scan -/

section Scan

variable {s : Str} {c : ℕ}

theorem removeTags_eq_drop (skip : ℕ) (s : Str) : removeTags skip s = removeTags 0 (s.drop skip) := by
  induction skip generalizing s with
  | zero => rfl
  | succ skip ih =>
    cases s with
    | nil => rfl
    | cons c s => exact ih s

/-- A tag becomes a space. -/
theorem removeTags_tag {inner : Str} (hne : inner ≠ []) (hinner : 0x3E ∉ inner) (rest : Str) :
    removeTags 0 (0x3C :: (inner ++ 0x3E :: rest)) = 0x20 :: removeTags 0 rest := by
  rw [removeTags, takeWhile_append_cons hinner, if_pos (by simp [hne]), removeTags_eq_drop]
  simp

/-- A character that no tag starts with stays. -/
theorem removeTags_cons (h : c = 0x3C → 0x3E ∈ s → ∃ t, s = 0x3E :: t) :
    removeTags 0 (c :: s) = c :: removeTags 0 s := by
  rw [removeTags, if_neg]
  simp only [Bool.and_eq_true, decide_eq_true_eq, Bool.not_eq_true', List.isEmpty_eq_false_iff, not_and, not_lt]
  rintro ⟨rfl, hfound⟩
  by_cases hmem : 0x3E ∈ s
  · obtain ⟨t, rfl⟩ := h rfl hmem
    exact absurd (List.takeWhile_cons_of_neg (by simp)) hfound
  · rw [List.takeWhile_eq_self_iff.mpr fun d hd => by simpa using ne_of_mem_of_not_mem hd hmem]

/-- A text starts with a tag, or its first character stays. -/
theorem scan_cases (c : ℕ) (s : Str) :
    (∃ inner rest, inner ≠ [] ∧ 0x3E ∉ inner ∧ c = 0x3C ∧ s = inner ++ 0x3E :: rest) ∨
      (c = 0x3C → 0x3E ∈ s → ∃ t, s = 0x3E :: t) := by
  by_cases h : ∃ tag rest, IsTag tag ∧ c :: s = tag ++ rest
  · obtain ⟨tag, rest, ⟨inner, hne, hinner, rfl⟩, hsplit⟩ := h
    rw [List.cons_append, List.cons.injEq, List.append_assoc, List.singleton_append] at hsplit
    exact Or.inl ⟨inner, rest, hne, hinner, hsplit.1, hsplit.2⟩
  · right
    intro hc hmem
    by_contra hfirst
    push Not at hfirst
    exact h (tag_prefix_iff.mpr ⟨hc, hmem, hfirst⟩)

/-- The texts between the tags of the scan: each tag is the first one that starts behind the
one before it. -/
inductive Untagged : Str → List Str → Prop
  | clean {s : Str} : TagFree s → Untagged s [s]
  | tag {piece tag rest : Str} {pieces : List Str} : IsTag tag →
      (∀ before tag', IsTag tag' → before ++ tag' <+: piece ++ tag ++ rest → piece.length ≤ before.length) →
      Untagged rest pieces → Untagged (piece ++ tag ++ rest) (piece :: pieces)

/-- A character in front of which no tag starts lengthens the first piece. -/
theorem Untagged.cons {pieces : List Str} (h : Untagged s pieces) (hc : c = 0x3C → 0x3E ∈ s → ∃ t, s = 0x3E :: t) :
    ∃ first others, pieces = first :: others ∧ Untagged (c :: s) ((c :: first) :: others) := by
  cases h with
  | clean hfree => exact ⟨s, [], rfl, .clean (tagFree_cons_iff.mpr ⟨hc, hfree⟩)⟩
  | @tag piece tag rest pieces htag hleftmost hrest =>
    refine ⟨piece, pieces, rfl, ?_⟩
    rw [← List.cons_append, ← List.cons_append]
    refine .tag htag (fun before tag' htag' hprefix => ?_) hrest
    cases before with
    | nil =>
      obtain ⟨behind, hbehind⟩ := hprefix
      obtain ⟨hopen, hmem, hfirst⟩ := tag_prefix_iff.mp ⟨tag', behind, htag', hbehind.symm⟩
      obtain ⟨t, ht⟩ := hc hopen hmem
      exact absurd ht (hfirst t)
    | cons d before =>
      have hinner := (List.cons_prefix_cons.mp hprefix).2
      exact Nat.succ_le_succ (hleftmost before tag' htag' hinner)

/-- The scan leaves the texts between the tags, with spaces between them. -/
theorem removeTags_eq_joinSpace (s : Str) : ∃ pieces, Untagged s pieces ∧ removeTags 0 s = joinSpace pieces := by
  induction hlength : s.length using Nat.strong_induction_on generalizing s with
  | _ n ih =>
  cases s with
  | nil => exact ⟨[[]], .clean tagFree_nil, rfl⟩
  | cons c s =>
    rcases scan_cases c s with ⟨inner, rest, hne, hinner, rfl, rfl⟩ | hc
    · obtain ⟨pieces, hpieces, hscan⟩ := ih rest.length (by rw [← hlength]; simp; omega) rest rfl
      refine ⟨[] :: pieces, ?_, ?_⟩
      · have htag : IsTag (0x3C :: (inner ++ [0x3E])) := ⟨inner, hne, hinner, rfl⟩
        have huntagged := @Untagged.tag [] _ _ _ htag (fun before tag' _ _ => Nat.zero_le _) hpieces
        simpa using huntagged
      · rw [removeTags_tag hne hinner, hscan]
        cases hpieces <;> simp [joinSpace]
    · obtain ⟨pieces, hpieces, hscan⟩ := ih s.length (by rw [← hlength]; simp) s rfl
      obtain ⟨first, others, rfl, huntagged⟩ := hpieces.cons hc
      refine ⟨(c :: first) :: others, huntagged, ?_⟩
      rw [removeTags_cons hc, hscan]
      cases others <;> simp [joinSpace]

/-- What the scan can find. -/
theorem Untagged.cases {pieces : List Str} (h : Untagged s pieces) : (TagFree s ∧ pieces = [s]) ∨
    ∃ piece tag rest others, s = piece ++ tag ++ rest ∧ pieces = piece :: others ∧ IsTag tag ∧
      (∀ before tag', IsTag tag' → before ++ tag' <+: s → piece.length ≤ before.length) ∧ Untagged rest others := by
  cases h with
  | clean hfree => exact Or.inl ⟨hfree, rfl⟩
  | @tag piece tag rest others htag hleftmost hrest =>
    exact Or.inr ⟨piece, tag, rest, others, rfl, rfl, htag, hleftmost, hrest⟩

/-- A tag ends at its first `>`. -/
theorem IsTag.append_inj {tag tag' rest rest' : Str} (h : IsTag tag) (h' : IsTag tag')
    (heq : tag ++ rest = tag' ++ rest') : rest = rest' := by
  obtain ⟨inner, -, hinner, rfl⟩ := h
  obtain ⟨inner', -, hinner', rfl⟩ := h'
  simp only [List.cons_append, List.append_assoc, List.nil_append, List.cons.injEq, true_and] at heq
  have hsame := congrArg (List.takeWhile (· ≠ 0x3E)) heq
  rw [takeWhile_append_cons hinner, takeWhile_append_cons hinner'] at hsame
  rw [hsame] at heq
  exact (List.cons.inj (List.append_cancel_left heq)).2

/-- The scan finds one sequence of tags only. -/
theorem Untagged.unique {pieces others : List Str} (h : Untagged s pieces) (h' : Untagged s others) : pieces = others := by
  induction h generalizing others with
  | @clean s hfree =>
    rcases h'.cases with ⟨-, hothers⟩ | ⟨piece, tag, rest, _, hsplit, -, htag, -⟩
    · exact hothers.symm
    · exact absurd ⟨piece, rest, hsplit.symm⟩ (hfree tag htag)
  | @tag piece tag rest pieces htag hleftmost _ ih =>
    rcases h'.cases with ⟨hfree, -⟩ | ⟨piece', tag', rest', others, hsplit, rfl, htag', hleftmost', hrest'⟩
    · exact absurd ⟨piece, rest, rfl⟩ (hfree tag htag)
    · have hlength : piece.length = piece'.length :=
        Nat.le_antisymm (hleftmost piece' tag' htag' ⟨rest', hsplit.symm⟩) (hleftmost' piece tag htag ⟨rest, rfl⟩)
      rw [List.append_assoc, List.append_assoc] at hsplit
      obtain ⟨rfl, hbehind⟩ := List.append_inj hsplit hlength
      obtain rfl := htag.append_inj htag' hbehind
      rw [ih hrest']

/-- The pieces stand in the text. -/
theorem Untagged.isPart {pieces : List Str} (h : Untagged s pieces) : ∀ piece ∈ pieces, piece <:+: s := by
  induction h with
  | clean => exact fun piece hpiece => List.mem_singleton.mp hpiece ▸ List.infix_rfl
  | @tag piece tag rest pieces _ _ _ ih =>
    intro piece' hpiece'
    rcases List.mem_cons.mp hpiece' with rfl | hmem
    · exact ⟨[], tag ++ rest, by simp⟩
    · exact (ih piece' hmem).trans ⟨piece ++ tag, [], by simp⟩

/-- The scan adds nothing but spaces. -/
theorem mem_removeTags {d : ℕ} (h : d ∈ removeTags 0 s) : d = 0x20 ∨ d ∈ s := by
  obtain ⟨pieces, hpieces, hscan⟩ := removeTags_eq_joinSpace s
  rw [hscan] at h
  rcases mem_joinSpace h with h | ⟨piece, hpiece, hd⟩
  · exact Or.inl h
  · exact Or.inr ((hpieces.isPart piece hpiece).subset hd)

/-- The scan leaves no tag: a `<` that stays has nothing to close it. -/
theorem tagFree_removeTags (s : Str) : TagFree (removeTags 0 s) := by
  induction hlength : s.length using Nat.strong_induction_on generalizing s with
  | _ n ih =>
  cases s with
  | nil => exact tagFree_nil
  | cons c s =>
    rcases scan_cases c s with ⟨inner, rest, hne, hinner, rfl, rfl⟩ | hc
    · rw [removeTags_tag hne hinner]
      exact tagFree_cons_iff.mpr ⟨nofun, ih rest.length (by rw [← hlength]; simp; omega) rest rfl⟩
    · rw [removeTags_cons hc]
      refine tagFree_cons_iff.mpr ⟨fun hopen hmem => ?_, ih s.length (by rw [← hlength]; simp) s rfl⟩
      obtain hspace | hmem := mem_removeTags hmem
      · cases hspace
      · obtain ⟨t, rfl⟩ := hc hopen hmem
        exact ⟨removeTags 0 t, removeTags_cons nofun⟩

/-- Joining the words of a text without tags makes none. -/
theorem TagFree.joinSpace_splitSpace (h : TagFree s) : TagFree (joinSpace (splitSpace s)) := by
  have hmem : ∀ t : Str, 0x3E ∈ joinSpace (splitSpace t) → 0x3E ∈ t := by
    intro t ht
    rcases mem_joinSpace ht with hspace | ⟨word, hword, hd⟩
    · cases hspace
    · exact mem_of_mem_splitSpace hword hd
  induction s with
  | nil => exact tagFree_nil
  | cons c s ih =>
    obtain ⟨hfirst, hrest⟩ := tagFree_cons_iff.mp h
    cases hc : isSpace c with
    | true =>
      rw [splitSpace_space_cons hc]
      exact ih hrest
    | false =>
      cases s with
      | nil =>
        rw [IsWord.splitSpace ⟨List.cons_ne_nil _ _, by simp [hc]⟩, joinSpace_singleton]
        exact h
      | cons d s =>
        cases hd : isSpace d with
        | true =>
          have hclosed : c = 0x3C → 0x3E ∉ d :: s := by
            intro hopen hclose
            obtain ⟨t, ht⟩ := hfirst hopen hclose
            cases ht
            cases hd
          rw [splitSpace_cons_space hc hd]
          rw [splitSpace_space_cons hd] at ih
          specialize ih hrest
          cases hwords : splitSpace s with
          | nil =>
            rw [joinSpace_singleton]
            exact tagFree_cons_iff.mpr ⟨nofun, tagFree_nil⟩
          | cons word words =>
            rw [hwords] at ih
            rw [joinSpace_cons_cons]
            refine tagFree_cons_iff.mpr ⟨fun hopen hclose => ?_, tagFree_cons_iff.mpr ⟨nofun, ih⟩⟩
            rcases List.mem_cons.mp hclose with hclose | hclose
            · cases hclose
            · rw [← hwords] at hclose
              exact absurd (List.mem_cons_of_mem _ (hmem s hclose)) (hclosed hopen)
        | false =>
          obtain ⟨word, words, hwords, hlonger⟩ := splitSpace_cons_cons hc hd s
          obtain ⟨rest, hjoin⟩ := joinSpace_cons d word words
          have hlong : joinSpace ((c :: d :: word) :: words) = c :: joinSpace ((d :: word) :: words) := by
            cases words <;> simp [joinSpace]
          rw [hlonger, hlong, ← hwords]
          refine tagFree_cons_iff.mpr ⟨fun hopen hclose => ?_, ih hrest⟩
          obtain ⟨t, ht⟩ := hfirst hopen (hmem _ hclose)
          cases ht
          exact ⟨rest, by rw [hwords, hjoin]⟩

end Scan

/-! ## The result -/

/-- What cleaning makes of a text with these pieces outside its tags. -/
structure CleanOf (pieces : List Str) (s : Str) : Prop where
  short : s.length ≤ 20000
  tagFree : TagFree s
  plain : ∀ c ∈ s, isSpace c = true → c = 0x20
  apart : ¬[0x20, 0x20] <:+: s
  first : ∀ c t, s = c :: t → isSpace c = false
  words : ∀ before word after, s = before ++ word ++ after → RunAt before word after → ∃ piece ∈ pieces,
    IsRun word piece ∨ after = [] ∧ s.length = 20000 ∧ ∃ more, more ≠ [] ∧ IsRun (word ++ more) piece

/-- `_clean_text` of a string is the cut of its joined words. -/
theorem cleanText_str (s : Str) : cleanText (.str s) [] = (joinSpace (splitSpace (removeTags 0 s))).take 20000 := by
  change (if _ then _ else _) = _
  split
  · next hempty => exact (List.isEmpty_iff.mp hempty).symm
  · rfl

/-- Cleaning leaves no markup and no line structure, and the words of the text outside its tags. -/
theorem cleanText_cleanOf (s : Str) : ∃ pieces, Untagged s pieces ∧ (∀ others, Untagged s others → others = pieces) ∧
    CleanOf pieces (cleanText (.str s) []) := by
  obtain ⟨pieces, hpieces, hscan⟩ := removeTags_eq_joinSpace s
  have hcleaned := cleaned_cleanText (.str s)
  have hwords : ∀ word ∈ splitSpace (removeTags 0 s), IsWord word := fun word hword => .of_mem_splitSpace hword
  have hrun : ∀ word, IsRun word (joinSpace (splitSpace (removeTags 0 s))) → ∃ piece ∈ pieces, IsRun word piece := by
    intro word hword
    rw [isRun_iff, splitSpace_joinSpace hwords, hscan, splitSpace_joinSpace_eq_flatMap, List.mem_flatMap] at hword
    obtain ⟨piece, hpiece, hword⟩ := hword
    exact ⟨piece, hpiece, isRun_iff.mpr hword⟩
  refine ⟨pieces, hpieces, fun others hothers => hothers.unique hpieces, length_cleanText_le _, ?_, hcleaned.plain, ?_,
    hcleaned.head, ?_⟩
  · rw [cleanText_str]
    exact (tagFree_removeTags s).joinSpace_splitSpace.part (List.take_prefix _ _).isInfix
  · rw [cleanText_str]
    intro hpair
    obtain ⟨before, after, hpair⟩ := hpair.trans (List.take_prefix _ _).isInfix
    have hjoined : joinSpace (splitSpace (removeTags 0 s)) = before ++ 0x20 :: 0x20 :: after := by
      rw [← hpair]
      simp
    have hsingle := (joinSpace_single hwords hjoined (by decide)).2 0x20 after rfl
    cases hsingle
  · rw [cleanText_str]
    intro before word after hsplit hat
    rcases hat.cut hsplit with hword | ⟨hafter, hlong, more, hmore, hword⟩
    · obtain ⟨piece, hpiece, hword⟩ := hrun word hword
      exact ⟨piece, hpiece, Or.inl hword⟩
    · obtain ⟨piece, hpiece, hword⟩ := hrun _ hword
      exact ⟨piece, hpiece, Or.inr ⟨hafter, List.length_take_of_le hlong.le, more, hmore, hword⟩⟩

end NeuroLab.Research
