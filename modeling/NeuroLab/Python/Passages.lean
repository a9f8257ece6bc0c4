import Mathlib.Data.List.DropRight
import NeuroLab.Python.LetterCase

/-!
# Passages of a text

Where a piece of a text stands, what stripping and cutting leave of it, the lines of a text,
and the text before and behind the first occurrence of a separator.
-/

namespace NeuroLab.Python

variable {α : Type*}

/-- A property of the characters of a literal, which need not be decoded for it. -/
theorem of_lit {P : Str → Prop} (cs : List Char) (h : P (cs.map Char.toNat)) : P (lit (String.ofList cs)) := by
  rwa [lit, String.toList_ofList]

/-! ## Cutting -/

/-- A piece stands in the text so that it ends within so many characters. -/
def EndsWithin (limit : ℕ) (piece text : List α) : Prop :=
  ∃ start, piece <+: text.drop start ∧ start + piece.length ≤ limit

/-- A cut leaves the pieces that end before it. -/
theorem infix_take_iff {limit : ℕ} {piece text : List α} : piece <:+: text.take limit ↔ EndsWithin limit piece text := by
  constructor
  · rintro ⟨before, after, h⟩
    have hlength := congrArg List.length h
    simp only [List.length_append, List.length_take] at hlength
    refine ⟨before.length, ⟨after ++ text.drop limit, ?_⟩, by omega⟩
    rw [← List.append_assoc]
    conv_rhs => rw [← List.take_append_drop limit text, ← h, List.append_assoc, List.append_assoc, List.drop_left]
    rw [List.append_assoc]
  · rintro ⟨start, hstart, hlimit⟩
    have hcut : piece <+: (text.take limit).drop start := by
      rw [List.drop_take, List.prefix_take_iff]
      exact ⟨hstart, by omega⟩
    exact hcut.isInfix.trans (List.drop_suffix _ _).isInfix

/-- In a short text every piece ends early enough. -/
theorem EndsWithin.of_length_le {limit : ℕ} {piece text : List α} (h : piece <:+: text) (hlength : text.length ≤ limit) :
    EndsWithin limit piece text := by
  rw [← infix_take_iff, List.take_of_length_le hlength]
  exact h

/-! ## Stripping -/

section Strip

variable {p : ℕ → Bool} {s piece : Str} {c : ℕ}

/-- A text with nothing to strip at either end. -/
structure Stripped (p : ℕ → Bool) (s : Str) : Prop where
  first : ∀ c t, s = c :: t → p c = false
  last : ∀ c t, s = t ++ [c] → p c = false

theorem strip_eq (p : ℕ → Bool) (s : Str) : strip p s = (s.dropWhile p).rdropWhile p := rfl

theorem isInfix_strip (p : ℕ → Bool) (s : Str) : strip p s <:+: s :=
  (List.rdropWhile_prefix p _).isInfix.trans (List.dropWhile_suffix p).isInfix

theorem stripped_strip (p : ℕ → Bool) (s : Str) : Stripped p (strip p s) where
  first c t h := by
    have hidempotent : strip p (s.dropWhile p) = strip p s := by rw [strip_eq, List.dropWhile_idempotent, ← strip_eq]
    cases hdropped : s.dropWhile p with
    | nil =>
      rw [strip_eq, hdropped] at h
      cases h
    | cons d rest =>
      have hd : p d = false := by
        have hhead := List.head?_dropWhile_not p s
        rw [hdropped] at hhead
        exact hhead
      obtain ⟨rest', hrest⟩ := strip_cons hd rest
      rw [← hidempotent, hdropped, hrest] at h
      cases h
      exact hd
  last c t h := by
    have hne : (s.dropWhile p).rdropWhile p ≠ [] := by
      rw [← strip_eq, h]
      simp
    have hlast := List.rdropWhile_last_not p (s.dropWhile p) hne
    simp only [← strip_eq, h, List.getLast_append_singleton] at hlast
    simpa using hlast

theorem dropWhile_append_cons (hc : p c = false) (s t : Str) : (s ++ c :: t).dropWhile p = s.dropWhile p ++ c :: t := by
  rw [List.dropWhile_append, List.dropWhile_cons_of_neg (by simp [hc])]
  split
  · next hempty => rw [List.isEmpty_iff.mp hempty, List.nil_append]
  · rfl

theorem rdropWhile_append_concat (hc : p c = false) (s t : Str) :
    ((s ++ [c]) ++ t).rdropWhile p = (s ++ [c]) ++ t.rdropWhile p := by
  rw [List.rdropWhile, List.rdropWhile, List.append_assoc, List.reverse_append, List.reverse_append,
    List.reverse_singleton, List.append_assoc, List.singleton_append, dropWhile_append_cons hc]
  simp

/-- Stripping a text takes nothing from a stripped piece of it. -/
theorem Stripped.infix_strip (h : Stripped p piece) (hpiece : piece <:+: s) : piece <:+: strip p s := by
  obtain ⟨before, after, rfl⟩ := hpiece
  rcases List.eq_nil_or_concat piece with rfl | ⟨front, d, hconcat⟩
  · exact List.nil_infix
  rw [List.concat_eq_append] at hconcat
  have hd := h.last d front hconcat
  cases hpiece : piece with
  | nil =>
    rw [hpiece] at hconcat
    simp at hconcat
  | cons c rest =>
    have hc := h.first c rest hpiece
    rw [strip_eq, List.append_assoc, List.cons_append, dropWhile_append_cons hc, ← List.cons_append, ← hpiece, hconcat,
      ← List.append_assoc, ← List.append_assoc, rdropWhile_append_concat hd]
    exact ⟨before.dropWhile p, after.rdropWhile p, by simp⟩

theorem Stripped.strip_eq_self (h : Stripped p s) : strip p s = s :=
  List.infix_antisymm (isInfix_strip p s) (h.infix_strip List.infix_rfl)

end Strip

/-! ## Lines -/

/-- A text whose only spaces are plain ones, so that nothing in it ends a line. -/
def OneLine (s : Str) : Prop := ∀ c ∈ s, isSpace c = true → c = 0x20

instance : DecidablePred OneLine := fun s => inferInstanceAs (Decidable (∀ c ∈ s, isSpace c = true → c = 0x20))

section OneLine

variable {c : ℕ} {s t : Str}

@[simp] theorem oneLine_cons_iff : OneLine (c :: s) ↔ (isSpace c = true → c = 0x20) ∧ OneLine s := List.forall_mem_cons

@[simp] theorem oneLine_append_iff : OneLine (s ++ t) ↔ OneLine s ∧ OneLine t := List.forall_mem_append

theorem OneLine.not_mem (h : OneLine s) : 0x0A ∉ s := fun hmem => absurd (h 0x0A hmem (by decide)) (by decide)

end OneLine

/-- Texts that are joined in the middle are joined with the others. -/
theorem intercalate_append_intercalate_cons (sep : List α) (before : List (List α)) {inner : List (List α)}
    (hinner : inner ≠ []) (after : List (List α)) :
    sep.intercalate (before ++ sep.intercalate inner :: after) = sep.intercalate (before ++ inner ++ after) := by
  induction before with
  | cons line before ih =>
    rw [List.cons_append, List.cons_append, List.cons_append, List.intercalate_cons_of_ne_nil (by simp), ih,
      List.intercalate_cons_of_ne_nil (by simp [hinner])]
  | nil =>
    rw [List.nil_append, List.nil_append]
    induction inner with
    | nil => exact absurd rfl hinner
    | cons line inner ih =>
      rcases eq_or_ne inner [] with rfl | hne
      · rw [List.intercalate_singleton, List.singleton_append]
      · rw [List.cons_append, List.intercalate_cons_of_ne_nil (by simp [hne] : inner ++ after ≠ []), ← ih hne,
          List.intercalate_cons_of_ne_nil hne]
        rcases eq_or_ne after [] with rfl | hafter
        · rw [List.intercalate_singleton, List.intercalate_singleton]
        · rw [List.intercalate_cons_of_ne_nil hafter, List.intercalate_cons_of_ne_nil hafter]
          simp only [List.append_assoc]

/-- The pieces of joined texts are those of each of them. -/
theorem splitOn_intercalate_eq_flatMap {sep : ℕ} {texts : List Str} (hne : texts ≠ []) :
    ([sep].intercalate texts).splitOn sep = texts.flatMap (·.splitOn sep) := by
  induction texts with
  | nil => exact absurd rfl hne
  | cons s texts ih =>
    rcases eq_or_ne texts [] with rfl | hrest
    · rw [List.intercalate_singleton, List.flatMap_singleton]
    · rw [List.intercalate_cons_of_ne_nil hrest, List.append_assoc, List.singleton_append,
        List.splitOn_append_cons_self, ih hrest, List.flatMap_cons]

/-- What stands in front of a text and holds no separator is in front of its first piece. -/
theorem splitOn_append_of_not_mem {sep : ℕ} {s t first : Str} {rest : List Str} (hs : sep ∉ s)
    (ht : t.splitOn sep = first :: rest) : (s ++ t).splitOn sep = (s ++ first) :: rest := by
  induction s with
  | nil => exact ht
  | cons c s ih =>
    obtain ⟨hc, hs⟩ := not_or.mp (fun h => hs (List.mem_cons.mpr h))
    rw [List.cons_append, List.splitOn_cons_eq_if_modifyHead, if_neg (by simpa using Ne.symm hc), ih hs]
    rfl

/-- The lines in front of the first one that is equal to a given line. -/
theorem takeWhile_append_cons [DecidableEq α] {before : List α} {a : α} (h : a ∉ before) (after : List α) :
    (before ++ a :: after).takeWhile (· ≠ a) = before := by
  rw [List.takeWhile_append_of_pos, List.takeWhile_cons_of_neg (by simp), List.append_nil]
  intro b hb
  simpa using ne_of_mem_of_not_mem hb h

/-- The lines from that one on. -/
theorem dropWhile_append_cons_of_not_mem [DecidableEq α] {before : List α} {a : α} (h : a ∉ before) (after : List α) :
    (before ++ a :: after).dropWhile (· ≠ a) = a :: after := by
  rw [List.dropWhile_append_of_pos, List.dropWhile_cons_of_neg (by simp)]
  intro b hb
  simpa using ne_of_mem_of_not_mem hb h

/-- Lists of one length that differ at most in so many places from `start` on. -/
def AgreeOutside (start count : ℕ) (a b : List α) : Prop :=
  a.length = b.length ∧ ∀ i, i < start ∨ start + count ≤ i → a[i]? = b[i]?

/-- What stands between the same lists is the only difference. -/
theorem agreeOutside_append (before after : List α) {a b : List α} (h : a.length = b.length) :
    AgreeOutside before.length a.length (before ++ a ++ after) (before ++ b ++ after) := by
  refine ⟨by simp [h], fun i hi => ?_⟩
  rw [List.append_assoc, List.append_assoc]
  rcases hi with hi | hi
  · rw [List.getElem?_append_left hi, List.getElem?_append_left hi]
  · rw [List.getElem?_append_right (by omega), List.getElem?_append_right (by omega),
      List.getElem?_append_right (by omega), List.getElem?_append_right (by omega), h]

/-! ## First occurrences -/

section First

variable {sep s before after piece : List α} {c : α}

/-- A piece without some element ends in front of it. -/
theorem prefix_append_cons_iff (hc : c ∉ piece) (s t : List α) : piece <+: s ++ c :: t ↔ piece <+: s := by
  induction s generalizing piece with
  | nil =>
    cases piece with
    | nil => simp
    | cons d piece =>
      refine iff_of_false (fun h => hc ?_) nofun
      rw [(List.cons_prefix_cons.mp h).1]
      exact List.mem_cons_self
  | cons e s ih =>
    cases piece with
    | nil => simp
    | cons d piece =>
      rw [List.cons_append, List.cons_prefix_cons, List.cons_prefix_cons, ih fun h => hc (List.mem_cons_of_mem _ h)]

/-- A piece without some element stands in front of it or behind it. -/
theorem infix_append_cons_iff (hc : c ∉ piece) (s t : List α) : piece <:+: s ++ c :: t ↔ piece <:+: s ∨ piece <:+: t := by
  induction s with
  | nil =>
    have hprefix := prefix_append_cons_iff hc [] t
    rw [List.nil_append] at hprefix
    rw [List.nil_append, List.infix_cons_iff, hprefix, List.prefix_nil, List.infix_nil]
  | cons e s ih =>
    have hprefix := prefix_append_cons_iff hc (e :: s) t
    rw [List.cons_append] at hprefix
    rw [List.cons_append, List.infix_cons_iff, List.infix_cons_iff, hprefix, ih, or_assoc]

variable [DecidableEq α]

/-- The text in front of the first occurrence of a separator, and the text behind it. -/
def breakAt (sep : List α) : List α → Option (List α × List α)
  | [] => if sep = [] then some ([], []) else none
  | c :: s =>
    if sep <+: c :: s then some ([], (c :: s).drop sep.length)
    else (breakAt sep s).map fun found => (c :: found.1, found.2)

/-- Without the separator in front of it, the first occurrence is where it was put. -/
theorem breakAt_append (h : ∀ front, front ++ sep <+: before ++ sep ++ after → before.length ≤ front.length) :
    breakAt sep (before ++ sep ++ after) = some (before, after) := by
  induction before with
  | nil =>
    rw [List.nil_append]
    cases hs : sep ++ after with
    | nil =>
      obtain ⟨rfl, rfl⟩ := List.append_eq_nil_iff.mp hs
      rfl
    | cons c s =>
      rw [breakAt, if_pos (hs ▸ List.prefix_append _ _), ← hs, List.drop_left]
  | cons c before ih =>
    have hnot : ¬sep <+: c :: (before ++ sep ++ after) := fun hprefix => by
      have hlength := h [] hprefix
      simp at hlength
    rw [List.cons_append, List.cons_append, breakAt, if_neg hnot, ih]
    · rfl
    · intro front hfront
      have hlength := h (c :: front) (by simpa using hfront)
      simpa using hlength

/-- What stands in front of the first occurrence does not reach into the separator. -/
theorem breakAt_eq_some (h : breakAt sep s = some (before, after)) :
    s = before ++ sep ++ after ∧ ∀ front, front ++ sep <+: s → before.length ≤ front.length := by
  induction s generalizing before with
  | nil =>
    rw [breakAt] at h
    split at h
    · next hsep =>
      cases h
      exact ⟨by simp [hsep], fun front _ => Nat.zero_le _⟩
    · cases h
  | cons c s ih =>
    rw [breakAt] at h
    split at h
    · next hprefix =>
      cases h
      exact ⟨by rw [List.nil_append, List.prefix_iff_eq_append.mp hprefix], fun front _ => Nat.zero_le _⟩
    · next hprefix =>
      obtain ⟨⟨front, back⟩, hfound, heq⟩ := Option.map_eq_some_iff.mp h
      cases heq
      obtain ⟨rfl, hfirst⟩ := ih hfound
      refine ⟨rfl, fun front' hfront' => ?_⟩
      cases front' with
      | nil => exact absurd hfront' hprefix
      | cons d front' =>
        rw [List.cons_append, List.cons_prefix_cons] at hfront'
        exact Nat.succ_le_succ (hfirst front' hfront'.2)

/-- Behind a text that does not hold the separator, and a character that is none of it, it occurs first. -/
theorem breakAt_text_iff (hc : c ∉ sep) (text after : List α) :
    breakAt sep (text ++ [c] ++ sep ++ after) = some (text ++ [c], after) ↔ ¬sep <:+: text := by
  constructor
  · rintro h ⟨front, back, rfl⟩
    have hlength := (breakAt_eq_some h).2 front ⟨back ++ [c] ++ sep ++ after, by simp⟩
    simp only [List.length_append, List.length_singleton] at hlength
    omega
  · intro h
    refine breakAt_append fun front hfront => ?_
    by_contra hshort
    rw [List.length_append, List.length_singleton, not_le, Nat.lt_succ_iff] at hshort
    obtain ⟨back, hback⟩ := hfront
    have hdrop := congrArg (List.drop front.length) hback
    rw [List.append_assoc, List.drop_left, List.append_assoc, List.append_assoc, List.drop_append_of_le_length hshort,
      List.singleton_append] at hdrop
    have hsep : sep <+: text.drop front.length := (prefix_append_cons_iff hc _ _).mp ⟨back, hdrop⟩
    exact h (hsep.isInfix.trans (List.drop_suffix _ _).isInfix)

end First

end NeuroLab.Python
