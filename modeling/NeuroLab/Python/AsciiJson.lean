import NeuroLab.Python.Escapes
import NeuroLab.Python.JsonTexts

/-!
# JSON in ASCII

`json.dumps` escapes what is not in ASCII, an astral character as a pair of surrogates, and `json.loads`
takes such a pair of escapes for one character. A text is read back unless it has a pair of surrogates of
its own, which `json.loads` does not give.
-/

namespace NeuroLab.Python

/-! ## Surrogates -/

def isHighSurrogate (c : ℕ) : Bool := 0xD800 ≤ c && c ≤ 0xDBFF

def isLowSurrogate (c : ℕ) : Bool := 0xDC00 ≤ c && c ≤ 0xDFFF

/-- A text of code points in which no high surrogate stands right before a low one. -/
structure Unpaired (s : Str) : Prop where
  points : ∀ c ∈ s, c < 0x110000
  apart : s.IsChain fun c d => ¬ (isHighSurrogate c = true ∧ isLowSurrogate d = true)

/-- What can be encoded is a code point, and no surrogate. -/
theorem isSome_utf8Char_iff {c : ℕ} : (utf8Char c).isSome = true ↔ c < 0x110000 ∧ ¬ (0xD800 ≤ c ∧ c ≤ 0xDFFF) := by
  unfold utf8Char
  repeat' split
  all_goals simp only [Option.isSome_some, Option.isSome_none, Bool.false_eq_true, true_iff, false_iff]
  all_goals omega

namespace Unpaired

theorem nil : Unpaired [] := ⟨List.forall_mem_nil _, .nil⟩

theorem cons {c : ℕ} {s : Str} (hc : c < 0x110000) (hs : Unpaired s)
    (hpair : isHighSurrogate c = true → ∀ d t, s = d :: t → isLowSurrogate d = false) : Unpaired (c :: s) := by
  refine ⟨List.forall_mem_cons.mpr ⟨hc, hs.points⟩, ?_⟩
  cases s with
  | nil => exact .singleton c
  | cons d t =>
    refine .cons_cons (fun ⟨hhigh, hlow⟩ => ?_) hs.apart
    rw [hpair hhigh d t rfl] at hlow
    cases hlow

theorem tail {c : ℕ} {s : Str} (h : Unpaired (c :: s)) : Unpaired s :=
  ⟨(List.forall_mem_cons.mp h.points).2, h.apart.tail⟩

theorem head {c d : ℕ} {s : Str} (h : Unpaired (c :: d :: s)) (hc : isHighSurrogate c = true) : isLowSurrogate d = false := by
  cases hlow : isLowSurrogate d with
  | true => exact absurd ⟨hc, hlow⟩ (List.isChain_cons_cons.mp h.apart).1
  | false => rfl

/-- A text without surrogates in front. -/
theorem encodable_append {s t : Str} (hs : Encodable s) (ht : Unpaired t) : Unpaired (s ++ t) := by
  induction s with
  | nil => exact ht
  | cons c s ih =>
    obtain ⟨hc, hs⟩ := List.forall_mem_cons.mp hs
    obtain ⟨hpoint, hscalar⟩ := isSome_utf8Char_iff.mp hc
    refine .cons hpoint (ih hs) fun hhigh => ?_
    simp only [isHighSurrogate, Bool.and_eq_true, decide_eq_true_eq] at hhigh
    omega

end Unpaired

/-! ## Escapes are read back -/

theorem hex4_hexDigits {n : ℕ} (h : n < 0x10000) (s : Str) : hex4 (hexDigits 4 n ++ s) = some (n, s) := by
  have hdigit : ∀ m, hexValue (hexDigit (m % 16)) = some (m % 16) := fun m => hexValue_hexDigit (Nat.mod_lt m (by decide))
  have hvalue : ((n / 16 / 16 / 16 % 16 * 16 + n / 16 / 16 % 16) * 16 + n / 16 % 16) * 16 + n % 16 = n := by omega
  simp only [hexDigits, List.nil_append, List.cons_append, hex4, hdigit, Option.bind_eq_bind, Option.bind_some, hvalue]

/-- The characters that stand for one character in ASCII. -/
def asciiChar (c : ℕ) : Str := ensureAscii (escapeChar c)

theorem ensureAscii_append (s t : Str) : ensureAscii (s ++ t) = ensureAscii s ++ ensureAscii t := List.flatMap_append

theorem ensureAscii_flatMap_escapeChar (s : Str) : ensureAscii (s.flatMap escapeChar) = s.flatMap asciiChar := by
  induction s with
  | nil => rfl
  | cons c s ih => rw [List.flatMap_cons, List.flatMap_cons, ensureAscii_append, ih, asciiChar]

theorem asciiChar_of_lt {c : ℕ} (h : c < 0x7F) : asciiChar c = escapeChar c := by
  have hquoted : Ascii (dumpsStr [c]) := ascii_dumpsStr (.cons h (List.forall_mem_nil _))
  refine ensureAscii_of_ascii fun d hd => hquoted d ?_
  rw [dumpsStr, List.flatMap_singleton]
  exact List.mem_cons_of_mem _ (List.mem_append_left _ hd)

theorem escapeChar_of_le {c : ℕ} (h : 0x7F ≤ c) : escapeChar c = [c] := by
  unfold escapeChar
  repeat rw [if_neg (by omega)]

theorem asciiChar_of_le {c : ℕ} (h : 0x7F ≤ c) (hc : c < 0x10000) : asciiChar c = unicodeEscape c := by
  rw [asciiChar, escapeChar_of_le h, ensureAscii, List.flatMap_singleton, if_neg (by omega), if_pos hc]

theorem asciiChar_astral {c : ℕ} (h : 0x10000 ≤ c) : asciiChar c =
    unicodeEscape (0xD800 + (c - 0x10000) / 0x400) ++ unicodeEscape (0xDC00 + (c - 0x10000) % 0x400) := by
  rw [asciiChar, escapeChar_of_le (by omega), ensureAscii, List.flatMap_singleton, if_neg (by omega), if_neg (by omega)]

theorem lowSurrogate_unicodeEscape_of_low {n : ℕ} (h : n < 0x10000) (hlow : isLowSurrogate n = true) (s : Str) :
    lowSurrogate (unicodeEscape n ++ s) = some (n, s) := by
  change (hex4 (hexDigits 4 n ++ s)).filter (fun r => isLowSurrogate r.1) = some (n, s)
  rw [hex4_hexDigits h, Option.filter_some, hlow]
  rfl

/-- An escape is a low surrogate's only if that is what it stands for. -/
theorem lowSurrogate_unicodeEscape {n : ℕ} (h : n < 0x10000) (hlow : isLowSurrogate n = false) (s : Str) :
    lowSurrogate (unicodeEscape n ++ s) = none := by
  change (hex4 (hexDigits 4 n ++ s)).filter (fun r => isLowSurrogate r.1) = none
  rw [hex4_hexDigits h, Option.filter_some, hlow]
  rfl

theorem lowSurrogate_asciiChar {c : ℕ} (hc : c < 0x110000) (hlow : isLowSurrogate c = false) (s : Str) :
    lowSurrogate (asciiChar c ++ s) = none := by
  rcases Nat.lt_or_ge c 0x7F with h | h
  · rw [asciiChar_of_lt h]
    unfold escapeChar
    repeat' split
    · rfl
    · rfl
    · rfl
    · rfl
    · rfl
    · rfl
    · rfl
    · next hcontrol =>
      have hhigh := hexValue_hexDigit (n := c / 16) (by omega)
      have hunit := hexValue_hexDigit (n := c % 16) (by omega)
      have hsmall : ¬ 0xDC00 ≤ c / 16 * 16 + c % 16 := by omega
      simp [lowSurrogate, hex4, hhigh, hunit, hsmall, show hexValue 0x30 = some 0 from rfl]
    · next hbackslash _ _ _ _ _ _ => simp [lowSurrogate, hbackslash]
  rcases Nat.lt_or_ge c 0x10000 with hbasic | hastral
  · rw [asciiChar_of_le h hbasic]
    exact lowSurrogate_unicodeEscape hbasic hlow s
  · rw [asciiChar_astral hastral, List.append_assoc]
    refine lowSurrogate_unicodeEscape (by omega) ?_ _
    simp only [isLowSurrogate, Bool.and_eq_false_iff, decide_eq_false_iff_not]
    omega

/-- An escape that begins no pair is one character. -/
theorem readEscape_single {n : ℕ} {digits s : Str} (hn : hex4 digits = some (n, s))
    (hs : isHighSurrogate n = true → lowSurrogate s = none) : readEscape (0x75 :: digits) = some (n, s) := by
  rw [readEscape, hn, Option.bind_eq_bind, Option.bind_some]
  cases hhigh : isHighSurrogate n with
  | true =>
    change (0xD800 ≤ n && n ≤ 0xDBFF) = true at hhigh
    simp only [hhigh, if_true, hs hhigh]
  | false =>
    change (0xD800 ≤ n && n ≤ 0xDBFF) = false at hhigh
    simp only [hhigh, Bool.false_eq_true, if_false]

/-- A pair of escapes is one character. -/
theorem readEscape_pair {n v : ℕ} {digits s t : Str} (hn : hex4 digits = some (n, s)) (hhigh : isHighSurrogate n = true)
    (hs : lowSurrogate s = some (v, t)) :
    readEscape (0x75 :: digits) = some (0x10000 + (n - 0xD800) * 0x400 + (v - 0xDC00), t) := by
  change (0xD800 ≤ n && n ≤ 0xDBFF) = true at hhigh
  rw [readEscape, hn, Option.bind_eq_bind, Option.bind_some]
  simp only [hhigh, if_true, hs]

/-- What stands for one character costs the reader one step. -/
theorem scanString_asciiChar {c : ℕ} (hc : c < 0x110000) (fuel : ℕ) {s : Str}
    (hpair : isHighSurrogate c = true → lowSurrogate s = none) :
    scanString (fuel + 1) (asciiChar c ++ s) = (scanString fuel s).map fun r => (c :: r.1, r.2) := by
  have hescape : ∀ t, readEscape t = some (c, s) →
      scanString (fuel + 1) (0x5C :: t) = (scanString fuel s).map fun r => (c :: r.1, r.2) := by
    intro t ht
    rw [scanString, if_neg (by decide), if_pos rfl, ht]
    change (scanString fuel s).bind (fun r => some (c :: r.1, r.2)) = _
    cases scanString fuel s <;> rfl
  rcases Nat.lt_or_ge c 0x7F with h | h
  · rw [asciiChar_of_lt h]
    exact scanString_escapeChar fuel c s
  rcases Nat.lt_or_ge c 0x10000 with hbasic | hastral
  · rw [asciiChar_of_le h hbasic]
    exact hescape _ (readEscape_single (hex4_hexDigits hbasic s) hpair)
  · obtain ⟨high, hhigh⟩ : ∃ high, high = 0xD800 + (c - 0x10000) / 0x400 := ⟨_, rfl⟩
    obtain ⟨low, hlow⟩ : ∃ low, low = 0xDC00 + (c - 0x10000) % 0x400 := ⟨_, rfl⟩
    have hhigh' : isHighSurrogate high = true := by
      simp only [isHighSurrogate, Bool.and_eq_true, decide_eq_true_eq]
      omega
    have hlow' : isLowSurrogate low = true := by
      simp only [isLowSurrogate, Bool.and_eq_true, decide_eq_true_eq]
      omega
    have hpoint : 0x10000 + (high - 0xD800) * 0x400 + (low - 0xDC00) = c := by omega
    have hsecond := lowSurrogate_unicodeEscape_of_low (by omega) hlow' s
    rw [asciiChar_astral hastral, ← hhigh, ← hlow, List.append_assoc]
    have hread := readEscape_pair (hex4_hexDigits (by omega) _) hhigh' hsecond
    rw [hpoint] at hread
    exact hescape _ hread

/-- A text that has no pair of surrogates is read back up to its closing quote. -/
theorem scanString_flatMap_asciiChar {t : Str} (ht : Unpaired t) (s : Str) {fuel : ℕ} (h : t.length < fuel) :
    scanString fuel (t.flatMap asciiChar ++ 0x22 :: s) = some (t, s) := by
  induction t generalizing fuel with
  | nil =>
    obtain ⟨fuel, rfl⟩ := Nat.exists_eq_succ_of_ne_zero (Nat.ne_zero_of_lt h)
    simp [scanString]
  | cons c t ih =>
    obtain ⟨fuel, rfl⟩ := Nat.exists_eq_succ_of_ne_zero (Nat.ne_zero_of_lt h)
    have hpair : isHighSurrogate c = true → lowSurrogate (t.flatMap asciiChar ++ 0x22 :: s) = none := by
      intro hhigh
      cases t with
      | nil => rfl
      | cons d t =>
        rw [List.flatMap_cons, List.append_assoc]
        exact lowSurrogate_asciiChar (ht.tail.points d List.mem_cons_self) (ht.head hhigh) _
    rw [List.flatMap_cons, List.append_assoc, scanString_asciiChar (ht.points c List.mem_cons_self) fuel hpair,
      ih ht.tail (by simpa using h), Option.map_some]

/-- A quoted text in ASCII. -/
def asciiStr (s : Str) : Str := ensureAscii (dumpsStr s)

theorem asciiStr_eq (s : Str) : asciiStr s = 0x22 :: (s.flatMap asciiChar ++ [0x22]) := by
  change ensureAscii ([0x22] ++ s.flatMap escapeChar ++ [0x22]) = _
  rw [ensureAscii_append, ensureAscii_append, ensureAscii_flatMap_escapeChar]
  rfl

/-- Two quoted texts in front of anything are told apart. -/
theorem eq_of_asciiStr {k l s t : Str} (hk : Unpaired k) (hl : Unpaired l) (h : asciiStr k ++ s = asciiStr l ++ t) :
    k = l ∧ s = t := by
  rw [asciiStr_eq, asciiStr_eq] at h
  simp only [List.cons_append, List.append_assoc, List.nil_append, List.cons.injEq, true_and] at h
  have hread := scanString_flatMap_asciiChar hk s (Nat.lt_succ_of_le (Nat.le_max_left k.length l.length))
  rw [h, scanString_flatMap_asciiChar hl t (Nat.lt_succ_of_le (Nat.le_max_right k.length l.length))] at hread
  cases hread
  exact ⟨rfl, rfl⟩

variable {floatRepr : PyFloat → Str}

theorem ensureAscii_compactItems_cons (s : Str) (ss : List Str) :
    ensureAscii (compactItems floatRepr ((s :: ss).map .str)) =
      0x2C :: (asciiStr s ++ ensureAscii (compactItems floatRepr (ss.map .str))) := by
  change ensureAscii ([0x2C] ++ dumpsStr s ++ compactItems floatRepr (ss.map .str)) = _
  rw [ensureAscii_append, ensureAscii_append]
  rfl

/-- The texts behind the first one of an array are told apart. -/
theorem eq_of_asciiItems {ps qs : List Str} (hps : ∀ p ∈ ps, Unpaired p) (hqs : ∀ q ∈ qs, Unpaired q) {s t : Str}
    (h : ensureAscii (compactItems floatRepr (ps.map .str)) ++ s = ensureAscii (compactItems floatRepr (qs.map .str)) ++ t) :
    ps = qs ∧ s = t := by
  induction ps generalizing qs with
  | nil =>
    cases qs with
    | nil => exact ⟨rfl, (List.cons.inj h).2⟩
    | cons q qs =>
      rw [ensureAscii_compactItems_cons] at h
      exact absurd (List.cons.inj h).1 (by decide)
  | cons p ps ih =>
    cases qs with
    | nil =>
      rw [ensureAscii_compactItems_cons] at h
      exact absurd (List.cons.inj h).1 (by decide)
    | cons q qs =>
      obtain ⟨hp, hps'⟩ := List.forall_mem_cons.mp hps
      obtain ⟨hq, hqs'⟩ := List.forall_mem_cons.mp hqs
      simp only [ensureAscii_compactItems_cons, List.cons_append, List.append_assoc, List.cons.injEq, true_and] at h
      obtain ⟨hpq, hrest⟩ := eq_of_asciiStr hp hq h
      obtain ⟨hsame, hend⟩ := ih hps' hqs' hrest
      exact ⟨by rw [hpq, hsame], hend⟩

theorem ensureAscii_compact_cons (s : Str) (ss : List Str) :
    ensureAscii (compact floatRepr (.arr ((s :: ss).map .str))) =
      0x5B :: (asciiStr s ++ ensureAscii (compactItems floatRepr (ss.map .str))) := by
  change ensureAscii ([0x5B] ++ dumpsStr s ++ compactItems floatRepr (ss.map .str)) = _
  rw [ensureAscii_append, ensureAscii_append]
  rfl

/-- Two arrays of texts in front of anything are told apart. -/
theorem eq_of_asciiArray {ps qs : List Str} (hps : ∀ p ∈ ps, Unpaired p) (hqs : ∀ q ∈ qs, Unpaired q) {s t : Str}
    (h : ensureAscii (compact floatRepr (.arr (ps.map .str))) ++ s = ensureAscii (compact floatRepr (.arr (qs.map .str))) ++ t) :
    ps = qs ∧ s = t := by
  cases ps with
  | nil =>
    cases qs with
    | nil => exact ⟨rfl, (List.cons.inj (List.cons.inj h).2).2⟩
    | cons q qs =>
      rw [ensureAscii_compact_cons, asciiStr_eq] at h
      exact absurd (List.cons.inj (List.cons.inj h).2).1 (by decide)
  | cons p ps =>
    cases qs with
    | nil =>
      rw [ensureAscii_compact_cons, asciiStr_eq] at h
      exact absurd (List.cons.inj (List.cons.inj h).2).1 (by decide)
    | cons q qs =>
      -- behind the bracket, an item reads as behind a comma
      rw [ensureAscii_compact_cons, ensureAscii_compact_cons] at h
      have hitems : ensureAscii (compactItems floatRepr ((p :: ps).map .str)) ++ s =
          ensureAscii (compactItems floatRepr ((q :: qs).map .str)) ++ t := by
        rw [ensureAscii_compactItems_cons, ensureAscii_compactItems_cons]
        exact congrArg (0x2C :: ·) (List.cons.inj h).2
      exact eq_of_asciiItems hps hqs hitems

/-! ## What is read has no pairs -/

theorem hexValue_lt {c n : ℕ} (h : hexValue c = some n) : n < 16 := by
  unfold hexValue at h
  split at h
  · cases h
    omega
  split at h
  · cases h
    omega
  split at h
  · cases h
    omega
  · cases h

theorem hex4_eq_some {s t : Str} {n : ℕ} (h : hex4 s = some (n, t)) : n < 0x10000 ∧ t <:+ s := by
  match s, h with
  | a :: b :: c :: d :: s, h =>
    simp only [hex4, Option.bind_eq_bind, Option.bind_eq_some_iff, Option.some.injEq, Prod.mk.injEq] at h
    obtain ⟨p, hp, q, hq, r, hr, u, hu, hn, rfl⟩ := h
    have hp := hexValue_lt hp
    have hq := hexValue_lt hq
    have hr := hexValue_lt hr
    have hu := hexValue_lt hu
    exact ⟨by omega, [a, b, c, d], rfl⟩

theorem lowSurrogate_eq_some {s t : Str} {n : ℕ} (h : lowSurrogate s = some (n, t)) : isLowSurrogate n = true ∧ t <:+ s := by
  unfold lowSurrogate at h
  split at h
  · obtain ⟨hn, hlow⟩ := Option.filter_eq_some_iff.mp h
    exact ⟨hlow, (hex4_eq_some hn).2.trans ((List.suffix_cons _ _).trans (List.suffix_cons _ _))⟩
  · cases h

/-- An escape leaves a suffix; a high surrogate stays alone only if no low one follows, and a low one is an escape of its
own. -/
theorem readEscape_eq_some {s t : Str} {u : ℕ} (h : readEscape s = some (u, t)) :
    u < 0x110000 ∧ t <:+ s ∧ (isHighSurrogate u = true → lowSurrogate t = none) ∧
      (isLowSurrogate u = true → lowSurrogate (0x5C :: s) ≠ none) := by
  have hplain : ∀ (letter d : ℕ) (s' : Str), s = letter :: s' → some (d, s') = some (u, t) → d < 0x80 →
      u < 0x110000 ∧ t <:+ s ∧ (isHighSurrogate u = true → lowSurrogate t = none) ∧
        (isLowSurrogate u = true → lowSurrogate (0x5C :: s) ≠ none) := by
    intro letter d s' hs heq hd
    cases heq
    refine ⟨by omega, hs ▸ List.suffix_cons letter t, fun hhigh => ?_, fun hlow => ?_⟩
    · simp only [isHighSurrogate, Bool.and_eq_true, decide_eq_true_eq] at hhigh
      omega
    · simp only [isLowSurrogate, Bool.and_eq_true, decide_eq_true_eq] at hlow
      omega
  obtain _ | ⟨c, s⟩ := s
  · cases h
  by_cases hc : c = 0x75
  · subst hc
    cases hn : hex4 s with
    | none =>
      rw [readEscape, hn] at h
      cases h
    | some r =>
      obtain ⟨n, s'⟩ := r
      obtain ⟨hlt, hsuffix⟩ := hex4_eq_some hn
      have hbehind : s' <:+ 0x75 :: s := hsuffix.trans (List.suffix_cons _ _)
      by_cases hpair : isHighSurrogate n = true ∧ lowSurrogate s' ≠ none
      · obtain ⟨hhigh, hpair⟩ := hpair
        obtain ⟨⟨v, s''⟩, hlow⟩ := Option.ne_none_iff_exists'.mp hpair
        obtain ⟨hv, hrest⟩ := lowSurrogate_eq_some hlow
        rw [readEscape_pair hn hhigh hlow] at h
        obtain ⟨rfl, rfl⟩ := Prod.mk.inj (Option.some.inj h)
        simp only [isHighSurrogate, isLowSurrogate, Bool.and_eq_true, decide_eq_true_eq] at hhigh hv ⊢
        refine ⟨by omega, hrest.trans hbehind, by omega, by omega⟩
      · have hsingle : isHighSurrogate n = true → lowSurrogate s' = none := fun hhigh => by
          by_contra hne
          exact hpair ⟨hhigh, hne⟩
        rw [readEscape_single hn hsingle] at h
        cases h
        refine ⟨by omega, hbehind, hsingle, fun hlow => ?_⟩
        change (hex4 s).filter (fun r => isLowSurrogate r.1) ≠ none
        rw [hn, Option.filter_some, if_pos hlow]
        exact Option.some_ne_none _
  · unfold readEscape at h
    split at h
    · next heq => exact hplain _ _ _ heq h (by decide)
    · next heq => exact hplain _ _ _ heq h (by decide)
    · next heq => exact hplain _ _ _ heq h (by decide)
    · next heq => exact hplain _ _ _ heq h (by decide)
    · next heq => exact hplain _ _ _ heq h (by decide)
    · next heq => exact hplain _ _ _ heq h (by decide)
    · next heq => exact hplain _ _ _ heq h (by decide)
    · next heq => exact hplain _ _ _ heq h (by decide)
    · next heq => exact absurd (List.cons.inj heq).1 hc
    · cases h

/-- A scanned string has no pair of surrogates, and starts with a low one only if the text does. -/
theorem unpaired_of_scanString {fuel : ℕ} {s t rest : Str} (h : scanString fuel s = some (t, rest)) (hs : Encodable s) :
    (Unpaired t ∧ rest <:+ s) ∧ ∀ d u, t = d :: u → isLowSurrogate d = true → lowSurrogate s ≠ none := by
  induction fuel generalizing s t with
  | zero => cases h
  | succ fuel ih =>
    cases s with
    | nil => cases h
    | cons c s =>
      obtain ⟨hc, htail⟩ := List.forall_mem_cons.mp hs
      rw [scanString] at h
      split at h
      · cases h
        refine ⟨⟨.nil, List.suffix_cons c rest⟩, ?_⟩
        rintro d u ⟨⟩
      split at h
      · next hbackslash =>
        subst hbackslash
        simp only [Option.bind_eq_bind, Option.bind_eq_some_iff, Option.some.injEq, Prod.mk.injEq] at h
        obtain ⟨⟨u, s'⟩, hescape, ⟨t', rest'⟩, hrest, rfl, rfl⟩ := h
        obtain ⟨hpoint, hsuffix, hhigh, hlow⟩ := readEscape_eq_some hescape
        obtain ⟨⟨hunpaired, hrest⟩, hhead⟩ := ih hrest fun d hd => htail d (hsuffix.subset hd)
        refine ⟨⟨hunpaired.cons hpoint fun hu d w heq => ?_, hrest.trans (hsuffix.trans (List.suffix_cons _ _))⟩, ?_⟩
        · cases hd : isLowSurrogate d with
          | true => exact absurd (hhigh hu) (hhead d w heq hd)
          | false => rfl
        · rintro d w heq hd
          cases heq
          exact hlow hd
      split at h
      · cases h
      · simp only [Option.bind_eq_bind, Option.bind_eq_some_iff, Option.some.injEq, Prod.mk.injEq] at h
        obtain ⟨⟨t', rest'⟩, hrest, rfl, rfl⟩ := h
        obtain ⟨hpoint, hscalar⟩ := isSome_utf8Char_iff.mp hc
        obtain ⟨⟨hunpaired, hrest⟩, -⟩ := ih hrest htail
        refine ⟨⟨hunpaired.cons hpoint fun hhigh => ?_, hrest.trans (List.suffix_cons _ _)⟩, ?_⟩
        · simp only [isHighSurrogate, Bool.and_eq_true, decide_eq_true_eq] at hhigh
          omega
        · rintro d w heq hd
          cases heq
          simp only [isLowSurrogate, Bool.and_eq_true, decide_eq_true_eq] at hd
          omega

theorem skipSpace_suffix (s : Str) : skipSpace s <:+ s := List.dropWhile_suffix _

theorem mem_of_mem_dictOf {pairs : List (Str × Json)} {f : Str × Json} (h : f ∈ dictOf pairs) : f ∈ pairs := by
  have hfold : ∀ (rest done : List (Str × Json)), f ∈ rest.foldl (fun d f => setItem d f.1 f.2) done → f ∈ done ∨ f ∈ rest := by
    intro rest
    induction rest with
    | nil => exact fun _ h => .inl h
    | cons g rest ih =>
      intro done h
      rcases ih _ h with h | h
      · change f ∈ setItem done g.1 g.2 at h
        unfold setItem at h
        split at h
        · obtain ⟨e, he, heq⟩ := List.mem_map.mp h
          split at heq
          · exact .inr (heq ▸ List.mem_cons_self)
          · exact .inl (heq ▸ he)
        · rcases List.mem_append.mp h with h | h
          · exact .inl h
          · exact .inr (List.mem_singleton.mp h ▸ List.mem_cons_self)
      · exact .inr (List.mem_cons_of_mem _ h)
  rcases hfold pairs [] h with h | h
  · cases h
  · exact h

/-- What was read from a text: its texts have no pair of surrogates, and a suffix is left. -/
structure ReadFrom (s : Str) (texts : List Str) (rest : Str) : Prop where
  unpaired : ∀ t ∈ texts, Unpaired t
  suffix : rest <:+ s

theorem ReadFrom.behind {s s' : Str} {texts : List Str} {rest : Str} (h : ReadFrom s texts rest) (hs : s <:+ s') :
    ReadFrom s' texts rest := ⟨h.unpaired, h.suffix.trans hs⟩

theorem scanFraction_suffix (s : Str) : (scanFraction s).2 <:+ s := by
  unfold scanFraction
  split
  · split
    · exact List.suffix_refl _
    · exact (List.dropWhile_suffix _).trans (List.suffix_cons _ _)
  · exact List.suffix_refl _

theorem scanExponent_suffix (s : Str) : (scanExponent s).2 <:+ s := by
  unfold scanExponent
  split
  · next e t =>
    split
    · split
      next negative digits hsign =>
      have hdigits : digits <:+ t := by
        split at hsign
        · cases hsign
          exact List.suffix_cons _ _
        · cases hsign
          exact List.suffix_cons _ _
        · cases hsign
          exact List.suffix_refl _
      dsimp only
      split
      · exact List.suffix_refl _
      · exact (List.dropWhile_suffix _).trans (hdigits.trans (List.suffix_cons _ _))
    · exact List.suffix_refl _
  · exact List.suffix_refl _

theorem scanNumber_suffix {negative : Bool} {s rest : Str} {v : Json} (h : scanNumber negative s = .ok (v, rest)) :
    ReadFrom s v.texts rest := by
  unfold scanNumber at h
  split at h
  · cases h
  · next d ds hdigits =>
    extract_lets whole at h
    have hfraction := scanFraction_suffix (s.drop whole.length)
    generalize scanFraction (s.drop whole.length) = scanned at h hfraction
    obtain ⟨fraction, s₁⟩ := scanned
    have hexponent := scanExponent_suffix s₁
    dsimp only at h
    generalize scanExponent s₁ = scanned at h hexponent
    obtain ⟨exponent, s₂⟩ := scanned
    have hsuffix : s₂ <:+ s := hexponent.trans (hfraction.trans (List.drop_suffix _ _))
    dsimp only at h
    split at h
    · split at h
      · cases h
      · cases h
        exact ⟨List.forall_mem_nil _, hsuffix⟩
    · cases h
      exact ⟨List.forall_mem_nil _, hsuffix⟩

theorem eq_some_of_orElse {α : Type} {o : Option α} {f : Unit → Option α} {a : α} (h : o.orElse f = some a) :
    o = some a ∨ f () = some a := by
  cases o with
  | none => exact .inr h
  | some b => exact .inl h

theorem scanConstant_suffix {s rest : Str} {v : Json} (h : scanConstant s = some (v, rest)) : ReadFrom s v.texts rest := by
  have hword : ∀ (word : Str) (w : Json), w.texts = [] → (after? word s).map (Prod.mk w) = some (v, rest) →
      ReadFrom s v.texts rest := by
    intro word w hw heq
    obtain ⟨t, ht, heq⟩ := Option.map_eq_some_iff.mp heq
    cases heq
    unfold after? at ht
    split at ht
    · cases ht
      exact ⟨hw ▸ List.forall_mem_nil _, List.drop_suffix _ _⟩
    · cases ht
  unfold scanConstant at h
  rcases eq_some_of_orElse h with h | h
  · exact hword _ _ rfl h
  rcases eq_some_of_orElse h with h | h
  · exact hword _ _ rfl h
  rcases eq_some_of_orElse h with h | h
  · exact hword _ _ rfl h
  rcases eq_some_of_orElse h with h | h
  · exact hword _ _ rfl h
  rcases eq_some_of_orElse h with h | h
  · exact hword _ _ rfl h
  · exact hword _ _ rfl h

/-- The readers of values, of items and of members, at some fuel. -/
def ValuesRead (fuel : ℕ) : Prop := ∀ depth s v rest, scanValue fuel depth s = .ok (v, rest) → Encodable s →
  ReadFrom s v.texts rest

def ItemsRead (fuel : ℕ) : Prop := ∀ depth s vs rest, scanItems fuel depth s = .ok (vs, rest) → Encodable s →
  ReadFrom s (Json.textsItems vs) rest

def FieldsRead (fuel : ℕ) : Prop := ∀ depth s fs rest, scanFields fuel depth s = .ok (fs, rest) → Encodable s →
  ReadFrom s (Json.textsFields fs) rest

theorem Encodable.suffix {s t : Str} (h : Encodable s) (ht : t <:+ s) : Encodable t := fun c hc => h c (ht.subset hc)

theorem valuesRead_succ {fuel : ℕ} (hitems : ItemsRead fuel) (hfields : FieldsRead fuel) : ValuesRead (fuel + 1) := by
  intro depth s v rest h hs
  obtain _ | ⟨c, s⟩ := s
  · cases h
  have htail : Encodable s := hs.suffix (List.suffix_cons c s)
  have hspace : skipSpace s <:+ c :: s := (skipSpace_suffix s).trans (List.suffix_cons c s)
  rw [scanValue] at h
  split at h
  · split at h
    · next t s' hstring =>
      cases h
      obtain ⟨⟨hunpaired, hsuffix⟩, -⟩ := unpaired_of_scanString hstring htail
      exact ⟨fun u hu => List.mem_singleton.mp hu ▸ hunpaired, hsuffix.trans (List.suffix_cons _ _)⟩
    · cases h
  split at h
  · split at h
    · cases h
    split at h
    · next s' hempty =>
      cases h
      exact ⟨List.forall_mem_nil _, (List.suffix_cons _ _).trans (hempty ▸ hspace)⟩
    · next =>
      cases hscan : scanItems fuel (depth - 1) (skipSpace s) with
      | error e =>
        rw [hscan] at h
        cases h
      | ok r =>
        rw [hscan] at h
        cases h
        exact (hitems _ _ _ _ hscan (hs.suffix hspace)).behind hspace
  split at h
  · split at h
    · cases h
    split at h
    · next s' hempty =>
      cases h
      exact ⟨List.forall_mem_nil _, (List.suffix_cons _ _).trans (hempty ▸ hspace)⟩
    · next =>
      cases hscan : scanFields fuel (depth - 1) (skipSpace s) with
      | error e =>
        rw [hscan] at h
        cases h
      | ok r =>
        rw [hscan] at h
        cases h
        obtain ⟨hunpaired, hsuffix⟩ := (hfields _ _ _ _ hscan (hs.suffix hspace)).behind hspace
        refine ⟨fun t ht => ?_, hsuffix⟩
        obtain ⟨f, hf, ht⟩ := Json.mem_textsFields.mp ht
        exact hunpaired t (Json.mem_textsFields.mpr ⟨f, mem_of_mem_dictOf hf, ht⟩)
  split at h
  · next r hconstant =>
    cases h
    exact scanConstant_suffix hconstant
  · split at h
    · exact (scanNumber_suffix h).behind (List.suffix_cons c s)
    · exact scanNumber_suffix h
theorem itemsRead_succ {fuel : ℕ} (hvalue : ValuesRead fuel) (hitems : ItemsRead fuel) : ItemsRead (fuel + 1) := by
  intro depth s vs rest h hs
  rw [scanItems] at h
  obtain ⟨⟨v, s'⟩, hv, h⟩ := bind_eq_ok_iff.mp h
  obtain ⟨hunpaired, hsuffix⟩ := hvalue _ _ _ _ hv hs
  have hspace : skipSpace s' <:+ s := (skipSpace_suffix s').trans hsuffix
  dsimp only at h
  split at h
  · next s'' hclosed =>
    cases h
    refine ⟨fun t ht => hunpaired t ?_, (List.suffix_cons _ _).trans (hclosed ▸ hspace)⟩
    simpa only [Json.textsItems, List.append_nil] using ht
  · next s'' hcomma =>
    have hnext : skipSpace s'' <:+ s :=
      (skipSpace_suffix s'').trans ((List.suffix_cons _ _).trans (hcomma ▸ hspace))
    obtain ⟨⟨ws, r⟩, hws, h⟩ := bind_eq_ok_iff.mp h
    cases h
    obtain ⟨hrest, hend⟩ := (hitems _ _ _ _ hws (hs.suffix hnext)).behind hnext
    refine ⟨fun t ht => ?_, hend⟩
    rcases List.mem_append.mp ht with ht | ht
    · exact hunpaired t ht
    · exact hrest t ht
  · cases h
theorem fieldsRead_succ {fuel : ℕ} (hvalue : ValuesRead fuel) (hfields : FieldsRead fuel) : FieldsRead (fuel + 1) := by
  intro depth s fs rest h hs
  unfold scanFields at h
  split at h
  · next s =>
    have htail : Encodable s := hs.suffix (List.suffix_cons _ s)
    split at h
    · cases h
    · next k s' hkey =>
      obtain ⟨⟨hk, hsuffix⟩, -⟩ := unpaired_of_scanString hkey htail
      have hbehind : s' <:+ 0x22 :: s := hsuffix.trans (List.suffix_cons _ _)
      split at h
      · next s₁ hcolon =>
        have hnext : skipSpace s₁ <:+ 0x22 :: s :=
          (skipSpace_suffix s₁).trans ((List.suffix_cons _ _).trans (hcolon ▸ (skipSpace_suffix s').trans hbehind))
        obtain ⟨⟨v, s₂⟩, hv, h⟩ := bind_eq_ok_iff.mp h
        obtain ⟨hunpaired, hend⟩ := (hvalue _ _ _ _ hv (hs.suffix hnext)).behind hnext
        have hspace : skipSpace s₂ <:+ 0x22 :: s := (skipSpace_suffix s₂).trans hend
        dsimp only at h
        split at h
        · next s₃ hclosed =>
          cases h
          refine ⟨fun t ht => ?_, (List.suffix_cons _ _).trans (hclosed ▸ hspace)⟩
          rcases List.mem_cons.mp ht with rfl | ht
          · exact hk
          · exact hunpaired t (by simpa only [Json.textsFields, List.append_nil] using ht)
        · next s₃ hcomma =>
          have hrest : skipSpace s₃ <:+ 0x22 :: s :=
            (skipSpace_suffix s₃).trans ((List.suffix_cons _ _).trans (hcomma ▸ hspace))
          obtain ⟨⟨gs, r⟩, hgs, h⟩ := bind_eq_ok_iff.mp h
          cases h
          obtain ⟨hothers, hleft⟩ := (hfields _ _ _ _ hgs (hs.suffix hrest)).behind hrest
          refine ⟨fun t ht => ?_, hleft⟩
          rcases List.mem_cons.mp ht with rfl | ht
          · exact hk
          rcases List.mem_append.mp ht with ht | ht
          · exact hunpaired t ht
          · exact hothers t ht
        · cases h
      · cases h
  · cases h

/-- What is read at any fuel was read from the text. -/
theorem read_of_scan (fuel : ℕ) : ValuesRead fuel ∧ ItemsRead fuel ∧ FieldsRead fuel := by
  induction fuel with
  | zero =>
    refine ⟨fun _ _ _ _ h => ?_, fun _ _ _ _ h => ?_, fun _ _ _ _ h => ?_⟩
    all_goals cases h
  | succ fuel ih =>
    obtain ⟨hvalue, hitems, hfields⟩ := ih
    exact ⟨valuesRead_succ hitems hfields, itemsRead_succ hvalue hitems, fieldsRead_succ hvalue hfields⟩

/-- `json.loads` of a text without surrogates gives no text with a pair of them. -/
theorem unpaired_of_loads {recursionLimit : ℕ} {s : Str} {v : Json} (h : loads recursionLimit s = .ok v)
    (hs : Encodable s) : ∀ t ∈ v.texts, Unpaired t := by
  obtain ⟨⟨w, rest⟩, hscan, h⟩ := bind_eq_ok_iff.mp h
  dsimp only at h
  split at h
  · cases h
    exact ((read_of_scan _).1 _ _ _ _ hscan (hs.suffix (skipSpace_suffix s))).unpaired
  · cases h

end NeuroLab.Python
