import Mathlib.Data.List.TakeWhile
import NeuroLab.Python.JsonRoundTrip

/-!
# The `uuid` module of the standard library

`parseUuid` is `uuid.UUID(text)`: the URN words, braces and hyphens go, thirty-two
characters must be left, and those are read by `int(text, 16)` with everything that
function tolerates (surrounding whitespace, a plus sign, a `0x`, single underscores,
the decimal digits of any script). `uuidText` is `str` of a UUID.
-/

namespace NeuroLab.Python

/-- A 128-bit identifier. -/
abbrev Uuid := BitVec 128

instance : LawfulBEq Uuid := inferInstance

/-! ## Writing -/

/-- The lowest `k` hexadecimal digits of a number, the highest one first. -/
def hexDigits : ℕ → ℕ → Str
  | 0, _ => []
  | k + 1, n => hexDigits k (n / 16) ++ [hexDigit (n % 16)]

/-- `str(uuid)`: groups of 8, 4, 4, 4 and 12 digits. -/
def uuidText (u : Uuid) : Str :=
  let d := hexDigits 32 u.toNat
  d.take 8 ++ 0x2D :: ((d.drop 8).take 4 ++ 0x2D :: ((d.drop 12).take 4 ++
    0x2D :: ((d.drop 16).take 4 ++ 0x2D :: d.drop 20)))

/-! ## Reading -/

/-- `str.replace(word, "")`, with a count of the characters still to drop. -/
def removeWord (word : Str) : ℕ → Str → Str
  | _, [] => []
  | skip + 1, _ :: s => removeWord word skip s
  | 0, c :: s =>
    if word.isPrefixOf (c :: s) then removeWord word (word.length - 1) s
    else c :: removeWord word 0 s

/-- `str.strip`, for a set of characters. -/
def strip (p : ℕ → Bool) (s : Str) : Str := ((s.dropWhile p).reverse.dropWhile p).reverse

/-- The zeros of the decimal digit runs outside ASCII. -/
def decimalZeros : List ℕ :=
  [0x660, 0x6F0, 0x7C0, 0x966, 0x9E6, 0xA66, 0xAE6, 0xB66, 0xBE6, 0xC66, 0xCE6, 0xD66, 0xDE6,
    0xE50, 0xED0, 0xF20, 0x1040, 0x1090, 0x17E0, 0x1810, 0x1946, 0x19D0, 0x1A80, 0x1A90, 0x1B50,
    0x1BB0, 0x1C40, 0x1C50, 0xA620, 0xA8D0, 0xA900, 0xA9D0, 0xA9F0, 0xAA50, 0xABF0, 0xFF10,
    0x104A0, 0x10D30, 0x11066, 0x110F0, 0x11136, 0x111D0, 0x112F0, 0x11450, 0x114D0, 0x11650,
    0x116C0, 0x11730, 0x118E0, 0x11950, 0x11C50, 0x11D50, 0x11DA0, 0x11F50, 0x16A60, 0x16AC0,
    0x16B50, 0x1D7CE, 0x1D7D8, 0x1D7E2, 0x1D7EC, 0x1D7F6, 0x1E140, 0x1E2F0, 0x1E4F0, 0x1E950,
    0x1FBF0]

/-- The whitespace of `str.isspace` outside ASCII. -/
def isWideSpace (c : ℕ) : Bool :=
  c ∈ [0x85, 0xA0, 0x1680, 0x2028, 0x2029, 0x202F, 0x205F, 0x3000] || (0x2000 ≤ c && c ≤ 0x200A)

/-- How `int` sees a character: foreign spaces and digits become ASCII, the rest a `?`. -/
def toAscii (c : ℕ) : ℕ :=
  if c < 0x80 then c
  else if isWideSpace c then 0x20
  else match decimalZeros.find? fun z => z ≤ c && c < z + 10 with
    | some z => 0x30 + (c - z)
    | none => 0x3F

/-- The six characters of `isspace` in C. -/
def isAsciiSpace (c : ℕ) : Bool := c = 0x20 || (0x09 ≤ c && c ≤ 0x0D)

/-- Leave out a plus sign. -/
def dropSign : Str → Str
  | 0x2B :: s => s
  | s => s

/-- Leave out a `0x` and the underscore that may follow it. -/
def dropRadix : Str → Str
  | 0x30 :: x :: s =>
    if x = 0x78 ∨ x = 0x58 then
      match s with
      | 0x5F :: s => s
      | s => s
    else 0x30 :: x :: s
  | s => s

/-- Digits with single underscores between them; the flag bars an underscore here. -/
def wellSpaced : Bool → Str → Bool
  | barred, [] => !barred
  | barred, c :: s => if c = 0x5F then !barred && wellSpaced true s else wellSpaced false s

/-- Part of a base-16 literal. -/
def isHexPart (c : ℕ) : Bool := (hexValue c).isSome || c = 0x5F

/-- `int(text, 16)`, for a text without hyphens and hence without a minus sign. -/
def intBase16 (s : Str) : Option ℕ :=
  let s := dropRadix (dropSign ((s.map toAscii).dropWhile isAsciiSpace))
  let digits := s.takeWhile isHexPart
  if wellSpaced true digits && (s.dropWhile isHexPart).all isAsciiSpace then
    some ((digits.filterMap hexValue).foldl (fun n d => 16 * n + d) 0)
  else none

/-- `uuid.UUID(text)`; a failure is a `ValueError`. -/
def parseUuid (s : Str) : Option Uuid :=
  let hex := removeWord (lit "uuid:") 0 (removeWord (lit "urn:") 0 s)
  let hex := (strip (fun c => c = 0x7B || c = 0x7D) hex).filter (· ≠ 0x2D)
  if hex.length = 32 then (intBase16 hex).map (BitVec.ofNat 128) else none

/-! ## The canonical text is read back -/

/-- A digit the printer uses. -/
def isLowerHex (c : ℕ) : Bool := (0x30 ≤ c && c ≤ 0x39) || (0x61 ≤ c && c ≤ 0x66)

theorem isLowerHex_hexDigit {n : ℕ} (h : n < 16) : isLowerHex (hexDigit n) = true := by
  have hall : ∀ m, m < 16 → isLowerHex (hexDigit m) = true := by decide
  exact hall n h

theorem hexDigits_length (k n : ℕ) : (hexDigits k n).length = k := by
  induction k generalizing n with
  | zero => rfl
  | succ k ih => simp [hexDigits, ih]

theorem isLowerHex_of_mem_hexDigits {k n c : ℕ} (h : c ∈ hexDigits k n) : isLowerHex c = true := by
  induction k generalizing n with
  | zero => exact absurd h List.not_mem_nil
  | succ k ih =>
    rcases List.mem_append.mp h with h | h
    · exact ih h
    · rw [List.mem_singleton.mp h]
      exact isLowerHex_hexDigit (Nat.mod_lt n (by decide))

/-- What the digits of the printer are not. -/
theorem isLowerHex_excludes {c : ℕ} (h : isLowerHex c = true) :
    c < 0x80 ∧ c ≠ 0x2B ∧ c ≠ 0x2D ∧ c ≠ 0x5F ∧ c ≠ 0x75 ∧ c ≠ 0x78 ∧ c ≠ 0x58 ∧ c ≠ 0x7B ∧ c ≠ 0x7D ∧
      isAsciiSpace c = false := by
  simp only [isLowerHex, Bool.or_eq_true, Bool.and_eq_true, decide_eq_true_eq] at h
  simp only [isAsciiSpace, Bool.or_eq_false_iff, Bool.and_eq_false_iff, decide_eq_false_iff_not]
  omega

/-- Reading the printed digits gives the number back, modulo the digits left out. -/
theorem foldl_hexDigits (k n : ℕ) :
    ((hexDigits k n).filterMap hexValue).foldl (fun n d => 16 * n + d) 0 = n % 16 ^ k := by
  induction k generalizing n with
  | zero => simp [hexDigits, Nat.mod_one]
  | succ k ih =>
    have hdigit := hexValue_hexDigit (Nat.mod_lt n (by decide : 0 < 16))
    have hsplit : n % 16 ^ (k + 1) = n % 16 + 16 * (n / 16 % 16 ^ k) := by
      rw [Nat.pow_succ, Nat.mul_comm, Nat.mod_mul]
    simp only [hexDigits, List.filterMap_append, List.foldl_append, ih]
    simp only [List.filterMap_cons, hdigit, List.filterMap_nil, List.foldl_cons, List.foldl_nil]
    omega

/-- A word whose first letter does not occur is not found. -/
theorem removeWord_of_notMem {c : ℕ} {word s : Str} (h : c ∉ s) :
    removeWord (c :: word) 0 s = s := by
  induction s with
  | nil => rfl
  | cons d s ih =>
    obtain ⟨hd, hs⟩ := not_or.mp (fun hmem => h (List.mem_cons.mpr hmem))
    have hmiss : (c :: word).isPrefixOf (d :: s) = false := by simp [List.isPrefixOf, hd]
    rw [removeWord, hmiss, ih hs]
    rfl

/-- Nothing is dropped in front of a text without such characters. -/
theorem dropWhile_of_forall {p : ℕ → Bool} {s : Str} (h : ∀ c ∈ s, p c = false) :
    s.dropWhile p = s := by
  cases s with
  | nil => rfl
  | cons c s => simp [h c List.mem_cons_self]

theorem strip_of_forall {p : ℕ → Bool} {s : Str} (h : ∀ c ∈ s, p c = false) : strip p s = s := by
  have hrev : ∀ c ∈ s.reverse, p c = false := fun c hc => h c (List.mem_reverse.mp hc)
  rw [strip, dropWhile_of_forall h, dropWhile_of_forall hrev, List.reverse_reverse]

/-- Digits alone are well spaced. -/
theorem wellSpaced_of_forall {s : Str} (h : ∀ c ∈ s, c ≠ 0x5F) (hs : s ≠ []) (barred : Bool) :
    wellSpaced barred s = true := by
  induction s generalizing barred with
  | nil => exact absurd rfl hs
  | cons c s ih =>
    rw [wellSpaced, if_neg (h c List.mem_cons_self)]
    cases s with
    | nil => rfl
    | cons d s => exact ih (fun e he => h e (List.mem_cons_of_mem c he)) (List.cons_ne_nil _ _) false

/-- Plain digits are read as the number they spell. -/
theorem intBase16_of_lowerHex {s : Str} (h : ∀ c ∈ s, isLowerHex c = true) (hs : s ≠ []) :
    intBase16 s = some ((s.filterMap hexValue).foldl (fun n d => 16 * n + d) 0) := by
  have hascii : s.map toAscii = s := by
    conv_rhs => rw [← List.map_id s]
    refine List.map_congr_left fun c hc => ?_
    exact if_pos (isLowerHex_excludes (h c hc)).1
  have hspace : s.dropWhile isAsciiSpace = s :=
    dropWhile_of_forall fun c hc => (isLowerHex_excludes (h c hc)).2.2.2.2.2.2.2.2.2
  have hsign : dropSign s = s := by
    unfold dropSign
    split
    · next t => exact absurd rfl (isLowerHex_excludes (h 0x2B List.mem_cons_self)).2.1
    · rfl
  have hradix : dropRadix s = s := by
    unfold dropRadix
    split
    · next x t =>
      have hx := isLowerHex_excludes (h x (List.mem_cons_of_mem _ List.mem_cons_self))
      rw [if_neg (not_or.mpr ⟨hx.2.2.2.2.2.1, hx.2.2.2.2.2.2.1⟩)]
    · rfl
  have hpart : ∀ c ∈ s, isHexPart c = true := by
    intro c hc
    have hlower := h c hc
    simp only [isLowerHex, Bool.or_eq_true, Bool.and_eq_true, decide_eq_true_eq] at hlower
    have hvalue : (hexValue c).isSome = true := by
      unfold hexValue
      rcases hlower with hdigit | hletter
      · rw [if_pos hdigit]
        rfl
      · rw [if_neg (by omega), if_pos hletter]
        rfl
    rw [isHexPart, hvalue, Bool.true_or]
  have htake : s.takeWhile isHexPart = s := List.takeWhile_eq_self_iff.mpr hpart
  have hdrop : s.dropWhile isHexPart = [] := List.dropWhile_eq_nil_iff.mpr hpart
  have hspaced := wellSpaced_of_forall (fun c hc => (isLowerHex_excludes (h c hc)).2.2.2.1) hs true
  simp only [intBase16, hascii, hspace, hsign, hradix, htake, hdrop, hspaced, List.all_nil,
    Bool.and_self, if_true]

/-- The groups of the canonical text make up the digits. -/
theorem groups_append (d : Str) :
    d.take 8 ++ ((d.drop 8).take 4 ++ ((d.drop 12).take 4 ++ ((d.drop 16).take 4 ++ d.drop 20))) =
      d := by
  have h20 : d.drop 20 = (d.drop 16).drop 4 := by rw [List.drop_drop]
  have h16 : d.drop 16 = (d.drop 12).drop 4 := by rw [List.drop_drop]
  have h12 : d.drop 12 = (d.drop 8).drop 4 := by rw [List.drop_drop]
  rw [h20, List.take_append_drop, h16, List.take_append_drop, h12, List.take_append_drop,
    List.take_append_drop]

/-- The characters of the canonical text are digits and hyphens. -/
theorem mem_uuidText {u : Uuid} {c : ℕ} (h : c ∈ uuidText u) : isLowerHex c = true ∨ c = 0x2D := by
  simp only [uuidText, List.mem_append, List.mem_cons] at h
  rcases h with h | rfl | h | rfl | h | rfl | h | rfl | h
  · exact Or.inl (isLowerHex_of_mem_hexDigits (List.mem_of_mem_take h))
  · exact Or.inr rfl
  · exact Or.inl (isLowerHex_of_mem_hexDigits (List.mem_of_mem_drop (List.mem_of_mem_take h)))
  · exact Or.inr rfl
  · exact Or.inl (isLowerHex_of_mem_hexDigits (List.mem_of_mem_drop (List.mem_of_mem_take h)))
  · exact Or.inr rfl
  · exact Or.inl (isLowerHex_of_mem_hexDigits (List.mem_of_mem_drop (List.mem_of_mem_take h)))
  · exact Or.inr rfl
  · exact Or.inl (isLowerHex_of_mem_hexDigits (List.mem_of_mem_drop h))

/-- Without its hyphens the canonical text is the thirty-two digits. -/
theorem filter_uuidText (u : Uuid) : (uuidText u).filter (· ≠ 0x2D) = hexDigits 32 u.toNat := by
  have hkeep : ∀ s : Str, (∀ c ∈ s, c ∈ hexDigits 32 u.toNat) → s.filter (· ≠ 0x2D) = s := by
    intro s hs
    refine List.filter_eq_self.mpr fun c hc => ?_
    simpa using (isLowerHex_excludes (isLowerHex_of_mem_hexDigits (hs c hc))).2.2.1
  have hhyphen : ∀ s : Str, (0x2D :: s).filter (· ≠ 0x2D) = s.filter (· ≠ 0x2D) := fun s => rfl
  simp only [uuidText, List.filter_append, hhyphen]
  rw [hkeep _ fun c hc => List.mem_of_mem_take hc,
    hkeep _ fun c hc => List.mem_of_mem_drop (List.mem_of_mem_take hc),
    hkeep _ fun c hc => List.mem_of_mem_drop (List.mem_of_mem_take hc),
    hkeep _ fun c hc => List.mem_of_mem_drop (List.mem_of_mem_take hc),
    hkeep _ fun c hc => List.mem_of_mem_drop hc]
  exact groups_append _

/-- `uuid.UUID(str(u)) == u`. -/
theorem parseUuid_uuidText (u : Uuid) : parseUuid (uuidText u) = some u := by
  have hnot : ∀ c ∈ uuidText u, c ≠ 0x75 ∧ c ≠ 0x7B ∧ c ≠ 0x7D := by
    intro c hc
    rcases mem_uuidText hc with h | rfl
    · obtain ⟨-, -, -, -, hu, -, -, hopen, hclose, -⟩ := isLowerHex_excludes h
      exact ⟨hu, hopen, hclose⟩
    · decide
  have hword : ∀ word, removeWord (0x75 :: word) 0 (uuidText u) = uuidText u := fun word =>
    removeWord_of_notMem fun hmem => (hnot _ hmem).1 rfl
  have hstrip : strip (fun c => c = 0x7B || c = 0x7D) (uuidText u) = uuidText u :=
    strip_of_forall fun c hc => by simp [hnot c hc]
  have hlit : lit "urn:" = 0x75 :: lit "rn:" ∧ lit "uuid:" = 0x75 :: lit "uid:" := by decide
  have hdigits := intBase16_of_lowerHex (s := hexDigits 32 u.toNat)
    (fun c hc => isLowerHex_of_mem_hexDigits hc)
    (List.ne_nil_of_length_pos (by rw [hexDigits_length]; decide))
  simp only [parseUuid, hlit.1, hlit.2, hword, hstrip, filter_uuidText, hexDigits_length, if_true]
  rw [hdigits, foldl_hexDigits, Option.map_some]
  have hlt : u.toNat < 16 ^ 32 := u.isLt
  rw [Nat.mod_eq_of_lt hlt, BitVec.ofNat_toNat, BitVec.setWidth_eq]

/-- Distinct identifiers have distinct texts. -/
theorem uuidText_injective {u v : Uuid} (h : uuidText u = uuidText v) : u = v :=
  Option.some.inj (by rw [← parseUuid_uuidText u, h, parseUuid_uuidText])

/-- The digits of a number in two parts. -/
theorem hexDigits_add (a b n : ℕ) : hexDigits (a + b) n = hexDigits a (n / 16 ^ b) ++ hexDigits b n := by
  induction b generalizing n with
  | zero => simp [hexDigits]
  | succ b ih =>
    have hdiv : n / 16 / 16 ^ b = n / 16 ^ (b + 1) := by rw [Nat.div_div_eq_div_mul, pow_succ']
    rw [← Nat.add_assoc, hexDigits, ih, hdiv, List.append_assoc]
    rfl

/-- The groups of the canonical text. -/
theorem uuidText_eq (u : Uuid) :
    uuidText u = hexDigits 8 (u.toNat / 16 ^ 24) ++ 0x2D :: (hexDigits 4 (u.toNat / 16 ^ 20) ++
      0x2D :: (hexDigits 4 (u.toNat / 16 ^ 16) ++ 0x2D :: (hexDigits 4 (u.toNat / 16 ^ 12) ++
        0x2D :: hexDigits 12 u.toNat))) := by
  have htake : ∀ i j k, ((hexDigits (i + (j + k)) u.toNat).drop i).take j = hexDigits j (u.toNat / 16 ^ k) := by
    intro i j k
    rw [hexDigits_add, List.drop_left' (hexDigits_length _ _), hexDigits_add, List.take_left' (hexDigits_length _ _)]
  have hdrop : (hexDigits 32 u.toNat).drop 20 = hexDigits 12 u.toNat := by
    rw [hexDigits_add 20 12, List.drop_left' (hexDigits_length _ _)]
  have h8 := htake 0 8 24
  rw [List.drop_zero] at h8
  rw [uuidText, hdrop, ← h8, ← htake 8 4 20, ← htake 12 4 16, ← htake 16 4 12]

/-- Printed digits do not start with a hyphen or a brace. -/
theorem head?_hexDigits (k v : ℕ) (t : Str) :
    (hexDigits (k + 1) v ++ t).head? ≠ some 0x2D ∧ (hexDigits (k + 1) v ++ t).head? ≠ some 0x7B := by
  have hlower : ∀ c, (hexDigits (k + 1) v ++ t).head? = some c → isLowerHex c = true := by
    intro c hc
    have hne : hexDigits (k + 1) v ≠ [] := List.ne_nil_of_length_pos (by rw [hexDigits_length]; omega)
    rw [List.head?_append_of_ne_nil _ hne] at hc
    exact isLowerHex_of_mem_hexDigits (List.mem_of_mem_head? hc)
  exact ⟨fun hc => absurd (hlower _ hc) (by decide), fun hc => absurd (hlower _ hc) (by decide)⟩

end NeuroLab.Python
