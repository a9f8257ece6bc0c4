import Mathlib.Algebra.Order.Floor.Ring
import Mathlib.Data.Rat.Floor
import NeuroLab.Python.Reordered
import NeuroLab.Python.Text

/-!
# Column types

What PostgreSQL stores for a parameter that psycopg sends as text or as a number; `none`
fails the statement. Text holds every character but NUL and the surrogates. A `CHAR(64)`
is padded with spaces and compared without them. Numbers are exact.
-/

namespace NeuroLab.Postgres

open Python

/-! ## Text -/

/-- Text a column can hold. -/
def storable (s : Str) : Bool := s.all fun c => c ≠ 0 && !(0xD800 ≤ c && c ≤ 0xDFFF) && decide (c < 0x110000)

/-- A `TEXT` parameter. -/
def text (s : Str) : Option Str := if storable s then some s else none

/-- Text without the spaces at its end. -/
def trimEnd (s : Str) : Str := (s.reverse.dropWhile (· = 0x20)).reverse

/-- A `CHAR(64)` parameter, padded. -/
def char64 (s : Str) : Option Str :=
  let t := trimEnd s
  if storable t && t.length ≤ 64 then some (t ++ List.replicate (64 - t.length) 0x20) else none

/-- An array of texts, also as `jsonb`. -/
def texts (ss : List Str) : Option (List Str) := if ss.all storable then some ss else none

/-- Text that can be stored is stored as it is. -/
theorem text_eq_some {s t : Str} (h : text s = some t) : t = s := by
  unfold text at h
  split at h
  · exact (Option.some.inj h).symm
  · cases h

/-- A digest fills its column. -/
theorem char64_of_isDigest {s : Str} (h : isDigest s = true) : char64 s = some s := by
  obtain ⟨hlength, hdigits⟩ := isDigest_iff.mp h
  have hrev : s.reverse.dropWhile (· = 0x20) = s.reverse := by
    refine dropWhile_of_forall fun c hc => ?_
    have hc := hdigits c (List.mem_reverse.mp hc)
    simp only [isLowerHex, Bool.or_eq_true, Bool.and_eq_true, decide_eq_true_eq] at hc
    simp only [decide_eq_false_iff_not]
    omega
  have htrim : trimEnd s = s := by rw [trimEnd, hrev, List.reverse_reverse]
  have hstorable : storable s = true := by
    refine List.all_eq_true.mpr fun c hc => ?_
    have hc := hdigits c hc
    simp only [isLowerHex, Bool.or_eq_true, Bool.and_eq_true, decide_eq_true_eq] at hc
    simp only [ne_eq, Bool.and_eq_true, Bool.not_eq_true', Bool.and_eq_false_iff, decide_eq_true_eq,
      decide_eq_false_iff_not]
    omega
  simp [char64, htrim, hstorable, hlength]

/-! ## Identifiers -/

/-- The bytes of an identifier still to be read; a hyphen may follow every second byte. -/
def readBytes : ℕ → ℕ → Str → Option (ℕ × Str)
  | 0, n, s => some (n, s)
  | k + 1, n, a :: b :: s => do
    let x ← hexValue a
    let y ← hexValue b
    let s := match s with
      | 0x2D :: t => if k % 2 = 0 ∧ 0 < k then t else s
      | _ => s
    readBytes k (256 * n + 16 * x + y) s
  | _ + 1, _, _ => none

/-- A `UUID` parameter given as text, perhaps in braces. -/
def uuid (s : Str) : Option Uuid :=
  match s with
  | 0x7B :: s => do
    let (n, rest) ← readBytes 16 0 s
    if rest = [0x7D] then some (BitVec.ofNat 128 n) else none
  | s => do
    let (n, rest) ← readBytes 16 0 s
    if rest.isEmpty then some (BitVec.ofNat 128 n) else none

/-- One byte is read, and the hyphen behind it if one may stand there. -/
theorem readBytes_byte (k n v : ℕ) (rest : Str) (hrest : rest.head? ≠ some 0x2D) :
    readBytes (k + 1) n (hexDigits 2 v ++ rest) = readBytes k (256 * n + v % 256) rest ∧
      (k % 2 = 0 → 0 < k →
        readBytes (k + 1) n (hexDigits 2 v ++ 0x2D :: rest) = readBytes k (256 * n + v % 256) rest) := by
  have hhigh := hexValue_hexDigit (Nat.mod_lt (v / 16) (by decide : 0 < 16))
  have hlow := hexValue_hexDigit (Nat.mod_lt v (by decide : 0 < 16))
  have hsum : 256 * n + 16 * (v / 16 % 16) + v % 16 = 256 * n + v % 256 := by omega
  constructor
  · simp only [hexDigits, List.nil_append, List.cons_append, readBytes, hhigh, hlow, Option.bind_eq_bind,
      Option.bind_some, hsum]
    split
    · next t => exact absurd rfl hrest
    · rfl
  · intro heven hpos
    simp only [hexDigits, List.nil_append, List.cons_append, readBytes, hhigh, hlow, Option.bind_eq_bind,
      Option.bind_some, hsum, heven, hpos, and_self, if_true]

/-- A group of bytes is read, and the hyphen behind it if one may stand there. -/
theorem readBytes_group (j k n v : ℕ) (rest : Str) (hrest : rest.head? ≠ some 0x2D) :
    readBytes (k + (j + 1)) n (hexDigits (2 * (j + 1)) v ++ rest) =
        readBytes k (256 ^ (j + 1) * n + v % 256 ^ (j + 1)) rest ∧
      (k % 2 = 0 → 0 < k → readBytes (k + (j + 1)) n (hexDigits (2 * (j + 1)) v ++ 0x2D :: rest) =
        readBytes k (256 ^ (j + 1) * n + v % 256 ^ (j + 1)) rest) := by
  induction j generalizing k n v rest with
  | zero => simpa using readBytes_byte k n v rest hrest
  | succ j ih =>
    have hsplit : hexDigits (2 * (j + 1 + 1)) v = hexDigits (2 * (j + 1)) (v / 256) ++ hexDigits 2 v :=
      hexDigits_add (2 * (j + 1)) 2 v
    have hdigit : ∀ t, (hexDigits 2 v ++ t).head? ≠ some 0x2D := by
      intro t hhead
      have hlower := isLowerHex_hexDigit (Nat.mod_lt (v / 16) (by decide : 0 < 16))
      rw [Option.some.inj (hhead : some (hexDigit (v / 16 % 16)) = some 0x2D)] at hlower
      revert hlower
      decide
    have hvalue : 256 * (256 ^ (j + 1) * n + v / 256 % 256 ^ (j + 1)) + v % 256 =
        256 ^ (j + 1 + 1) * n + v % 256 ^ (j + 1 + 1) := by
      rw [pow_succ 256 (j + 1), Nat.mul_comm (256 ^ (j + 1)) 256, Nat.mod_mul]
      ring
    have hcount : k + (j + 1 + 1) = k + 1 + (j + 1) := by omega
    obtain ⟨hplain, hhyphen⟩ := readBytes_byte k (256 ^ (j + 1) * n + v / 256 % 256 ^ (j + 1)) v rest hrest
    rw [hvalue] at hplain hhyphen
    constructor
    · rw [hcount, hsplit, List.append_assoc, (ih _ n _ _ (hdigit _)).1, hplain]
    · intro heven hpos
      rw [hcount, hsplit, List.append_assoc, (ih _ n _ _ (hdigit _)).1, hhyphen heven hpos]

/-- The canonical text is read back. -/
theorem uuid_uuidText (u : Uuid) : uuid (uuidText u) = some u := by
  have hlt : u.toNat < 16 ^ 32 := u.isLt
  have hvalue : 256 ^ 6 * (256 ^ 2 * (256 ^ 2 * (256 ^ 2 * (u.toNat / 16 ^ 24 % 256 ^ 4) +
      u.toNat / 16 ^ 20 % 256 ^ 2) + u.toNat / 16 ^ 16 % 256 ^ 2) + u.toNat / 16 ^ 12 % 256 ^ 2) +
      u.toNat % 256 ^ 6 = u.toNat := by
    norm_num at hlt ⊢
    omega
  have hread : readBytes 16 0 (uuidText u) = some (u.toNat, []) := by
    rw [uuidText_eq, (readBytes_group 3 12 _ _ _ (head?_hexDigits 3 _ _).1).2 rfl (by decide),
      (readBytes_group 1 10 _ _ _ (head?_hexDigits 3 _ _).1).2 rfl (by decide),
      (readBytes_group 1 8 _ _ _ (head?_hexDigits 3 _ _).1).2 rfl (by decide)]
    have hlast := (readBytes_group 5 0 (256 ^ 2 * (256 ^ 2 * (256 ^ 2 * (u.toNat / 16 ^ 24 % 256 ^ 4) +
      u.toNat / 16 ^ 20 % 256 ^ 2) + u.toNat / 16 ^ 16 % 256 ^ 2) + u.toNat / 16 ^ 12 % 256 ^ 2) u.toNat [] nofun).1
    rw [List.append_nil, hvalue] at hlast
    have hhead := (head?_hexDigits 11 u.toNat []).1
    rw [List.append_nil] at hhead
    rw [(readBytes_group 1 6 _ _ _ hhead).2 rfl (by decide), Nat.mul_zero, Nat.zero_add]
    exact hlast
  unfold uuid
  split
  · next s hs =>
    have hhead := (head?_hexDigits 7 (u.toNat / 16 ^ 24) (0x2D :: (hexDigits 4 (u.toNat / 16 ^ 20) ++
      0x2D :: (hexDigits 4 (u.toNat / 16 ^ 16) ++ 0x2D :: (hexDigits 4 (u.toNat / 16 ^ 12) ++
        0x2D :: hexDigits 12 u.toNat))))).2
    rw [← uuidText_eq, hs] at hhead
    exact absurd rfl hhead
  · simp [hread]

/-! ## Numbers -/

/-- `INTEGER` numbers. -/
def isInteger (n : ℤ) : Bool := -2147483648 ≤ n && n ≤ 2147483647

/-- A `NUMERIC(4,3)` parameter: rounded to thousandths, away from zero on a tie. -/
def numeric43 (q : ℚ) : Option ℚ :=
  let thousandths := if q < 0 then -⌊-q * 1000 + 1 / 2⌋ else ⌊q * 1000 + 1 / 2⌋
  if |thousandths| < 10000 then some (thousandths / 1000) else none

/-- A nullable `NUMERIC(4,3)` parameter. -/
def numeric43? : Option ℚ → Option (Option ℚ)
  | none => some none
  | some q => (numeric43 q).map some

/-- Rounding leaves zero. -/
theorem numeric43_zero : numeric43 0 = some 0 := by
  have hfloor : ⌊(0 : ℚ) * 1000 + 1 / 2⌋ = 0 := by
    rw [Int.floor_eq_zero_iff]
    norm_num
  simp [numeric43]
  norm_num

/-- `value BETWEEN 0 AND 1`. -/
def inUnit (q : ℚ) : Bool := decide (0 ≤ q) && decide (q ≤ 1)

/-- Rounding stays in the unit interval. -/
theorem exists_numeric43 {q : ℚ} (hnonneg : 0 ≤ q) (hle : q ≤ 1) :
    ∃ q', numeric43 q = some q' ∧ inUnit q' = true := by
  have hlow : 0 ≤ ⌊q * 1000 + 1 / 2⌋ := Int.floor_nonneg.mpr (by positivity)
  have hhigh : ⌊q * 1000 + 1 / 2⌋ ≤ 1000 := by
    rw [← Int.lt_add_one_iff, Int.floor_lt]
    push_cast
    linarith
  have hbound : |⌊q * 1000 + 1 / 2⌋| < 10000 := abs_lt.mpr ⟨by omega, by omega⟩
  refine ⟨⌊q * 1000 + 1 / 2⌋ / 1000, ?_, ?_⟩
  · rw [numeric43, if_neg (not_lt.mpr hnonneg), if_pos hbound]
  · have hlow : (0 : ℚ) ≤ ⌊q * 1000 + 1 / 2⌋ := by exact_mod_cast hlow
    have hhigh : (⌊q * 1000 + 1 / 2⌋ : ℚ) ≤ 1000 := by exact_mod_cast hhigh
    rw [inUnit, Bool.and_eq_true, decide_eq_true_eq, decide_eq_true_eq]
    constructor
    · positivity
    · linarith

/-! ## Dates and documents -/

/-- The year, month and day of `YYYY-MM-DD`. -/
def isoDate (s : Str) : Option (ℕ × ℕ × ℕ) :=
  let year := s.take 4
  let month := (s.drop 5).take 2
  let day := (s.drop 8).take 2
  if s.length = 10 && (year ++ month ++ day).all isDigit && (s.drop 4).head? = some 0x2D &&
      (s.drop 7).head? = some 0x2D then
    some (digitsValue year, digitsValue month, digitsValue day)
  else none

/-- The days of a month of the Gregorian calendar. -/
def daysIn (year month : ℕ) : ℕ :=
  if month = 2 then
    if year % 4 = 0 ∧ (year % 100 ≠ 0 ∨ year % 400 = 0) then 29 else 28
  else if month ∈ [4, 6, 9, 11] then 30 else 31

/-- Whether there is such a day; there is no year zero. -/
def isDay (year month day : ℕ) : Bool :=
  0 < year && (1 ≤ month && month ≤ 12) && (1 ≤ day && day ≤ daysIn year month)

/-- What the server does beyond the types above: how it reads a `DATE`, which it gives back as
`YYYY-MM-DD`, how it stores a `JSONB`, and how it prints a number in one. A stored object is an
object, and its texts stay under their keys. -/
structure Server where
  date : Str → Option Str
  jsonb : Json → Option Json
  numericText : PyFloat → Str
  date_isoDate : ∀ s year month day, isoDate s = some (year, month, day) →
    date s = if isDay year month day then some s else none
  jsonb_texts : ∀ fields v, (fields.map Prod.fst).Nodup → jsonb (.obj fields) = some v →
    ∃ stored, v = .obj stored ∧ ∀ k s, get? fields k = some (.str s) → get? stored k = some (.str s)

/-- `octet_length(value::text)`. -/
def Server.octets (server : Server) (v : Json) : ℕ := ((utf8 (dumps server.numericText v)).getD []).length

end NeuroLab.Postgres
